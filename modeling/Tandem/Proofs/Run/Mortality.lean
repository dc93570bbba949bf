import Tandem.Proofs.Run.Ticks

/-!
# Runs on a grid are stopped by death

On a grid, nothing but the death of the own avatar clears the run flag of a device : an avatar stops
the run of its device when it lands on a trap (`GridAvatar.dead_of_stopsRun`), and the rival is
wired to no device. So a run that is interrupted, if nobody else has stopped it, is so because the
own avatar has died. A static command of the other device may bring the avatar back, but not the
run.

`Turn.Excused` says this of a turn, with an excuse for the deaths before it. What a device does
itself preserves it (`Turn.excused_update`), because a dead avatar is handed no commands of its own
device; a command of the other device does so if the excuse holds for all that was before
(`Turn.Excused.dispatch`).
-/

namespace Tandem

namespace GridAvatar

variable (a : GridAvatar) (name : String) (args : List String)

/-- A step onto a trap kills. -/
theorem dead_step_of_landsOnTrap {d : Direction} (h : a.landsOnTrap d = true) :
    (a.step d).dead = true := by
  rw [landsOnTrap, Bool.and_eq_true] at h
  rw [step, if_pos h.1]
  exact Bool.or_eq_true_iff.mpr (Or.inr h.2)

/-- An avatar that stops the run of its device is dead. -/
theorem dead_of_stopsRun (h : (a.perform name args).stopsRun = true) :
    (a.perform name args).avatar.dead = true := by
  unfold perform at h ⊢
  split at h
  · cases h
  · next action _ =>
    rw [Bool.and_eq_true, Option.any_eq_true] at h
    obtain ⟨-, d, hd, hlands⟩ := h
    dsimp only
    unfold act
    rw [hd]
    exact a.dead_step_of_landsOnTrap hlands

/-- An avatar that is wired to no device stops no run. -/
theorem stopsRun_of_not_wired (h : a.wired = false) : (a.perform name args).stopsRun = false := by
  unfold perform
  split
  · rfl
  · rw [h]
    rfl

/-- No action wires an avatar. -/
theorem wired_act (action : GridAction) : (a.act action).wired = a.wired := by
  unfold act
  cases a.moveOf? action with
  | some d =>
    dsimp only [step]
    split <;> rfl
  | none =>
    dsimp only
    split <;> first | rfl | (split <;> rfl)

theorem wired_perform : (a.perform name args).avatar.wired = a.wired := by
  unfold perform
  split
  · rfl
  · exact a.wired_act _

end GridAvatar

/-- The call is meant to stop the run. -/
def Call.stopsRun : Call → Bool
  | interrupt | clearFlag => true
  | _ => false

/-- Sees the interruption of a run. -/
def interruptionWatch : Watch Unit where
  see
    | .event .interrupted => some ()
    | _ => none
  see_logged _ := rfl

theorem alike_interruptionWatch : interruptionWatch.TakesCommandsAlike :=
  ⟨fun _ _ _ _ => rfl, fun _ _ => rfl, fun _ _ => rfl, fun _ _ => rfl⟩

namespace Turn

/-! ## The parts of an executor that death has to do with -/

section Keeps

variable {α : Type}

/-- From the first turn to the second, the avatars and the run flag have not changed. -/
structure KeepsAvatars (t t' : Turn α) : Prop where
  own : t'.exec.own = t.exec.own
  rival : t'.exec.rival = t.exec.rival
  mayRun : t'.exec.mayRun = t.exec.mayRun

/-- What keeps the avatars in two steps keeps them. -/
theorem KeepsAvatars.trans {t t' t'' : Turn α} (h : KeepsAvatars t t') (h' : KeepsAvatars t' t'') :
    KeepsAvatars t t'' :=
  ⟨h'.own.trans h.own, h'.rival.trans h.rival, h'.mayRun.trans h.mayRun⟩

theorem ShowsOnly.keepsAvatars {t t' : Turn α} (h : ShowsOnly t t') : KeepsAvatars t t' :=
  ⟨h.own, h.rival, h.mayRun⟩

/-- A tick at its gate keeps the avatars. -/
theorem keepsAvatars_passGate [Avatar α] (t : Turn α) (tick : Tick) :
    KeepsAvatars t (t.passGate tick).1 := by
  unfold passGate
  split
  · exact ⟨rfl, rfl, rfl⟩
  · dsimp only
    generalize t.exec.policy.beforeTick (t.tickClass tick) t.exec.age = answer
    obtain ⟨policy, gate, sending⟩ := answer
    cases sending <;> dsimp only <;> split
    all_goals first | exact ⟨rfl, rfl, rfl⟩ | (split <;> exact ⟨rfl, rfl, rfl⟩)

theorem keepsAvatars_passOver (t : Turn α) (kind : TickClass) :
    KeepsAvatars t (t.passOver kind) := by
  unfold passOver
  dsimp only
  cases (t.exec.policy.afterTick kind).2 <;> exact ⟨rfl, rfl, rfl⟩

theorem keepsAvatars_passTime (t : Turn α) (dt : Float32) : KeepsAvatars t (t.passTime dt).1 := by
  obtain ⟨policy, phase, pending, late, h, -⟩ := t.passTime_eq dt
  rw [h]
  cases late <;> exact ⟨rfl, rfl, rfl⟩

/-- A tick is shown and recorded before its command is carried out. -/
theorem carryOut_eq [Avatar α] (t : Turn α) (tick : Tick) (kind : TickClass) : ∃ t' : Turn α,
    t.carryOut tick kind = (if tick.wait then t' else (t'.dispatch tick.name tick.args false).1) ∧
      KeepsAvatars t t' ∧ t'.exec.core = t.exec.core ∧
      ∀ {β : Type} (w : Watch β), t'.seen w = t.seen w ++
        ((w.see (.tick tick kind t.exec.age)).toList ++
          w.ofEvent (.tick tick.top tick.name tick.wait)) := by
  have hshow := t.showsOnly_showActive tick.path
  have hage : (t.showActive tick.path).exec.age = t.exec.age := congrArg Core.age hshow.core
  refine ⟨_, rfl, hshow.keepsAvatars.trans ⟨rfl, rfl, rfl⟩, hshow.core, fun w => ?_⟩
  rw [seen_record, seen_noteTick, hshow.seen, hage, List.append_assoc]

end Keeps

variable {P : Prop} {t t' : Turn GridAvatar}

/-! ## The invariant -/

/-- If the run may not go on, or was interrupted, then there is that excuse, or the own avatar is
dead. -/
structure Excused (P : Prop) (t : Turn GridAvatar) : Prop where
  rival : t.exec.rival.wired = false
  flag : t.exec.isRunning = true → t.exec.mayRun = false → P ∨ t.exec.own.dead = true
  interrupted : t.seen interruptionWatch ≠ [] → P ∨ t.exec.own.dead = true

namespace Excused

/-- What keeps the avatars and interrupts nothing leaves the turn excused. -/
theorem of_same (h : t.Excused P) (hk : KeepsAvatars t t')
    (hr : t'.exec.isRunning = true → t.exec.isRunning = true)
    (hseen : t'.seen interruptionWatch = t.seen interruptionWatch) : t'.Excused P := by
  refine ⟨hk.rival ▸ h.rival, fun hrun hmay => ?_, fun hi => ?_⟩
  · rw [hk.own]
    exact h.flag (hr hrun) (hk.mayRun ▸ hmay)
  · rw [hk.own]
    exact h.interrupted (hseen ▸ hi)

/-- The run ends, because its script is completed or because the run may not go on. -/
theorem finish (h : t.Excused P) {outcome : Phase}
    (ho : outcome = .completed ∨ outcome = .interrupted ∧ (P ∨ t.exec.own.dead = true)) :
    (t.finish outcome).Excused P := by
  obtain ⟨hown, hrival⟩ := t.crew_finish outcome
  have hend : (t.finish outcome).exec.isRunning = (t.exec.core.ended outcome).isRunning :=
    congrArg Core.isRunning (t.core_finish outcome)
  refine ⟨hrival ▸ h.rival, fun hr => ?_, fun hi => ?_⟩
  · rw [hend] at hr
    unfold Core.ended at hr
    dsimp only at hr
    split at hr
    · cases hr
    · obtain rfl | ⟨rfl, -⟩ := ho <;> cases hr
  · rw [hown]
    obtain rfl | ⟨rfl, hdead⟩ := ho
    · refine h.interrupted fun hnone => hi ?_
      rw [seen_finish, hnone]
      cases t.exec.policy.peerFinished <;> rfl
    · exact hdead

end Excused

/-! ## Commands -/

/-- Either the own avatar is not handed the command, or it clears the run flag if it dies of it. -/
theorem perform_cases (hw : t.exec.rival.wired = false) (name : String) (args : List String)
    (remote : Bool) : (t.perform name args remote).1.exec.rival.wired = false ∧
      ((t.perform name args remote).1.exec.mayRun = t.exec.mayRun ∨
        (t.perform name args remote).1.exec.own.dead = true) := by
  have hrival : ∀ u : Turn GridAvatar, u.exec.rival.wired = false →
      (u.performRival name args).1.exec.rival.wired = false ∧
        (u.performRival name args).1.exec.mayRun = u.exec.mayRun := by
    intro u hu
    have hstop : (Avatar.perform u.exec.rival name args).stopsRun = false :=
      u.exec.rival.stopsRun_of_not_wired name args hu
    refine ⟨(u.exec.rival.wired_perform name args).trans hu, ?_⟩
    show (u.exec.mayRun && !(Avatar.perform u.exec.rival name args).stopsRun) = u.exec.mayRun
    rw [hstop, Bool.not_false, Bool.and_true]
  have hown : (t.performOwn name args).1.exec.mayRun = t.exec.mayRun ∨
      (t.performOwn name args).1.exec.own.dead = true := by
    cases hstop : (Avatar.perform t.exec.own name args).stopsRun with
    | true => exact Or.inr (t.exec.own.dead_of_stopsRun name args hstop)
    | false =>
      left
      show (t.exec.mayRun && !(Avatar.perform t.exec.own name args).stopsRun) = t.exec.mayRun
      rw [hstop, Bool.not_false, Bool.and_true]
  unfold perform
  split
  · obtain ⟨hwired, hmay⟩ := hrival (t.performOwn name args).1 hw
    exact ⟨hwired, hown.imp hmay.trans id⟩
  · split
    · obtain ⟨hwired, hmay⟩ := hrival t hw
      exact ⟨hwired, Or.inl hmay⟩
    · exact ⟨hw, hown⟩

/-- A command leaves a turn excused. One of the other device may bring back the own avatar, so all
that was before has to be excused. -/
theorem Excused.dispatch (h : t.Excused P) (name : String) (args : List String) {remote : Bool}
    (hflag : remote = true → t.exec.isRunning = true → t.exec.mayRun = false → P)
    (hi : remote = true → t.seen interruptionWatch ≠ [] → P) :
    (t.dispatch name args remote).1.Excused P := by
  have hseen : (t.dispatch name args remote).1.seen interruptionWatch = t.seen interruptionWatch :=
    (t.seen_dispatch _ name args remote alike_interruptionWatch).trans (List.append_nil _)
  have hrun : (t.dispatch name args remote).1.exec.isRunning = t.exec.isRunning :=
    congrArg Core.isRunning (t.core_dispatch name args remote)
  cases hdead : t.targetDead remote with
  | true =>
    refine h.of_same ?_ (fun hr => hrun ▸ hr) hseen
    rw [Turn.dispatch, if_pos hdead]
    exact ⟨rfl, rfl, rfl⟩
  | false =>
    -- A command of this device goes to an avatar that is alive.
    have hexcuse : ∀ {q : Prop},
        q → (remote = true → q → P) → (q → P ∨ t.exec.own.dead = true) → P := by
      intro q hq hremote hown
      cases remote with
      | true => exact hremote rfl hq
      | false => exact (hown hq).resolve_right (Bool.eq_false_iff.mp hdead)
    obtain ⟨hwired, hperform⟩ := perform_cases h.rival name args remote
    have hexec : KeepsAvatars (t.perform name args remote).1 (t.dispatch name args remote).1 := by
      rw [Turn.dispatch, if_neg (Bool.eq_false_iff.mp hdead)]
      cases remote <;> exact ⟨rfl, rfl, rfl⟩
    refine ⟨hexec.rival ▸ hwired, fun hr hmay => ?_, fun hint => ?_⟩
    · rw [hexec.own]
      rw [hexec.mayRun] at hmay
      rw [hrun] at hr
      refine hperform.imp (fun heq => ?_) id
      exact hexcuse (heq.symm.trans hmay) (fun hremote => hflag hremote hr) (h.flag hr)
    · exact Or.inl (hexcuse (hseen ▸ hint) hi h.interrupted)

/-! ## Runs -/

/-- A tick that is carried out clears the run flag only by a death. -/
theorem Excused.carryOut (h : t.Excused P) (tick : Tick) (kind : TickClass) :
    (t.carryOut tick kind).Excused P := by
  obtain ⟨t', hcarry, hkeeps, hcore, hseen⟩ := t.carryOut_eq tick kind
  have hshown : t'.Excused P := by
    refine h.of_same hkeeps (fun hr => (congrArg Core.isRunning hcore).symm.trans hr) ?_
    exact (hseen _).trans (List.append_nil _)
  rw [hcarry]
  split
  · exact hshown
  · exact hshown.dispatch tick.name tick.args nofun nofun

theorem Excused.makeTick (h : t.Excused P) (tick : Tick) : (t.makeTick tick).Excused P := by
  have hnothing : (t.mapExec fun e => { e with pending := .nothing }).Excused P :=
    h.of_same ⟨rfl, rfl, rfl⟩ (fun hr => hr) rfl
  have hcarried := hnothing.carryOut tick (t.tickClass tick)
  unfold Turn.makeTick
  dsimp only
  refine hcarried.of_same ((keepsAvatars_passOver _ _).trans ⟨rfl, rfl, rfl⟩) (fun hr => ?_) ?_
  · exact (congrArg Core.isRunning (core_passOver _ _)).symm.trans hr
  · rw [seen_emit, seen_passOver]
    have hrelease : ∀ sending, interruptionWatch.ofRelease sending = [] := by
      intro sending
      cases sending <;> rfl
    rw [hrelease]
    exact (List.append_nil _).trans (List.append_nil _)

/-- A tick at its gate clears no flag. -/
theorem Excused.passGate (h : t.Excused P) (hr : t.exec.isRunning = true) (tick : Tick) :
    (t.passGate tick).1.Excused P := by
  refine h.of_same (t.keepsAvatars_passGate tick) (fun _ => hr) ?_
  obtain ⟨hg, -⟩ | ⟨_, hg, -, -⟩ | ⟨_, hg, -, -, -, hseen⟩ := t.passGate_cases tick
  · rw [hg]
  · rw [hg]
    rfl
  · rw [hg, hseen]
    cases t.exec.policy.owesRelease <;> exact List.append_nil _

theorem Excused.passTime (h : t.Excused P) (hr : t.exec.isRunning = true) (dt : Float32) :
    (t.passTime dt).1.Excused P ∧ (t.passTime dt).1.exec.isRunning = true := by
  have hseen : (t.passTime dt).1.seen interruptionWatch = t.seen interruptionWatch :=
    t.seen_passTime dt _ fun _ => rfl
  exact ⟨h.of_same (t.keepsAvatars_passTime dt) (fun _ => hr) hseen, isRunning_passTime dt hr⟩

/-- An advance interrupts a run only with an excuse or a death. -/
theorem excused_advanceBy : ∀ (n : Nat) {t : Turn GridAvatar}, t.Excused P →
    t.exec.isRunning = true → (advanceBy n t).Excused P
  | 0, _, h, _ => h
  | n + 1, t, h, hr => by
    unfold advanceBy
    split
    · next hmay => exact h.finish (Or.inr ⟨rfl, h.flag hr (by simpa using hmay)⟩)
    · split
      · exact h.finish (Or.inl rfl)
      · next c tick _ =>
        have hmove : (t.moveTo c).Excused P := h.of_same ⟨rfl, rfl, rfl⟩ (fun hr => hr) rfl
        have hgate := hmove.passGate hr tick
        obtain ⟨hg, -⟩ | ⟨_, hg, -, -⟩ | ⟨_, hg, -, -, -, -⟩ := (t.moveTo c).passGate_cases tick
        · rw [hg]
          refine excused_advanceBy n (hmove.makeTick tick) ?_
          exact (congrArg Core.isRunning ((t.moveTo c).core_makeTick tick)).trans hr
        · rw [hg] at hgate ⊢
          exact hgate
        · rw [hg] at hgate ⊢
          exact hgate

/-- A run begins with its flag set. -/
theorem excused_begin (h : t.Excused P) : t.begin.Excused P := by
  obtain ⟨hown, hrival⟩ := t.crew_begin
  refine ⟨hrival ▸ h.rival, fun _ hmay => (nomatch hmay), fun hi => ?_⟩
  rw [hown]
  refine h.interrupted fun hnone => hi ?_
  rw [seen_begin, hnone]
  cases t.exec.cleanupDue <;> rfl

theorem excused_run (h : t.Excused P) (hr : t.exec.isRunning = false) : t.run.1.Excused P := by
  rw [run, hr]
  exact excused_advanceBy _ (excused_begin h) (congrArg Core.isRunning t.core_begin)

theorem excused_update (h : t.Excused P) (dt : Float32) : (t.update dt).Excused P := by
  unfold update
  split
  · exact h
  · next hr =>
    have hr : t.exec.isRunning = true := by simpa using hr
    have hnext : t.nextUpdate.Excused P := h.of_same ⟨rfl, rfl, rfl⟩ (fun hr => hr) rfl
    dsimp only
    split
    · next hmay => exact hnext.finish (Or.inr ⟨rfl, hnext.flag hr (by simpa using hmay)⟩)
    · have hage : (t.nextUpdate.mapExec fun e => { e with age := e.age.map (· + dt) }).Excused P :=
        hnext.of_same ⟨rfl, rfl, rfl⟩ (fun hr => hr) rfl
      have htime := hage.passTime hr dt
      split
      · next hpass =>
        rw [hpass] at htime
        exact excused_advanceBy _ htime.1 htime.2
      · next hpass =>
        rw [hpass] at htime
        exact htime.1

/-! ## What comes from the other device -/

theorem Excused.afterRelease (h : t.Excused P) : t.afterRelease.Excused P :=
  h.of_same ⟨rfl, rfl, rfl⟩ (fun hr => hr) ((t.seen_afterRelease _).trans (List.append_nil _))

theorem Excused.afterPeerEnd (h : t.Excused P) : t.afterPeerEnd.Excused P := by
  have hkeep : KeepsAvatars t t.afterPeerEnd := by
    unfold Turn.afterPeerEnd
    dsimp only
    split
    · have hhide := showsOnly_hideActive
        ((t.record .peerFinished).setPolicy (t.record .peerFinished).exec.policy.afterPeerEnd)
      exact ⟨hhide.own, hhide.rival, hhide.mayRun⟩
    · exact ⟨rfl, rfl, rfl⟩
  refine h.of_same hkeep (fun hr => ?_) ?_
  · have hside : t.afterPeerEnd.side.isRunning = true := hr
    rw [side_afterPeerEnd] at hside
    exact (Side.running_of_peerEnded hside).1
  · rw [seen_afterPeerEnd]
    cases t.side.due <;> exact List.append_nil _

/-- Whatever a device does on a call that is not meant to stop its run leaves it excused, if there
is an excuse for all that was before. -/
theorem Excused.serve (h : t.Excused P)
    (hflag : t.exec.isRunning = true → t.exec.mayRun = false → P)
    (hi : t.seen interruptionWatch ≠ [] → P) {call : Call} (hc : call.stopsRun = false) :
    (t.serve call).Excused P := by
  cases call with
  | update dt => exact excused_update h dt
  | release => exact h.afterRelease
  | peerEnd => exact h.afterPeerEnd
  | command name args => exact h.dispatch name args (fun _ => hflag) fun _ => hi
  | interrupt | clearFlag => cases hc

end Turn

end Tandem
