import Tandem.Proofs.Run.Course

/-!
# Where operations leave an executor

Between operations, an executor is settled (`Executor.Settled`). Either it rests : there is no run,
and nothing is left of one but what waits for the other device to finish. Or its run has come to a
halt in front of a tick, which waits for the other device or for some time.

An advance of a run gets as far as that (`Turn.runsTo_advance`). It is cut off after as many ticks
as the script takes, but no walk is as long as that, so the cut is never felt. What it does until
then is work (`Turn.Works`) : no run is started or ended in it.
-/

namespace Tandem

/-! ## Rest and halt -/

namespace Core

/-- The run in progress is known to the policy, and is not over. -/
structure UnderWay (c : Core) : Prop where
  running : c.policy.running = true
  due : c.cleanupDue = false

/-- The run has come to a halt in front of a tick, for the other device or for some time. -/
def Halted (c : Core) : Prop :=
  c.phase = .waitingForPeer ∧ c.pending = .peer ∨
    c.phase = .running ∧ ∃ remaining, c.pending = .pacing remaining ∧ timeSlack < remaining

/-- There is no run, and nothing is left of one but what waits for the other device to finish. -/
structure Rests (c : Core) : Prop where
  isRunning : c.isRunning = false
  running : c.policy.running = false
  pending : c.pending = .nothing
  due : c.cleanupDue = true ↔ c.phase = .completed ∨ c.phase = .interrupted
  unheard : c.cleanupDue = true → c.policy.peerFinished = false

variable {c : Core}

theorem Halted.isRunning (h : c.Halted) : c.isRunning = true := by
  obtain ⟨h, -⟩ | ⟨h, -⟩ := h <;> rw [Core.isRunning, h] <;> rfl

/-- A core that is cleaned rests. -/
theorem rests_cleaned (c : Core) : c.cleaned.Rests :=
  ⟨rfl, rfl, rfl, by simp [cleaned], nofun⟩

theorem rests_ended (c : Core) {outcome : Phase}
    (h : outcome = .completed ∨ outcome = .interrupted) : (c.ended outcome).Rests := by
  unfold ended
  dsimp only
  split
  · exact rests_cleaned _
  · next hp =>
    have hp : c.policy.stop.peerFinished = false := Bool.eq_false_iff.mpr hp
    obtain rfl | rfl := h
    · exact ⟨rfl, rfl, rfl, by simp, fun _ => hp⟩
    · exact ⟨rfl, rfl, rfl, by simp, fun _ => hp⟩

/-- A run that begins is under way. -/
theorem underWay_begun (c : Core) : c.begun.UnderWay :=
  ⟨rfl, rfl⟩

theorem UnderWay.ticked (h : c.UnderWay) (kind : TickClass) : (c.ticked kind).UnderWay := by
  refine ⟨?_, h.due⟩
  rw [Core.ticked, SyncPolicy.afterTick_eq]
  exact h.running

theorem UnderWay.heldBack (h : c.UnderWay) : c.heldBack.UnderWay := by
  refine ⟨?_, h.due⟩
  unfold Core.heldBack SyncPolicy.handedOver
  dsimp only
  split <;> exact h.running

end Core

namespace Executor

variable {α : Type}

/-- Nothing is shown as running, and no run may go on. -/
structure Still (e : Executor α) : Prop where
  mayRun : e.mayRun = false
  shownTop : e.shownTop = none
  shownChild : e.shownChild = none

/-- The executor is in no run, or its run has come to a halt. -/
inductive Settled (e : Executor α) : Prop
  | rests : e.core.Rests → e.Still → Settled e
  | halts : e.core.UnderWay → e.core.Halted → Settled e

/-- A new executor is settled. -/
theorem settled_new (role : Role) (mode : SyncMode) (timings : Timings) (wait : String)
    (own rival : α) : (new role mode timings wait own rival).Settled :=
  .rests ⟨rfl, rfl, rfl, by simp [core, new], nofun⟩ ⟨rfl, rfl, rfl⟩

/-- A settled executor without a run rests, and is still. -/
theorem Settled.rests_of_not_running {e : Executor α} (h : e.Settled)
    (hr : e.isRunning = false) : e.core.Rests ∧ e.Still := by
  cases h with
  | rests hc hs => exact ⟨hc, hs⟩
  | halts _ hc => cases hc.isRunning.symm.trans hr

/-- A settled executor with a run has come to a halt in it. -/
theorem Settled.halts_of_running {e : Executor α} (h : e.Settled)
    (hr : e.isRunning = true) : e.core.UnderWay ∧ e.core.Halted := by
  cases h with
  | rests hc _ => cases hc.isRunning.symm.trans hr
  | halts hu hc => exact ⟨hu, hc⟩

end Executor

/-! ## Work -/

/-- The deed neither starts nor ends a run, and does not show whether there is one. -/
def Deed.isWork : Deed → Bool
  | .event (.runStarted ..) | .event .completed | .event .interrupted => false
  | .effect (.sent .finish) | .effect (.runShown _) => false
  | _ => true

namespace Turn

variable {α : Type}

/-- From the first turn to the second, nothing but work is done. -/
def Works (t t' : Turn α) : Prop :=
  ∃ ds : List Deed, t'.deeds.toList = t.deeds.toList ++ ds ∧ ∀ d ∈ ds, d.isWork = true

namespace Works

theorem of_deeds {t t' : Turn α} (h : t'.deeds = t.deeds) : Works t t' :=
  ⟨[], by rw [h, List.append_nil], nofun⟩

theorem refl (t : Turn α) : Works t t := of_deeds rfl

/-- Work after work is work. -/
theorem trans {t t' t'' : Turn α} (h : Works t t') (h' : Works t' t'') : Works t t'' := by
  obtain ⟨ds, hds, hw⟩ := h
  obtain ⟨ds', hds', hw'⟩ := h'
  refine ⟨ds ++ ds', by rw [hds', hds, List.append_assoc], fun d hd => ?_⟩
  exact (List.mem_append.mp hd).elim (hw d) (hw' d)

end Works

theorem toList_foldl_logged : ∀ (lines : List LogLine) (ds : Array Deed),
    (lines.foldl (fun ds line => ds.push (.effect (.logged line))) ds).toList =
      ds.toList ++ lines.map fun line => .effect (.logged line)
  | [], ds => (List.append_nil _).symm
  | line :: lines, ds => by
    rw [List.foldl_cons, toList_foldl_logged lines, Array.toList_push, List.append_assoc]
    rfl

theorem works_emit (t : Turn α) {e : Effect} (h : (Deed.effect e).isWork = true) :
    Works t (t.emit e) :=
  ⟨[.effect e], Array.toList_push, List.forall_mem_singleton.mpr h⟩

theorem works_record (t : Turn α) {e : RunEvent} (h : (Deed.event e).isWork = true) :
    Works t (t.record e) := by
  refine ⟨.event e :: (t.exec.log.record e).2.map fun line => .effect (.logged line), ?_, ?_⟩
  · rw [record]
    dsimp only
    rw [toList_foldl_logged, Array.toList_push, List.append_assoc]
    rfl
  · intro d hd
    obtain rfl | hd := List.mem_cons.mp hd
    · exact h
    · obtain ⟨line, -, rfl⟩ := List.mem_map.mp hd
      rfl

theorem works_noteTick (t : Turn α) (tick : Tick) (kind : TickClass) :
    Works t (t.noteTick tick kind) :=
  ⟨[.tick tick kind t.exec.age], Array.toList_push, List.forall_mem_singleton.mpr rfl⟩

theorem works_sendUnlockIf (t : Turn α) (sending : Bool) : Works t (t.sendUnlockIf sending) := by
  cases sending
  · exact .refl t
  · exact (t.works_emit rfl).trans (works_record _ rfl)

theorem works_passOver (t : Turn α) (kind : TickClass) : Works t (t.passOver kind) :=
  (t.setPolicy _).works_sendUnlockIf _

variable [Avatar α]

theorem works_perform (t : Turn α) (name : String) (args : List String) (remote : Bool) :
    Works t (t.perform name args remote).1 := by
  have own : ∀ t : Turn α, Works t (t.performOwn name args).1 := fun t => works_emit _ rfl
  have rival : ∀ t : Turn α, Works t (t.performRival name args).1 := fun t => works_emit _ rfl
  unfold perform
  split
  · exact (own t).trans (rival _)
  · split
    · exact rival t
    · exact own t

/-- A command that is dispatched is work. -/
theorem works_dispatch (t : Turn α) (name : String) (args : List String) (remote : Bool) :
    Works t (t.dispatch name args remote).1 := by
  have hp := t.works_perform name args remote
  unfold dispatch
  split
  · exact t.works_record rfl
  · dsimp only
    have hr := hp.trans (works_record _ (e := if (t.perform name args remote).2 then
      .dispatched (commandText name args) remote else .unrecognized (commandText name args) remote)
      (by split <;> rfl))
    split
    · exact hr
    · exact hr.trans (works_emit _ rfl)

theorem works_carryOut (t : Turn α) (tick : Tick) (kind : TickClass) :
    Works t (t.carryOut tick kind) := by
  have h : Works t (((t.showActive tick.path).noteTick tick kind).record
      (.tick tick.top tick.name tick.wait)) :=
    ((Works.of_deeds (t.showsOnly_showActive _).deeds).trans (works_noteTick _ _ _)).trans
      (works_record _ rfl)
  unfold carryOut
  dsimp only
  split
  · exact h
  · exact h.trans (works_dispatch _ _ _ _)

theorem works_makeTick (t : Turn α) (tick : Tick) : Works t (t.makeTick tick) := by
  have h : Works t (t.mapExec fun e => { e with pending := .nothing }) := .of_deeds rfl
  unfold makeTick
  exact ((h.trans (works_carryOut _ _ _)).trans (works_passOver _ _)).trans (works_emit _ rfl)

theorem works_passGate (t : Turn α) (tick : Tick) : Works t (t.passGate tick).1 := by
  have h := works_sendUnlockIf
    (t.setPolicy (t.exec.policy.beforeTick (t.tickClass tick) t.exec.age).1)
    (t.exec.policy.beforeTick (t.tickClass tick) t.exec.age).2.2
  unfold passGate
  split
  · exact .refl t
  · dsimp only
    split
    · exact h.trans (works_record _ rfl)
    · split <;> exact h

/-! ## Nothing is left running -/

omit [Avatar α] in
theorem shown_hideActive (t : Turn α) :
    t.hideActive.exec.shownTop = none ∧ t.hideActive.exec.shownChild = none := by
  have h : ∀ (t : Turn α) (path : Option Path) (value : Bool),
      (t.showRunning path value).exec = t.exec := by
    intro t path value
    cases path <;> rfl
  refine ⟨rfl, ?_⟩
  show (showRunning _ _ _).exec.shownChild = none
  rw [h]
  rfl

omit [Avatar α] in
/-- A cleanup leaves the executor still, if its flag is cleared. -/
theorem still_cleanup {t : Turn α} (h : t.exec.mayRun = false) : t.cleanup.exec.Still :=
  ⟨t.showsOnly_hideActive.mayRun.trans h, t.shown_hideActive.1, t.shown_hideActive.2⟩

omit [Avatar α] in
/-- The end of a run leaves it still. -/
theorem still_finish (t : Turn α) (outcome : Phase) : (t.finish outcome).exec.Still := by
  unfold finish
  dsimp only
  split
  · exact still_cleanup rfl
  · exact ⟨rfl, t.shown_hideActive.1, t.shown_hideActive.2⟩

theorem still_perform {t : Turn α} (h : t.exec.Still) (name : String) (args : List String)
    (remote : Bool) : (t.perform name args remote).1.exec.Still := by
  have own : ∀ {t : Turn α}, t.exec.Still → (t.performOwn name args).1.exec.Still :=
    fun {t} h => ⟨by simp [performOwn, emit, mapExec, h.mayRun], h.shownTop, h.shownChild⟩
  have rival : ∀ {t : Turn α}, t.exec.Still → (t.performRival name args).1.exec.Still :=
    fun {t} h => ⟨by simp [performRival, emit, mapExec, h.mayRun], h.shownTop, h.shownChild⟩
  unfold perform
  split
  · exact rival (own h)
  · split
    · exact rival h
    · exact own h

theorem still_dispatch {t : Turn α} (h : t.exec.Still) (name : String) (args : List String)
    (remote : Bool) : (t.dispatch name args remote).1.exec.Still := by
  have hp := still_perform h name args remote
  unfold dispatch
  split
  · exact ⟨h.mayRun, h.shownTop, h.shownChild⟩
  · cases remote <;> exact ⟨hp.mayRun, hp.shownTop, hp.shownChild⟩

omit [Avatar α] in
/-- A cleanup leaves the executor settled. -/
theorem settled_cleanup {t : Turn α} (h : t.exec.mayRun = false) : t.cleanup.exec.Settled :=
  .rests (t.core_cleanup ▸ Core.rests_cleaned _) (still_cleanup h)

omit [Avatar α] in
theorem settled_finish (t : Turn α) {outcome : Phase}
    (h : outcome = .completed ∨ outcome = .interrupted) : (t.finish outcome).exec.Settled :=
  .rests (t.core_finish outcome ▸ Core.rests_ended _ h) (t.still_finish outcome)

/-! ## An advance goes on until the run halts or ends -/

/-- From the first turn a run goes on to the second one, in which it has come to a halt or has
ended. -/
inductive RunsTo (t : Turn α) : Turn α → Prop
  | halts {t' : Turn α} :
    Works t t' → t'.exec.core.UnderWay → t'.exec.core.Halted → RunsTo t t'
  | ends {t' : Turn α} {outcome : Phase} :
    Works t t' → outcome = .completed ∨ outcome = .interrupted → RunsTo t (t'.finish outcome)

omit [Avatar α] in
/-- A run that goes on after some work goes on. -/
theorem RunsTo.after {t t' t'' : Turn α} (h : Works t t') (h' : RunsTo t' t'') :
    RunsTo t t'' := by
  cases h' with
  | halts hw hu hh => exact .halts (h.trans hw) hu hh
  | ends hw ho => exact .ends (h.trans hw) ho

omit [Avatar α] in
/-- Where a run comes to a halt or an end, the executor is settled. -/
theorem RunsTo.settled {t t' : Turn α} (h : RunsTo t t') : t'.exec.Settled := by
  cases h with
  | halts _ hu hh => exact .halts hu hh
  | ends _ ho => exact settled_finish _ ho

/-- A run is in progress, with fewer ticks ahead of it than that. -/
structure Poised (n : Nat) (t : Turn α) : Prop where
  phase : t.exec.phase = .running
  underWay : t.exec.core.UnderWay
  left : t.side.left.length < n

/-- A tick that is made leaves one less ahead. -/
theorem Poised.makeTick {n : Nat} {t : Turn α} {c : Cursor} {tick : Tick} (h : t.Poised (n + 1))
    (hnext : t.exec.cursor.next? t.exec.waitRule t.script = some (c, tick)) :
    ((t.moveTo c).makeTick tick).Poised n := by
  have hcore := (t.moveTo c).core_makeTick tick
  have hu : (t.moveTo c).exec.core.UnderWay := ⟨h.underWay.running, h.underWay.due⟩
  refine ⟨(congrArg Core.phase hcore).trans h.phase, hcore ▸ hu.ticked _, ?_⟩
  obtain ⟨-, rest, hrest⟩ := side_moveTo hnext
  have hn := h.left
  rw [hrest, List.length_cons] at hn
  rw [side_makeTick hnext, Side.after, hrest]
  exact Nat.lt_of_succ_lt_succ hn

omit [Avatar α] in
/-- An advance starts with more ticks allowed than there are ahead. -/
theorem poised_of_running {t : Turn α} (hp : t.exec.phase = .running) (hu : t.exec.core.UnderWay) :
    t.Poised (t.script.ticks t.exec.waitRule + 1) :=
  ⟨hp, hu, Nat.lt_succ_of_le (t.exec.cursor.length_remaining_le t.exec.waitRule t.script)⟩

/-- With more ticks than there are ahead, an advance is not cut off. -/
theorem runsTo_advanceBy : ∀ (n : Nat) (t : Turn α), t.Poised n → RunsTo t (advanceBy n t)
  | 0, _, h => absurd h.left (Nat.not_lt_zero _)
  | n + 1, t, h => by
    have hp := h.phase
    have hu : t.exec.core.UnderWay := h.underWay
    unfold advanceBy
    split
    · exact .ends (.refl t) (Or.inr rfl)
    · cases hnext : t.exec.cursor.next? t.exec.waitRule t.script with
      | none => exact .ends (.refl t) (Or.inl rfl)
      | some found =>
        obtain ⟨c, tick⟩ := found
        have hmove : Works t (t.moveTo c) := .of_deeds rfl
        have hwork : Works t ((t.moveTo c).passGate tick).1 := hmove.trans (works_passGate _ tick)
        obtain ⟨hg, -⟩ | ⟨delay, hg, hd, -⟩ | ⟨t', hg, -, hcore, -, -⟩ :=
          (t.moveTo c).passGate_cases tick
        -- The tick is made, which leaves one less ahead than the advance may still make.
        · dsimp only
          rw [hg]
          exact .after (hmove.trans (works_makeTick _ tick))
            (runsTo_advanceBy n _ (h.makeTick hnext))
        -- The tick comes too early, or has to wait for the other device.
        · dsimp only
          rw [hg] at hwork ⊢
          exact .halts hwork ⟨hu.running, hu.due⟩ (Or.inr ⟨hp, delay, rfl, hd⟩)
        · dsimp only
          rw [hg] at hwork ⊢
          exact .halts hwork
            (hcore ▸ Core.UnderWay.heldBack (c := (t.moveTo c).exec.core) ⟨hu.running, hu.due⟩)
            (Or.inl ⟨congrArg Core.phase hcore, congrArg Core.pending hcore⟩)

/-- An advance goes on until the run halts or ends. -/
theorem runsTo_advance {t : Turn α} (hp : t.exec.phase = .running)
    (hu : t.exec.core.UnderWay) : RunsTo t t.advance :=
  runsTo_advanceBy _ t (poised_of_running hp hu)

omit [Avatar α] in
/-- Once time has passed for it, a run that has halted goes on, or waits in front of the same tick
again. -/
theorem passTime_cases {t : Turn α} (hu : t.exec.core.UnderWay) (hh : t.exec.core.Halted)
    (dt : Float32) : Works t (t.passTime dt).1 ∧ (t.passTime dt).1.exec.core.UnderWay ∧
      if (t.passTime dt).2 then (t.passTime dt).1.exec.phase = .running
      else (t.passTime dt).1.exec.core.Halted := by
  obtain ⟨hp, hn⟩ | ⟨hp, remaining, hn, -⟩ := hh
  · have hn : t.exec.pending = .peer := hn
    unfold passTime
    rw [hn]
    dsimp only
    obtain ⟨-, hw⟩ | ⟨-, held, hw⟩ | ⟨-, held, hw⟩ := t.exec.policy.waitFor_cases dt
    · rw [hw]
      exact ⟨.of_deeds rfl, ⟨hu.running, hu.due⟩, rfl⟩
    · rw [hw]
      exact ⟨works_record (t.setPolicy _) rfl, ⟨hu.running, hu.due⟩, rfl⟩
    · rw [hw]
      exact ⟨.of_deeds rfl, ⟨hu.running, hu.due⟩, Or.inl ⟨hp, hn⟩⟩
  · have hn : t.exec.pending = .pacing remaining := hn
    unfold passTime
    rw [hn]
    dsimp only
    by_cases hd : timeSlack < remaining - dt
    · simp only [if_pos hd]
      exact ⟨.of_deeds rfl, ⟨hu.running, hu.due⟩, Or.inr ⟨hp, _, rfl, hd⟩⟩
    · simp only [if_neg hd]
      exact ⟨.of_deeds rfl, ⟨hu.running, hu.due⟩, hp⟩

/-- After any stretch of time, a run that had halted has come to a halt again or has ended. -/
theorem runsTo_update {t : Turn α} (hu : t.exec.core.UnderWay) (hh : t.exec.core.Halted)
    (dt : Float32) : RunsTo t (t.update dt) := by
  have hr : t.exec.isRunning = true := hh.isRunning
  unfold update
  rw [hr, Bool.not_true, if_neg Bool.false_ne_true]
  dsimp only
  split
  · exact .ends (.of_deeds rfl) (Or.inr rfl)
  · have hage : Works t (t.nextUpdate.mapExec fun e => { e with age := e.age.map (· + dt) }) :=
      .of_deeds rfl
    obtain ⟨hw, hu', ht⟩ := passTime_cases
      (t := t.nextUpdate.mapExec fun e => { e with age := e.age.map (· + dt) })
      ⟨hu.running, hu.due⟩ hh dt
    split
    · next t' h =>
      rw [h] at hw hu' ht
      exact .after (hage.trans hw) (runsTo_advance ht hu')
    · next t' h =>
      rw [h] at hw hu' ht
      exact .halts (hage.trans hw) hu' ht

/-- A run that is started goes on until it halts or ends. -/
theorem runsTo_run {t : Turn α} (hr : t.exec.isRunning = false) : RunsTo t.begin t.run.1 := by
  rw [run, hr]
  exact runsTo_advance (congrArg Core.phase t.core_begin)
    (t.core_begin ▸ Core.underWay_begun t.exec.core)

/-! ## What does not move a run -/

omit [Avatar α] in
/-- What leaves the run as it is, and nothing running that was not, leaves the executor settled. -/
theorem settled_of_same {t t' : Turn α} (h : t.exec.Settled) (hc : t'.exec.core = t.exec.core)
    (hs : t.exec.Still → t'.exec.Still) : t'.exec.Settled := by
  cases h with
  | rests hr hstill => exact .rests (hc ▸ hr) (hs hstill)
  | halts hu hh => exact .halts (hc ▸ hu) (hc ▸ hh)

omit [Avatar α] in
/-- A release leaves the executor settled. -/
theorem settled_afterRelease {t : Turn α} (h : t.exec.Settled) : t.afterRelease.exec.Settled := by
  cases h with
  | rests hr hs =>
    exact .rests ⟨hr.isRunning, hr.running, hr.pending, hr.due, hr.unheard⟩
      ⟨hs.mayRun, hs.shownTop, hs.shownChild⟩
  | halts hu hh => exact .halts ⟨hu.running, hu.due⟩ hh

omit [Avatar α] in
theorem settled_afterPeerEnd {t : Turn α} (h : t.exec.Settled) : t.afterPeerEnd.exec.Settled := by
  unfold afterPeerEnd
  dsimp only
  cases h with
  | rests hr hs =>
    split
    · exact settled_cleanup hs.mayRun
    · next hd =>
      exact .rests ⟨hr.isRunning, hr.running, hr.pending, hr.due, fun h => absurd h hd⟩
        ⟨hs.mayRun, hs.shownTop, hs.shownChild⟩
  | halts hu hh =>
    split
    · next hd => cases hu.due.symm.trans hd
    · exact .halts ⟨hu.running, hu.due⟩ hh

end Turn

end Tandem
