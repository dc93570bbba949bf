import Tandem.Proofs.Run.Course
import Tandem.Proofs.Script.RoundTrip

/-!
# The two avatars of a device

A device has two avatars, its `Crew`. Commands are all that changes them : a command of the device
itself, which is told to the other device unless it is dropped, and a command that the other device
has told of (`Crew.perform`).

An operation on an executor hands its crew the commands that it tells of, one after the other, and
does nothing else to it (`Turn.Plays`). These commands are of the script that is run, so they have
whatever property all commands of the script have (`Script.Gives`). The commands of a script that
was read from a text are of the vocabulary that it was read with (`Script.gives_ofText`).
-/

namespace Tandem

/-- The name of a command, and its arguments. -/
abbrev Utterance := String × List String

/-- The command that the message tells of, if it tells of one. -/
def Message.utterance? : Message → Option Utterance
  | command name args => some (name, args)
  | _ => none

/-- Only the message of a command says one. -/
theorem Message.eq_command_of_utterance? {m : Message} {u : Utterance} (h : m.utterance? = some u) :
    m = .command u.1 u.2 := by
  cases m with
  | command => cases h; rfl
  | unlock | finish | run => cases h

/-- The two avatars of a device. -/
structure Crew (α : Type) where
  own : α
  rival : α

namespace Crew

variable {α : Type} [Avatar α]

/-- The avatars after a command of the device, or of the other one if `remote` is set. -/
def perform (k : Crew α) (remote : Bool) (u : Utterance) : Crew α :=
  if Avatar.isDead (if remote then k.rival else k.own) then k
  else if Avatar.isStatic k.own u.1 then
    ⟨(Avatar.perform k.own u.1 u.2).avatar, (Avatar.perform k.rival u.1 u.2).avatar⟩
  else if remote then { k with rival := (Avatar.perform k.rival u.1 u.2).avatar }
  else { k with own := (Avatar.perform k.own u.1 u.2).avatar }

/-- The avatars after commands of the device, one after the other. -/
def issue (k : Crew α) (us : List Utterance) : Crew α :=
  us.foldl (perform · false) k

/-- The avatars after commands of the other device, one after the other. -/
def replay (k : Crew α) (us : List Utterance) : Crew α :=
  us.foldl (perform · true) k

end Crew

/-! ## The commands of a script -/

/-- All commands that are made in a walk through the script have the property. -/
def Script.Gives (P : Utterance → Prop) (s : Script) : Prop :=
  ∀ (rule : WaitRule) (c : Cursor), ∀ tick ∈ c.remaining rule s, P (tick.name, tick.args)

/-- Running flags make no difference to the commands that a script gives. -/
theorem Script.Gives.congr {P : Utterance → Prop} {s s' : Script} (h : s.Gives P)
    (hs : s'.clearRunning = s.clearRunning) : s'.Gives P := by
  intro rule c tick ht
  rw [Cursor.remaining_congr hs] at ht
  exact h rule c tick ht

namespace Walk

/-- What holds of the ticks of all children holds of what remains of a loop. -/
theorem forall_mem_loopRemaining {P : Tick → Prop}
    {among : Nat → List LoopProgress → Nat → List Tick}
    (h : ∀ child inner spent, ∀ tick ∈ among child inner spent, P tick) (count children : Nat)
    (f : LoopProgress) (inner : List LoopProgress) (spent : Nat) :
    ∀ tick ∈ loopRemaining among count children f inner spent, P tick := by
  have hbody : ∀ n, ∀ tick ∈ (List.replicate n (among 0 [] 0)).flatten, P tick := by
    intro n tick ht
    obtain ⟨body, hb, ht⟩ := List.mem_flatten.mp ht
    obtain rfl := List.eq_of_mem_replicate hb
    exact h _ _ _ tick ht
  unfold loopRemaining
  dsimp only
  split
  · nofun
  · split
    · exact List.forall_mem_append.mpr ⟨h _ _ _, hbody _⟩
    · split
      · nofun
      · exact List.forall_mem_append.mpr ⟨h _ _ _, hbody _⟩

variable {P : Utterance → Prop} {Q : Command → Prop}

mutual

/-- What holds of the leaves holds of the ticks that remain of the command. -/
theorem gives_remainingIn (hQ : ∀ b, Q (.leaf b) → P (b.name, b.args)) (rule : WaitRule)
    (i : Nat) : ∀ (c : Command) (frames : List LoopProgress) (spent : Nat), c.Every Q →
      ∀ tick ∈ remainingIn rule i c frames spent, P (tick.name, tick.args)
  | .leaf b, frames, spent, h => by
    unfold remainingIn
    split
    · nofun
    · intro tick ht
      obtain rfl := List.eq_of_mem_replicate ht
      exact hQ b h
  | .loop b n cs, frames, spent, h => by
    unfold remainingIn
    split
    · nofun
    · have hc := fun child inner spent => gives_remainingAmong hQ rule 0 cs child inner spent h.2
      exact List.forall_mem_map.mpr (forall_mem_loopRemaining hc _ _ _ _ _)

theorem gives_remainingAmong (hQ : ∀ b, Q (.leaf b) → P (b.name, b.args)) (rule : WaitRule)
    (i : Nat) : ∀ (cs : List Command) (start : Nat) (frames : List LoopProgress) (spent : Nat),
      Command.EveryOf Q cs →
        ∀ tick ∈ remainingAmong rule i cs start frames spent, P (tick.name, tick.args)
  | [], _, _, _, _ => nofun
  | c :: cs, start, frames, spent, h => by
    rw [remainingAmong]
    split
    · exact gives_remainingAmong hQ rule (i + 1) cs start frames spent h.2
    · exact List.forall_mem_append.mpr ⟨gives_remainingIn hQ rule i c frames spent h.1,
        gives_remainingAmong hQ rule (i + 1) cs start [] 0 h.2⟩

end

end Walk

/-- What is true of all leaves of a script is true of all commands that it gives. -/
theorem Script.gives_of_every {P : Utterance → Prop} {Q : Command → Prop} {s : Script}
    (hQ : ∀ b, Q (.leaf b) → P (b.name, b.args)) (h : s.Every Q) : s.Gives P := fun rule c =>
  Walk.gives_remainingAmong hQ rule 0 _ c.top c.frames c.spent h

/-- The commands of a script that was read are of the vocabulary that it was read with. -/
theorem Script.gives_ofText (v : Vocabulary) (text : String) :
    (ofText v text).script.Gives fun u => v.Speaks u.1 u.2 :=
  gives_of_every (fun _ h => h) (spokenIn_ofText v text)

/-! ## The commands that are told -/

/-- Sees the messages that are sent. -/
def messageWatch : Watch Message where
  see
    | .effect (.sent m) => some m
    | _ => none
  see_logged _ := rfl

/-- Sees the commands that the other device is told of. -/
def utteranceWatch : Watch Utterance where
  see
    | .effect (.sent m) => m.utterance?
    | _ => none
  see_logged _ := rfl

/-- What the other device is told of is what the messages tell of. -/
theorem utteranceWatch_see (d : Deed) :
    utteranceWatch.see d = (messageWatch.see d).bind Message.utterance? := by
  cases d with
  | effect e => cases e <;> rfl
  | tick | event => rfl

namespace Turn

variable {α : Type}

/-- The avatars of the device. -/
def crew (t : Turn α) : Crew α := ⟨t.exec.own, t.exec.rival⟩

/-- The commands that the other device has been told of. -/
def told (t : Turn α) : List Utterance := t.seen utteranceWatch

/-- What the other device is told are the commands among the messages. -/
theorem told_eq (t : Turn α) :
    t.told = (t.seen messageWatch).filterMap Message.utterance? :=
  Watch.filterMap_see utteranceWatch_see _

theorem ShowsOnly.crew {t t' : Turn α} (h : ShowsOnly t t') : t'.crew = t.crew := by
  rw [Turn.crew, Turn.crew, h.own, h.rival]

theorem told_record (t : Turn α) (e : RunEvent) : (t.record e).told = t.told := by
  rw [told, seen_record]
  exact List.append_nil _

section Commands

variable [Avatar α] (t : Turn α) (name : String) (args : List String) (remote : Bool)

/-- The crew is handed a command that is dispatched. -/
theorem crew_dispatch :
    (t.dispatch name args remote).1.crew = t.crew.perform remote (name, args) := by
  have hdead : t.targetDead remote = Avatar.isDead (if remote then t.crew.rival else t.crew.own) :=
    rfl
  unfold dispatch Crew.perform
  rw [← hdead]
  split
  · rfl
  · have hperform : (t.perform name args remote).1.crew =
        if Avatar.isStatic t.crew.own name then
          ⟨(Avatar.perform t.crew.own name args).avatar,
            (Avatar.perform t.crew.rival name args).avatar⟩
        else if remote then
          { t.crew with rival := (Avatar.perform t.crew.rival name args).avatar }
        else { t.crew with own := (Avatar.perform t.crew.own name args).avatar } := by
      unfold perform
      split
      · next hs =>
        have hs : Avatar.isStatic t.crew.own name = true := hs
        rw [if_pos hs]
        rfl
      · next hs =>
        have hs : ¬Avatar.isStatic t.crew.own name = true := hs
        rw [if_neg hs]
        cases remote <;> rfl
    rw [← hperform]
    cases remote <;> rfl

/-- The other device is sent a command of this device, unless the command was dropped, and none of
its own commands. -/
theorem messages_dispatch : (t.dispatch name args remote).1.seen messageWatch =
    t.seen messageWatch ++
      if remote || t.targetDead remote then [] else [.command name args] := by
  have hrecord : ∀ (t : Turn α) (e : RunEvent),
      (t.record e).seen messageWatch = t.seen messageWatch := fun t e => by
    rw [seen_record]
    exact List.append_nil _
  have hperform : (t.perform name args remote).1.seen messageWatch = t.seen messageWatch := by
    have hown : ∀ t : Turn α,
        (t.performOwn name args).1.seen messageWatch = t.seen messageWatch := fun t => by
      rw [performOwn, seen_emit]
      exact List.append_nil _
    have hrival : ∀ t : Turn α,
        (t.performRival name args).1.seen messageWatch = t.seen messageWatch := fun t => by
      rw [performRival, seen_emit]
      exact List.append_nil _
    unfold perform
    split
    · rw [hrival, hown]
    · split
      · exact hrival t
      · exact hown t
  unfold dispatch
  cases hd : t.targetDead remote with
  | true => rw [if_pos rfl, Bool.or_true, if_pos rfl, List.append_nil, hrecord]
  | false =>
    rw [if_neg Bool.false_ne_true]
    dsimp only
    cases remote with
    | true => rw [if_pos rfl, hrecord, hperform, Bool.true_or, if_pos rfl, List.append_nil]
    | false =>
      rw [if_neg Bool.false_ne_true, Bool.false_or, if_neg Bool.false_ne_true, seen_send, hrecord,
        hperform]
      rfl

theorem told_dispatch : (t.dispatch name args remote).1.told =
    t.told ++ if remote || t.targetDead remote then [] else [(name, args)] := by
  rw [told_eq, messages_dispatch, List.filterMap_append, ← told_eq]
  cases remote || t.targetDead remote <;> rfl

end Commands

/-! ## What operations do to a crew -/

/-- From the first turn to the second, the crew is handed the commands that the other device is told
of, and the script is changed in its running flags at most. All the commands have the property. -/
structure Plays (P : Utterance → Prop) (t t' : Turn α) [Avatar α] : Prop where
  script : t'.script.clearRunning = t.script.clearRunning
  plays : ∃ us, t'.told = t.told ++ us ∧ t'.crew = t.crew.issue us ∧ ∀ u ∈ us, P u

variable [Avatar α] {P : Utterance → Prop} {t t' t'' : Turn α}

namespace Plays

theorem of_same (hs : t'.script.clearRunning = t.script.clearRunning) (ht : t'.told = t.told)
    (hc : t'.crew = t.crew) : Plays P t t' :=
  ⟨hs, [], by rw [ht, List.append_nil], hc, nofun⟩

theorem refl (t : Turn α) : Plays P t t := of_same rfl rfl rfl

/-- What is played in two parts is played. -/
theorem trans (h : Plays P t t') (h' : Plays P t' t'') : Plays P t t'' := by
  obtain ⟨hs, us, ht, hc, hP⟩ := h
  obtain ⟨hs', us', ht', hc', hP'⟩ := h'
  refine ⟨hs'.trans hs, us ++ us', ?_, ?_, List.forall_mem_append.mpr ⟨hP, hP'⟩⟩
  · rw [ht', ht, List.append_assoc]
  · rw [hc', hc, Crew.issue, Crew.issue, Crew.issue, List.foldl_append]

/-- All that is told has the property. -/
theorem forall_told (h : Plays P t t') (ht : ∀ u ∈ t.told, P u) : ∀ u ∈ t'.told, P u := by
  obtain ⟨-, us, htold, -, hP⟩ := h
  rw [htold]
  exact List.forall_mem_append.mpr ⟨ht, hP⟩

end Plays

/-- To record an event plays nothing. -/
theorem plays_record (t : Turn α) (e : RunEvent) : Plays P t (t.record e) :=
  .of_same rfl (t.told_record e) rfl

theorem plays_emit (t : Turn α) {e : Effect} (h : utteranceWatch.ofEffect e = []) :
    Plays P t (t.emit e) :=
  .of_same rfl (by rw [told, seen_emit, h, List.append_nil]; rfl) rfl

theorem plays_mapExec (t : Turn α) (f : Executor α → Executor α)
    (ho : (f t.exec).own = t.exec.own) (hr : (f t.exec).rival = t.exec.rival) :
    Plays P t (t.mapExec f) :=
  .of_same rfl rfl (by rw [crew, mapExec, ho, hr]; rfl)

theorem plays_setPolicy (t : Turn α) (p : SyncPolicy) : Plays P t (t.setPolicy p) :=
  t.plays_mapExec _ rfl rfl

theorem plays_showsOnly (h : ShowsOnly t t') : Plays P t t' :=
  .of_same h.script (h.seen _) h.crew

theorem plays_sendUnlockIf (t : Turn α) (sending : Bool) : Plays P t (t.sendUnlockIf sending) := by
  cases sending
  · exact .refl t
  · exact (t.plays_emit rfl).trans (plays_record _ _)

/-- A command that is dispatched is handed on and told. -/
theorem plays_dispatch (t : Turn α) {name : String} {args : List String} (h : P (name, args)) :
    Plays P t (t.dispatch name args false).1 := by
  have hscript := congrArg Script.clearRunning (t.script_dispatch name args false)
  have ht := t.told_dispatch name args false
  have hc := t.crew_dispatch name args false
  -- A command that is dropped is not told, and leaves the crew as it is.
  cases hd : t.targetDead false with
  | true =>
    rw [hd] at ht
    have hdead : Avatar.isDead t.crew.own = true := hd
    refine .of_same hscript (ht.trans (List.append_nil _)) (hc.trans ?_)
    rw [Crew.perform, if_neg Bool.false_ne_true, hdead, if_pos rfl]
  | false =>
    rw [hd] at ht
    exact ⟨hscript, [(name, args)], ht, hc, List.forall_mem_singleton.mpr h⟩

theorem plays_cleanup (t : Turn α) : Plays P t t.cleanup := by
  refine .of_same t.script_cleanup ?_ t.showsOnly_hideActive.crew
  rw [told, seen_cleanup]
  exact List.append_nil _

/-- The end of a run plays nothing. -/
theorem plays_finish (t : Turn α) (outcome : Phase) : Plays P t (t.finish outcome) := by
  refine .of_same (t.script_finish outcome) ?_ ?_
  · rw [told, seen_finish]
    cases t.exec.policy.peerFinished <;> exact List.append_nil _
  · unfold finish
    dsimp only
    split
    · exact (showsOnly_hideActive _).crew.trans t.showsOnly_hideActive.crew
    · exact t.showsOnly_hideActive.crew

theorem plays_begin (t : Turn α) : Plays P t t.begin := by
  refine .of_same t.script_begin ?_ ?_
  · rw [told, seen_begin]
    cases t.exec.cleanupDue <;> exact List.append_nil _
  · unfold begin
    dsimp only
    split
    · exact (showsOnly_hideActive _).crew
    · rfl

/-! ## Runs -/

/-- A tick at its gate plays nothing yet. -/
theorem plays_passGate (t : Turn α) (tick : Tick) : Plays P t (t.passGate tick).1 := by
  have h := (t.plays_setPolicy (P := P)
    (t.exec.policy.beforeTick (t.tickClass tick) t.exec.age).1).trans
      (plays_sendUnlockIf _ (t.exec.policy.beforeTick (t.tickClass tick) t.exec.age).2.2)
  unfold passGate
  split
  · exact .refl t
  · dsimp only
    split
    · exact (h.trans (plays_mapExec _ _ rfl rfl)).trans (plays_record (mapExec _ _) _)
    · split
      · refine h.trans ?_
        dsimp only
        exact plays_mapExec _ _ rfl rfl
      · exact h

theorem plays_carryOut (t : Turn α) (tick : Tick) (kind : TickClass)
    (h : P (tick.name, tick.args)) : Plays P t (t.carryOut tick kind) := by
  have hnote : Plays P (t.showActive tick.path) ((t.showActive tick.path).noteTick tick kind) :=
    .of_same rfl (by rw [told, seen_noteTick]; exact List.append_nil _) rfl
  have ht := ((plays_showsOnly (t.showsOnly_showActive tick.path)).trans hnote).trans
    (plays_record _ (.tick tick.top tick.name tick.wait))
  unfold carryOut
  dsimp only
  split
  · exact ht
  · exact ht.trans (plays_dispatch _ h)

/-- A tick that is made plays its command. -/
theorem plays_makeTick (t : Turn α) (tick : Tick) (h : P (tick.name, tick.args)) :
    Plays P t (t.makeTick tick) := by
  have hnothing : Plays P t (t.mapExec fun e => { e with pending := .nothing }) :=
    t.plays_mapExec _ rfl rfl
  have hover : ∀ (t : Turn α) (kind : TickClass), Plays P t (t.passOver kind) := fun t kind => by
    unfold passOver
    dsimp only
    exact ((t.plays_setPolicy _).trans (plays_sendUnlockIf _ _)).trans (plays_mapExec _ _ rfl rfl)
  unfold makeTick
  exact ((hnothing.trans (plays_carryOut _ tick _ h)).trans (hover _ _)).trans (plays_emit _ rfl)

/-- An advance tells of commands that are still ahead. -/
theorem plays_advanceBy : ∀ (n : Nat) (t : Turn α),
    (∀ tick ∈ t.side.left, P (tick.name, tick.args)) → Plays P t (advanceBy n t)
  | 0, t, _ => .refl t
  | n + 1, t, hP => by
    unfold advanceBy
    split
    · exact plays_finish _ _
    · cases hnext : t.exec.cursor.next? t.exec.waitRule t.script with
      | none => exact plays_finish _ _
      | some found =>
        obtain ⟨c, tick⟩ := found
        have hmove : Plays P t (t.moveTo c) := t.plays_mapExec _ rfl rfl
        have hgate : Plays P t ((t.moveTo c).passGate tick).1 := hmove.trans (plays_passGate _ tick)
        obtain ⟨-, rest, hrest⟩ := side_moveTo hnext
        dsimp only
        split
        · next t' h =>
          rw [h] at hgate
          exact hgate
        · next t' h =>
          obtain rfl : t' = t.moveTo c := by
            obtain ⟨hg, -⟩ | ⟨_, hg, -⟩ | ⟨_, hg, -⟩ := (t.moveTo c).passGate_cases tick
            · exact (congrArg Prod.fst (h.symm.trans hg))
            · cases h.symm.trans hg
            · cases h.symm.trans hg
          -- The ticks that are ahead after this one were ahead before it.
          rw [hrest, List.forall_mem_cons] at hP
          refine (hmove.trans (plays_makeTick _ tick hP.1)).trans (plays_advanceBy n _ ?_)
          rw [side_makeTick hnext, Side.after, hrest]
          exact hP.2

/-- An advance plays commands of the script only. -/
theorem plays_advance (h : t.script.Gives P) : Plays P t t.advance :=
  plays_advanceBy _ t (h _ _)

theorem plays_run (h : t.script.Gives P) : Plays P t t.run.1 := by
  unfold run
  split
  · exact plays_record _ _
  · exact (plays_begin t).trans (plays_advance (h.congr t.script_begin))

theorem plays_startTogether (h : t.script.Gives P) : Plays P t t.startTogether.1 := by
  unfold startTogether
  split
  · exact plays_record _ _
  · exact (plays_emit t rfl).trans (plays_run h)

theorem plays_passTime (t : Turn α) (dt : Float32) : Plays P t (t.passTime dt).1 := by
  unfold passTime
  split
  · dsimp only
    split <;> dsimp only <;> exact plays_mapExec _ _ rfl rfl
  · dsimp only
    split
    · exact plays_setPolicy _ _
    · exact .of_same rfl rfl rfl
    · exact ((plays_setPolicy t _).trans (plays_record _ _)).trans (.of_same rfl rfl rfl)
  · exact .refl t
  · exact .refl t

theorem plays_update (h : t.script.Gives P) (dt : Float32) : Plays P t (t.update dt) := by
  have hnext : Plays P t t.nextUpdate := t.plays_mapExec _ rfl rfl
  unfold update
  split
  · exact .refl t
  · dsimp only
    split
    · exact hnext.trans (plays_finish _ _)
    · have hage := plays_mapExec (P := P) t.nextUpdate
        (fun e => { e with age := e.age.map (· + dt) }) rfl rfl
      have htime := (hnext.trans hage).trans (plays_passTime _ dt)
      split
      · next t' ht =>
        rw [ht] at htime
        exact htime.trans (plays_advance (h.congr htime.script))
      · next t' ht =>
        rw [ht] at htime
        exact htime

/-! ## What comes from the other device, and giving up -/

theorem plays_afterRelease (t : Turn α) : Plays P t t.afterRelease :=
  (plays_record t _).trans (plays_setPolicy _ _)

theorem plays_afterPeerEnd (t : Turn α) : Plays P t t.afterPeerEnd := by
  have h := (plays_record (P := P) t .peerFinished).trans
    (plays_setPolicy _ t.exec.policy.afterPeerEnd)
  unfold afterPeerEnd
  dsimp only
  split
  · exact h.trans (plays_cleanup _)
  · exact h

/-- A run that is abandoned plays nothing. -/
theorem plays_abandon (t : Turn α) : Plays P t t.abandon := by
  have h : Plays P t (t.mapExec fun e => { e with mayRun := false }) := t.plays_mapExec _ rfl rfl
  exact (h.trans (plays_record _ _)).trans (plays_cleanup _)

end Turn

end Tandem
