import Tandem.Proofs.Run.Career
import Tandem.Proofs.Run.Fate

/-!
# The run flag

A run may go on as long as its flag is set. An avatar clears the flag when it stops the run, and
`Crew.stops` says from the avatars alone whether a command of either device makes one do so. So the
flag after a command, and after a tick, is known beforehand (`Turn.mayRun_dispatch`,
`Turn.makes_makeTick`).

Two watches tell what becomes of a run whose flag is cleared. `scriptWatch` sees what is done for
the script : its ticks, and its commands as they are handed to an avatar or sent to the other
device. `endWatch` sees how a run ends, and that the other device is told.
-/

namespace Tandem

namespace Crew

variable {α : Type} [Avatar α] (k : Crew α)

/-- A command of the device, or of the other one if `remote` is set, is handed to an avatar that
stops the run of the device at it. -/
def stops (remote : Bool) (u : Utterance) : Bool :=
  !Avatar.isDead (if remote then k.rival else k.own) &&
    if Avatar.isStatic k.own u.1 then
      (Avatar.perform k.own u.1 u.2).stopsRun || (Avatar.perform k.rival u.1 u.2).stopsRun
    else if remote then (Avatar.perform k.rival u.1 u.2).stopsRun
    else (Avatar.perform k.own u.1 u.2).stopsRun

/-- The command of the tick stops the run. -/
def stopsIn (tick : Tick) : Bool := tick.utterance?.any (k.stops false)

end Crew

/-! ## What is done for a script -/

/-- Something that is done for a script. -/
inductive ScriptDeed where
  /-- A run starts. -/
  | start
  /-- A tick is made. -/
  | tick (t : Tick)
  /-- A command is handed to an avatar, or sent to the other device. -/
  | command (u : Utterance)
deriving DecidableEq

/-- The command of the tick that the deed is, if it is one. -/
def ScriptDeed.utterance? : ScriptDeed → Option Utterance
  | tick t => t.utterance?
  | _ => none

/-- Sees what is done for the script, if the commands that are carried out are those of the
script. -/
def scriptWatch (scripted : Bool) : Watch ScriptDeed where
  see
    | .tick t _ _ => some (.tick t)
    | .event (.runStarted ..) => some .start
    | .effect (.performed _ name args _) => if scripted then some (.command (name, args)) else none
    | .effect (.sent (.command name args)) =>
      if scripted then some (.command (name, args)) else none
    | _ => none
  see_logged _ := rfl

theorem alike_scriptWatch : (scriptWatch false).TakesCommandsAlike :=
  ⟨fun _ _ _ _ => rfl, fun _ _ => rfl, fun _ _ => rfl, fun _ _ => rfl⟩

/-- The avatars of a device after the ticks of its script among the deeds. -/
def Crew.after {α : Type} [Avatar α] (k : Crew α) (ds : List ScriptDeed) : Crew α :=
  k.issue (ds.filterMap ScriptDeed.utterance?)

/-! ## How a run ends -/

/-- Something that is done at the end of a run. -/
inductive EndDeed where
  | completed
  | interrupted
  /-- The other device is told. -/
  | told
deriving DecidableEq

/-- Sees how a run ends. -/
def endWatch : Watch EndDeed where
  see
    | .event .completed => some .completed
    | .event .interrupted => some .interrupted
    | .effect (.sent .finish) => some .told
    | _ => none
  see_logged _ := rfl

theorem alike_endWatch : endWatch.TakesCommandsAlike :=
  ⟨fun _ _ _ _ => rfl, fun _ _ => rfl, fun _ _ => rfl, fun _ _ => rfl⟩

namespace Turn

variable {α : Type} {t t' t'' : Turn α}

/-- Work does not end a run. -/
theorem Works.seen_endWatch (h : Works t t') : t'.seen endWatch = t.seen endWatch := by
  obtain ⟨ds, hds, hwork⟩ := h
  have hnone : ds.filterMap endWatch.see = [] := by
    refine List.filterMap_eq_nil_iff.mpr fun d hd => ?_
    have hd := hwork d hd
    unfold endWatch
    dsimp only
    split <;> first | rfl | cases hd
  rw [seen, hds, List.filterMap_append, hnone, List.append_nil]
  rfl

/-- The end of a run does nothing for the script. -/
theorem seen_scriptWatch_finish (t : Turn α) (scripted : Bool) (outcome : Phase) :
    (t.finish outcome).seen (scriptWatch scripted) = t.seen (scriptWatch scripted) := by
  rw [seen_finish, Watch.ofEnd, endEvent]
  cases t.exec.policy.peerFinished <;> split <;> exact List.append_nil _

theorem seen_scriptWatch_cleanup (t : Turn α) (scripted : Bool) :
    t.cleanup.seen (scriptWatch scripted) = t.seen (scriptWatch scripted) :=
  (t.seen_cleanup _).trans (List.append_nil _)

/-- Of the beginning of a run, the script sees that it starts. -/
theorem seen_scriptWatch_begin (t : Turn α) :
    t.begin.seen (scriptWatch true) = t.seen (scriptWatch true) ++ [.start] := by
  rw [seen_begin]
  cases t.exec.cleanupDue <;> rfl

/-- A run that is interrupted has told the other device once. -/
theorem seen_endWatch_finish (t : Turn α) :
    (t.finish .interrupted).seen endWatch = t.seen endWatch ++ [.interrupted, .told] := by
  rw [seen_finish]
  cases t.exec.policy.peerFinished <;> rfl

/-! ## Commands and the flag -/

variable [Avatar α]

/-- From the first turn to the second, nothing is done for the script but that the command is handed
on. -/
def HandsOn (u : Utterance) (t t' : Turn α) : Prop :=
  ∃ ds, t'.seen (scriptWatch true) = t.seen (scriptWatch true) ++ ds ∧ ∀ d ∈ ds, d = .command u

namespace HandsOn

variable {u : Utterance}

omit [Avatar α] in
theorem of_same (h : t'.seen (scriptWatch true) = t.seen (scriptWatch true)) : HandsOn u t t' :=
  ⟨[], h.trans (List.append_nil _).symm, nofun⟩

omit [Avatar α] in
/-- What hands a command on in two steps hands it on. -/
theorem trans (h : HandsOn u t t') (h' : HandsOn u t' t'') : HandsOn u t t'' := by
  obtain ⟨ds, hseen, hds⟩ := h
  obtain ⟨ds', hseen', hds'⟩ := h'
  exact ⟨ds ++ ds', by rw [hseen', hseen, List.append_assoc],
    List.forall_mem_append.mpr ⟨hds, hds'⟩⟩

end HandsOn

section Commands

variable (t : Turn α) (name : String) (args : List String) (remote : Bool)

/-- To perform a command hands it on. -/
theorem handsOn_perform : HandsOn (name, args) t (t.perform name args remote).1 := by
  have hown : ∀ t : Turn α, HandsOn (name, args) t (t.performOwn name args).1 := fun t =>
    ⟨_, seen_emit _ _ _, List.forall_mem_singleton.mpr rfl⟩
  have hrival : ∀ t : Turn α, HandsOn (name, args) t (t.performRival name args).1 := fun t =>
    ⟨_, seen_emit _ _ _, List.forall_mem_singleton.mpr rfl⟩
  unfold perform
  split
  · exact (hown t).trans (hrival _)
  · split
    · exact hrival t
    · exact hown t

/-- To dispatch it does so too. -/
theorem handsOn_dispatch : HandsOn (name, args) t (t.dispatch name args remote).1 := by
  have hrecord : ∀ (t : Turn α) {e : RunEvent}, (scriptWatch true).ofEvent e = [] →
      HandsOn (name, args) t (t.record e) := fun t e he =>
    .of_same ((t.seen_record _ e).trans (by rw [he, List.append_nil]))
  unfold dispatch
  split
  · exact hrecord t rfl
  · dsimp only
    have hevent : (scriptWatch true).ofEvent (if (t.perform name args remote).2 then
        .dispatched (commandText name args) remote
        else .unrecognized (commandText name args) remote) = [] := by split <;> rfl
    have h := (t.handsOn_perform name args remote).trans (hrecord _ hevent)
    split
    · exact h
    · exact h.trans ⟨_, seen_send _ _ _, List.forall_mem_singleton.mpr rfl⟩

/-- A command clears the run flag if an avatar stops the run at it. -/
theorem mayRun_dispatch : (t.dispatch name args remote).1.exec.mayRun =
    (t.exec.mayRun && !t.crew.stops remote (name, args)) := by
  have hperform : (t.perform name args remote).1.exec.mayRun = (t.exec.mayRun &&
      !if Avatar.isStatic t.crew.own name then
        (Avatar.perform t.crew.own name args).stopsRun ||
          (Avatar.perform t.crew.rival name args).stopsRun
      else if remote then (Avatar.perform t.crew.rival name args).stopsRun
      else (Avatar.perform t.crew.own name args).stopsRun) := by
    unfold perform
    split
    · next hs =>
      have hs : Avatar.isStatic t.crew.own name = true := hs
      rw [if_pos hs, Bool.not_or, ← Bool.and_assoc]
      rfl
    · next hs =>
      have hs : ¬Avatar.isStatic t.crew.own name = true := hs
      rw [if_neg hs]
      cases remote <;> rfl
  unfold dispatch Crew.stops
  cases hd : t.targetDead remote with
  | true =>
    have hdead : Avatar.isDead (if remote then t.crew.rival else t.crew.own) = true := hd
    rw [if_pos rfl, hdead, Bool.not_true, Bool.false_and, Bool.not_false, Bool.and_true]
    rfl
  | false =>
    have hdead : Avatar.isDead (if remote then t.crew.rival else t.crew.own) = false := hd
    rw [if_neg Bool.false_ne_true, hdead, Bool.not_false, Bool.true_and, ← hperform]
    cases remote <;> rfl

end Commands

/-! ## Ticks and the flag -/

section Ticks

variable (t : Turn α) (tick : Tick)

/-- From the first turn to the second, the tick is made, and then its command is handed on. That is
all that is done to the avatars and to the run flag. -/
structure Makes (tick : Tick) (t t' : Turn α) : Prop where
  crew : t'.crew = t.crew.issue tick.utterance?.toList
  mayRun : t'.exec.mayRun = (t.exec.mayRun && !t.crew.stopsIn tick)
  deeds : ∃ cs, t'.seen (scriptWatch true) = t.seen (scriptWatch true) ++ .tick tick :: cs ∧
    ∀ d ∈ cs, d = .command (tick.name, tick.args)

/-- A tick that is carried out is made. -/
theorem makes_carryOut (kind : TickClass) : Makes tick t (t.carryOut tick kind) := by
  obtain ⟨t', hcarry, hkeeps, -, hnoted⟩ := t.carryOut_eq tick kind
  have hcrew : t'.crew = t.crew := congrArg₂ Crew.mk hkeeps.own hkeeps.rival
  have hflag := hkeeps.mayRun
  have hseen : t'.seen (scriptWatch true) = t.seen (scriptWatch true) ++ [.tick tick] := hnoted _
  rw [hcarry]
  cases hw : tick.wait with
  | true =>
    have hnone : tick.utterance? = none := if_pos hw
    rw [if_pos rfl]
    refine ⟨?_, ?_, [], hseen, nofun⟩
    · rw [hnone]
      exact hcrew
    · rw [Crew.stopsIn, hnone, Option.any_none, Bool.not_false, Bool.and_true]
      exact hflag
  | false =>
    have hsome : tick.utterance? = some (tick.name, tick.args) :=
      if_neg (Bool.eq_false_iff.mp hw)
    obtain ⟨cs, hcs, hcommands⟩ := t'.handsOn_dispatch tick.name tick.args false
    rw [if_neg Bool.false_ne_true]
    refine ⟨?_, ?_, cs, ?_, hcommands⟩
    · rw [crew_dispatch, hcrew, hsome]
      rfl
    · rw [mayRun_dispatch, hcrew, hflag, Crew.stopsIn, hsome, Option.any_some]
    · rw [hcs, hseen, List.append_assoc]
      rfl

theorem makes_makeTick : Makes tick t (t.makeTick tick) := by
  have hcarry := makes_carryOut (t.mapExec fun e => { e with pending := .nothing }) tick
    (t.tickClass tick)
  have hover := keepsAvatars_passOver
    ((t.mapExec fun e => { e with pending := .nothing }).carryOut tick (t.tickClass tick))
    (t.tickClass tick)
  obtain ⟨cs, hseen, hcommands⟩ := hcarry.deeds
  refine ⟨(congrArg₂ Crew.mk hover.own hover.rival).trans hcarry.crew,
    hover.mayRun.trans hcarry.mayRun, cs, ?_, hcommands⟩
  unfold makeTick
  dsimp only
  rw [seen_emit, seen_passOver, hseen]
  cases SyncPolicy.releasesAfter _ _ <;> exact (List.append_nil _).trans (List.append_nil _)

/-- A tick tells nothing of the other device. -/
theorem peerFinished_makeTick :
    (t.makeTick tick).exec.policy.peerFinished = t.exec.policy.peerFinished := by
  have h := congrArg (fun c => c.policy.peerFinished) (t.core_makeTick tick)
  refine h.trans ?_
  rw [Core.ticked, SyncPolicy.afterTick_eq]
  rfl

end Ticks

end Turn

end Tandem
