import Tandem.Proofs.Run.Passage
import Tandem.Proofs.Run.Fate
import Mathlib.Data.List.DropRight

/-!
# What the log keeps, and what it says of commands

A log keeps the last events that were recorded since it was drained, up to a fixed number
(`EventLog.Keeps`). Whatever an executor does adds events to them, and the oldest ones are dropped
(`Turn.Passage.adds`).

On a grid, the events recorded do not lie about commands (`Turn.Candid`) : as long as nothing is
dropped, the commands that the device has handed to its own avatar, by its events, are those that it
has told the other device of, without those that a grid avatar of its vocabulary does not grasp.
-/

namespace Tandem

/-- The window holds the last entries of all, and still does with another one. -/
theorem Window.toList_push_rtake {α : Type} {w : Window α} {cap : Nat} (hcap : 0 < cap)
    {past : List α}
    (h : w.toList = past.rtake cap) (a : α) : (w.push cap a).toList = (past ++ [a]).rtake cap := by
  obtain ⟨n, rfl⟩ : ∃ n, cap = n + 1 := ⟨cap - 1, by omega⟩
  rw [toList_push, h, List.rtake_concat_succ]
  congr 1
  rw [List.rtake, List.rtake, List.length_drop]
  split
  · rw [List.tail_drop]
    congr 1
    omega
  · congr 1
    omega

/-- The command that the own avatar of the device understood, by the event. -/
def RunEvent.ownCommand? : RunEvent → Option String
  | dispatched command false => some command
  | _ => none

/-- An event that is of no command tells of none. -/
theorem RunEvent.ownCommand?_of_isOfCommand {e : RunEvent} (h : e.isOfCommand = false) :
    e.ownCommand? = none := by
  cases e <;> first | rfl | cases h

/-! ## Keeping events -/

/-- The log keeps the last of these events. -/
def EventLog.Keeps (past : List RunEvent) (l : EventLog) : Prop :=
  l.events.toList = past.rtake eventCap

/-- A log that records an event keeps it behind the others. -/
theorem EventLog.Keeps.record {past : List RunEvent} {l : EventLog} (h : l.Keeps past)
    (e : RunEvent) :
    (l.record e).1.Keeps (past ++ [e]) := by
  have hpush : (l.record e).1.events = l.events.push eventCap e := by
    unfold EventLog.record
    dsimp only
    split
    · rfl
    · split <;> rfl
  rw [Keeps, hpush]
  exact Window.toList_push_rtake (by decide) h e

/-- The events that were recorded, and the log that keeps the last ones. -/
structure Ledger where
  events : List RunEvent
  log : EventLog

namespace Ledger

/-- From the first ledger to the second, these events are recorded. -/
structure Adds (es : List RunEvent) (b b' : Ledger) : Prop where
  events : b'.events = b.events ++ es
  keeps : ∀ past, b.log.Keeps past → b'.log.Keeps (past ++ es)

namespace Adds

variable {b b' b'' : Ledger} {es es' : List RunEvent}

theorem of_same (he : b'.events = b.events) (hl : b'.log.events = b.log.events) : Adds [] b b' := by
  refine ⟨he.trans (List.append_nil _).symm, fun past h => ?_⟩
  rw [EventLog.Keeps, hl, List.append_nil]
  exact h

theorem refl (b : Ledger) : Adds [] b b := of_same rfl rfl

/-- What is added in two parts is added one after the other. -/
theorem trans (h : Adds es b b') (h' : Adds es' b' b'') : Adds (es ++ es') b b'' := by
  refine ⟨?_, fun past hp => ?_⟩
  · rw [h'.events, h.events, List.append_assoc]
  · rw [← List.append_assoc]
    exact h'.keeps _ (h.keeps _ hp)

end Adds

end Ledger

namespace Turn

variable {α : Type}

/-- The events recorded. -/
def events (t : Turn α) : List RunEvent := t.seen eventWatch

/-- What the executor has recorded. -/
def ledger (t : Turn α) : Ledger := ⟨t.events, t.exec.log⟩

/-- To record an event adds it to the log and to what is seen. -/
theorem adds_record (t : Turn α) (e : RunEvent) : Ledger.Adds [e] t.ledger (t.record e).ledger :=
  ⟨t.seen_record eventWatch e, fun _ h => h.record e⟩

theorem events_record (t : Turn α) (e : RunEvent) : (t.record e).events = t.events ++ [e] :=
  (t.adds_record e).events

/-- An effect adds no event. -/
theorem adds_emit (t : Turn α) (e : Effect) : Ledger.Adds [] t.ledger (t.emit e).ledger :=
  .of_same ((t.seen_emit eventWatch e).trans (List.append_nil _)) rfl

/-- Another update of the log takes nothing from it. -/
theorem adds_nextUpdateIf (t : Turn α) (begins : Bool) :
    Ledger.Adds [] t.ledger (t.nextUpdateIf begins).ledger := by
  cases begins with
  | false => exact .refl _
  | true => exact .of_same rfl rfl

variable [Avatar α]

/-- To perform a command adds none. -/
theorem adds_perform (t : Turn α) (name : String) (args : List String) (remote : Bool) :
    Ledger.Adds [] t.ledger (t.perform name args remote).1.ledger := by
  have hown : ∀ t : Turn α, Ledger.Adds [] t.ledger (t.performOwn name args).1.ledger := fun _ =>
    .of_same ((seen_emit _ eventWatch _).trans (List.append_nil _)) rfl
  have hrival : ∀ t : Turn α, Ledger.Adds [] t.ledger (t.performRival name args).1.ledger :=
    fun _ => .of_same ((seen_emit _ eventWatch _).trans (List.append_nil _)) rfl
  unfold perform
  split
  · exact (hown t).trans (hrival _)
  · split
    · exact hrival t
    · exact hown t

/-- What comes of a command, as it is recorded. -/
def verdict (t : Turn α) (name : String) (args : List String) (remote : Bool) : RunEvent :=
  if t.targetDead remote then .deadAvatar (commandText name args) remote
  else if (t.perform name args remote).2 then .dispatched (commandText name args) remote
  else .unrecognized (commandText name args) remote

/-- To dispatch it adds the event of its verdict. -/
theorem adds_dispatch (t : Turn α) (name : String) (args : List String) (remote : Bool) :
    Ledger.Adds [t.verdict name args remote] t.ledger (t.dispatch name args remote).1.ledger := by
  unfold dispatch verdict
  dsimp only
  split
  · exact t.adds_record _
  · have hrecord := (t.adds_perform name args remote).trans
      (adds_record (t.perform name args remote).1
        (if (t.perform name args remote).2 then .dispatched (commandText name args) remote
          else .unrecognized (commandText name args) remote))
    cases remote
    · exact hrecord.trans (adds_emit _ _)
    · exact hrecord

theorem events_dispatch (t : Turn α) (name : String) (args : List String) (remote : Bool) :
    (t.dispatch name args remote).1.events = t.events ++ [t.verdict name args remote] :=
  (t.adds_dispatch name args remote).events

/-- Whatever an executor does, it adds some events. -/
theorem Passage.adds {t t' : Turn α} (h : Passage t t') :
    ∃ es, Ledger.Adds es t.ledger t'.ledger := by
  induction h with
  | quiet h => exact ⟨[], .of_same h.seen (congrArg EventLog.events h.log)⟩
  | record e _ => exact ⟨[e], adds_record _ e⟩
  | dispatch name args remote => exact ⟨_, adds_dispatch _ name args remote⟩
  | trans _ _ ih ih' =>
    obtain ⟨es, h⟩ := ih
    obtain ⟨es', h'⟩ := ih'
    exact ⟨es ++ es', h.trans h'⟩

end Turn

/-! ## Candour -/

/-- The command means something to a grid avatar that knows the vocabulary. -/
def Vocabulary.grasps (v : Vocabulary) (u : Utterance) : Bool :=
  v.understands u.1 u.2 && (GridAction.ofCommand? u.1 u.2).isSome

/-- An avatar understands what its vocabulary grasps. -/
theorem GridAvatar.understood_perform (a : GridAvatar) (name : String) (args : List String) :
    (a.perform name args).understood = a.vocabulary.grasps (name, args) := by
  unfold perform Vocabulary.grasps
  cases a.vocabulary.understands name args with
  | false => rfl
  | true =>
    rw [if_pos rfl]
    cases GridAction.ofCommand? name args <;> rfl

namespace Turn

variable {v : Vocabulary} {t t' : Turn GridAvatar}

/-- Both avatars know the vocabulary. The commands that the own avatar understood, by the events,
are those of the commands told that it grasps. -/
structure Candid (v : Vocabulary) (t : Turn GridAvatar) : Prop where
  own : t.exec.own.vocabulary = v
  rival : t.exec.rival.vocabulary = v
  traced : t.events.filterMap RunEvent.ownCommand? =
    (t.told.filter v.grasps).map fun u => commandText u.1 u.2

namespace Candid

/-- What adds no event of a command stays candid. -/
theorem of_quiet (h : t.Candid v) (hq : Quiet t t') : t'.Candid v := by
  have hown : t'.exec.own = t.exec.own := congrArg Crew.own hq.crew
  have hrival : t'.exec.rival = t.exec.rival := congrArg Crew.rival hq.crew
  have hevents : t'.events = t.events := hq.seen
  exact ⟨hown ▸ h.own, hrival ▸ h.rival, by rw [hevents, hq.told, h.traced]⟩

theorem nextUpdateIf (h : t.Candid v) (begins : Bool) : (t.nextUpdateIf begins).Candid v := by
  cases begins with
  | false => exact h
  | true => exact ⟨h.own, h.rival, h.traced⟩

theorem record (h : t.Candid v) {e : RunEvent} (he : e.isOfCommand = false) :
    (t.record e).Candid v := by
  refine ⟨h.own, h.rival, ?_⟩
  rw [events_record, told_record, ← h.traced, List.filterMap_append,
    List.filterMap_cons_none (RunEvent.ownCommand?_of_isOfCommand he)]
  exact List.append_nil _

/-- A command of the device is understood if the avatars grasp it. A static one goes to both of
them, which know the same. -/
theorem understood (h : t.Candid v) (name : String) (args : List String) :
    (t.perform name args false).2 = v.grasps (name, args) := by
  have hown : (Avatar.perform t.exec.own name args).understood = v.grasps (name, args) := by
    rw [← h.own]
    exact t.exec.own.understood_perform name args
  have hrival : (Avatar.perform t.exec.rival name args).understood = v.grasps (name, args) := by
    rw [← h.rival]
    exact t.exec.rival.understood_perform name args
  unfold perform
  split
  · show ((Avatar.perform t.exec.own name args).understood &&
      (Avatar.perform t.exec.rival name args).understood) = v.grasps (name, args)
    rw [hown, hrival, Bool.and_self]
  · exact hown

/-- The avatars know what they knew before, whoever of them is handed the command. -/
theorem vocabulary_perform (h : t.Candid v) (remote : Bool) (u : Utterance) :
    (t.crew.perform remote u).own.vocabulary = v ∧
      (t.crew.perform remote u).rival.vocabulary = v := by
  have hperform : ∀ a : GridAvatar, a.vocabulary = v →
      (Avatar.perform a u.1 u.2).avatar.vocabulary = v := fun a ha =>
    (a.vocabulary_perform u.1 u.2).trans ha
  unfold Crew.perform
  cases Avatar.isDead (if remote then t.crew.rival else t.crew.own) with
  | true => exact ⟨h.own, h.rival⟩
  | false =>
    cases Avatar.isStatic t.crew.own u.1 with
    | true => exact ⟨hperform _ h.own, hperform _ h.rival⟩
    | false =>
      cases remote with
      | true => exact ⟨h.own, hperform _ h.rival⟩
      | false => exact ⟨hperform _ h.own, h.rival⟩

/-- The verdict on a command tells whether it was understood. -/
theorem dispatch (h : t.Candid v) (name : String) (args : List String) (remote : Bool) :
    (t.dispatch name args remote).1.Candid v := by
  have hcrew := t.crew_dispatch name args remote
  obtain ⟨hown, hrival⟩ := h.vocabulary_perform remote (name, args)
  rw [← hcrew] at hown hrival
  refine ⟨hown, hrival, ?_⟩
  rw [events_dispatch, told_dispatch, List.filterMap_append, h.traced,
    List.filter_append, List.map_append]
  refine congrArg (_ ++ ·) ?_
  unfold verdict
  cases remote with
  | true =>
    -- A command of the other device is not told to it, and not one for the own avatar by its event.
    split
    · rfl
    · split <;> rfl
  | false =>
    rw [h.understood]
    cases t.targetDead false with
    | true => rfl
    | false => cases hg : v.grasps (name, args) <;> simp [RunEvent.ownCommand?, hg]

end Candid

/-- A passage that was candid stays so. -/
theorem Passage.candid (h : Passage t t') (hc : t.Candid v) : t'.Candid v := by
  induction h with
  | quiet hq => exact hc.of_quiet hq
  | record e he => exact hc.record he
  | dispatch name args remote => exact hc.dispatch name args remote
  | trans _ _ ih ih' => exact ih' (ih hc)

end Turn

end Tandem
