import Tandem.Proofs.Run.Crew
import Tandem.Proofs.Script.Expansion

/-!
# What a script has to say

A script asks for commands and for waiting. The commands that it asks for can be read off the tree
(`Script.utterances`) : they are those of its ticks, with the ticks of waiting left out
(`Script.filterMap_utterance?_expansion`). How waiting is cut into ticks makes no difference to
them.
-/

namespace Tandem

/-- The command that is made in the tick, if it is not one of waiting. -/
def Tick.utterance? (t : Tick) : Option Utterance :=
  if t.wait then none else some (t.name, t.args)

namespace Command

/-- The command is a loop, or one that is for one avatar of a device only. -/
def OwnIn (v : Vocabulary) : Command → Prop
  | leaf b => v.isStatic b.name = false
  | loop .. => True

instance (v : Vocabulary) : DecidablePred (OwnIn v)
  | leaf b => inferInstanceAs (Decidable (v.isStatic b.name = false))
  | loop .. => .isTrue trivial

mutual

/-- The commands that the command asks for, if that is the one that waits. -/
def utterances (wait : String) : Command → List Utterance
  | leaf b => if b.flags.disabled ∨ b.name = wait then [] else [(b.name, b.args)]
  | loop b n cs =>
    if b.flags.disabled then [] else (List.replicate n.toNat (utterancesOf wait cs)).flatten

/-- The commands that the commands ask for. -/
def utterancesOf (wait : String) : List Command → List Utterance
  | [] => []
  | c :: cs => utterances wait c ++ utterancesOf wait cs

end

mutual

/-- The ticks of a command utter what the command does. -/
theorem filterMap_utterance?_expansion (rule : WaitRule) (i : Nat) : ∀ c : Command,
    (expansion rule i c).filterMap Tick.utterance? = utterances rule.command c
  | leaf b => by
    unfold expansion utterances
    cases hd : b.flags.disabled with
    | true => simp
    | false =>
      -- A command that waits has nothing to say, and one that does not takes one tick.
      by_cases hw : b.name = rule.command
      · simp [WaitRule.leafTick, WaitRule.waits, Tick.utterance?, hw]
      · simp [WaitRule.leafTick, WaitRule.leafTicks, WaitRule.waits, Tick.utterance?, hw]
  | loop b n cs => by
    have hbody := filterMap_utterance?_expansionList rule 0 cs
    unfold expansion utterances
    split
    · rfl
    · rw [List.filterMap_map, List.filterMap_flatten, List.map_replicate, ← hbody]
      rfl

theorem filterMap_utterance?_expansionList (rule : WaitRule) (i : Nat) : ∀ cs : List Command,
    (expansionList rule i cs).filterMap Tick.utterance? = utterancesOf rule.command cs
  | [] => rfl
  | c :: cs => by
    rw [expansionList, utterancesOf, List.filterMap_append, filterMap_utterance?_expansion rule i c,
      filterMap_utterance?_expansionList rule (i + 1) cs]

end

/-- A loop around one command that does not wait asks for it as often as it counts. -/
theorem utterancesOf_repeated {wait name : String} (h : name ≠ wait) (n : UInt32)
    (args : List String) :
    utterancesOf wait [.repeated n [.ofName name args]] =
      List.replicate n.toNat (name, args) := by
  have hleaf : utterancesOf wait [.ofName name args] = [(name, args)] :=
    (List.append_nil _).trans (if_neg (not_or.mpr ⟨Bool.false_ne_true, h⟩))
  have hloop : utterancesOf wait [.repeated n [.ofName name args]] =
      (List.replicate n.toNat (utterancesOf wait [.ofName name args])).flatten :=
    List.append_nil _
  rw [hloop, hleaf, List.flatten_replicate_singleton]

mutual

/-- A tick is a wait if its command is. -/
theorem wait_of_mem_expansion (rule : WaitRule) (i : Nat) : ∀ c : Command,
    ∀ tick ∈ expansion rule i c, tick.wait = rule.waits tick.name
  | leaf b => by
    unfold expansion
    split
    · nofun
    · intro tick ht
      obtain rfl := List.eq_of_mem_replicate ht
      rfl
  | loop b n cs => by
    have hbody := wait_of_mem_expansionList rule 0 cs
    unfold expansion
    split
    · nofun
    · refine List.forall_mem_map.mpr fun tick ht => ?_
      obtain ⟨body, hb, ht⟩ := List.mem_flatten.mp ht
      obtain rfl := List.eq_of_mem_replicate hb
      exact hbody tick ht

theorem wait_of_mem_expansionList (rule : WaitRule) (i : Nat) : ∀ cs : List Command,
    ∀ tick ∈ expansionList rule i cs, tick.wait = rule.waits tick.name
  | [] => nofun
  | c :: cs => List.forall_mem_append.mpr
      ⟨wait_of_mem_expansion rule i c, wait_of_mem_expansionList rule (i + 1) cs⟩

end

end Command

namespace Script

/-- The ticks of waiting are those of the command that waits. -/
theorem wait_of_mem_expansion {rule : WaitRule} {s : Script} {tick : Tick}
    (h : tick ∈ s.expansion rule) : tick.wait = rule.waits tick.name :=
  Command.wait_of_mem_expansionList rule 0 s.commands tick h

/-- The commands that the script asks for, in the order in which they are to be made, if that is the
command that waits. -/
def utterances (wait : String) (s : Script) : List Utterance :=
  Command.utterancesOf wait s.commands

theorem filterMap_utterance?_expansion (rule : WaitRule) (s : Script) :
    (s.expansion rule).filterMap Tick.utterance? = s.utterances rule.command :=
  Command.filterMap_utterance?_expansionList rule 0 s.commands

/-- The commands of a script whose leaves are for one avatar only are so. -/
theorem gives_of_ownIn {v : Vocabulary} {s : Script} (h : s.Every (Command.OwnIn v)) :
    s.Gives fun u => v.isStatic u.1 = false :=
  gives_of_every (fun _ hb => hb) h

end Script

end Tandem
