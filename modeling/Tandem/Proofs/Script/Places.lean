import Tandem.Proofs.Run.Remaining
import Mathlib.Data.Set.Insert

/-!
# Places in a script

What stands at a path of a script, and what becomes of it when running flags are set and cleared :

* clearing all flags clears that of the command at each path (`get?_clearRunning`), so scripts that
  are the same with all flags cleared have the same at each path but for flags
  (`matches_of_clearRunning`);
* setting or clearing the flag of one command moves one path into or out of the set of paths that
  are shown as running (`shown_setRunning_true`, `shown_setRunning_false`).

The walk through a script only makes ticks of leaves that are there (`isOf_of_next?`).
-/

namespace Tandem

namespace Command

/-- The command with the running flag of no command in it set. -/
def clearRunning : Command → Command :=
  mapHeads fun b => { b with flags := { b.flags with running := false } }

/-- The number of times that a loop runs its children. -/
def count? : Command → Option UInt32
  | leaf _ => none
  | loop _ n _ => some n

/-- The commands are the same, but for their running flags and for what is in them : both are
leaves, or both are loops of the same count over as many commands. -/
structure Matches (c d : Command) : Prop where
  name : c.name = d.name
  args : c.args = d.args
  disabled : c.flags.disabled = d.flags.disabled
  edited : c.flags.edited = d.flags.edited
  locked : c.flags.locked = d.flags.locked
  count : c.count? = d.count?
  children : c.children.length = d.children.length

theorem matches_of_clearRunning : ∀ {c d : Command}, c.clearRunning = d.clearRunning → c.Matches d
  | leaf a, leaf b, h => by
    obtain ⟨hn, ha, hf⟩ := CommandHead.mk.inj (Command.leaf.inj h)
    obtain ⟨hd, -, he, hl⟩ := Flags.mk.inj hf
    exact ⟨hn, ha, hd, he, hl, rfl, rfl⟩
  | loop a n cs, loop b m ds, h => by
    obtain ⟨hhead, rfl, hcs⟩ := Command.loop.inj h
    obtain ⟨hn, ha, hf⟩ := CommandHead.mk.inj hhead
    obtain ⟨hd, -, he, hl⟩ := Flags.mk.inj hf
    have hlen := congrArg List.length hcs
    rw [length_mapHeadsList, length_mapHeadsList] at hlen
    exact ⟨hn, ha, hd, he, hl, rfl, hlen⟩

/-! ## One command in a command -/

theorem get?_mapHeads (f : CommandHead → CommandHead) : ∀ (path : Path) (c : Command),
    (c.mapHeads f).get? path = (c.get? path).map (mapHeads f)
  | [], _ => rfl
  | _ :: _, leaf _ => rfl
  | i :: path, loop b n cs => by
    simp only [mapHeads, get?, children, mapHeadsList_eq_map, List.getElem?_map]
    cases cs[i]? with
    | none => rfl
    | some c => exact get?_mapHeads f path c

/-- Whether the command at a path is shown as running, once the flag of the command at another path,
or at the same one, is set or cleared. -/
theorem running_modify (value : Bool) : ∀ (path other : Path) (c : Command),
    ((modify (setRunning value) path c).get? other).map (·.flags.running) =
      if other = path then (c.get? other).map fun _ => value
      else (c.get? other).map (·.flags.running)
  | [], [], c => by cases c <;> rfl
  | [], j :: other, c => by
    rw [if_neg (List.cons_ne_nil j other)]
    cases c <;> rfl
  | i :: path, [], c => by
    rw [if_neg (List.cons_ne_nil i path).symm]
    cases c <;> rfl
  | i :: path, j :: other, leaf b => by simp [modify, get?, children]
  | i :: path, j :: other, loop b n cs => by
    simp only [modify, get?, children, List.getElem?_modify]
    by_cases hij : i = j
    · subst hij
      cases cs[i]? with
      | none => simp
      | some c => simpa using running_modify value path other c
    · simp only [hij, if_false, List.cons.injEq, Ne.symm hij, false_and, id_map']

end Command

/-! ## What the walk finds -/

/-- The tick that was found is one of the leaf at the end of its path inside the command. -/
def Found.IsIn (found : Found) (c : Command) : Prop :=
  ∃ b, c.get? found.below = some (.leaf b) ∧ b.name = found.name ∧ b.args = found.args

namespace Walk

open Command

variable (rule : WaitRule)

mutual

/-- The tick that is found in a command belongs to a place of it. -/
theorem isIn_of_inCommand? (i : Nat) : ∀ (c : Command) (frames : List LoopProgress) (spent : Nat)
    (found : Found), inCommand? rule i c frames spent = some found → found.IsIn c
  | .leaf b, frames, spent, found, h => by
    unfold inCommand? at h
    split at h
    · cases h
    · split at h
      · obtain rfl := Option.some.inj h
        exact ⟨b, rfl, rfl, rfl⟩
      · cases h
  | .loop b n cs, frames, spent, found, h => by
    have of_tries : ∀ f inner, ((tries n.toNat cs.length f inner spent).findSome?
        fun t => (amongCommands? rule 0 cs t.1.child t.2.1 t.2.2).map (enter i t.1)) =
          some found → found.IsIn (.loop b n cs) := by
      intro f inner h
      obtain ⟨t, -, ht⟩ := List.exists_of_findSome?_eq_some h
      obtain ⟨inside, hinside, rfl⟩ := Option.map_eq_some_iff.1 ht
      obtain ⟨c, hc, b', hleaf, hsame⟩ := isIn_of_amongCommands? 0 cs _ _ _ inside hinside
      rw [Nat.sub_zero] at hc
      refine ⟨b', ?_, hsame⟩
      simpa only [enter, get?, children, hc] using hleaf
    unfold inCommand? at h
    split at h
    · cases h
    · split at h
      · split at h
        · exact of_tries _ _ h
        · cases h
      · exact of_tries _ _ h

theorem isIn_of_amongCommands? (i : Nat) : ∀ (cs : List Command) (start : Nat)
    (frames : List LoopProgress) (spent : Nat) (found : Found),
      amongCommands? rule i cs start frames spent = some found →
        ∃ c, cs[found.index - i]? = some c ∧ found.IsIn c
  | [], _, _, _, _, h => nomatch h
  | c :: cs, start, frames, spent, found, h => by
    have of_rest : ∀ start frames spent,
        amongCommands? rule (i + 1) cs start frames spent = some found →
          ∃ d, (c :: cs)[found.index - i]? = some d ∧ found.IsIn d := by
      intro start frames spent h
      obtain ⟨-, hi, -⟩ := index_of_amongCommands? rule h
      obtain ⟨d, hd, hin⟩ := isIn_of_amongCommands? (i + 1) cs start frames spent found h
      rw [show found.index - i = found.index - (i + 1) + 1 by omega, List.getElem?_cons_succ]
      exact ⟨d, hd, hin⟩
    unfold amongCommands? at h
    split at h
    · exact of_rest _ _ _ h
    · cases hc : inCommand? rule i c frames spent with
      | some inside =>
        rw [hc] at h
        obtain rfl := Option.some.inj h
        rw [index_of_inCommand? rule hc, Nat.sub_self]
        exact ⟨c, rfl, isIn_of_inCommand? i c frames spent inside hc⟩
      | none =>
        rw [hc] at h
        exact of_rest _ _ _ h

end

end Walk

/-- The tick is one of a leaf of the script. -/
def Tick.IsOf (tick : Tick) (s : Script) : Prop :=
  ∃ b, s.get? tick.path = some (.leaf b) ∧ b.name = tick.name ∧ b.args = tick.args

/-- The walk makes ticks of leaves only. -/
theorem isOf_of_next? {rule : WaitRule} {s : Script} {c c' : Cursor} {tick : Tick}
    (h : c.next? rule s = some (c', tick)) : tick.IsOf s := by
  obtain ⟨found, hfound, heq⟩ := Option.map_eq_some_iff.1 h
  obtain ⟨-, rfl⟩ := Prod.mk.inj heq
  obtain ⟨d, hd, b, hleaf, hsame⟩ := Walk.isIn_of_amongCommands? rule 0 _ _ _ _ found hfound
  rw [Nat.sub_zero] at hd
  refine ⟨b, ?_, hsame⟩
  simpa only [Script.get?, hd] using hleaf

namespace Script

variable {s s' : Script}

theorem get?_clearRunning (s : Script) (path : Path) :
    s.clearRunning.get? path = (s.get? path).map Command.clearRunning := by
  cases path with
  | nil => rfl
  | cons i path =>
    simp only [get?, clearRunning, Command.mapHeadsList_eq_map, List.getElem?_map]
    cases s.commands[i]? with
    | none => rfl
    | some c => exact Command.get?_mapHeads _ path c

/-- Scripts that are the same with all running flags cleared have the same at each path, but for
running flags. -/
theorem matches_of_clearRunning (h : s.clearRunning = s'.clearRunning) (path : Path) :
    Option.Rel Command.Matches (s.get? path) (s'.get? path) := by
  have hpath : (s.get? path).map Command.clearRunning =
      (s'.get? path).map Command.clearRunning := by
    rw [← get?_clearRunning, h, get?_clearRunning]
  cases hs : s.get? path <;> cases hs' : s'.get? path <;> rw [hs, hs'] at hpath
  · exact .none
  · cases hpath
  · cases hpath
  · exact .some (Command.matches_of_clearRunning (Option.some.inj hpath))

/-- There is a command at a path whatever is shown as running. -/
theorem isSome_get?_congr (h : s.clearRunning = s'.clearRunning) (path : Path) :
    (s.get? path).isSome = (s'.get? path).isSome := by
  have hpath := matches_of_clearRunning h path
  cases hs : s.get? path <;> cases hs' : s'.get? path <;> rw [hs, hs'] at hpath <;>
    first | rfl | cases hpath

/-- A tick of a leaf stays one whatever is shown as running. -/
theorem isOf_congr (h : s.clearRunning = s'.clearRunning) {tick : Tick} (ht : tick.IsOf s) :
    tick.IsOf s' := by
  obtain ⟨b, hb, hname, hargs⟩ := ht
  have hrel := matches_of_clearRunning h tick.path
  rw [hb] at hrel
  cases hs' : s'.get? tick.path with
  | none =>
    rw [hs'] at hrel
    cases hrel
  | some d =>
    rw [hs'] at hrel
    obtain hm := Option.rel_some_some.mp hrel
    cases d with
    | leaf b' => exact ⟨b', hs', hm.name.symm.trans hname, hm.args.symm.trans hargs⟩
    | loop => cases hm.count

/-! ## What is shown as running -/

/-- The paths of the commands whose running flag is set. -/
def shown (s : Script) : Set Path :=
  {path | ∃ c, s.get? path = some c ∧ c.flags.running = true}

/-- The shown places are those whose commands have the flag. -/
theorem mem_shown {path : Path} :
    path ∈ s.shown ↔ (s.get? path).map (·.flags.running) = some true := by
  rw [Option.map_eq_some_iff]
  rfl

/-- When the flags are cleared, nothing is shown. -/
theorem shown_clearRunning (s : Script) : s.clearRunning.shown = ∅ := by
  ext path
  rw [mem_shown, get?_clearRunning, Option.map_map]
  cases s.get? path with
  | none => simp
  | some c => cases c <;> simp [Command.clearRunning, Command.mapHeads, Command.flags, Command.head]

/-- Setting a flag changes it at its own place only. -/
theorem running_setRunning (s : Script) (path other : Path) (value : Bool) :
    ((s.setRunning path value).get? other).map (·.flags.running) =
      if other = path then (s.get? other).map fun _ => value
      else (s.get? other).map (·.flags.running) := by
  rcases path with _ | ⟨i, path⟩
  · rcases other with _ | ⟨j, other⟩ <;> rfl
  · rcases other with _ | ⟨j, other⟩
    · rfl
    · -- The commands of a script are those of a loop.
      exact Command.running_modify value (i :: path) (j :: other) (.repeated 0 s.commands)

/-- The command at the path is shown as running too, if there is one. -/
theorem shown_setRunning_true {path : Path} (h : (s.get? path).isSome) :
    (s.setRunning path true).shown = insert path s.shown := by
  ext other
  rw [mem_shown, running_setRunning, Set.mem_insert_iff, mem_shown]
  split
  · next heq =>
    subst heq
    simp [Option.isSome_iff_exists.mp h]
  · next hne => simp [hne]

/-- The command at the path is not shown as running any more. -/
theorem shown_setRunning_false (s : Script) (path : Path) :
    (s.setRunning path false).shown = s.shown \ {path} := by
  ext other
  rw [mem_shown, running_setRunning, Set.mem_sdiff, Set.mem_singleton_iff, mem_shown]
  split
  · next heq => simp [heq]
  · next hne => simp [hne]

end Script

end Tandem
