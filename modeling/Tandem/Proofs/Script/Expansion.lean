import Tandem.Run.Walk
import Mathlib.Data.List.Basic

/-!
# The expansion of a script

The expansion of a script is the list of all ticks that it asks for, in the order in which they
are to be made : a leaf gives its ticks, a loop those of its children as often as it counts, and
what is disabled gives none. It is read off the tree in one go, with no cursor, so it says what
the walk of `Tandem.Run.Walk` is to do.

`length_expansion` ties it to the number of ticks, and `toNat_tickCount` ties that number to the
one that is shown. `hasTicks_iff` says that the quick test for ticks is exact. What is shown does
not depend on the order in which the sums are capped (`tickCountList_eq_foldl`), and whatever is
capped on the way, it is the exact number in the end, up to the cap (`tickCount_exact`).
-/

namespace Tandem

/-- The tick of a child, as seen from the list of commands that its loop of index `i` is in. -/
def Tick.inside (i : Nat) (t : Tick) : Tick :=
  { t with path := i :: t.path }

/-- The tick of a leaf that has that index in its list of commands. -/
def WaitRule.leafTick (rule : WaitRule) (i : Nat) (b : CommandHead) : Tick :=
  ⟨[i], b.name, b.args, rule.waits b.name⟩

namespace Command

variable (rule : WaitRule)

mutual

/-- The ticks of the command, which has that index in its list of commands. -/
def expansion (i : Nat) : Command → List Tick
  | leaf b =>
    if b.flags.disabled then [] else List.replicate (rule.leafTicks b) (rule.leafTick i b)
  | loop b n cs =>
    if b.flags.disabled then []
    else (List.replicate n.toNat (expansionList 0 cs)).flatten.map (Tick.inside i)

/-- The ticks of the commands, the first of which has that index. -/
def expansionList (i : Nat) : List Command → List Tick
  | [] => []
  | c :: cs => expansion i c ++ expansionList (i + 1) cs

end

/-! ## Its length -/

mutual

/-- The expansion of a command has as many ticks as the command takes. -/
theorem length_expansion (i : Nat) : ∀ c : Command, (expansion rule i c).length = ticks rule c
  | leaf b => by
    unfold expansion ticks
    split <;> simp
  | loop b n cs => by
    unfold expansion ticks
    split
    · rfl
    · simp [length_expansionList 0 cs]

theorem length_expansionList (i : Nat) :
    ∀ cs : List Command, (expansionList rule i cs).length = ticksList rule cs
  | [] => rfl
  | c :: cs => by
    rw [expansionList, ticksList, List.length_append, length_expansion i c,
      length_expansionList (i + 1) cs]

end

/-- A capped sum is the sum, up to the cap. -/
theorem toNat_addCapped (a b : UInt64) :
    (addCapped a b).toNat = min tickCap (a.toNat + b.toNat) := by
  rw [addCapped, UInt64.toNat_ofNat_of_lt']
  have : UInt64.size = tickCap + 1 := rfl
  omega

/-- A capped product is the product, up to the cap. -/
theorem toNat_mulCapped (a b : UInt64) :
    (mulCapped a b).toNat = min tickCap (a.toNat * b.toNat) := by
  rw [mulCapped, UInt64.toNat_ofNat_of_lt']
  have : UInt64.size = tickCap + 1 := rfl
  omega

theorem leafTicks_le_tickCap (b : CommandHead) : rule.leafTicks b ≤ tickCap := by
  have := (waitTicks b.args rule.ticksPerSecond).toNat_lt
  have : tickCap = 2 ^ 64 - 1 := rfl
  unfold WaitRule.leafTicks
  split <;> omega

/-- A product with a capped factor has the same cap as the product itself. -/
theorem min_mul_min (cap m n : Nat) : min cap (min cap m * n) = min cap (m * n) := by
  rcases Nat.eq_zero_or_pos n with rfl | hn
  · simp
  · rcases Nat.le_total cap m with h | h
    · have h1 : cap ≤ cap * n := Nat.le_mul_of_pos_right cap hn
      have h2 : cap * n ≤ m * n := Nat.mul_le_mul_right n h
      rw [Nat.min_eq_left h, Nat.min_eq_left h1, Nat.min_eq_left (Nat.le_trans h1 h2)]
    · rw [Nat.min_eq_right h]

mutual

/-- The number of ticks that is shown is the exact one, up to the greatest one. -/
theorem toNat_tickCount : ∀ c : Command, (tickCount rule c).toNat = min tickCap (ticks rule c)
  | leaf b => by
    have hle := leafTicks_le_tickCap rule b
    have : UInt64.size = tickCap + 1 := rfl
    unfold tickCount ticks
    split
    · simp
    · rw [UInt64.toNat_ofNat_of_lt' (by omega), Nat.min_eq_right hle]
  | loop b n cs => by
    unfold tickCount ticks
    split
    · simp
    · rw [toNat_mulCapped, toNat_tickCountList cs, UInt32.toNat_toUInt64, min_mul_min,
        Nat.mul_comm]

theorem toNat_tickCountList :
    ∀ cs : List Command, (tickCountList rule cs).toNat = min tickCap (ticksList rule cs)
  | [] => by simp [tickCountList, ticksList]
  | c :: cs => by
    rw [tickCountList, ticksList, toNat_addCapped, toNat_tickCount c, toNat_tickCountList cs]
    omega

end

theorem addCapped_zero (a : UInt64) : addCapped a 0 = a := by
  have := a.toNat_lt
  have : tickCap = 2 ^ 64 - 1 := rfl
  rw [← UInt64.toNat_inj, toNat_addCapped, UInt64.toNat_zero]
  omega

theorem addCapped_comm (a b : UInt64) : addCapped a b = addCapped b a := by
  rw [addCapped, addCapped, Nat.add_comm]

theorem addCapped_assoc (a b c : UInt64) :
    addCapped (addCapped a b) c = addCapped a (addCapped b c) := by
  rw [← UInt64.toNat_inj]
  simp only [toNat_addCapped]
  omega

/-- Adding up from the front gives what adding up from the back gives. -/
theorem foldl_addCapped (a : UInt64) : ∀ cs : List Command,
    (cs.map (tickCount rule)).foldl addCapped a = addCapped a (tickCountList rule cs)
  | [] => (addCapped_zero a).symm
  | c :: cs => by
    rw [List.map_cons, List.foldl_cons, foldl_addCapped (addCapped a (tickCount rule c)) cs,
      addCapped_assoc, tickCountList]

/-- Adding up from the first command on, with a cap on each sum, comes to the same. -/
theorem tickCountList_eq_foldl (cs : List Command) :
    tickCountList rule cs = (cs.map (tickCount rule)).foldl addCapped 0 := by
  rw [foldl_addCapped, addCapped_comm, addCapped_zero]

mutual

/-- The quick test for ticks is exact. -/
theorem hasTicks_iff : ∀ c : Command, hasTicks rule c = true ↔ 0 < ticks rule c
  | leaf b => by
    unfold hasTicks ticks
    split <;> simp_all
  | loop b n cs => by
    have hn : 0 < n ↔ 0 < n.toNat := UInt32.lt_iff_toNat_lt
    unfold hasTicks ticks
    split
    · simp_all
    · next henabled =>
      rw [Bool.eq_false_iff.mpr henabled, Bool.not_false, Bool.true_and, Bool.and_eq_true,
        decide_eq_true_eq, hn, hasTicksList_iff cs]
      simp only [Nat.pos_iff_ne_zero, Nat.mul_ne_zero_iff]

/-- The quick test says whether commands take any tick. -/
theorem hasTicksList_iff : ∀ cs : List Command, hasTicksList rule cs = true ↔ 0 < ticksList rule cs
  | [] => by simp [hasTicksList, ticksList]
  | c :: cs => by
    rw [hasTicksList, ticksList, Bool.or_eq_true, hasTicks_iff c, hasTicksList_iff cs]
    omega

end

end Command

namespace Script

/-- The ticks of the script, in the order in which they are to be made. -/
def expansion (rule : WaitRule) (s : Script) : List Tick :=
  Command.expansionList rule 0 s.commands

theorem length_expansion (rule : WaitRule) (s : Script) :
    (s.expansion rule).length = s.ticks rule :=
  Command.length_expansionList rule 0 s.commands

/-- Below the greatest number that is shown, the number shown is that of the ticks. -/
theorem length_expansion_of_tickCount_lt {rule : WaitRule} {s : Script}
    (h : (s.tickCount rule).toNat < tickCap) :
    (s.expansion rule).length = (s.tickCount rule).toNat := by
  have hc : (s.tickCount rule).toNat = min tickCap (s.ticks rule) :=
    Command.toNat_tickCountList rule s.commands
  rw [length_expansion]
  omega

/-- The number of ticks that is shown, of a command or of a script, is that of its expansion, up to
the greatest one, and the quick test says whether it is above zero. -/
theorem tickCount_exact (rule : WaitRule) :
    (∀ c : Command, (c.tickCount rule).toNat = min tickCap (c.ticks rule) ∧
      (∀ i, (c.expansion rule i).length = c.ticks rule) ∧
      (c.hasTicks rule = true ↔ 0 < c.tickCount rule)) ∧
    ∀ s : Script, (s.tickCount rule).toNat = min tickCap (s.ticks rule) ∧
      (s.expansion rule).length = s.ticks rule := by
  refine ⟨fun c => ?_, fun s => ?_⟩
  · have hcount := Command.toNat_tickCount rule c
    refine ⟨hcount, fun i => Command.length_expansion rule i c, ?_⟩
    rw [Command.hasTicks_iff, UInt64.lt_iff_toNat_lt, hcount, UInt64.toNat_zero, Nat.lt_min]
    exact (and_iff_right (by decide)).symm
  · exact ⟨Command.toNat_tickCountList rule s.commands, s.length_expansion rule⟩

end Script

end Tandem
