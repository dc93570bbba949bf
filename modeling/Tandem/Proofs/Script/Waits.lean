import Tandem.Command.Ticks
import Tandem.Proofs.Decimal.Number

/-!
# How long a command waits

A command waits for the seconds that its argument writes. The number may be of any length, and
before it becomes a count of ticks it is rounded twice : when it is read, and when the seconds are
multiplied by the ticks of a second. Neither changes the order of two numbers, and neither makes a
tick of none, or none of a tick. But so many seconds that they are read as infinity are no seconds
at all, as are so few that they are read as nothing (`waits_no_shorter`).
-/

namespace Tandem

open Binary32

/-! ## Seconds -/

/-- The number of ticks that the seconds come to. -/
theorem toNat_waitTicks (args : List String) (n : UInt32) :
    (waitTicks args n).toNat = ceilNat wordCap (waitSeconds args * n.toFloat32) :=
  toNat_ofNat_of_le (ceilNat_le _ _)

/-- No word is too great for a finite number. -/
theorem isAmount_toFloat32 (n : UInt32) :
    IsAmount n.toFloat32 ∧ units n.toFloat32 = nearest (n.toNat * 2 ^ 149) := by
  have hlt : nearest (n.toNat * 2 ^ 149) < limit := by
    have h : (n.toNat : ℚ) < 2 ^ 32 := by exact_mod_cast n.toNat_lt
    rw [nearest_lt_limit_iff (by positivity)]
    calc (n.toNat * 2 ^ 149 : ℚ) < 2 ^ 32 * 2 ^ 149 := by gcongr
      _ < (2 ^ 25 - 1) * 2 ^ 252 := by norm_num
  cases isNearest_toFloat32 n with
  | amount _ hamount hunits => exact ⟨hamount, hunits⟩
  | infinity hle _ => exact absurd hle hlt.not_ge

section Number

variable {arg : String}

/-- Any text that is read as a finite number above zero asks for so many seconds. -/
theorem waitSeconds_of_read {x : Float32} (h : readFloat32? (Text.trim arg.toList) = some x) :
    waitSeconds [arg] = if x.isFinite ∧ 0 < x then x else 0 := by
  simp only [waitSeconds, List.head?_cons, Option.bind_some, h]

/-- The seconds are as many as are written, rounded, unless they are too many. -/
theorem units_waitSeconds (h : ArgKind.isNumber arg.toList = true) :
    IsAmount (waitSeconds [arg]) ∧ units (waitSeconds [arg]) =
      if nearest (ArgKind.denoted arg.toList * 2 ^ 149) < limit
      then nearest (ArgKind.denoted arg.toList * 2 ^ 149) else 0 := by
  obtain ⟨x, hread, hnearest⟩ := readFloat32?_of_isNumber h
  rw [← trim_of_isNumber h] at hread
  rw [waitSeconds_of_read hread]
  have hzero : IsAmount 0 ∧ units 0 = 0 := ⟨isAmount_zero, rfl⟩
  cases hnearest with
  | infinity hle hparts =>
    have hfinite : x.isFinite ≠ true := by
      have : x.isFinite = (parts x).isFinite := rfl
      rw [this, hparts]
      nofun
    rw [if_neg hle.not_gt, if_neg fun h => hfinite h.1]
    exact hzero
  | amount hlt hamount hunits =>
    rw [if_pos hlt, ← hunits]
    split_ifs with hx
    · exact ⟨hamount, rfl⟩
    · refine ⟨isAmount_zero, ?_⟩
      have hnot := (isAmount_zero.lt_iff hamount).not.mp fun hpos => hx ⟨hamount.isFinite, hpos⟩
      rw [hzero.2] at hnot ⊢
      omega

end Number

/-! ## Ticks -/

section Ticks

variable {args args' : List String} {n : UInt32}

/-- No fewer seconds are cut into no fewer ticks. -/
theorem waitTicks_le_of_units_le (hs : IsAmount (waitSeconds args))
    (hs' : IsAmount (waitSeconds args')) (h : units (waitSeconds args) ≤ units (waitSeconds args'))
    (n : UInt32) : waitTicks args n ≤ waitTicks args' n := by
  have hn := (isAmount_toFloat32 n).1
  rw [UInt32.le_iff_toNat_le, toNat_waitTicks, toNat_waitTicks]
  refine ceilNat_mono (by positivity) ?_ (hs.mul hn) (hs'.mul hn) wordCap
  gcongr

/-- Any seconds are cut into a tick at least, and no seconds into none. -/
theorem waitTicks_pos_iff (hs : IsAmount (waitSeconds args)) (hn : 1 ≤ n) :
    1 ≤ waitTicks args n ↔ 0 < units (waitSeconds args) := by
  obtain ⟨hamount, hunits⟩ := isAmount_toFloat32 n
  have hmul := hs.mul hamount
  rw [UInt32.le_iff_toNat_le, toNat_waitTicks]
  constructor
  · intro h
    by_contra hzero
    rw [Nat.eq_zero_of_not_pos hzero, Nat.cast_zero, zero_mul, zero_div] at hmul
    rw [ceilNat_of_isNearest_zero hmul] at h
    cases h
  · intro h
    have hsecond : 2 ^ 149 ≤ units n.toFloat32 := by
      have hone : (1 : ℚ) ≤ n.toNat := by exact_mod_cast UInt32.le_iff_toNat_le.mp hn
      rw [hunits, ← nearest_two_pow]
      refine nearest_mono (Nat.cast_nonneg _) ?_
      push_cast
      linarith
    refine ceilNat_pos ?_ hmul (by decide)
    rw [le_div_iff₀ (by positivity), one_mul]
    exact_mod_cast hsecond.trans (Nat.le_mul_of_pos_left _ h)

end Ticks

section Written

variable {a b : String} {n : UInt32}

/-- The seconds that are written are none exactly if they are too few or too many for a number. -/
theorem units_waitSeconds_pos_iff (h : ArgKind.isNumber a.toList = true) :
    0 < units (waitSeconds [a]) ↔
      1 / 2 ^ 150 < ArgKind.denoted a.toList ∧ ArgKind.denoted a.toList < 2 ^ 128 - 2 ^ 103 := by
  have hnonneg := ArgKind.denoted_nonneg a.toList
  rw [(units_waitSeconds h).2, ← nearest_unit_pos_iff hnonneg, ← nearest_unit_lt_limit_iff hnonneg]
  split_ifs with hlt
  · exact (and_iff_left hlt).symm
  · exact iff_of_false (lt_irrefl 0) fun hboth => hlt hboth.2

/-- Of seconds that are not too many, no fewer are read where no fewer are written. -/
theorem units_waitSeconds_mono (ha : ArgKind.isNumber a.toList = true)
    (hb : ArgKind.isNumber b.toList = true)
    (h : ArgKind.denoted a.toList ≤ ArgKind.denoted b.toList)
    (hlt : ArgKind.denoted b.toList < 2 ^ 128 - 2 ^ 103) :
    units (waitSeconds [a]) ≤ units (waitSeconds [b]) := by
  have hnonneg := ArgKind.denoted_nonneg a.toList
  have hmono : nearest (ArgKind.denoted a.toList * 2 ^ 149) ≤
      nearest (ArgKind.denoted b.toList * 2 ^ 149) := nearest_mono (by positivity) (by gcongr)
  have hfew := (nearest_unit_lt_limit_iff (hnonneg.trans h)).mpr hlt
  rwa [(units_waitSeconds ha).2, (units_waitSeconds hb).2, if_pos hfew,
    if_pos (hmono.trans_lt hfew)]

/-- A command that is told to wait for longer does not wait for fewer ticks, as long as the seconds
are not too many for a finite number. It takes a tick at least, unless they are too many, or so few
that they are read as none. -/
theorem waits_no_shorter (ha : ArgKind.number.accepts [a] = true)
    (hb : ArgKind.number.accepts [b] = true) (hn : 1 ≤ n) :
    (ArgKind.denoted a.toList ≤ ArgKind.denoted b.toList →
        ArgKind.denoted b.toList < 2 ^ 128 - 2 ^ 103 → waitTicks [a] n ≤ waitTicks [b] n) ∧
      (1 ≤ waitTicks [a] n ↔
        1 / 2 ^ 150 < ArgKind.denoted a.toList ∧
          ArgKind.denoted a.toList < 2 ^ 128 - 2 ^ 103) := by
  constructor
  · intro hle hlt
    exact waitTicks_le_of_units_le (units_waitSeconds ha).1 (units_waitSeconds hb).1
      (units_waitSeconds_mono ha hb hle hlt) n
  · rw [waitTicks_pos_iff (units_waitSeconds ha).1 hn, units_waitSeconds_pos_iff ha]

/-- A quarter of a second takes a tick at least, and no more ticks than one and a half. -/
theorem waits_no_shorter_for_half :
    1 ≤ waitTicks ["0.25"] 2 ∧ waitTicks ["0.25"] 2 ≤ waitTicks ["1.5"] 2 := by
  have hdenoted : ArgKind.denoted "0.25".toList = 1 / 4 ∧ ArgKind.denoted "1.5".toList = 3 / 2 := by
    decide +kernel
  obtain ⟨hmono, hpos⟩ := waits_no_shorter (a := "0.25") (b := "1.5") (n := 2) rfl rfl (by decide)
  rw [hdenoted.1, hdenoted.2] at hmono
  rw [hdenoted.1] at hpos
  exact ⟨hpos.mpr (by norm_num), hmono (by norm_num) (by norm_num)⟩

/-- Too many seconds are none, although fewer are some, and so are too few. -/
theorem waits_not_at_all :
    ArgKind.number.accepts ["1"] = true ∧
      ArgKind.number.accepts ["10000000000000000000000000000000000000000"] = true ∧
      ArgKind.number.accepts ["0.00000000000000000000000000000000000000000000000001"] = true ∧
      ArgKind.denoted "1".toList ≤
        ArgKind.denoted "10000000000000000000000000000000000000000".toList ∧
      0 < ArgKind.denoted "0.00000000000000000000000000000000000000000000000001".toList ∧
      waitTicks ["1"] 1 = 1 ∧
      waitTicks ["10000000000000000000000000000000000000000"] 1 = 0 ∧
      waitTicks ["0.00000000000000000000000000000000000000000000000001"] 1 = 0 := by
  decide +kernel

end Written

end Tandem
