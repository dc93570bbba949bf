import Tandem.Proofs.Binary32.Product

/-!
# Counts of a time

A time becomes a count by its exact value. The count of an amount is the least whole number that is
not below it (`IsAmount.ceilNat_eq`) or the nearest one, a half going up (`IsAmount.roundNat_eq`),
as far as the cap goes, and infinity becomes the cap itself. So a greater time, however it was
rounded, never becomes a lower count (`ceilNat_mono`).

The exact numbers that are amounts are those that are a short count of units, and not too many of
them (`isExact_iff`).
-/

namespace Tandem.Binary32

open Float.Model UnpackedFloat

/-- The amount as an exact number. -/
def value (x : Float32) : ℚ :=
  units x / 2 ^ 149

/-! ## Mantissas and exponents -/

/-- Rounding up by shifts is the ceiling of the exact number. -/
theorem ceilScaled_eq (m : ℕ) (e : ℤ) : ceilScaled m e = ⌈(m * 2 ^ e : ℚ)⌉₊ := by
  cases e with
  | ofNat k =>
    show m * 2 ^ k = _
    rw [Int.ofNat_eq_natCast, zpow_natCast]
    exact_mod_cast (Nat.ceil_natCast (R := ℚ) (m * 2 ^ k)).symm
  | negSucc k =>
    show (m + (2 ^ (k + 1) - 1)) / 2 ^ (k + 1) = _
    have hpow := Nat.two_pow_pos (k + 1)
    refine eq_of_forall_ge_iff fun n => ?_
    rw [Nat.ceil_le, zpow_negSucc, ← div_eq_mul_inv, div_le_iff₀ (by positivity),
      Nat.div_le_iff_le_mul_add_pred hpow, Nat.mul_comm]
    exact_mod_cast (by omega : _ ↔ m ≤ n * 2 ^ (k + 1))

/-- Rounding half up by shifts is the floor of a half more. -/
theorem roundScaled_eq (m : ℕ) (e : ℤ) : roundScaled m e = ⌊(m * 2 ^ e + 1 / 2 : ℚ)⌋₊ := by
  refine eq_of_forall_le_iff fun n => ?_
  rw [Nat.le_floor_iff (by positivity)]
  cases e with
  | ofNat k =>
    show n ≤ m * 2 ^ k ↔ _
    rw [Int.ofNat_eq_natCast, zpow_natCast]
    constructor
    · intro h
      have h : (n : ℚ) ≤ m * 2 ^ k := by exact_mod_cast h
      linarith
    · intro h
      by_contra hlt
      have hstep : ((m * 2 ^ k : ℕ) : ℚ) + 1 ≤ n := by exact_mod_cast Nat.not_le.mp hlt
      push_cast at hstep
      linarith
  | negSucc k =>
    show n ≤ (m + 2 ^ k) / 2 ^ (k + 1) ↔ _
    have hpow : (0 : ℚ) < 2 ^ (k + 1) := by positivity
    have hsum : (m * 2 ^ Int.negSucc k + 1 / 2 : ℚ) = (m + 2 ^ k : ℕ) / 2 ^ (k + 1) := by
      rw [zpow_negSucc, pow_succ]
      push_cast
      field_simp
    rw [Nat.le_div_iff_mul_le (Nat.two_pow_pos _), hsum, le_div_iff₀ hpow]
    exact_mod_cast Iff.rfl

/-- A word holds a count up to the greatest one. -/
theorem toNat_ofNat_of_le {n : ℕ} (h : n ≤ wordCap) : (UInt32.ofNat n).toNat = n :=
  UInt32.toNat_ofNat_of_lt' (Nat.lt_succ_of_le h)

/-! ## The range of exact numbers -/

section Range

variable {q : ℚ}

/-- A number is read as nothing if it is no more than half of the least one. -/
theorem nearest_unit_pos_iff (hq : 0 ≤ q) : 0 < nearest (q * 2 ^ 149) ↔ 1 / 2 ^ 150 < q := by
  rw [nearest_pos_iff (by positivity), div_lt_iff₀ two_pos, div_lt_iff₀ (by positivity), mul_assoc,
    ← pow_succ]

/-- A number is read as infinity if it is no less than half a digit above the greatest one. -/
theorem nearest_unit_lt_limit_iff (hq : 0 ≤ q) :
    nearest (q * 2 ^ 149) < limit ↔ q < 2 ^ 128 - 2 ^ 103 := by
  rw [nearest_lt_limit_iff (by positivity), ← lt_div_iff₀ (by positivity)]
  norm_num

end Range

/-! ## Counts -/

section Counts

variable {x y : Float32} {cap : ℕ}

theorem value_of_zero {s : Sign} (h : parts x = .zero s) : value x = 0 := by
  rw [value, units_of_zero h, Nat.cast_zero, zero_div]

/-- The value of a finite number is its mantissa, scaled by its exponent. -/
theorem value_of_finite {s : Sign} {m : ℕ} {e : ℤ} {hm : 0 < m} (h : parts x = .finite s m e hm) :
    value x = m * 2 ^ e := by
  rw [value, units_of_finite h, cast_scaled m (canonical_of_finite h).least,
    zpow_add₀ two_ne_zero]
  field_simp

/-- An amount is above zero as a number if it is one as an exact number. -/
theorem IsAmount.pos_iff (h : IsAmount x) : 0 < x ↔ 0 < value x := by
  rw [isAmount_zero.lt_iff h, value, div_pos_iff_of_pos_right (by positivity), Nat.cast_pos]
  rfl

/-- An amount becomes the least count that is not below it. -/
theorem IsAmount.ceilNat_eq (h : IsAmount x) (cap : ℕ) : ceilNat cap x = min cap ⌈value x⌉₊ := by
  unfold ceilNat
  cases h with
  | zero h => rw [value_of_zero h, h, Nat.ceil_zero, Nat.min_zero]
  | finite h => rw [value_of_finite h, h, ← ceilScaled_eq]

/-- An amount becomes the count nearest to it, the greater of two equally near ones. -/
theorem IsAmount.roundNat_eq (h : IsAmount x) (cap : ℕ) :
    roundNat cap x = min cap ⌊value x + 1 / 2⌋₊ := by
  unfold roundNat
  cases h with
  | zero h => rw [value_of_zero h, h, show ⌊(0 : ℚ) + 1 / 2⌋₊ = 0 by norm_num, Nat.min_zero]
  | finite h => rw [value_of_finite h, h, ← roundScaled_eq]

theorem ceilNat_infinity (h : parts x = .infinity .positive) (cap : ℕ) : ceilNat cap x = cap := by
  rw [ceilNat, h]

/-- What is greater before it is rounded does not become a lower count. -/
theorem ceilNat_mono {v w : ℚ} (hv : 0 ≤ v) (h : v ≤ w) (hx : IsNearest v x) (hy : IsNearest w y)
    (cap : ℕ) : ceilNat cap x ≤ ceilNat cap y := by
  have hmono := nearest_mono hv h
  cases hy with
  | infinity _ hy => exact (ceilNat_le cap x).trans (ceilNat_infinity hy cap).ge
  | amount hlt hy hunits =>
    cases hx with
    | infinity hle _ => exact absurd (hle.trans hmono) hlt.not_ge
    | amount _ hx hunits' =>
      rw [hx.ceilNat_eq, hy.ceilNat_eq]
      refine min_le_min_left cap (Nat.ceil_mono ?_)
      rw [value, value, hunits, hunits']
      gcongr

/-- Nothing becomes no count. -/
theorem ceilNat_of_isNearest_zero (hx : IsNearest 0 x) (cap : ℕ) : ceilNat cap x = 0 := by
  cases hx with
  | infinity hle _ => exact absurd (nearest_zero ▸ hle) (by decide)
  | amount _ hx hunits =>
    rw [hx.ceilNat_eq, value, hunits, nearest_zero, Nat.cast_zero, zero_div, Nat.ceil_zero,
      Nat.min_zero]

/-- What is one unit at least becomes a count of one at least. -/
theorem ceilNat_pos {v : ℚ} (hv : 1 ≤ v) (hx : IsNearest v x) (hcap : 0 < cap) :
    0 < ceilNat cap x := by
  cases hx with
  | infinity _ hx => rwa [ceilNat_infinity hx]
  | amount _ hx hunits =>
    have hone : 1 ≤ units x := by
      rw [hunits, ← pow_zero 2, ← nearest_two_pow 0]
      exact nearest_mono (Nat.cast_nonneg _) (by exact_mod_cast hv)
    rw [hx.ceilNat_eq]
    refine Nat.lt_min.mpr ⟨hcap, Nat.ceil_pos.mpr ?_⟩
    rw [value]
    positivity

end Counts

/-! ## Exact numbers -/

/-- The exact number is one of the amounts. -/
def IsExact (v : ℚ) : Prop :=
  ∃ x, IsAmount x ∧ value x = v

section Exact

variable {a b : ℕ} {v : ℚ} {x : Float32}

/-- A factor of a short count is short. -/
theorem IsShort.of_dvd (h : IsShort a) (ha : 0 < a) (hdvd : b ∣ a) : IsShort b := by
  obtain ⟨m, k, hm, rfl⟩ := h
  obtain ⟨j, o, hodd, rfl⟩ := Nat.exists_eq_two_pow_mul_odd (Nat.pos_of_dvd_of_pos hdvd ha).ne'
  -- The odd part of the factor is one of the mantissa.
  have hodvd : o ∣ m := by
    have hcoprime : Nat.Coprime o (2 ^ k) := (Nat.coprime_two_right.mpr hodd).pow_right k
    exact hcoprime.dvd_of_dvd_mul_right ((Nat.dvd_mul_left o _).trans hdvd)
  exact ⟨o, j, (Nat.le_of_dvd (Nat.pos_of_mul_pos_right ha) hodvd).trans_lt hm, Nat.mul_comm _ _⟩

/-- Zeros at the end make no number longer. -/
theorem IsShort.mul_two_pow (h : IsShort a) (k : ℕ) : IsShort (a * 2 ^ k) := by
  obtain ⟨m, j, hm, rfl⟩ := h
  exact ⟨m, j + k, hm, by rw [Nat.pow_add, Nat.mul_assoc]⟩

/-- Every count of units is rounded to a number. -/
theorem exists_isNearest (n : ℕ) : ∃ x, IsNearest n x := by
  obtain rfl | hn := Nat.eq_zero_or_pos n
  · exact ⟨0, Nat.cast_zero (R := ℚ) ▸ isNearest_zero parts_zero⟩
  · have h := (roundsTo_round (s := .positive) hn (-149)).isNearest
    rw [neg_add_cancel, zpow_zero, mul_one] at h
    exact ⟨_, h⟩

theorem IsAmount.units_lt (h : IsAmount x) : units x < limit := by
  cases h with
  | zero h => rw [units_of_zero h]; decide
  | @finite m e _ h =>
    have hcanonical := canonical_of_finite h
    rw [units_of_finite h]
    calc scaled m e < 2 ^ 24 * 2 ^ (e + 149).toNat :=
          Nat.mul_lt_mul_of_pos_right hcanonical.lt (Nat.two_pow_pos _)
      _ ≤ 2 ^ 24 * 2 ^ 253 := Nat.mul_le_mul_left _
          (Nat.pow_le_pow_right two_pos (by have := hcanonical.most; omega))

/-- An exact number has a short count of units, and not too many. -/
theorem isExact_iff : IsExact v ↔ ∃ n, IsShort n ∧ n < limit ∧ v = n / 2 ^ 149 := by
  constructor
  · rintro ⟨x, hx, rfl⟩
    exact ⟨units x, hx.isShort, hx.units_lt, rfl⟩
  · rintro ⟨n, hshort, hlt, rfl⟩
    obtain ⟨x, hx⟩ := exists_isNearest n
    obtain ⟨hamount, hunits⟩ := hx.exact hshort hlt
    exact ⟨x, hamount, by rw [value, hunits]⟩

/-- A multiple of the least number is exact if it is short and within the limit. -/
theorem isExact_div_iff {n : ℕ} : IsExact (n / 2 ^ 149) ↔ IsShort n ∧ n < limit := by
  rw [isExact_iff]
  constructor
  · rintro ⟨n', hshort, hlt, heq⟩
    obtain rfl : n = n' := by
      rw [div_left_inj' (by positivity)] at heq
      exact_mod_cast heq
    exact ⟨hshort, hlt⟩
  · rintro ⟨hshort, hlt⟩
    exact ⟨n, hshort, hlt, rfl⟩

/-- The value of a single-precision amount is exact. -/
theorem isExact_value (h : IsAmount x) : IsExact (value x) :=
  ⟨x, h, rfl⟩

/-- An exact number that is less than one can be doubled many times. -/
theorem IsExact.mul_two_pow (h : IsExact v) (hlt : v < 1) {k : ℕ} (hk : k ≤ 127) :
    IsExact (v * 2 ^ k) := by
  obtain ⟨n, hshort, -, rfl⟩ := isExact_iff.mp h
  have hunits : (n / 2 ^ 149 * 2 ^ k : ℚ) = (n * 2 ^ k : ℕ) / 2 ^ 149 := by
    push_cast
    ring
  rw [hunits, isExact_div_iff]
  refine ⟨hshort.mul_two_pow k, ?_⟩
  have hn : n < 2 ^ 149 := by
    rw [div_lt_one (by positivity)] at hlt
    exact_mod_cast hlt
  calc n * 2 ^ k < 2 ^ 149 * 2 ^ k := Nat.mul_lt_mul_of_pos_right hn (Nat.two_pow_pos k)
    _ ≤ 2 ^ 149 * 2 ^ 127 := Nat.mul_le_mul_left _ (Nat.pow_le_pow_right two_pos hk)
    _ < limit := by decide

/-- So many times an amount, in units. -/
theorem value_mul_natCast (x : Float32) (n : ℕ) :
    value x * n = (units x * n : ℕ) / 2 ^ 149 := by
  rw [value]
  push_cast
  ring

/-- If a product is exact and so is one of its factors, the other one has no more digits. -/
theorem IsExact.of_mul {n : ℕ} (hv : IsExact v) (h : IsExact (v * (n / 2 ^ 149))) (hpos : 0 < v)
    (hn : 0 < n) (hlt : n < limit) : IsExact (n / 2 ^ 149) := by
  obtain ⟨a, -, -, rfl⟩ := isExact_iff.mp hv
  obtain ⟨b, hshort, -, hb⟩ := isExact_iff.mp h
  have hprod : a * n = b * 2 ^ 149 := by
    have hcast : (a * n : ℚ) = b * 2 ^ 149 := by
      field_simp at hb
      linarith
    exact_mod_cast hcast
  have ha : 0 < a := by
    rw [div_pos_iff_of_pos_right (by positivity)] at hpos
    exact_mod_cast hpos
  rw [isExact_div_iff]
  exact ⟨(hprod ▸ hshort.mul_two_pow 149).of_dvd (Nat.mul_pos ha hn) (Nat.dvd_mul_left n a), hlt⟩

/-- What is nearest to an exact number is that number. -/
theorem IsExact.value_eq (h : IsExact v) (hx : IsNearest (v * 2 ^ 149) x) :
    IsAmount x ∧ value x = v := by
  obtain ⟨n, hshort, hlt, rfl⟩ := isExact_iff.mp h
  rw [div_mul_cancel₀ _ (by positivity)] at hx
  obtain ⟨hamount, hunits⟩ := hx.exact hshort hlt
  exact ⟨hamount, by rw [value, hunits]⟩

/-- A product of amounts that is an exact number is not rounded. -/
theorem IsAmount.value_mul {y : Float32} (hx : IsAmount x) (hy : IsAmount y)
    (h : IsExact (value x * value y)) : IsAmount (x * y) ∧ value (x * y) = value x * value y := by
  refine h.value_eq ?_
  have hunits : value x * value y * 2 ^ 149 = units x * units y / 2 ^ 149 := by
    rw [value, value]
    field_simp
  exact hunits ▸ hx.mul hy

theorem two_pow_lt_limit_iff {k : ℕ} : 2 ^ k < limit ↔ k < 277 := by
  obtain hk | hk := Nat.le_total k 253
  · have hlt : 2 ^ k < limit :=
      (Nat.pow_le_pow_right two_pos hk).trans_lt (by decide : 2 ^ 253 < limit)
    exact iff_of_true hlt (by omega)
  · obtain ⟨j, rfl⟩ := Nat.exists_eq_add_of_le hk
    rw [limit, Nat.pow_add, Nat.mul_comm, Nat.mul_lt_mul_right (Nat.two_pow_pos 253),
      Nat.pow_lt_pow_iff_right one_lt_two]
    omega

/-- The powers of two in the range are exact. -/
theorem isExact_two_zpow {e : ℤ} (hlow : -149 ≤ e) (hhigh : e < 128) : IsExact (2 ^ e) := by
  obtain ⟨k, hk⟩ : ∃ k : ℕ, (k : ℤ) = e + 149 := ⟨(e + 149).toNat, by omega⟩
  have hvalue : (2 : ℚ) ^ e = (2 ^ k : ℕ) / 2 ^ 149 := by
    rw [eq_div_iff (by positivity)]
    push_cast
    rw [← zpow_natCast 2 k, hk, zpow_add₀ two_ne_zero]
    rfl
  rw [hvalue, isExact_div_iff]
  exact ⟨⟨1, k, by decide, (Nat.one_mul _).symm⟩, two_pow_lt_limit_iff.mpr (by omega)⟩

/-- An exact number below one is below it by one part in `2 ^ 24` at least. -/
theorem IsExact.ceil_lt_of_lt_one (h : IsExact v) (hlt : v < 1) : ⌈v * 2 ^ 24⌉₊ < 2 ^ 24 := by
  obtain ⟨_, ⟨m, k, hm, rfl⟩, -, rfl⟩ := isExact_iff.mp h
  have hbelow : m * 2 ^ k < 2 ^ 149 := by
    rw [div_lt_one (by positivity)] at hlt
    exact_mod_cast hlt
  have hgap : m * 2 ^ k * 2 ^ 24 ≤ (2 ^ 24 - 1) * 2 ^ 149 := by
    obtain hk | hk := Nat.le_total k 125
    · calc m * 2 ^ k * 2 ^ 24 = m * 2 ^ (k + 24) := by rw [Nat.mul_assoc, Nat.pow_add]
        _ ≤ (2 ^ 24 - 1) * 2 ^ 149 := Nat.mul_le_mul (by omega)
          (Nat.pow_le_pow_right two_pos (by omega))
    · -- Both sides have at least 125 zeros at their ends.
      obtain ⟨j, rfl⟩ := Nat.exists_eq_add_of_le hk
      have hfew : m * 2 ^ j < 2 ^ 24 := by
        rw [Nat.pow_add, Nat.mul_left_comm, Nat.pow_add 2 125 24] at hbelow
        exact Nat.lt_of_mul_lt_mul_left hbelow
      calc m * 2 ^ (125 + j) * 2 ^ 24 = m * 2 ^ j * 2 ^ 149 := by ring
        _ ≤ (2 ^ 24 - 1) * 2 ^ 149 := Nat.mul_le_mul_right _ (by omega)
  refine Nat.lt_of_le_of_lt (Nat.ceil_le.mpr (?_ : _ ≤ ((2 ^ 24 - 1 : ℕ) : ℚ))) (by decide)
  rw [div_mul_eq_mul_div, div_le_iff₀ (by positivity)]
  exact_mod_cast hgap

/-- An exact number below the greatest word is not rounded up to more than it. -/
theorem IsExact.ceil_le_wordCap (h : IsExact v) (hlt : v < 2 ^ 32) : ⌈v⌉₊ ≤ wordCap := by
  obtain ⟨_, ⟨m, k, hm, rfl⟩, -, rfl⟩ := isExact_iff.mp h
  obtain hk | hk := Nat.le_total 149 k
  · obtain ⟨j, rfl⟩ := Nat.exists_eq_add_of_le hk
    have hwhole : ((m * 2 ^ (149 + j) : ℕ) : ℚ) / 2 ^ 149 = (m * 2 ^ j : ℕ) := by
      rw [div_eq_iff (by positivity), Nat.pow_add]
      push_cast
      ring
    rw [hwhole] at hlt ⊢
    rw [Nat.ceil_natCast]
    exact Nat.le_of_lt_succ (by exact_mod_cast hlt)
  · have hle : ((m * 2 ^ k : ℕ) : ℚ) / 2 ^ 149 ≤ m := by
      rw [div_le_iff₀ (by positivity)]
      push_cast
      gcongr
      exact one_le_two
    calc ⌈((m * 2 ^ k : ℕ) : ℚ) / 2 ^ 149⌉₊ ≤ m := Nat.ceil_le.mpr hle
      _ ≤ wordCap := (Nat.le_of_lt hm).trans (by decide)

end Exact

end Tandem.Binary32
