import Tandem.Proofs.Binary32.Nearest
import Mathlib.Tactic.Ring

/-!
# Sums of single-precision numbers

Finite numbers that are not below zero (`IsAmount`) are whole multiples of the least positive one,
and are compared and added here in these `units`. What an operation comes to is the number nearest
to the exact result (`IsNearest`). So a sum is never less than what was there before, and is only
the same if what was added is tiny against it, one part in `2 ^ 24` or less (`IsAmount.add_cases`).
-/

namespace Tandem.Binary32

open Float.Model UnpackedFloat

/-! ## Amounts -/

/-- The number is finite, and not below zero. -/
inductive IsAmount (x : Float32) : Prop
  | zero {s : Sign} : parts x = .zero s → IsAmount x
  | finite {m : Nat} {e : Int} {h : 0 < m} : parts x = .finite .positive m e h → IsAmount x

theorem isAmount_zero : IsAmount 0 :=
  .zero parts_zero

/-- The amount, in units of the least one above zero. -/
def units (x : Float32) : Nat :=
  match parts x with
  | .finite _ m e _ => scaled m e
  | _ => 0

theorem units_of_zero {x : Float32} {s : Sign} (h : parts x = .zero s) : units x = 0 := by
  rw [units, h]

theorem units_of_finite {x : Float32} {s : Sign} {m : Nat} {e : Int} {hm : 0 < m}
    (h : parts x = .finite s m e hm) : units x = scaled m e := by
  rw [units, h]

/-- The parts of a finite number are canonical. -/
theorem canonical_of_finite {x : Float32} {s : Sign} {m : Nat} {e : Int} {hm : 0 < m}
    (h : parts x = .finite s m e hm) : Canonical m e := by
  have hx := arePartsOfOne_parts x
  rwa [h] at hx

/-- An amount above zero has units. -/
theorem units_pos_of_finite {x : Float32} {s : Sign} {m : Nat} {e : Int} {hm : 0 < m}
    (h : parts x = .finite s m e hm) : 0 < units x := by
  rw [units_of_finite h]
  exact Nat.mul_pos hm (Nat.two_pow_pos _)

/-- Of canonical parts, the greater exponent makes the greater number. -/
theorem scaled_lt_of_lt {m m' : Nat} {e e' : Int} (h : Canonical m e) (h' : Canonical m' e')
    (he : e < e') : scaled m e < scaled m' e' := by
  have hnormal : 2 ^ 23 ≤ m' := h'.normal.resolve_left (by have := h.least; omega)
  have hexp : (e + 149).toNat + 1 ≤ (e' + 149).toNat := by
    have := h.least
    omega
  calc scaled m e < 2 ^ 24 * 2 ^ (e + 149).toNat :=
        Nat.mul_lt_mul_of_pos_right h.lt (Nat.two_pow_pos _)
    _ = 2 ^ 23 * 2 ^ ((e + 149).toNat + 1) := by ring
    _ ≤ scaled m' e' := Nat.mul_le_mul hnormal (Nat.pow_le_pow_right (by decide) hexp)

/-- Of finite numbers above zero, the one with the greater exponent has more units, and if these are
the same, the one with the greater mantissa. -/
theorem compare_scaled {m m' : Nat} {e e' : Int} (h : Canonical m e) (h' : Canonical m' e') :
    compare (scaled m e) (scaled m' e') = (compare e e').then (compare m m') := by
  obtain hlt | rfl | hgt := lt_trichotomy e e'
  · rw [compare_lt_iff_lt.mpr hlt, compare_lt_iff_lt.mpr (scaled_lt_of_lt h h' hlt)]
    rfl
  · rw [compare_eq_iff_eq.mpr rfl, scaled, scaled, ← cmp_eq_compare, ← cmp_eq_compare]
    exact cmp_mul_pos_right (Nat.two_pow_pos _) _ _
  · rw [compare_gt_iff_gt.mpr hgt, compare_gt_iff_gt.mpr (scaled_lt_of_lt h' h hgt)]
    rfl

/-- An exponent that is too great gives infinity. -/
theorem ofParts_of_lt {s : Sign} {m : Nat} {e : Int} (h : 0 < m) (hm : m < 2 ^ 24) (he : 104 < e) :
    ofParts (.finite s m e h) = ofParts (.infinity s) := by
  have hpack : UnpackedFloat.pack .binary32 (.finite s m e h) =
      UnpackedFloat.pack .binary32 (.infinity s) := by
    rw [pack_finite s h hm (by omega), if_pos he]
    rfl
  show Float32.ofModel ⟨UInt32.ofBitVec (UnpackedFloat.pack .binary32 _), _⟩ = .ofModel ⟨_, _⟩
  congr 2
  exact congrArg UInt32.ofBitVec hpack

/-! ## What numbers are rounded to -/

/-- The number is the one nearest to `v` units : an amount, or infinity if these are too many. -/
inductive IsNearest (v : ℚ) (x : Float32) : Prop
  | amount : nearest v < limit → IsAmount x → units x = nearest v → IsNearest v x
  | infinity : limit ≤ nearest v → parts x = .infinity .positive → IsNearest v x

/-- What is rounded, put together, is the nearest number. -/
theorem RoundsTo.isNearest {v : ℚ} {u : UnpackedFloat} (h : RoundsTo .positive v u) :
    IsNearest v (ofParts u) := by
  cases h with
  | zero hzero =>
    have hparts := parts_ofParts (u := .zero .positive) trivial
    exact .amount (hzero ▸ by decide) (.zero hparts) ((units_of_zero hparts).trans hzero.symm)
  | @finite m e hm hlt hleast hnormal hscaled =>
    by_cases he : 104 < e
    · refine .infinity ?_ (ofParts_of_lt hm hlt he ▸ parts_ofParts trivial)
      rw [← hscaled]
      calc limit = 2 ^ 23 * 2 ^ 254 := by decide
        _ ≤ scaled m e := Nat.mul_le_mul (hnormal.resolve_left (by omega))
          (Nat.pow_le_pow_right two_pos (by omega))
    · have hparts := parts_ofParts (u := .finite .positive m e hm)
        ⟨hm, hlt, hleast, Int.not_lt.mp he, hnormal⟩
      refine .amount ?_ (.finite hparts) ((units_of_finite hparts).trans hscaled)
      rw [← hscaled]
      calc scaled m e < 2 ^ 24 * 2 ^ (e + 149).toNat :=
            Nat.mul_lt_mul_of_pos_right hlt (Nat.two_pow_pos _)
        _ ≤ 2 ^ 24 * 2 ^ 253 := Nat.mul_le_mul_left _ (Nat.pow_le_pow_right two_pos (by omega))
        _ = limit := rfl

section Amounts

variable {x y : Float32}

/-- Amounts compare as their units do. -/
theorem IsAmount.compare_parts (hx : IsAmount x) (hy : IsAmount y) :
    (parts x).compare (parts y) = some (compare (units x) (units y)) := by
  cases hx with
  | zero hx =>
    cases hy with
    | zero hy =>
      rw [units_of_zero hx, units_of_zero hy, hx, hy]
      rfl
    | finite hy =>
      rw [units_of_zero hx, compare_lt_iff_lt.mpr (units_pos_of_finite hy), hx, hy]
      rfl
  | finite hx =>
    cases hy with
    | zero hy =>
      rw [units_of_zero hy, compare_gt_iff_gt.mpr (units_pos_of_finite hx), hx, hy]
      rfl
    | finite hy =>
      rw [units_of_finite hx, units_of_finite hy,
        compare_scaled (canonical_of_finite hx) (canonical_of_finite hy), hx, hy]
      rfl

/-- Amounts compare like their units. -/
theorem IsAmount.lt_iff (hx : IsAmount x) (hy : IsAmount y) : x < y ↔ units x < units y := by
  rw [Binary32.lt_iff, hx.compare_parts hy, Option.some_inj, compare_lt_iff_lt]

theorem IsAmount.le_iff (hx : IsAmount x) (hy : IsAmount y) : x ≤ y ↔ units x ≤ units y := by
  rw [Binary32.le_iff, hx.compare_parts hy, Option.any_some, Ordering.isLE_iff_ne_gt,
    compare_gt_iff_gt]
  exact Nat.not_lt

/-- Amounts with the same units are the same, but for the sign of zero. -/
theorem IsAmount.eq_of_units_eq (hx : IsAmount x) (hy : IsAmount y) (h : units x = units y)
    (hpos : 0 < units x) : x = y := by
  cases hx with
  | zero hx => cases units_of_zero hx ▸ hpos
  | @finite m e _ hx =>
    cases hy with
    | zero hy => cases units_of_zero hy ▸ h ▸ hpos
    | @finite m' e' _ hy =>
      rw [units_of_finite hx, units_of_finite hy] at h
      have hthen : (compare e e').then (compare m m') = .eq := by
        rw [← compare_scaled (canonical_of_finite hx) (canonical_of_finite hy)]
        exact compare_eq_iff_eq.mpr h
      obtain ⟨he, hm⟩ := Ordering.then_eq_eq.mp hthen
      rw [← ofParts_parts x, ← ofParts_parts y, hx, hy,
        finite_congr (compare_eq_iff_eq.mp hm) (compare_eq_iff_eq.mp he)]

theorem IsAmount.ne_infinity (hx : IsAmount x) : parts x ≠ .infinity .positive := by
  cases hx with
  | zero hx => rw [hx]; nofun
  | finite hx => rw [hx]; nofun

/-- No amount is above infinity. -/
theorem IsAmount.le_of_infinity (hx : IsAmount x) (hy : parts y = .infinity .positive) : x ≤ y := by
  rw [Binary32.le_iff, hy]
  cases hx with
  | zero hx => rw [hx]; rfl
  | finite hx => rw [hx]; rfl

/-! ## Sums -/

/-- The units of an amount are short. -/
theorem IsAmount.isShort (hx : IsAmount x) : IsShort (units x) := by
  cases hx with
  | zero hx => exact ⟨0, 0, by decide, units_of_zero hx⟩
  | finite hx => exact ⟨_, _, (canonical_of_finite hx).lt, units_of_finite hx⟩

/-- A positive number is normalized by rounding it. -/
theorem normalize_of_pos {n : Nat} (h : 0 < n) (e : Int) (s : Sign) :
    UnpackedFloat.normalize .binary32 n e s = UnpackedFloat.round .binary32 .positive n e := by
  have hgt : compare (n : Int) 0 = .gt := compare_gt_iff_gt.mpr (Int.natCast_pos.mpr h)
  unfold UnpackedFloat.normalize
  rw [hgt]
  rfl

theorem cast_scaled (m : ℕ) {e : ℤ} (h : -149 ≤ e) : (scaled m e : ℚ) = m * 2 ^ (e + 149) := by
  rw [scaled, ← Int.toNat_of_nonneg (show 0 ≤ e + 149 by omega)]
  push_cast
  rfl

/-- What two finite numbers above zero add up to is the sum of their units, rounded. -/
theorem roundsTo_add {m m' : Nat} {e e' : Int} (hm : 0 < m) (hm' : 0 < m') (he : -149 ≤ e)
    (he' : -149 ≤ e') : RoundsTo .positive (scaled m e + scaled m' e' : ℕ)
      (UnpackedFloat.add .binary32 (.finite .positive m e hm) (.finite .positive m' e' hm')) := by
  obtain ⟨k, hk⟩ : ∃ k : Nat, (e - min e e').toNat = k := ⟨_, rfl⟩
  obtain ⟨l, hl⟩ : ∃ l : Nat, (e' - min e e').toNat = l := ⟨_, rfl⟩
  have hadd : UnpackedFloat.add .binary32 (.finite .positive m e hm) (.finite .positive m' e' hm') =
      UnpackedFloat.normalize .binary32
        ((m <<< (e - min e e').toNat + m' <<< (e' - min e e').toNat : Nat) : Int) (min e e')
        .positive := rfl
  have hpos : 0 < m * 2 ^ k + m' * 2 ^ l := Nat.add_pos_left (Nat.mul_pos hm (Nat.two_pow_pos k)) _
  have hunits : ((scaled m e + scaled m' e' : ℕ) : ℚ) =
      (m * 2 ^ k + m' * 2 ^ l : ℕ) * 2 ^ (min e e' + 149) := by
    rw [Nat.cast_add, cast_scaled m he, cast_scaled m' he',
      show e + 149 = (k : ℤ) + (min e e' + 149) by omega,
      show e' + 149 = (l : ℤ) + (min e e' + 149) by omega,
      zpow_add₀ two_ne_zero (k : ℤ), zpow_add₀ two_ne_zero (l : ℤ)]
    push_cast [zpow_natCast]
    ring
  rw [hadd, hk, hl, Nat.shiftLeft_eq, Nat.shiftLeft_eq, normalize_of_pos hpos, hunits]
  exact roundsTo_round hpos _

theorem add_eq_of_parts {z : Float32}
    (h : UnpackedFloat.add .binary32 (parts x) (parts y) = parts z) : x + y = z := by
  rw [add_eq, h, ofParts_parts]

/-- Infinity absorbs every amount. -/
theorem IsAmount.infinity_add (hx : parts x = .infinity .positive) (hy : IsAmount y) :
    x + y = x := by
  refine add_eq_of_parts ?_
  rw [hx]
  cases hy with
  | zero hy => rw [hy]; rfl
  | finite hy => rw [hy]; rfl

/-- What is added and lost in rounding is tiny. -/
theorem tiny_of_nearest_add {a b : ℕ} (h : nearest (a + b : ℕ) = a) : 2 ^ 24 * b ≤ a := by
  have hv : (0 : ℚ) ≤ (a + b : ℕ) := Nat.cast_nonneg _
  have hmany := le_evenRound_div_cut hv
  have herr := abs_evenRound_sub_le (x := ((a + b : ℕ) : ℚ) / 2 ^ cut (a + b : ℕ)) (by positivity)
  unfold nearest at h
  generalize cut ((a + b : ℕ) : ℚ) = k at *
  generalize evenRound (((a + b : ℕ) : ℚ) / 2 ^ k) = R at *
  -- What is lost is half of the last digit at most.
  have hhalf : 2 * b ≤ 2 ^ k := by
    have hpow : (0 : ℚ) < 2 ^ k := by positivity
    have hdiv : ((a + b : ℕ) : ℚ) / 2 ^ k - R = b / 2 ^ k := by
      rw [← h]
      push_cast
      field_simp
      ring
    rw [abs_sub_comm, hdiv, abs_of_nonneg (by positivity), div_le_div_iff₀ hpow two_pos] at herr
    have : ((2 * b : ℕ) : ℚ) ≤ (2 ^ k : ℕ) := by
      push_cast
      linarith
    exact_mod_cast this
  obtain rfl | hk := Nat.eq_zero_or_pos k
  · omega
  · calc 2 ^ 24 * b = 2 ^ 23 * (2 * b) := by ring
      _ ≤ R * 2 ^ k := Nat.mul_le_mul (hmany hk.ne') hhalf
      _ = a := h

/-- A sum of amounts is infinity, if it is too much, or an amount no less than the first. If it is
no more either, the second is tiny against the first. -/
theorem IsAmount.add_cases (hx : IsAmount x) (hy : IsAmount y) :
    parts (x + y) = .infinity .positive ∨
      IsAmount (x + y) ∧ units x ≤ units (x + y) ∧
        (units (x + y) = units x → 2 ^ 24 * units y ≤ units x) := by
  have hx₀ := hx
  cases hx with
  | @zero s hx =>
    rw [units_of_zero hx]
    cases hy with
    | @zero s' hy =>
      have hsum : parts (x + y) = .zero (if s == s' then s else .positive) := by
        rw [add_eq, hx, hy]
        cases s <;> cases s' <;> exact parts_ofParts trivial
      rw [units_of_zero hy, units_of_zero hsum]
      exact Or.inr ⟨.zero hsum, Nat.le_refl 0, fun _ => Nat.le_refl 0⟩
    | finite hy =>
      have hsum : x + y = y := add_eq_of_parts (by rw [hx, hy]; rfl)
      rw [hsum]
      exact Or.inr ⟨.finite hy, Nat.zero_le _, fun h => by rw [h, Nat.mul_zero]⟩
  | @finite _ _ hm hx =>
    cases hy with
    | zero hy =>
      have hsum : x + y = x := add_eq_of_parts (by rw [hx, hy]; rfl)
      rw [hsum, units_of_zero hy]
      exact Or.inr ⟨.finite hx, Nat.le_refl _, fun _ => Nat.zero_le _⟩
    | @finite _ _ hm' hy =>
      have hsum := (roundsTo_add hm hm' (canonical_of_finite hx).least
        (canonical_of_finite hy).least).isNearest
      rw [← hx, ← hy, ← units_of_finite hx, ← units_of_finite hy, ← add_eq] at hsum
      cases hsum with
      | infinity _ hinf => exact Or.inl hinf
      | amount _ hamount hunits =>
        refine Or.inr ⟨hamount, ?_, fun h => tiny_of_nearest_add (hunits.symm.trans h)⟩
        calc units x = nearest (units x) := (nearest_of_isShort hx₀.isShort).symm
          _ ≤ nearest (units x + units y : ℕ) :=
            nearest_mono (Nat.cast_nonneg _) (by exact_mod_cast Nat.le_add_right _ _)
          _ = units (x + y) := hunits.symm

end Amounts

end Tandem.Binary32
