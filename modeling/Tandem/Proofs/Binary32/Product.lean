import Tandem.Proofs.Binary32.Sum

/-!
# Products, quotients and decimal numbers

Like a sum, a product and a quotient of amounts is the number nearest to the exact one
(`IsAmount.mul`, `IsAmount.div`). So is the number that a whole or a decimal number is read as
(`isNearest_ofNat`, `isNearest_ofScientific`), although there are several ways to work it out : if
the coefficient and the power of ten are small both of them are exact, and one operation does it. An
exponent beyond the range is not worked out at all, but gives nothing or infinity.
-/

namespace Tandem.Binary32

open Float.Model UnpackedFloat

theorem mul_eq (x y : Float32) :
    x * y = ofParts (UnpackedFloat.mul .binary32 (parts x) (parts y)) :=
  rfl

theorem div_eq (x y : Float32) :
    x / y = ofParts (UnpackedFloat.div .binary32 (parts x) (parts y)) :=
  rfl

theorem nearest_zero : nearest 0 = 0 :=
  nearest_of_isShort ⟨0, 0, by decide, rfl⟩

/-- A zero is nearest to zero. -/
theorem isNearest_zero {x : Float32} {s : Sign} (h : parts x = .zero s) : IsNearest 0 x :=
  .amount (nearest_zero ▸ by decide) (.zero h) ((units_of_zero h).trans nearest_zero.symm)

/-- With 24 digits in the mantissa an exponent is none too great. -/
theorem le_target {m : ℕ} {e : ℤ} (h : 2 ^ 23 ≤ m) : e ≤ target m e := by
  have := (Nat.le_log2 (by omega)).mpr h
  rw [target_eq]
  omega

/-! ## Products -/

section Products

variable {m m' : ℕ} {e e' : ℤ}

/-- The product of mantissas, with the sum of the exponents, is rounded. -/
theorem roundsTo_mul (e e' : ℤ) (h : 0 < m) (h' : 0 < m')
    (he : e + e' ≤ target (m * m') (e + e')) :
    RoundsTo .positive ((m * m' : ℕ) * 2 ^ (e + e' + 149))
      (UnpackedFloat.mul .binary32 (.finite .positive m e h) (.finite .positive m' e' h')) := by
  refine roundsTo_roundWithAccuracy (by positivity) ?_ (Or.inl (Nat.mul_pos h h')) he
  rw [mul_div_cancel_right₀ _ (by positivity)]
  exact stands_exact _

/-- A product of mantissas has 24 digits, unless it is one of the least amounts. -/
theorem Canonical.mul_le_target (h : Canonical m e) (h' : Canonical m' e') :
    e + e' ≤ target (m * m') (e + e') := by
  obtain he | hm := h.normal
  · obtain he' | hm' := h'.normal
    · rw [target_eq]
      omega
    · exact le_target (hm'.trans (Nat.le_mul_of_pos_left m' h.pos))
  · exact le_target (hm.trans (Nat.le_mul_of_pos_right m h'.pos))

/-- The product of two amounts is the number nearest to the exact product. -/
theorem IsAmount.mul {x y : Float32} (hx : IsAmount x) (hy : IsAmount y) :
    IsNearest (units x * units y / 2 ^ 149) (x * y) := by
  cases hx with
  | zero hx =>
    rw [units_of_zero hx, Nat.cast_zero, zero_mul, zero_div, mul_eq, hx]
    cases hy with
    | zero hy => rw [hy]; exact isNearest_zero (parts_ofParts trivial)
    | finite hy => rw [hy]; exact isNearest_zero (parts_ofParts trivial)
  | finite hx =>
    cases hy with
    | zero hy =>
      rw [units_of_zero hy, Nat.cast_zero, mul_zero, zero_div, mul_eq, hx, hy]
      exact isNearest_zero (parts_ofParts trivial)
    | finite hy =>
      have h := canonical_of_finite hx
      have h' := canonical_of_finite hy
      have hmul := (roundsTo_mul _ _ h.pos h'.pos (h.mul_le_target h')).isNearest
      rw [mul_eq, hx, hy, units_of_finite hx, units_of_finite hy, cast_scaled _ h.least,
        cast_scaled _ h'.least]
      convert hmul using 1
      rw [zpow_add₀ two_ne_zero _ (149 : ℤ), zpow_add₀ two_ne_zero _ (149 : ℤ),
        zpow_add₀ two_ne_zero _ (149 : ℤ), zpow_add₀ two_ne_zero]
      push_cast
      field_simp
      ring

end Products

/-! ## Quotients -/

section Quotients

variable {m m' : ℕ}

/-- The quotient is worked out to enough digits that what is left over only tells how to round. -/
theorem roundsTo_div (e e' : ℤ) (h : 0 < m) (h' : 0 < m') :
    RoundsTo .positive (m * 2 ^ e / (m' * 2 ^ e') * 2 ^ 149)
      (UnpackedFloat.div .binary32 (.finite .positive m e h) (.finite .positive m' e' h')) := by
  obtain ⟨t, ht⟩ : ∃ t, min (e - e') (max (m.log2 + 1 + e - (m'.log2 + 1 + e') - 24) (-149)) = t :=
    ⟨_, rfl⟩
  obtain ⟨k, hk⟩ : ∃ k : ℕ, (e - e' - t).toNat = k := ⟨_, rfl⟩
  have hdiv : UnpackedFloat.div .binary32 (.finite .positive m e h) (.finite .positive m' e' h') =
      roundWithAccuracy .binary32 .positive (m * 2 ^ k / m') t
        (accuracyOfFraction (m * 2 ^ k % m') m') := by
    rw [← Nat.shiftLeft_eq, ← hk, ← ht]
    rfl
  -- The quotient has 24 digits, unless its exponent is one of the least.
  have hmany : t ≤ -149 ∨ 2 ^ 23 ≤ m * 2 ^ k / m' := by
    refine or_iff_not_imp_left.mpr fun hlow => ?_
    rw [Nat.le_div_iff_mul_le h']
    calc 2 ^ 23 * m' ≤ 2 ^ 23 * 2 ^ (m'.log2 + 1) :=
          Nat.mul_le_mul_left _ (Nat.le_of_lt Nat.lt_log2_self)
      _ = 2 ^ (23 + (m'.log2 + 1)) := (Nat.pow_add 2 _ _).symm
      _ ≤ 2 ^ (m.log2 + k) := Nat.pow_le_pow_right two_pos (by omega)
      _ = 2 ^ m.log2 * 2 ^ k := Nat.pow_add 2 _ _
      _ ≤ m * 2 ^ k := Nat.mul_le_mul_right _ (Nat.log2_self_le h.ne')
  rw [hdiv]
  refine roundsTo_roundWithAccuracy (by positivity) ?_ ?_ ?_
  · have hvalue : (m * 2 ^ e / (m' * 2 ^ e') * 2 ^ 149 / 2 ^ (t + 149) : ℚ) =
        (m * 2 ^ k : ℕ) / m' := by
      rw [show e = (k : ℤ) + t + e' by omega, zpow_add₀ two_ne_zero, zpow_add₀ two_ne_zero,
        zpow_add₀ two_ne_zero]
      push_cast [zpow_natCast]
      field_simp
      norm_num
    rw [hvalue]
    exact stands_quotient _ h'
  · obtain hlow | hlong := hmany
    · exact Or.inr hlow
    · exact Or.inl (by omega)
  · obtain hlow | hlong := hmany
    · rw [target_eq]
      omega
    · exact le_target hlong

/-- The quotient of two amounts is the number nearest to the exact quotient. -/
theorem IsAmount.div {x y : Float32} (hx : IsAmount x) (hy : IsAmount y) (hpos : 0 < units y) :
    IsNearest (units x / units y * 2 ^ 149) (x / y) := by
  cases hy with
  | zero hy => cases units_of_zero hy ▸ hpos
  | @finite m' e' _ hy =>
    cases hx with
    | zero hx =>
      rw [units_of_zero hx, Nat.cast_zero, zero_div, zero_mul, div_eq, hx, hy]
      exact isNearest_zero (parts_ofParts trivial)
    | @finite m e _ hx =>
      have h := canonical_of_finite hx
      have h' := canonical_of_finite hy
      have hdiv := (roundsTo_div e e' h.pos h'.pos).isNearest
      rw [div_eq, hx, hy, units_of_finite hx, units_of_finite hy, cast_scaled _ h.least,
        cast_scaled _ h'.least]
      convert hdiv using 1
      rw [zpow_add₀ two_ne_zero _ (149 : ℤ), zpow_add₀ two_ne_zero _ (149 : ℤ)]
      field_simp

end Quotients

/-! ## Whole and decimal numbers -/

/-- A whole number is read as the nearest number. -/
theorem isNearest_ofNat (n : ℕ) :
    IsNearest (n * 2 ^ 149) (ofParts (UnpackedFloat.ofNat .binary32 n)) := by
  obtain rfl | hn := Nat.eq_zero_or_pos n
  · rw [Nat.cast_zero, zero_mul]
    exact isNearest_zero (parts_ofParts trivial)
  · have hround : UnpackedFloat.ofNat .binary32 n = UnpackedFloat.round .binary32 .positive n 0 :=
      normalize_of_pos hn 0 .positive
    rw [hround]
    have h := (roundsTo_round (s := .positive) hn 0).isNearest
    norm_num at h ⊢
    exact h

/-- A 32-bit word becomes the nearest single-precision number. -/
theorem isNearest_toFloat32 (n : UInt32) : IsNearest (n.toNat * 2 ^ 149) n.toFloat32 :=
  isNearest_ofNat n.toNat

/-- What is beyond the limit is rounded to infinity. -/
theorem isNearest_infinity {v : ℚ} (h : limit ≤ v) :
    IsNearest v (ofParts (.infinity .positive)) := by
  refine .infinity ?_ (parts_ofParts trivial)
  have hlimit : nearest limit = limit := nearest_of_isShort ⟨2 ^ 23, 254, by decide, by decide⟩
  exact hlimit ▸ nearest_mono (Nat.cast_nonneg _) h

/-- What is at most half of the least number is rounded to zero. -/
theorem isNearest_of_le_half {v : ℚ} (hv : 0 ≤ v) (h : v ≤ 1 / 2) :
    IsNearest v (ofParts (.zero .positive)) := by
  have hparts := parts_ofParts (u := .zero .positive) trivial
  have hnothing : nearest v = 0 := by
    have := (nearest_pos_iff hv).not.mpr h.not_gt
    omega
  exact .amount (hnothing ▸ by decide) (.zero hparts) ((units_of_zero hparts).trans hnothing.symm)

section Decimals

variable {n : ℕ} {e : ℤ}

/-- A number with a great power of ten is infinite. -/
theorem limit_le_decimal (hn : n ≠ 0) (he : 256 < e) : (limit : ℚ) ≤ n * 10 ^ e * 2 ^ 149 := by
  have hone : (1 : ℚ) ≤ n := by exact_mod_cast Nat.pos_of_ne_zero hn
  have hpow : (2 : ℚ) ^ 128 ≤ 10 ^ e :=
    calc (2 : ℚ) ^ 128 ≤ 10 ^ (128 : ℤ) := by norm_num
      _ ≤ 10 ^ e := zpow_le_zpow_right₀ (by norm_num) (by omega)
  calc (limit : ℚ) = 2 ^ 128 * 2 ^ 149 := by rw [limit]; norm_num
    _ ≤ n * 10 ^ e * 2 ^ 149 := by
      gcongr
      exact hpow.trans (le_mul_of_one_le_left (by positivity) hone)

/-- A number with a small power of ten is less than half of the least one. -/
theorem decimal_le_half (he : e < -(256 + (n.log2 : ℤ))) : (n : ℚ) * 10 ^ e * 2 ^ 149 ≤ 1 / 2 := by
  obtain ⟨k, rfl⟩ : ∃ k : ℕ, e = -k := ⟨(-e).toNat, by omega⟩
  have hpow : n * 2 ^ 150 ≤ 10 ^ k :=
    calc n * 2 ^ 150 ≤ 2 ^ (n.log2 + 1) * 2 ^ 150 :=
          Nat.mul_le_mul_right _ (Nat.le_of_lt Nat.lt_log2_self)
      _ = 2 ^ (n.log2 + 151) := by rw [← Nat.pow_add]
      _ ≤ 2 ^ k := Nat.pow_le_pow_right two_pos (by omega)
      _ ≤ 10 ^ k := Nat.pow_le_pow_left (by decide) k
  have hpow : (n : ℚ) * 2 ^ 150 ≤ 10 ^ k := by exact_mod_cast hpow
  rw [zpow_neg, zpow_natCast, ← div_eq_mul_inv, div_mul_eq_mul_div,
    div_le_div_iff₀ (by positivity) two_pos]
  linarith

/-- A decimal number is read as the nearest number. -/
theorem isNearest_ofDecimal (n : ℕ) (e : ℤ) :
    IsNearest (n * 10 ^ e * 2 ^ 149) (ofParts (UnpackedFloat.ofScientific .binary32 n e)) := by
  unfold UnpackedFloat.ofScientific
  split_ifs with hzero hgreat hsmall hnonneg
  · rw [hzero, Nat.cast_zero, zero_mul, zero_mul]
    exact isNearest_zero (parts_ofParts trivial)
  · exact isNearest_infinity (limit_le_decimal hzero hgreat)
  · exact isNearest_of_le_half (by positivity) (decimal_le_half hsmall)
  · obtain ⟨k, rfl⟩ := Int.eq_ofNat_of_zero_le hnonneg
    have hn : 2 ^ 24 ≤ n <<< 24 :=
      Nat.shiftLeft_eq n 24 ▸ Nat.le_mul_of_pos_left _ (Nat.pos_of_ne_zero hzero)
    have hten : 0 < 10 ^ k := Nat.pow_pos (by decide)
    have hlong : 2 ^ 23 ≤ n <<< 24 * 10 ^ k :=
      (show 2 ^ 23 ≤ 2 ^ 24 by decide).trans (hn.trans (Nat.le_mul_of_pos_right _ hten))
    have h := (roundsTo_mul (-24) 0 (by omega) hten (le_target hlong)).isNearest
    have hvalue : ((n <<< 24 * 10 ^ k : ℕ) * 2 ^ (-24 + 0 + 149 : ℤ) : ℚ) =
        n * 10 ^ (k : ℤ) * 2 ^ 149 := by
      rw [Nat.shiftLeft_eq]
      push_cast [zpow_natCast]
      norm_num
      ring
    rw [hvalue] at h
    exact h
  · obtain ⟨k, rfl⟩ : ∃ k : ℕ, e = -k := ⟨(-e).toNat, by omega⟩
    have hten : 0 < 10 ^ k := Nat.pow_pos (by decide)
    have h := (roundsTo_div 0 0 (Nat.pos_of_ne_zero hzero) hten).isNearest
    have hvalue : (n * 2 ^ (0 : ℤ) / ((10 ^ k : ℕ) * 2 ^ (0 : ℤ)) * 2 ^ 149 : ℚ) =
        n * 10 ^ (-(k : ℤ)) * 2 ^ 149 := by
      rw [zpow_zero, mul_one, mul_one, zpow_neg, zpow_natCast, div_eq_mul_inv]
      push_cast
      rfl
    rw [hvalue] at h
    simpa using h

/-- A short count that is not too great is a number. -/
theorem IsNearest.exact {a : ℕ} {x : Float32} (h : IsNearest a x) (ha : IsShort a)
    (hlt : a < limit) : IsAmount x ∧ units x = a := by
  cases h with
  | amount _ hx hunits => exact ⟨hx, hunits.trans (nearest_of_isShort ha)⟩
  | infinity hle _ => exact absurd (nearest_of_isShort ha ▸ hle) hlt.not_ge

/-- What is finite and above zero is an amount that has units. -/
theorem isAmount_of_pos {x : Float32} (hfinite : x.isFinite = true) (hpos : 0 < x) :
    IsAmount x ∧ 0 < units x := by
  obtain hx | ⟨m, e, hm, hx⟩ := pos_iff.mp hpos
  · have hfinite : (parts x).isFinite = true := hfinite
    rw [hx] at hfinite
    cases hfinite
  · exact ⟨.finite hx, units_pos_of_finite hx⟩

theorem IsAmount.isFinite {x : Float32} (h : IsAmount x) : x.isFinite = true := by
  show (parts x).isFinite = true
  cases h with
  | zero h => rw [h]; rfl
  | finite h => rw [h]; rfl

/-- A whole number of 24 digits is exact. -/
theorem toUInt64_toFloat32 {n : ℕ} (h : n < 2 ^ 24) :
    IsAmount n.toUInt64.toFloat32 ∧ units n.toUInt64.toFloat32 = n * 2 ^ 149 := by
  have hnearest : IsNearest (n.toUInt64.toNat * 2 ^ 149) n.toUInt64.toFloat32 := isNearest_ofNat _
  rw [show n.toUInt64.toNat = n from UInt64.toNat_ofNat_of_lt' (by rw [UInt64.size]; omega)]
    at hnearest
  refine IsNearest.exact (by exact_mod_cast hnearest) ⟨n, 149, h, rfl⟩ ?_
  calc n * 2 ^ 149 < 2 ^ 24 * 2 ^ 149 := Nat.mul_lt_mul_of_pos_right h (Nat.two_pow_pos _)
    _ ≤ limit := by decide

/-- The powers of ten in the table are exact. -/
theorem powersOfTen : ∀ k : Fin 11,
    Float32.exactlyRepresentablePowersOfTen[k].isFinite = true ∧
      0 < Float32.exactlyRepresentablePowersOfTen[k] ∧
      units Float32.exactlyRepresentablePowersOfTen[k] = 10 ^ k.val * 2 ^ 149 := by
  decide +kernel

/-- The number nearest to a decimal one, whichever way it is worked out. -/
theorem isNearest_ofScientific (n : ℕ) (negative : Bool) (k : ℕ) :
    IsNearest (n * 10 ^ (if negative then -(k : ℤ) else k) * 2 ^ 149)
      (Float32.ofScientific n negative k) := by
  unfold Float32.ofScientific
  by_cases hshort : n < 2 ^ 23 ∧ k ≤ 10
  · -- One operation on two numbers that are exact.
    obtain ⟨hn, hunits⟩ := toUInt64_toFloat32 (n := n) (by omega)
    obtain ⟨hfinite, hpos, hten⟩ := powersOfTen ⟨k, by omega⟩
    obtain ⟨hpower, hlt⟩ := isAmount_of_pos hfinite hpos
    rw [dif_pos hshort]
    cases negative with
    | true =>
      have h := hn.div hpower hlt
      have hvalue : ((n * 2 ^ 149 : ℕ) / (10 ^ k * 2 ^ 149 : ℕ) * 2 ^ 149 : ℚ) =
          n * 10 ^ (-(k : ℤ)) * 2 ^ 149 := by
        rw [zpow_neg, zpow_natCast]
        push_cast
        field_simp
      rw [hunits, hten, hvalue] at h
      exact h
    | false =>
      have h := hn.mul hpower
      have hvalue : ((n * 2 ^ 149 : ℕ) * (10 ^ k * 2 ^ 149 : ℕ) / 2 ^ 149 : ℚ) =
          n * 10 ^ (k : ℤ) * 2 ^ 149 := by
        push_cast [zpow_natCast]
        norm_num
        ring
      rw [hunits, hten, hvalue] at h
      exact h
  · rw [dif_neg hshort]
    cases negative with
    | true =>
      show IsNearest _ (ofParts (UnpackedFloat.ofScientific .binary32 n (Int.negOfNat k)))
      rw [show Int.negOfNat k = -(k : ℤ) from Int.negOfNat_eq]
      exact isNearest_ofDecimal n (-(k : ℤ))
    | false => exact isNearest_ofDecimal n k

end Decimals

end Tandem.Binary32
