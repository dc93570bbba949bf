import Tandem.Proofs.Binary32.Parts
import Mathlib

/-!
# Rounding to 24 digits

The result of an operation on single-precision numbers is the exact one, rounded. Counted in units
of the least positive number the exact one is a rational number, and `nearest` is the count of 24
binary digits that is nearest to it. What is greater is not rounded to less (`nearest_mono`), and a
count that has no more digits than that is left as it is (`nearest_of_isShort`).

The operations shift a mantissa to the right, and keep two bits of what falls off it. A mantissa
with these bits `Stands` for a rational number, so that its shifting comes to `nearest`
(`roundsTo_roundWithAccuracy`), whatever the exponent was in the beginning (`roundsTo_round`).
-/

namespace Tandem.Binary32

open Float.Model UnpackedFloat

/-! ## The nearest whole number -/

/-- The whole number nearest to `x`, and of two equally near ones the even one. -/
def evenRound (x : ℚ) : ℕ :=
  if 2 * (x - ⌊x⌋₊) < 1 then ⌊x⌋₊
  else if 1 < 2 * (x - ⌊x⌋₊) then ⌊x⌋₊ + 1
  else ⌊x⌋₊ + ⌊x⌋₊ % 2

section EvenRound

variable {x y : ℚ}

/-- Rounding moves a number by a half at most. -/
theorem abs_evenRound_sub_le (hx : 0 ≤ x) : |(evenRound x : ℚ) - x| ≤ 1 / 2 := by
  have hlo := Nat.floor_le hx
  have hhi := Nat.lt_floor_add_one x
  rw [abs_le]
  unfold evenRound
  split_ifs with hlt hgt
  · constructor <;> linarith
  · push_cast
    constructor <;> linarith
  · obtain h | h := Nat.mod_two_eq_zero_or_one ⌊x⌋₊ <;> rw [h] <;> push_cast <;>
      constructor <;> linarith

/-- What is greater is not rounded to a lower whole number. -/
theorem evenRound_mono (hx : 0 ≤ x) (h : x ≤ y) : evenRound x ≤ evenRound y := by
  by_contra hnot
  have hstep : (evenRound y : ℚ) + 1 ≤ evenRound x := by
    exact_mod_cast Nat.succ_le_of_lt (Nat.lt_of_not_le hnot)
  -- Two numbers that are rounded past each other are the same.
  have hxerr := abs_le.mp (abs_evenRound_sub_le hx)
  have hyerr := abs_le.mp (abs_evenRound_sub_le (hx.trans h))
  obtain rfl : x = y := by linarith
  exact hnot (Nat.le_refl _)

theorem evenRound_natCast (n : ℕ) : evenRound n = n := by
  simp [evenRound]

end EvenRound

/-! ## The nearest count of 24 digits -/

/-- The number of binary digits that are cut off a count so that 24 of them are left. -/
def cut (v : ℚ) : ℕ :=
  Nat.log 2 ⌊v⌋₊ - 23

/-- The count of 24 binary digits that is nearest to `v`, but for zeros at its end, and of two
equally near ones the one whose last digit is even. -/
def nearest (v : ℚ) : ℕ :=
  evenRound (v / 2 ^ cut v) * 2 ^ cut v

section Nearest

variable {v w : ℚ}

/-- The greater a number is, the more places are cut off. -/
theorem cut_mono (h : v ≤ w) : cut v ≤ cut w :=
  Nat.sub_le_sub_right (Nat.log_mono_right (Nat.floor_mono h)) 23

/-- What is left when the places are cut off fits the mantissa. -/
theorem div_cut_lt (v : ℚ) : v / 2 ^ cut v < 2 ^ 24 := by
  rw [div_lt_iff₀ (by positivity)]
  have hlog : ⌊v⌋₊ + 1 ≤ 2 ^ (Nat.log 2 ⌊v⌋₊ + 1) := Nat.lt_pow_succ_log_self one_lt_two _
  calc v < (⌊v⌋₊ : ℚ) + 1 := Nat.lt_floor_add_one v
    _ ≤ 2 ^ (Nat.log 2 ⌊v⌋₊ + 1) := by exact_mod_cast hlog
    _ ≤ 2 ^ (24 + cut v) := pow_le_pow_right₀ one_le_two (by unfold cut; omega)
    _ = 2 ^ 24 * 2 ^ cut v := pow_add 2 24 _

/-- If places are cut off, what is left fills the mantissa. -/
theorem le_div_cut (hv : 0 ≤ v) (h : cut v ≠ 0) : 2 ^ 23 ≤ v / 2 ^ cut v := by
  have hne : ⌊v⌋₊ ≠ 0 := fun h0 => h (by rw [cut, h0]; rfl)
  rw [le_div_iff₀ (by positivity)]
  calc (2 : ℚ) ^ 23 * 2 ^ cut v = 2 ^ Nat.log 2 ⌊v⌋₊ := by
        rw [← pow_add]
        congr 1
        unfold cut at h ⊢
        omega
    _ ≤ (⌊v⌋₊ : ℚ) := by exact_mod_cast Nat.pow_log_le_self 2 hne
    _ ≤ v := Nat.floor_le hv

/-- The digits left are 24 at most, but for a carry. -/
theorem evenRound_div_cut_le (hv : 0 ≤ v) : evenRound (v / 2 ^ cut v) ≤ 2 ^ 24 := by
  have h := evenRound_mono (by positivity) (div_cut_lt v).le
  rwa [show (2 : ℚ) ^ 24 = (2 ^ 24 : ℕ) by norm_num, evenRound_natCast] at h

theorem le_evenRound_div_cut (hv : 0 ≤ v) (h : cut v ≠ 0) :
    2 ^ 23 ≤ evenRound (v / 2 ^ cut v) := by
  have h := evenRound_mono (by positivity) (le_div_cut hv h)
  rwa [show (2 : ℚ) ^ 23 = (2 ^ 23 : ℕ) by norm_num, evenRound_natCast] at h

/-- What is greater is not rounded to less. -/
theorem nearest_mono (hv : 0 ≤ v) (h : v ≤ w) : nearest v ≤ nearest w := by
  have hw := hv.trans h
  unfold nearest
  obtain heq | hlt := Nat.eq_or_lt_of_le (cut_mono h)
  · rw [← heq]
    refine Nat.mul_le_mul_right _ (evenRound_mono (by positivity) ?_)
    gcongr
  · have hmore := le_evenRound_div_cut hw (Nat.ne_zero_of_lt hlt)
    calc evenRound (v / 2 ^ cut v) * 2 ^ cut v ≤ 2 ^ 24 * 2 ^ cut v :=
          Nat.mul_le_mul_right _ (evenRound_div_cut_le hv)
      _ = 2 ^ 23 * 2 ^ (cut v + 1) := by ring
      _ ≤ evenRound (w / 2 ^ cut w) * 2 ^ cut w :=
          Nat.mul_le_mul hmore (Nat.pow_le_pow_right two_pos hlt)

/-- The count has at most 24 binary digits, but for zeros at its end. -/
def IsShort (a : Nat) : Prop :=
  ∃ m k, m < 2 ^ 24 ∧ a = m * 2 ^ k

/-- A count that is short already is not rounded. -/
theorem nearest_of_isShort {n : ℕ} (h : IsShort n) : nearest n = n := by
  obtain ⟨m, k, hm, rfl⟩ := h
  obtain rfl | hpos := Nat.eq_zero_or_pos m
  · simp [nearest, evenRound]
  -- No more digits are cut off than there are zeros.
  have hcut : cut ((m * 2 ^ k : ℕ) : ℚ) ≤ k := by
    have hlt : m * 2 ^ k < 2 ^ (24 + k) := by
      rw [Nat.pow_add]
      exact Nat.mul_lt_mul_of_pos_right hm (Nat.two_pow_pos k)
    have hlog := Nat.log_lt_of_lt_pow (Nat.mul_pos hpos (Nat.two_pow_pos k)).ne' hlt
    rw [cut, Nat.floor_natCast]
    omega
  unfold nearest
  generalize cut ((m * 2 ^ k : ℕ) : ℚ) = c at hcut
  obtain ⟨d, rfl⟩ := Nat.exists_eq_add_of_le hcut
  have hdiv : ((m * 2 ^ (c + d) : ℕ) : ℚ) / 2 ^ c = (m * 2 ^ d : ℕ) := by
    push_cast
    field_simp
    ring
  rw [hdiv, evenRound_natCast]
  ring

theorem nearest_two_pow (k : ℕ) : nearest (2 ^ k : ℕ) = 2 ^ k :=
  nearest_of_isShort ⟨1, k, by decide, (Nat.one_mul _).symm⟩

/-- Half a unit, and less, is rounded to nothing, and nothing else is. -/
theorem nearest_pos_iff (hv : 0 ≤ v) : 0 < nearest v ↔ 1 / 2 < v := by
  constructor
  · intro h
    by_contra hle
    have hhalf : nearest (1 / 2) = 0 := by norm_num [nearest, cut, evenRound]
    have := nearest_mono hv (not_lt.mp hle)
    omega
  · intro h
    refine Nat.mul_pos ?_ (Nat.two_pow_pos _)
    by_cases hcut : cut v = 0
    · have herr := (abs_le.mp (abs_evenRound_sub_le hv)).1
      rw [hcut, pow_zero, div_one]
      refine Nat.pos_of_ne_zero fun hzero => ?_
      rw [hzero, Nat.cast_zero] at herr
      linarith
    · exact Nat.lt_of_lt_of_le (by decide) (le_evenRound_div_cut hv hcut)

/-- The number half way to the next digit is rounded up to it. -/
theorem nearest_half_way (k : ℕ) : nearest ((2 ^ 25 - 1) * 2 ^ k) = 2 ^ 24 * 2 ^ (k + 1) := by
  have hcast : ((2 ^ 25 - 1) * 2 ^ k : ℚ) = ((2 ^ 25 - 1) * 2 ^ k : ℕ) := by norm_num
  have hcut : cut ((2 ^ 25 - 1) * 2 ^ k) = k + 1 := by
    have hlog : Nat.log 2 ((2 ^ 25 - 1) * 2 ^ k) = 24 + k := by
      refine Nat.log_eq_of_pow_le_of_lt_pow ?_ ?_
      · rw [Nat.pow_add]
        exact Nat.mul_le_mul_right _ (by decide)
      · rw [Nat.add_right_comm, Nat.pow_add]
        exact Nat.mul_lt_mul_of_pos_right (by decide) (Nat.two_pow_pos k)
    rw [cut, hcast, Nat.floor_natCast, hlog]
    omega
  have hdiv : ((2 ^ 25 - 1) * 2 ^ k / 2 ^ (k + 1) : ℚ) = 2 ^ 24 - 1 / 2 := by
    rw [pow_succ (2 : ℚ) k]
    field_simp
  rw [nearest, hcut, hdiv]
  congr 1
  norm_num [evenRound]

/-- A number is rounded to less than a power of two exactly if it is less than half a digit below
it. -/
theorem nearest_lt_iff (hv : 0 ≤ v) (k : ℕ) :
    nearest v < 2 ^ 24 * 2 ^ (k + 1) ↔ v < (2 ^ 25 - 1) * 2 ^ k := by
  constructor
  · intro h
    by_contra hle
    have hmono := nearest_mono (by norm_num) (not_lt.mp hle)
    rw [nearest_half_way] at hmono
    omega
  · intro h
    have hcut : cut v ≤ k + 1 := by
      have hlt : ⌊v⌋₊ < 2 ^ (25 + k) := by
        rw [Nat.floor_lt hv, Nat.pow_add]
        push_cast
        refine h.trans ?_
        gcongr
        norm_num
      have := Nat.log_lt_of_lt_pow' (by omega) hlt
      rw [cut]
      omega
    obtain hlt | heq := Nat.lt_or_eq_of_le hcut
    · calc nearest v ≤ 2 ^ 24 * 2 ^ cut v := Nat.mul_le_mul_right _ (evenRound_div_cut_le hv)
        _ < 2 ^ 24 * 2 ^ (k + 1) :=
          Nat.mul_lt_mul_of_pos_left (Nat.pow_lt_pow_right (by decide) hlt) (by decide)
    · have hdiv : v / 2 ^ cut v < 2 ^ 24 - 1 / 2 := by
        rw [heq, div_lt_iff₀ (by positivity), pow_succ (2 : ℚ) k]
        linarith
      have herr := (abs_le.mp (abs_evenRound_sub_le (x := v / 2 ^ cut v) (by positivity))).2
      have hround : evenRound (v / 2 ^ cut v) < 2 ^ 24 := by
        have : (evenRound (v / 2 ^ cut v) : ℚ) < (2 ^ 24 : ℕ) := by
          push_cast
          linarith
        exact_mod_cast this
      rw [nearest, ← heq]
      exact Nat.mul_lt_mul_of_pos_right hround (Nat.two_pow_pos _)

/-- Too many units for a finite number. -/
def limit : ℕ := 2 ^ 24 * 2 ^ 253

/-- What is nearest to a number is within the limit as long as the number is below half a unit under
it. -/
theorem nearest_lt_limit_iff (hv : 0 ≤ v) : nearest v < limit ↔ v < (2 ^ 25 - 1) * 2 ^ 252 :=
  nearest_lt_iff hv 252

end Nearest

/-! ## Shifting -/

section Shifting

/-- The mantissa is `x` without what is behind its point, and the bits say how that compares to a
half. -/
structure Stands (x : ℚ) (em : ExtendedMantissa) : Prop where
  mantissa : em.mantissa = ⌊x⌋₊
  round : em.roundBit = true ↔ 1 ≤ 2 * (x - ⌊x⌋₊)
  sticky : em.stickyBit = false ↔ 2 * (x - ⌊x⌋₊) = 0 ∨ 2 * (x - ⌊x⌋₊) = 1

theorem floor_half (x : ℚ) : ⌊x / 2⌋₊ = ⌊x⌋₊ / 2 := Nat.floor_div_ofNat x 2

/-- A shift by one place halves what the extended mantissa stands for. -/
theorem Stands.shiftRightOne {x : ℚ} {em : ExtendedMantissa} (hx : 0 ≤ x) (h : Stands x em) :
    Stands (x / 2) em.shiftRightOne := by
  obtain ⟨hm, hround, hsticky⟩ := h
  have hlo := Nat.floor_le hx
  have hhi := Nat.lt_floor_add_one x
  have hsplit : (⌊x⌋₊ : ℚ) = 2 * (⌊x / 2⌋₊ : ℚ) + (⌊x⌋₊ % 2 : ℕ) := by
    rw [floor_half]
    exact_mod_cast (Nat.div_add_mod _ 2).symm
  have hbit : em.shiftRightOne.roundBit = (⌊x⌋₊ % 2 != 0) := by rw [← hm]; rfl
  have hrest : em.shiftRightOne.stickyBit = false ↔ x = ⌊x⌋₊ := by
    rw [show em.shiftRightOne.stickyBit = (em.roundBit || em.stickyBit) from rfl,
      Bool.or_eq_false_iff, hsticky, ← Bool.not_eq_true, hround]
    constructor
    · rintro ⟨hlt, h | h⟩ <;> linarith
    · intro h
      constructor
      · linarith
      · left
        linarith
  refine ⟨?_, ?_, ?_⟩
  · rw [floor_half, ← hm]
    rfl
  · rw [hbit]
    obtain h | h := Nat.mod_two_eq_zero_or_one ⌊x⌋₊ <;> rw [h] at hsplit ⊢ <;> push_cast at hsplit
    · simp
      linarith
    · simp
      linarith
  · rw [hrest]
    obtain h | h := Nat.mod_two_eq_zero_or_one ⌊x⌋₊ <;> rw [h] at hsplit <;> push_cast at hsplit
    · constructor
      · intro h
        left
        linarith
      · rintro (h | h) <;> linarith
    · constructor
      · intro h
        right
        linarith
      · rintro (h | h) <;> linarith

/-- A shift divides what the extended mantissa stands for by a power of two. -/
theorem Stands.shiftRight {x : ℚ} {em : ExtendedMantissa} (hx : 0 ≤ x) (h : Stands x em) (k : ℕ) :
    Stands (x / 2 ^ k) (em >>> k) := by
  show Stands (x / 2 ^ k) (k.repeat ExtendedMantissa.shiftRightOne em)
  induction k with
  | zero => rwa [pow_zero, div_one]
  | succ k ih =>
    rw [pow_succ, ← div_div]
    exact ih.shiftRightOne (by positivity)

/-- A rounded mantissa is what it stands for, rounded half to even. -/
theorem Stands.roundedMantissa {x : ℚ} {em : ExtendedMantissa} (h : Stands x em) :
    em.roundedMantissa = evenRound x := by
  obtain ⟨m, r, s⟩ := em
  obtain ⟨hm, hround, hsticky⟩ := h
  dsimp only at hm hround hsticky
  unfold ExtendedMantissa.roundedMantissa ExtendedMantissa.accuracy Accuracy.roundToNearestEven
    evenRound
  rw [← hm]
  cases r <;> cases s <;> simp at hround hsticky <;> split_ifs <;> simp <;> grind

/-- A whole number stands for itself. -/
theorem stands_exact (m : ℕ) :
    Stands m (ExtendedMantissa.ofMantissaAndAccuracy m .exact) where
  mantissa := (Nat.floor_natCast m).symm
  round := by simp [ExtendedMantissa.ofMantissaAndAccuracy]
  sticky := by simp [ExtendedMantissa.ofMantissaAndAccuracy]

section Fraction

variable {m r d : ℕ}

theorem roundBit_ofFraction (hd : 0 < d) :
    (ExtendedMantissa.ofMantissaAndAccuracy m (accuracyOfFraction r d)).roundBit = true ↔
      d ≤ 2 * r := by
  unfold accuracyOfFraction
  split_ifs with hr
  · simp only [ExtendedMantissa.ofMantissaAndAccuracy, Bool.false_eq_true, false_iff]
    omega
  obtain h | h | h := lt_trichotomy (2 * r) d
  · rw [compare_lt_iff_lt.mpr h]
    simpa [ExtendedMantissa.ofMantissaAndAccuracy] using h
  · rw [compare_eq_iff_eq.mpr h]
    simpa [ExtendedMantissa.ofMantissaAndAccuracy] using h.ge
  · rw [compare_gt_iff_gt.mpr h]
    simpa [ExtendedMantissa.ofMantissaAndAccuracy] using h.le

theorem stickyBit_ofFraction :
    (ExtendedMantissa.ofMantissaAndAccuracy m (accuracyOfFraction r d)).stickyBit = false ↔
      2 * r = 0 ∨ 2 * r = d := by
  unfold accuracyOfFraction
  split_ifs with hr
  · simp [ExtendedMantissa.ofMantissaAndAccuracy, hr]
  obtain h | h | h := lt_trichotomy (2 * r) d
  · rw [compare_lt_iff_lt.mpr h]
    simpa [ExtendedMantissa.ofMantissaAndAccuracy, hr] using h.ne
  · rw [compare_eq_iff_eq.mpr h]
    simpa [ExtendedMantissa.ofMantissaAndAccuracy] using Or.inr h
  · rw [compare_gt_iff_gt.mpr h]
    simpa [ExtendedMantissa.ofMantissaAndAccuracy, hr] using h.ne'

end Fraction

/-- What is left over of a division says how far the quotient is from a whole number. -/
theorem stands_quotient (n : ℕ) {d : ℕ} (hd : 0 < d) :
    Stands (n / d) (ExtendedMantissa.ofMantissaAndAccuracy (n / d)
      (accuracyOfFraction (n % d) d)) := by
  have hfrac : 2 * ((n / d : ℚ) - ⌊(n / d : ℚ)⌋₊) = (2 * (n % d) : ℕ) / d := by
    have hsplit : (n : ℚ) = d * (n / d : ℕ) + (n % d : ℕ) := by
      exact_mod_cast (Nat.div_add_mod n d).symm
    rw [Nat.floor_div_eq_div]
    push_cast
    field_simp
    linarith
  have hdpos : (0 : ℚ) < d := by exact_mod_cast hd
  refine ⟨?_, ?_, ?_⟩
  · rw [Nat.floor_div_eq_div]
    unfold ExtendedMantissa.ofMantissaAndAccuracy
    split <;> rfl
  · rw [hfrac, one_le_div hdpos, Nat.cast_le]
    exact roundBit_ofFraction hd
  · rw [hfrac, div_eq_zero_iff, div_eq_one_iff_eq hdpos.ne', Nat.cast_inj, Nat.cast_eq_zero,
      Nat.cast_eq_zero, or_iff_left hd.ne']
    exact stickyBit_ofFraction

end Shifting

/-! ## Rounding -/

section Rounding

/-- The mantissa with that exponent, in units of the least positive number. -/
def scaled (m : Nat) (e : Int) : Nat :=
  m * 2 ^ (e + 149).toNat

/-- The least exponent with which the number has no more than 24 digits in its mantissa. -/
abbrev target (m : Nat) (e : Int) : Int :=
  Format.binary32.targetExponent (totalExponent m e)

theorem target_eq (m : Nat) (e : Int) : target m e = max (m.log2 + 1 + e - 24) (-149) := rfl

theorem shiftToTargetExponent_eq (m : Nat) (e : Int) (acc : Accuracy) :
    shiftToTargetExponent .binary32 m e acc =
      (ExtendedMantissa.ofMantissaAndAccuracy m acc >>> (target m e - e).toNat,
        e + (target m e - e).toNat) := rfl

/-- A mantissa of 24 digits at most is left as it is. -/
theorem shiftToTargetExponent_of_lt {m : Nat} {e : Int} (hm : m < 2 ^ 24)
    (he : -149 ≤ e) : shiftToTargetExponent .binary32 m e .exact = (⟨m, false, false⟩, e) := by
  have hlog : m.log2 < 24 := by
    obtain rfl | hpos := Nat.eq_zero_or_pos m
    · decide
    · exact (Nat.log2_lt hpos.ne').mpr hm
  have hk : (target m e - e).toNat = 0 := by
    rw [target_eq]
    omega
  rw [shiftToTargetExponent_eq, hk]
  show (_, e + ((0 : Nat) : Int)) = _
  rw [Int.natCast_zero, Int.add_zero]
  rfl

/-- A mantissa that has got one digit too many by rounding loses a zero. -/
theorem shiftToTargetExponent_carry {e : Int} (he : -149 ≤ e) :
    shiftToTargetExponent .binary32 (2 ^ 24) e .exact = (⟨2 ^ 23, false, false⟩, e + 1) := by
  have hk : (target (2 ^ 24) e - e).toNat = 1 := by
    rw [target_eq, Nat.log2_two_pow]
    omega
  rw [shiftToTargetExponent_eq, hk]
  rfl

/-- With the exponent that the mantissa of `v` units is shifted to, as many digits are cut off. -/
theorem cut_eq {v : ℚ} {m : ℕ} {e : ℤ} (hv : 0 ≤ v) (hm : m = ⌊v / 2 ^ (e + 149)⌋₊)
    (hlow : 0 < m ∨ e ≤ -149) : (cut v : ℤ) = target m e + 149 := by
  have hpow : (0 : ℚ) < 2 ^ (e + 149) := zpow_pos two_pos _
  have hhi : v < 2 ^ ((m.log2 : ℤ) + 1 + (e + 149)) := by
    have hm1 : (m : ℚ) + 1 ≤ 2 ^ (m.log2 + 1) := by exact_mod_cast Nat.lt_log2_self
    rw [zpow_add₀ two_ne_zero, ← div_lt_iff₀ hpow]
    calc v / 2 ^ (e + 149) < m + 1 := hm ▸ Nat.lt_floor_add_one _
      _ ≤ 2 ^ ((m.log2 : ℤ) + 1) := by exact_mod_cast hm1
  have hlo : 0 < m → (2 : ℚ) ^ ((m.log2 : ℤ) + (e + 149)) ≤ v := fun hpos => by
    have hm2 : (2 : ℚ) ^ m.log2 ≤ m := by exact_mod_cast Nat.log2_self_le hpos.ne'
    rw [zpow_add₀ two_ne_zero, ← le_div_iff₀ hpow, zpow_natCast]
    exact hm2.trans (hm ▸ Nat.floor_le (by positivity))
  rw [target_eq]
  obtain hone | hone := lt_or_ge v 1
  · -- Of less than one unit no digits are cut off.
    have hcut : cut v = 0 := by rw [cut, Nat.floor_eq_zero.mpr hone]; rfl
    have hexp : (m.log2 : ℤ) + (e + 149) ≤ 0 := by
      obtain rfl | hpos := Nat.eq_zero_or_pos m
      · rw [Nat.log2_zero]
        omega
      · exact ((zpow_lt_one_iff_right₀ one_lt_two).mp ((hlo hpos).trans_lt hone)).le
    omega
  · have hpos : 0 < m := by
      refine Nat.pos_of_ne_zero ?_
      rintro rfl
      have hle : (2 : ℚ) ^ (e + 149) ≤ 1 :=
        zpow_le_one_of_nonpos₀ one_le_two (by have := hlow.resolve_left (lt_irrefl 0); omega)
      have hlt := (div_lt_one hpow).mp (Nat.floor_eq_zero.mp hm.symm)
      exact absurd (hlt.trans_le hle) hone.not_gt
    obtain ⟨n, hn⟩ : ∃ n : ℕ, (m.log2 : ℤ) + (e + 149) = n := by
      refine Int.eq_ofNat_of_zero_le ?_
      have := (one_lt_zpow_iff_right₀ one_lt_two).mp (hone.trans_lt hhi)
      omega
    have hlog : Nat.log 2 ⌊v⌋₊ = n := by
      have hlo := hlo hpos
      rw [show (m.log2 : ℤ) + 1 + (e + 149) = (n + 1 : ℕ) by push_cast; omega, zpow_natCast] at hhi
      rw [hn, zpow_natCast] at hlo
      refine Nat.log_eq_of_pow_le_of_lt_pow (Nat.le_floor ?_) ((Nat.floor_lt hv).mpr ?_)
      · exact_mod_cast hlo
      · exact_mod_cast hhi
    rw [cut, hlog]
    omega

/-- What `v` units are rounded to : a zero, or a finite number but for an exponent that may be too
great. -/
inductive RoundsTo (s : Sign) (v : ℚ) : UnpackedFloat → Prop
  | zero : nearest v = 0 → RoundsTo s v (.zero s)
  | finite {m : ℕ} {e : ℤ} {h : 0 < m} : m < 2 ^ 24 → -149 ≤ e → (e = -149 ∨ 2 ^ 23 ≤ m) →
      scaled m e = nearest v → RoundsTo s v (.finite s m e h)

/-- Rounding shifts to the exponent that is aimed at, rounds, and shifts once more if that has
carried. -/
theorem roundWithAccuracy_eq {s : Sign} {m : ℕ} {e e' e'' : ℤ} {acc : Accuracy}
    {em em' : ExtendedMantissa}
    (hfirst : shiftToTargetExponent .binary32 m e acc = (em, e'))
    (hsecond : shiftToTargetExponent .binary32 em.roundedMantissa e' .exact = (em', e'')) :
    roundWithAccuracy .binary32 s m e acc =
      if h : em'.mantissa = 0 then .zero s
      else .finite s em'.mantissa e'' (Nat.pos_of_ne_zero h) := by
  unfold roundWithAccuracy
  rw [hfirst]
  dsimp only
  rw [hsecond]

/-- A mantissa that stands for `v` units, its exponent being none too great, is rounded to the
nearest one. -/
theorem roundsTo_roundWithAccuracy {s : Sign} {m : ℕ} {e : ℤ} {acc : Accuracy} {v : ℚ} (hv : 0 ≤ v)
    (h : Stands (v / 2 ^ (e + 149)) (ExtendedMantissa.ofMantissaAndAccuracy m acc))
    (hlow : 0 < m ∨ e ≤ -149) (he : e ≤ target m e) :
    RoundsTo s v (roundWithAccuracy .binary32 s m e acc) := by
  have hcut : (cut v : ℤ) = target m e + 149 := by
    refine cut_eq hv ?_ hlow
    have := h.mantissa
    unfold ExtendedMantissa.ofMantissaAndAccuracy at this
    split at this <;> exact this
  obtain ⟨k, hk⟩ : ∃ k : ℕ, e + k = target m e := ⟨(target m e - e).toNat, by omega⟩
  have hfirst := shiftToTargetExponent_eq m e acc
  rw [show (target m e - e).toNat = k by omega] at hfirst
  have hround := (h.shiftRight (by positivity) k).roundedMantissa
  rw [div_div, ← zpow_natCast, ← zpow_add₀ two_ne_zero,
    show e + 149 + (k : ℤ) = (cut v : ℤ) by omega, zpow_natCast] at hround
  generalize ExtendedMantissa.ofMantissaAndAccuracy m acc >>> k = em at hfirst hround
  have hscaled : ∀ n, scaled n (e + k) = n * 2 ^ cut v := fun n => by
    rw [scaled, show (e + k + 149).toNat = cut v by omega]
  obtain hlt | hcarry := Nat.lt_or_eq_of_le (evenRound_div_cut_le hv)
  · have hsecond := shiftToTargetExponent_of_lt hlt (e := e + k) (by omega)
    rw [← hround] at hsecond hlt
    rw [roundWithAccuracy_eq hfirst hsecond]
    dsimp only
    split_ifs with hzero
    · refine .zero ?_
      rw [nearest, ← hround, hzero, Nat.zero_mul]
    · refine .finite hlt (by omega) ?_ ?_
      · refine or_iff_not_imp_left.mpr fun hleast => hround ▸ le_evenRound_div_cut hv ?_
        omega
      · rw [hscaled, hround]
        rfl
  · have hsecond := shiftToTargetExponent_carry (e := e + k) (by omega)
    rw [← hcarry, ← hround] at hsecond
    rw [roundWithAccuracy_eq hfirst hsecond]
    refine .finite (by decide) (by omega) (Or.inr (Nat.le_refl _)) ?_
    rw [scaled, show (e + k + 1 + 149).toNat = cut v + 1 by omega, nearest, hcarry]
    ring

theorem log2_mul_two_pow {m : Nat} (hm : 0 < m) (k : Nat) : (m * 2 ^ k).log2 = m.log2 + k := by
  have hm := Nat.ne_of_gt hm
  rw [Nat.log2_eq_iff (Nat.mul_ne_zero hm (Nat.ne_of_gt (Nat.two_pow_pos k)))]
  refine ⟨?_, ?_⟩
  · rw [Nat.pow_add]
    exact Nat.mul_le_mul_right _ (Nat.log2_self_le hm)
  · rw [Nat.add_right_comm, Nat.pow_add]
    exact Nat.mul_lt_mul_of_pos_right Nat.lt_log2_self (Nat.two_pow_pos k)

/-- A mantissa and an exponent, whatever they are, are rounded to the nearest number. -/
theorem roundsTo_round {s : Sign} {m : ℕ} (hm : 0 < m) (e : ℤ) :
    RoundsTo s (m * 2 ^ (e + 149)) (UnpackedFloat.round .binary32 s m e) := by
  have hround : UnpackedFloat.round .binary32 s m e =
      roundWithAccuracy .binary32 s (m <<< (e - target m e).toNat)
        (e - (e - target m e).toNat) .exact := rfl
  rw [hround, Nat.shiftLeft_eq]
  obtain ⟨k, hk⟩ : ∃ k, (e - target m e).toNat = k := ⟨_, rfl⟩
  have htarget : target (m * 2 ^ k) (e - k) = target m e := by
    rw [target_eq, target_eq, log2_mul_two_pow hm]
    omega
  rw [hk]
  refine roundsTo_roundWithAccuracy (by positivity) ?_
    (Or.inl (Nat.mul_pos hm (Nat.two_pow_pos k))) (by omega)
  have hshift : (m : ℚ) * 2 ^ (e + 149) / 2 ^ (e - k + 149) = (m * 2 ^ k : ℕ) := by
    rw [show e + 149 = (k : ℤ) + (e - k + 149) by omega, zpow_add₀ two_ne_zero, zpow_natCast]
    push_cast
    field_simp
  rw [hshift]
  exact stands_exact _

end Rounding

end Tandem.Binary32
