import Tandem.Proofs.Script.Waits
import Tandem.Proofs.Sync.Timeout

/-!
# Ticks of waiting and quanta

A command waits for its seconds in ticks, each of which is meant to be one quantum long. But the
seconds are not divided by the quantum. They are multiplied by a whole number of ticks per second,
which is one over the quantum, rounded, and never less than one. So even where nothing else is
rounded (`Timings.ExactWait`) a wait takes the ticks that its seconds are cut into, and these are
its quanta only if the ticks of a second are exactly a second together (`ticks_match_quanta_iff`).
-/

namespace Tandem

open Binary32

/-- The text is read as a time above zero, and both the quanta that fit into it and the ticks that
it is cut into are exact numbers, and words. -/
structure Timings.ExactWait (t : Timings) (arg : String) (s : Float32) : Prop where
  read : readFloat32? (Text.trim arg.toList) = some s
  finite : s.isFinite = true
  pos : 0 < s
  quanta : IsExact (value s / value t.waitQuantum)
  quanta_lt : value s / value t.waitQuantum < 2 ^ 32
  ticks : IsExact (value s * t.ticksPerSecond.toNat)
  ticks_lt : value s * t.ticksPerSecond.toNat < 2 ^ 32

/-- Every exact number above zero is written by some text. -/
theorem exists_text {w : ℚ} (hexact : IsExact w) (hpos : 0 < w) :
    ∃ arg x, readFloat32? (Text.trim (String.toList arg)) = some x ∧ x.isFinite = true ∧ 0 < x ∧
      value x = w := by
  obtain ⟨n, hshort, hlt, rfl⟩ := isExact_iff.mp hexact
  obtain ⟨cs, hnumber, hvalue⟩ := exists_isNumber (n * 5 ^ 149) (show 0 < 149 by decide)
  obtain ⟨x, hread, hnearest⟩ := readFloat32?_of_isNumber hnumber
  have hdenoted : ArgKind.denoted cs = n / 2 ^ 149 := by
    rw [hvalue, show (10 : ℚ) ^ 149 = 5 ^ 149 * 2 ^ 149 by norm_num, Nat.cast_mul, Nat.cast_pow]
    field_simp
    rfl
  rw [hdenoted] at hnearest
  obtain ⟨hamount, hx⟩ := hexact.value_eq hnearest
  refine ⟨String.ofList cs, x, ?_, hamount.isFinite, ?_, hx⟩
  · rw [String.toList_ofList, trim_of_isNumber hnumber, hread]
  · rwa [hamount.pos_iff, hx]

/-- A whole number of 24 digits, and zeros behind them, is exact. -/
theorem value_toFloat32 {n : UInt32} (h : IsShort n.toNat) :
    IsAmount n.toFloat32 ∧ value n.toFloat32 = n.toNat := by
  obtain ⟨hamount, hunits⟩ := isAmount_toFloat32 n
  have hexact := nearest_of_isShort (h.mul_two_pow 149)
  rw [Nat.cast_mul, Nat.cast_pow, Nat.cast_ofNat] at hexact
  refine ⟨hamount, ?_⟩
  rw [value, hunits, hexact, Nat.cast_mul, Nat.cast_pow, Nat.cast_ofNat]
  field_simp

namespace Timings

variable {t : Timings} {arg : String} {s : Float32}

/-- A quantum that can be used is above zero. -/
theorem isAmount_waitQuantum (h : t.check = .ok ()) :
    IsAmount t.waitQuantum ∧ 0 < units t.waitQuantum := by
  have hspan : isSpan t.waitQuantum = true := by
    unfold check at h
    grind
  exact ⟨isAmount_of_isSpan hspan, units_pos_of_isSpan hspan⟩

theorem value_waitQuantum_pos (h : t.check = .ok ()) : 0 < value t.waitQuantum := by
  rw [value]
  have := (isAmount_waitQuantum h).2
  positivity

/-- The ticks of a second are one over the quantum, rounded, and at least one. -/
theorem toNat_ticksPerSecond (t : Timings) :
    t.ticksPerSecond.toNat = max 1 (roundNat wordCap (1 / t.waitQuantum)) :=
  toNat_ofNat_of_le (Nat.max_le.mpr ⟨by decide, roundNat_le _ _⟩)

theorem ticksPerSecond_pos (t : Timings) : 0 < t.ticksPerSecond.toNat := by
  rw [toNat_ticksPerSecond]
  exact Nat.lt_of_lt_of_le Nat.one_pos (Nat.le_max_left _ _)

/-- If a quantum is a second or more, a second is one tick. -/
theorem ticksPerSecond_of_one_le (h : t.check = .ok ()) (hle : 1 ≤ value t.waitQuantum) :
    t.ticksPerSecond.toNat = 1 := by
  obtain ⟨hquantum, hpos⟩ := isAmount_waitQuantum h
  have hone : IsAmount 1 ∧ units 1 = 2 ^ 149 := toUInt64_toFloat32 (n := 1) (by decide)
  have hdiv := hone.1.div hquantum hpos
  rw [hone.2] at hdiv
  rw [value, one_le_div (by positivity)] at hle
  have hsmall : ((2 ^ 149 : ℕ) / units t.waitQuantum * 2 ^ 149 : ℚ) ≤ (2 ^ 149 : ℕ) := by
    push_cast
    rw [div_mul_eq_mul_div, div_le_iff₀ (lt_of_lt_of_le (by positivity) hle)]
    gcongr
  have hmono := nearest_mono (by positivity) hsmall
  rw [nearest_two_pow] at hmono
  rw [toNat_ticksPerSecond]
  refine Nat.max_eq_left ?_
  cases hdiv with
  | infinity hlimit _ => exact absurd (hlimit.trans hmono) (by decide)
  | amount _ hamount hunits =>
    rw [hamount.roundNat_eq]
    refine (Nat.min_le_right _ _).trans ?_
    have hvalue : value (1 / t.waitQuantum) ≤ 1 := by
      rw [value, hunits, div_le_one (by positivity)]
      exact_mod_cast hmono
    refine Nat.lt_succ_iff.mp ((Nat.floor_lt (by rw [value]; positivity)).mpr ?_)
    push_cast
    linarith

/-! ## Exact waits -/

/-- If both are exact, a wait takes as many ticks as its seconds are cut into. -/
theorem ExactWait.toNat_waitTicks (h : t.ExactWait arg s) :
    (waitTicks [arg] t.ticksPerSecond).toNat = ⌈value s * t.ticksPerSecond.toNat⌉₊ := by
  obtain ⟨hs, hpos⟩ := isAmount_of_pos h.finite h.pos
  -- The ticks of a second are exact as well, so nothing at all is rounded.
  have hsecond : IsShort t.ticksPerSecond.toNat :=
    (isExact_div_iff.mp (value_mul_natCast s _ ▸ h.ticks)).1.of_dvd
      (Nat.mul_pos hpos t.ticksPerSecond_pos) (Nat.dvd_mul_left _ _)
  obtain ⟨hn, hvalue⟩ := value_toFloat32 hsecond
  obtain ⟨hamount, hticks⟩ := hs.value_mul hn (hvalue ▸ h.ticks)
  have hseconds : waitSeconds [arg] = s := by
    rw [waitSeconds_of_read h.read, if_pos ⟨h.finite, h.pos⟩]
  rw [Tandem.toNat_waitTicks, hseconds, hamount.ceilNat_eq, hticks, hvalue]
  exact Nat.min_eq_right (h.ticks.ceil_le_wordCap h.ticks_lt)

/-- The ticks of a second, each a quantum long, are not too much for a number. -/
theorem units_mul_ticksPerSecond_lt (h : t.check = .ok ()) :
    units t.waitQuantum * t.ticksPerSecond.toNat < limit := by
  obtain hle | hlt := le_or_gt 1 (value t.waitQuantum)
  · rw [ticksPerSecond_of_one_le h hle, Nat.mul_one]
    exact (isAmount_waitQuantum h).1.units_lt
  · have hunits : units t.waitQuantum < 2 ^ 149 := by
      rw [value, div_lt_one (by positivity)] at hlt
      exact_mod_cast hlt
    calc units t.waitQuantum * t.ticksPerSecond.toNat < 2 ^ 149 * 2 ^ 32 :=
          Nat.mul_lt_mul'' hunits t.ticksPerSecond.toNat_lt
      _ < limit := by decide

/-- If there is an exact wait at all, the ticks of a second are an exact number of seconds
together. -/
theorem ExactWait.isExact (hcheck : t.check = .ok ()) (h : t.ExactWait arg s) :
    IsExact (value t.waitQuantum * t.ticksPerSecond.toNat) := by
  have hq := value_waitQuantum_pos hcheck
  have hs := (isAmount_of_pos h.finite h.pos).1.pos_iff.mp h.pos
  have hproduct : value s / value t.waitQuantum * (value t.waitQuantum * t.ticksPerSecond.toNat) =
      value s * t.ticksPerSecond.toNat := by field_simp
  have hticks := hproduct ▸ h.ticks
  rw [value_mul_natCast] at hticks ⊢
  exact h.quanta.of_mul hticks (div_pos hs hq)
    (Nat.mul_pos (isAmount_waitQuantum hcheck).2 t.ticksPerSecond_pos)
    (units_mul_ticksPerSecond_lt hcheck)

/-- An exact number of seconds whose quanta and ticks are exact is one that can be asked for. -/
theorem exists_exactWait {w : ℚ} (hpos : 0 < w) (hexact : IsExact w)
    (hquanta : IsExact (w / value t.waitQuantum)) (hquanta' : w / value t.waitQuantum < 2 ^ 32)
    (hticks : IsExact (w * t.ticksPerSecond.toNat))
    (hticks' : w * t.ticksPerSecond.toNat < 2 ^ 32) :
    ∃ arg s, t.ExactWait arg s ∧ value s = w := by
  obtain ⟨arg, s, hread, hfinite, hs, rfl⟩ := exists_text hexact hpos
  exact ⟨arg, s, ⟨hread, hfinite, hs, hquanta, hquanta', hticks, hticks'⟩, rfl⟩

/-- The ticks of a second that are too short together are too few for `2 ^ 24` quanta. -/
theorem exists_exactWait_lt (hcheck : t.check = .ok ())
    (hexact : IsExact (value t.waitQuantum * t.ticksPerSecond.toNat))
    (hlt : value t.waitQuantum * t.ticksPerSecond.toNat < 1) :
    ∃ arg s, t.ExactWait arg s ∧
      ⌈value s * t.ticksPerSecond.toNat⌉₊ < ⌈value s / value t.waitQuantum⌉₊ := by
  have hq := value_waitQuantum_pos hcheck
  have hone : (1 : ℚ) ≤ t.ticksPerSecond.toNat := by exact_mod_cast t.ticksPerSecond_pos
  have hquanta : value t.waitQuantum * 2 ^ 24 / value t.waitQuantum = 2 ^ 24 := by field_simp
  have hticks : value t.waitQuantum * 2 ^ 24 * t.ticksPerSecond.toNat =
      value t.waitQuantum * t.ticksPerSecond.toNat * 2 ^ 24 := by ring
  have hless : value t.waitQuantum < 1 := lt_of_le_of_lt (le_mul_of_one_le_right hq.le hone) hlt
  have hexact' : IsExact (value t.waitQuantum * 2 ^ 24) :=
    (isExact_value (isAmount_waitQuantum hcheck).1).mul_two_pow hless (by decide)
  obtain ⟨arg, s, hwait, hs⟩ := exists_exactWait (t := t) (by positivity) hexact'
    (by rw [hquanta]; exact isExact_two_zpow (e := 24) (by decide) (by decide))
    (by rw [hquanta]; norm_num)
    (hticks ▸ hexact.mul_two_pow hlt (by decide)) (by rw [hticks]; linarith)
  refine ⟨arg, s, hwait, ?_⟩
  rw [hs, hquanta, hticks]
  exact (hexact.ceil_lt_of_lt_one hlt).trans_eq (by norm_num)

/-- A quantum of very many seconds is one tick long, and a wait for a part of it takes more
ticks. -/
theorem exists_exactWait_of_long (hcheck : t.check = .ok ()) (hle : 2 ^ 32 ≤ value t.waitQuantum) :
    ∃ arg s, t.ExactWait arg s ∧
      ⌈value s / value t.waitQuantum⌉₊ < ⌈value s * t.ticksPerSecond.toNat⌉₊ := by
  obtain ⟨hamount, hquantum⟩ := isAmount_waitQuantum hcheck
  have htick : (t.ticksPerSecond.toNat : ℚ) = 1 := by
    rw [ticksPerSecond_of_one_le hcheck (le_trans (by norm_num) hle), Nat.cast_one]
  obtain ⟨m, l, hm, hunits⟩ := hamount.isShort
  have hm' : (m : ℚ) < 2 ^ 24 := by exact_mod_cast hm
  have hpos : 1 ≤ m := Nat.pos_of_mul_pos_right (hunits ▸ hquantum)
  have hpos' : (1 : ℚ) ≤ m := by exact_mod_cast hpos
  have hvalue : value t.waitQuantum = m * 2 ^ l / 2 ^ 149 := by
    rw [value, hunits, Nat.cast_mul, Nat.cast_pow, Nat.cast_ofNat]
  have hlow : 150 ≤ l := by
    by_contra hlt
    rw [hvalue, le_div_iff₀ (by positivity)] at hle
    have hpow : (2 : ℚ) ^ l ≤ 2 ^ 149 := pow_le_pow_right₀ one_le_two (by omega)
    have : (m * 2 ^ l : ℚ) ≤ 2 ^ 24 * 2 ^ 149 := by gcongr
    linarith
  have hhigh : l < 277 := two_pow_lt_limit_iff.mp
    ((Nat.le_mul_of_pos_left _ hpos).trans_lt (hunits ▸ hamount.units_lt))
  -- The wait for twice the mantissa.
  have hquanta : 2 * m / value t.waitQuantum = 2 ^ (150 - l : ℤ) := by
    rw [hvalue, zpow_sub₀ two_ne_zero, zpow_natCast]
    field_simp
  have hless : (2 : ℚ) ^ (150 - l : ℤ) ≤ 1 := zpow_le_one_of_nonpos₀ one_le_two (by omega)
  have hdouble : IsExact (2 * m) := by
    have hdiv : (2 * m : ℚ) = (m * 2 ^ 150 : ℕ) / 2 ^ 149 := by
      rw [Nat.cast_mul, Nat.cast_pow, Nat.cast_ofNat]
      field_simp
    rw [hdiv, isExact_div_iff]
    refine ⟨⟨m, 150, hm, rfl⟩, ?_⟩
    calc m * 2 ^ 150 < 2 ^ 24 * 2 ^ 150 := Nat.mul_lt_mul_of_pos_right hm (Nat.two_pow_pos _)
      _ ≤ limit := by decide
  obtain ⟨arg, s, hwait, hs⟩ := exists_exactWait (t := t) (w := 2 * m) (by positivity) hdouble
    (by rw [hquanta]; exact isExact_two_zpow (by omega) (by omega)) (by rw [hquanta]; linarith)
    (by rwa [htick, mul_one]) (by rw [htick]; linarith)
  refine ⟨arg, s, hwait, ?_⟩
  rw [hs, htick, hquanta, mul_one]
  exact (Nat.ceil_le.mpr (by exact_mod_cast hless)).trans_lt
    (Nat.lt_ceil.mpr (by push_cast; linarith) : 1 < _)

/-- The ticks of a second that are too long together are too many for some wait. -/
theorem exists_exactWait_gt (hcheck : t.check = .ok ())
    (hexact : IsExact (value t.waitQuantum * t.ticksPerSecond.toNat))
    (hgt : 1 < value t.waitQuantum * t.ticksPerSecond.toNat) :
    ∃ arg s, t.ExactWait arg s ∧
      ⌈value s / value t.waitQuantum⌉₊ < ⌈value s * t.ticksPerSecond.toNat⌉₊ := by
  have hq := value_waitQuantum_pos hcheck
  obtain hle | hlt := le_or_gt (2 ^ 32) (value t.waitQuantum * t.ticksPerSecond.toNat)
  · -- The quantum is longer than a second, so that a second is one tick.
    have hword : (t.ticksPerSecond.toNat : ℚ) < 2 ^ 32 := by
      exact_mod_cast t.ticksPerSecond.toNat_lt
    have htick := ticksPerSecond_of_one_le hcheck (by nlinarith)
    rw [htick, Nat.cast_one, mul_one] at hle
    exact exists_exactWait_of_long hcheck hle
  · -- The wait for one quantum.
    have hquanta : value t.waitQuantum / value t.waitQuantum = 1 := div_self hq.ne'
    obtain ⟨arg, s, hwait, hs⟩ := exists_exactWait hq
      (isExact_value (isAmount_waitQuantum hcheck).1)
      (by rw [hquanta]; exact isExact_two_zpow (e := 0) (by decide) (by decide))
      (by rw [hquanta]; norm_num) hexact hlt
    refine ⟨arg, s, hwait, ?_⟩
    rw [hs, hquanta, Nat.ceil_one]
    exact Nat.lt_ceil.mpr (by exact_mod_cast hgt)

/-- A wait whose quanta and ticks are exact takes the ticks that its seconds are cut into. They are
its quanta for all such waits exactly if the ticks of a second are a second together, or there are
no such waits, as the ticks of a second are no exact number of seconds. -/
theorem ticks_match_quanta_iff (hcheck : t.check = .ok ()) :
    (∀ arg s, t.ExactWait arg s →
      (waitTicks [arg] t.ticksPerSecond).toNat = ⌈value s * t.ticksPerSecond.toNat⌉₊) ∧
    ((∀ arg s, t.ExactWait arg s →
        (waitTicks [arg] t.ticksPerSecond).toNat = ⌈value s / value t.waitQuantum⌉₊) ↔
      (IsExact (value t.waitQuantum * t.ticksPerSecond.toNat) →
        value t.waitQuantum * t.ticksPerSecond.toNat = 1)) := by
  have hq := value_waitQuantum_pos hcheck
  refine ⟨fun arg s h => h.toNat_waitTicks, ?_, ?_⟩
  · intro hall hexact
    obtain hlt | heq | hgt := lt_trichotomy (value t.waitQuantum * t.ticksPerSecond.toNat) 1
    · obtain ⟨arg, s, hwait, hless⟩ := exists_exactWait_lt hcheck hexact hlt
      exact absurd (hwait.toNat_waitTicks.symm.trans (hall arg s hwait)) hless.ne
    · exact heq
    · obtain ⟨arg, s, hwait, hmore⟩ := exists_exactWait_gt hcheck hexact hgt
      exact absurd (hwait.toNat_waitTicks.symm.trans (hall arg s hwait)) hmore.ne'
  · intro hone arg s hwait
    have hinv : (t.ticksPerSecond.toNat : ℚ) = (value t.waitQuantum)⁻¹ :=
      eq_inv_of_mul_eq_one_right (hone (hwait.isExact hcheck))
    rw [hwait.toNat_waitTicks, hinv, ← div_eq_mul_inv]

/-- The quanta of the standard timings are half a second long, and a second is two ticks. -/
theorem ticks_match_quanta_standard :
    standard.check = .ok () ∧ ∀ arg s, standard.ExactWait arg s →
      (waitTicks [arg] standard.ticksPerSecond).toNat = ⌈value s / value standard.waitQuantum⌉₊ := by
  have hcheck : standard.check = .ok () := by decide +kernel
  have hunits : units standard.waitQuantum = 2 ^ 148 := by decide +kernel
  have hticks : standard.ticksPerSecond.toNat = 2 := by decide +kernel
  refine ⟨hcheck, (ticks_match_quanta_iff hcheck).2.mpr fun _ => ?_⟩
  rw [value, hunits, hticks]
  norm_num

/-- Timings whose quanta are two seconds long. -/
def longQuanta : Timings :=
  { standard with waitQuantum := 2 }

/-- Two quanta of two seconds are four ticks. -/
theorem ticks_exceed_quanta : longQuanta.check = .ok () ∧ longQuanta.ExactWait "4" 4 ∧
    ⌈value 4 / value longQuanta.waitQuantum⌉₊ = 2 ∧
      waitTicks ["4"] longQuanta.ticksPerSecond = 4 := by
  have hunits : units longQuanta.waitQuantum = 2 ^ 150 := by decide +kernel
  have hunits' : units 4 = 2 ^ 151 := by decide +kernel
  have htick : longQuanta.ticksPerSecond.toNat = 1 := by decide +kernel
  have hquanta : value 4 / value longQuanta.waitQuantum = 2 := by
    rw [value, value, hunits, hunits']
    norm_num
  have hticks : value 4 * longQuanta.ticksPerSecond.toNat = 4 := by
    rw [value, htick, hunits']
    norm_num
  have hexact : IsExact 2 := isExact_two_zpow (e := 1) (by decide) (by decide)
  have hexact' : IsExact 4 := by
    have h := isExact_two_zpow (e := 2) (by decide) (by decide)
    norm_num at h
    exact h
  have hwait : longQuanta.ExactWait "4" 4 :=
    { read := by decide +kernel
      finite := by decide +kernel
      pos := by decide +kernel
      quanta := hquanta ▸ hexact
      quanta_lt := by rw [hquanta]; norm_num
      ticks := hticks ▸ hexact'
      ticks_lt := by rw [hticks]; norm_num }
  refine ⟨by decide +kernel, hwait, ?_, by decide +kernel⟩
  rw [hquanta]
  exact Nat.ceil_natCast 2

end Timings

end Tandem
