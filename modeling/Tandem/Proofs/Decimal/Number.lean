import Tandem.Proofs.Binary32.Count
import Tandem.Proofs.Script.Lines

/-!
# Numbers as they are written

The text of a number denotes an exact number (`ArgKind.denoted`), with as many digits as it likes.
It is read as the single-precision number nearest to that (`readFloat32?_of_isNumber`) : it is never
taken for one of the words for infinity, and no digit of it is lost before it is rounded. Every
number of finitely many decimal digits has such a text (`exists_isNumber`).
-/

namespace Tandem

open Binary32

namespace ArgKind

/-- The number that the text denotes. -/
def denoted (cs : List Char) : ℚ :=
  match Text.pieces '.' cs with
  | [whole] => Decimal.natOfDigits whole
  | [whole, fraction] =>
    Decimal.natOfDigits whole + Decimal.natOfDigits fraction / 10 ^ fraction.length
  | _ => 0

/-- No text that is accepted denotes a negative number. -/
theorem denoted_nonneg (cs : List Char) : 0 ≤ denoted cs := by
  unfold denoted
  split <;> positivity

/-- A text of digits, and perhaps digits behind a point. -/
theorem isNumber_cases {cs : List Char} (h : isNumber cs = true) :
    isDigits cs = true ∧ denoted cs = Decimal.natOfDigits cs ∨
      ∃ whole fraction, cs = whole ++ '.' :: fraction ∧ isDigits whole = true ∧
        isDigits fraction = true ∧
        denoted cs =
          Decimal.natOfDigits whole + Decimal.natOfDigits fraction / 10 ^ fraction.length := by
  have hcs := Text.intercalate_pieces '.' cs
  unfold isNumber at h
  split at h
  · next whole hp =>
    obtain rfl : whole = cs := by simpa [hp, List.intercalate] using hcs
    exact Or.inl ⟨h, by rw [denoted, hp]⟩
  · next whole fraction hp =>
    have happend : whole ++ '.' :: fraction = cs := by simpa [hp, List.intercalate] using hcs
    obtain ⟨hw, hf⟩ := Bool.and_eq_true_iff.mp h
    exact Or.inr ⟨whole, fraction, happend.symm, hw, hf, by rw [denoted, hp]⟩
  · cases h

theorem isDigits_iff {cs : List Char} :
    isDigits cs = true ↔ cs ≠ [] ∧ ∀ c ∈ cs, c.isDigit = true := by
  rw [isDigits, Bool.and_eq_true, List.all_eq_true, Bool.not_eq_true', List.isEmpty_eq_false_iff]

theorem point_not_mem_of_isDigits {cs : List Char} (h : isDigits cs = true) : '.' ∉ cs :=
  fun hmem => absurd ((isDigits_iff.mp h).2 '.' hmem) (by decide)

/-- Digits around a point are accepted, and denote the whole and the fraction. -/
theorem isNumber_of_isDigits {whole fraction : List Char} (hw : isDigits whole = true)
    (hf : isDigits fraction = true) : isNumber (whole ++ '.' :: fraction) = true ∧
      denoted (whole ++ '.' :: fraction) =
        Decimal.natOfDigits whole + Decimal.natOfDigits fraction / 10 ^ fraction.length := by
  have hp : Text.pieces '.' (whole ++ '.' :: fraction) = [whole, fraction] := by
    rw [Text.pieces_append_cons fraction (point_not_mem_of_isDigits hw),
      Text.pieces_of_not_mem (point_not_mem_of_isDigits hf)]
  rw [isNumber, denoted, hp]
  exact ⟨Bool.and_eq_true_iff.mpr ⟨hw, hf⟩, rfl⟩

end ArgKind

/-! ## Reading -/

namespace Decimal

/-- Digits in front of others count by the power of ten of their place. -/
theorem natOfDigits_append (ds es : List Char) :
    natOfDigits (ds ++ es) = 10 ^ es.length * natOfDigits ds + natOfDigits es := by
  rw [natOfDigits, Nat.ofDigitChars_append, Nat.ofDigitChars_eq_ofDigitChars_zero]
  rfl

/-- A decimal number that is not negated is rounded to the nearest number. -/
theorem isNearest_toFloat32 {d : Decimal} (h : d.negative = false) :
    IsNearest (d.coefficient * 10 ^ d.exponent * 2 ^ 149) d.toFloat32 := by
  have hexp : (if decide (d.exponent < 0) = true then -(d.exponent.natAbs : ℤ)
      else d.exponent.natAbs) = d.exponent := by
    simp only [decide_eq_true_eq]
    split_ifs <;> omega
  have hnearest := isNearest_ofScientific d.coefficient (d.exponent < 0) d.exponent.natAbs
  rw [hexp] at hnearest
  rw [toFloat32, h]
  exact hnearest

/-- No digit of a number is lost when it is read. -/
theorem readUnsigned?_of_isNumber (negative : Bool) {cs : List Char}
    (h : ArgKind.isNumber cs = true) : ∃ n : ℕ, ∃ e : ℤ,
      readUnsigned? negative cs = some ⟨negative, n, e⟩ ∧ ArgKind.denoted cs = n * 10 ^ e := by
  obtain ⟨hdigits, hvalue⟩ | ⟨whole, fraction, rfl, hw, hf, hvalue⟩ := ArgKind.isNumber_cases h
  · obtain ⟨hne, hall⟩ := ArgKind.isDigits_iff.mp hdigits
    have htake : (cs ++ []).takeWhile Char.isDigit = cs := Text.takeWhile_front hall rfl
    have hdrop : (cs ++ []).dropWhile Char.isDigit = [] := Text.dropWhile_front hall rfl
    rw [List.append_nil] at htake hdrop
    refine ⟨natOfDigits cs, 0, ?_, by rw [hvalue, zpow_zero, mul_one]⟩
    simp [readUnsigned?, htake, hdrop, fractionDigits, readPower?, hne]
  · obtain ⟨hne, hall⟩ := ArgKind.isDigits_iff.mp hw
    obtain ⟨-, hall'⟩ := ArgKind.isDigits_iff.mp hf
    have htake : (whole ++ '.' :: fraction).takeWhile Char.isDigit = whole :=
      Text.takeWhile_front hall rfl
    have hdrop : (whole ++ '.' :: fraction).dropWhile Char.isDigit = '.' :: fraction :=
      Text.dropWhile_front hall rfl
    have htake' : (fraction ++ []).takeWhile Char.isDigit = fraction :=
      Text.takeWhile_front hall' rfl
    have hdrop' : (fraction ++ []).dropWhile Char.isDigit = [] := Text.dropWhile_front hall' rfl
    rw [List.append_nil] at htake' hdrop'
    refine ⟨natOfDigits (whole ++ fraction), -fraction.length, ?_, ?_⟩
    · simp [readUnsigned?, htake, hdrop, fractionDigits, htake', hdrop', readPower?, hne]
    · rw [hvalue, natOfDigits_append, zpow_neg, zpow_natCast]
      push_cast
      field_simp

end Decimal

/-- A text that is accepted begins with a digit. -/
theorem head_of_isNumber {cs : List Char} (h : ArgKind.isNumber cs = true) :
    ∃ c ds, cs = c :: ds ∧ c.isDigit = true := by
  obtain ⟨hdigits, -⟩ | ⟨whole, fraction, rfl, hw, -, -⟩ := ArgKind.isNumber_cases h
  · obtain ⟨hne, hall⟩ := ArgKind.isDigits_iff.mp hdigits
    obtain ⟨c, ds, rfl⟩ := List.exists_cons_of_ne_nil hne
    exact ⟨c, ds, rfl, hall c List.mem_cons_self⟩
  · obtain ⟨hne, hall⟩ := ArgKind.isDigits_iff.mp hw
    obtain ⟨c, ds, rfl⟩ := List.exists_cons_of_ne_nil hne
    exact ⟨c, ds ++ '.' :: fraction, rfl, hall c List.mem_cons_self⟩

/-- The text of a number is read as the nearest number. -/
theorem readFloat32?_of_isNumber {cs : List Char} (h : ArgKind.isNumber cs = true) :
    ∃ x, readFloat32? cs = some x ∧ IsNearest (ArgKind.denoted cs * 2 ^ 149) x := by
  obtain ⟨n, e, hread, hvalue⟩ := Decimal.readUnsigned?_of_isNumber false h
  obtain ⟨c, ds, rfl, hc⟩ := head_of_isNumber h
  -- A digit is no sign, and no word starts with it.
  have hsign : Decimal.splitSign (c :: ds) = (false, c :: ds) := by
    unfold Decimal.splitSign
    split
    · next heq => cases heq; cases hc
    · next heq => cases heq; cases hc
    · rfl
  have hlower : c.toLower = c := by
    have hc : 48 ≤ c.val ∧ c.val ≤ 57 := by simpa [Char.isDigit] using hc
    have hupper : ¬(c.val ≥ 'A'.val ∧ c.val ≤ 'Z'.val) := fun ⟨hge, _⟩ =>
      absurd (UInt32.le_trans hge hc.2) (by decide)
    rw [Char.toLower, dif_neg hupper]
  have hword : ∀ w : Char, w.isDigit = false → ∀ ws, (c :: ds).map Char.toLower ≠ w :: ws := by
    rintro w hw ws heq
    rw [List.map_cons, hlower] at heq
    cases heq
    rw [hc] at hw
    cases hw
  have hinf : (c :: ds).map Char.toLower ≠ "inf".toList := hword 'i' rfl _
  have hinfinity : (c :: ds).map Char.toLower ≠ "infinity".toList := hword 'i' rfl _
  have hnan : (c :: ds).map Char.toLower ≠ "nan".toList := hword 'n' rfl _
  refine ⟨_, ?_, hvalue ▸ Decimal.isNearest_toFloat32 (d := ⟨false, n, e⟩) rfl⟩
  unfold readFloat32?
  rw [hsign]
  dsimp only
  rw [if_neg (not_or.mpr ⟨hinf, hinfinity⟩), if_neg hnan, hread]
  rfl

/-- Blanks around the text of a number would be dropped, but there are none. -/
theorem trim_of_isNumber {cs : List Char} (h : ArgKind.isNumber cs = true) : Text.trim cs = cs := by
  obtain ⟨hne, hword⟩ := Line.isWordChar_of_isNumber h
  exact (Text.Tight.of_all hne fun c hc => Line.not_isBlank_of_isWordChar (hword c hc)).trim

/-! ## Writing -/

/-- The digits of the number, and zeros in front of them. -/
def paddedDigits (width n : ℕ) : List Char :=
  List.replicate (width - (Nat.toDigits 10 n).length) '0' ++ Nat.toDigits 10 n

theorem isDigits_toDigits (n : ℕ) : ArgKind.isDigits (Nat.toDigits 10 n) = true :=
  ArgKind.isDigits_iff.mpr ⟨Nat.toDigits_ne_nil, fun _ hc =>
    Nat.isDigit_of_mem_toDigits (by decide) (by decide) hc⟩

theorem isDigits_paddedDigits (width n : ℕ) : ArgKind.isDigits (paddedDigits width n) = true := by
  obtain ⟨hne, hall⟩ := ArgKind.isDigits_iff.mp (isDigits_toDigits n)
  refine ArgKind.isDigits_iff.mpr ⟨List.append_ne_nil_of_right_ne_nil _ hne, fun c hc => ?_⟩
  obtain hc | hc := List.mem_append.mp hc
  · rw [List.eq_of_mem_replicate hc]
    rfl
  · exact hall c hc

/-- Zeros in front make no difference to a number. -/
theorem natOfDigits_paddedDigits (width n : ℕ) :
    Decimal.natOfDigits (paddedDigits width n) = n := by
  rw [paddedDigits, Decimal.natOfDigits, Nat.ofDigitChars_append, Nat.ofDigitChars_replicate_zero,
    Nat.mul_zero]
  exact Nat.ofDigitChars_ten_toDigits

/-- A number that fits is padded to the width exactly. -/
theorem length_paddedDigits {width n : ℕ} (hwidth : 0 < width) (h : n < 10 ^ width) :
    (paddedDigits width n).length = width := by
  have hle : (Nat.toDigits 10 n).length ≤ width :=
    (Nat.length_toDigits_le_iff (by decide) hwidth).mpr h
  rw [paddedDigits, List.length_append, List.length_replicate]
  omega

/-- Every number that has finitely many decimal digits has a text. -/
theorem exists_isNumber (n : ℕ) {k : ℕ} (hk : 0 < k) :
    ∃ cs, ArgKind.isNumber cs = true ∧ ArgKind.denoted cs = n / 10 ^ k := by
  have hlt : n % 10 ^ k < 10 ^ k := Nat.mod_lt _ (Nat.pow_pos (by decide))
  obtain ⟨hnumber, hvalue⟩ := ArgKind.isNumber_of_isDigits (isDigits_toDigits (n / 10 ^ k))
    (isDigits_paddedDigits k (n % 10 ^ k))
  refine ⟨_, hnumber, ?_⟩
  rw [hvalue, natOfDigits_paddedDigits, length_paddedDigits hk hlt,
    show Decimal.natOfDigits (Nat.toDigits 10 (n / 10 ^ k)) = n / 10 ^ k from
      Nat.ofDigitChars_ten_toDigits]
  have hsplit : (10 ^ k : ℚ) * (n / 10 ^ k : ℕ) + (n % 10 ^ k : ℕ) = n := by
    exact_mod_cast Nat.div_add_mod n (10 ^ k)
  field_simp
  linarith

end Tandem
