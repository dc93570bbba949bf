import Tandem.Binary32

/-!
# Decimal numbers

A decimal number is a whole coefficient with a power of ten. `Decimal.read?` reads the usual
notations: digits with or without a point, and with or without a power of ten, as long as
there is one digit in front of the power. `readFloat32?` rounds the number read to the
nearest single-precision number, and also reads the words for the infinities and for what is
no number.
-/

namespace Tandem

/-- The number `coefficient · 10 ^ exponent`, negated if `negative` is set. -/
structure Decimal where
  negative : Bool
  coefficient : Nat
  exponent : Int
deriving DecidableEq, Repr

namespace Decimal

/-- The whole number written by the digits. -/
def natOfDigits (ds : List Char) : Nat :=
  Nat.ofDigitChars 10 ds 0

/-- The power of ten at the end of a number: none, or an `e` and a signed whole number. -/
def readPower? : List Char → Option Int
  | [] => some 0
  | c :: cs =>
    if c = 'e' || c = 'E' then
      let (negative, ds) :=
        match cs with
        | '-' :: ds => (true, ds)
        | '+' :: ds => (false, ds)
        | ds => (false, ds)
      if ds ≠ [] ∧ ds.all Char.isDigit = true then
        let n : Int := natOfDigits ds
        some (if negative then -n else n)
      else none
    else none

/-- The digits behind a point, and what follows them. -/
def fractionDigits : List Char → List Char × List Char
  | '.' :: cs => (cs.takeWhile Char.isDigit, cs.dropWhile Char.isDigit)
  | cs => ([], cs)

/-- The unsigned number written by the text, with the sign it is given. -/
def readUnsigned? (negative : Bool) (cs : List Char) : Option Decimal :=
  let whole := cs.takeWhile Char.isDigit
  let (fraction, rest) := fractionDigits (cs.dropWhile Char.isDigit)
  if whole = [] ∧ fraction = [] then none
  else
    (readPower? rest).map fun power =>
      ⟨negative, natOfDigits (whole ++ fraction), power - fraction.length⟩

/-- The sign in front of a text, minus being `true`, and the text behind it. -/
def splitSign : List Char → Bool × List Char
  | '-' :: cs => (true, cs)
  | '+' :: cs => (false, cs)
  | cs => (false, cs)

/-- The number written by the whole text. -/
def read? (cs : List Char) : Option Decimal :=
  readUnsigned? (splitSign cs).1 (splitSign cs).2

/-- The single-precision number nearest to the decimal number. -/
def toFloat32 (d : Decimal) : Float32 :=
  let magnitude := Float32.ofScientific d.coefficient (d.exponent < 0) d.exponent.natAbs
  if d.negative then -magnitude else magnitude

end Decimal

/-- The single-precision number nearest to the number that the whole text writes. The words
for infinity and for no number are read in any case of letters. -/
def readFloat32? (cs : List Char) : Option Float32 :=
  let (negative, rest) := Decimal.splitSign cs
  let word := rest.map Char.toLower
  if word = "inf".toList ∨ word = "infinity".toList then
    some (if negative then -Binary32.infinity else Binary32.infinity)
  else if word = "nan".toList then some Binary32.notANumber
  else (Decimal.readUnsigned? negative rest).map Decimal.toFloat32

/-- The text without the plus sign it may start with. -/
def dropPlus : List Char → List Char
  | '+' :: ds => ds
  | ds => ds

/-- The 32-bit count that the whole text writes in ASCII digits, a plus sign being allowed in
front of them. -/
def readCount? (cs : List Char) : Option UInt32 :=
  let ds := dropPlus cs
  if ds ≠ [] ∧ ds.all Char.isDigit = true ∧ Decimal.natOfDigits ds ≤ Binary32.wordCap then
    some (UInt32.ofNat (Decimal.natOfDigits ds))
  else none

/-- The usual text of a count: its decimal digits, none of them a needless zero. -/
def countText (n : UInt32) : String :=
  n.toNat.repr

/-- A count is read back from its text. -/
theorem readCount?_countText (n : UInt32) : readCount? (countText n).toList = some n := by
  have hne : Nat.toDigits 10 n.toNat ≠ [] := Nat.toDigits_ne_nil
  have hall : (Nat.toDigits 10 n.toNat).all Char.isDigit = true :=
    List.all_eq_true.2 fun c hc => Nat.isDigit_of_mem_toDigits (by decide) (by decide) hc
  have hval : Decimal.natOfDigits (Nat.toDigits 10 n.toNat) = n.toNat :=
    Nat.ofDigitChars_ten_toDigits
  have hlt : n.toNat ≤ Binary32.wordCap := by
    have := n.toNat_lt
    simp only [Binary32.wordCap]
    omega
  have hplus : dropPlus (Nat.toDigits 10 n.toNat) = Nat.toDigits 10 n.toNat := by
    unfold dropPlus
    split
    · next ds h => exact absurd (List.all_eq_true.1 hall '+' (by simp [h])) (by decide)
    · rfl
  rw [countText, Nat.toList_repr, readCount?, hplus, if_pos ⟨hne, hall, by rw [hval]; exact hlt⟩,
    hval, UInt32.ofNat_toNat]

end Tandem
