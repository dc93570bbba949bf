import Tandem.Decimal.Shortest

/-!
# Texts of single-precision numbers

A number is shown with its shortest decimal digits in two layouts. Messages write it out in
full, whole numbers without a point, and let a tie go up. JSON keeps a point in every number
that it writes out, gives very great and very small ones a power of ten with a sign, lets a
tie go to the even digits, and has no text for what is not finite. Times in log messages have
two places instead, a tie going to the even neighbour.
-/

namespace Tandem.Layout

open Float.Model (UnpackedFloat)
open Float.Model.UnpackedFloat (Sign)

/-- The sign in front of a number. -/
def signText : Sign → String
  | .negative => "-"
  | .positive => ""

/-- `n` zeros. -/
def zeros (n : Nat) : String :=
  String.ofList (List.replicate n '0')

/-- The digits with a point behind the first `n` of them. -/
def pointAfter (digits : String) (n : Nat) : String :=
  String.ofList (digits.toList.take n) ++ "." ++ String.ofList (digits.toList.drop n)

/-- The number `digits · 10 ^ power` written out without a power of ten. -/
def writtenOut (digits : String) (power : Int) : String :=
  let point := digits.length + power
  if 0 ≤ power then digits ++ zeros power.toNat
  else if 0 < point then pointAfter digits point.toNat
  else "0." ++ zeros (-point).toNat ++ digits

/-- The text of a number in messages. -/
def message (x : Float32) : String :=
  match Binary32.parts x with
  | .notANumber => "NaN"
  | .infinity s => signText s ++ "inf"
  | .zero s => signText s ++ "0"
  | .finite s m e _ =>
    let (digits, power) := Shortest.decimal .up m e
    signText s ++ writtenOut digits.repr power

/-- JSON writes the digits out when the point stands at most this far behind the first. -/
def jsonWholeDigits : Int := 13

/-- JSON writes the digits out when fewer than this many zeros stand between the point and the
first digit. -/
def jsonLeadingZeros : Int := 6

/-- A power of ten with its sign. -/
def signedPower (power : Int) : String :=
  (if power < 0 then "-" else "+") ++ power.natAbs.repr

/-- The number `digits · 10 ^ power` in JSON. -/
def jsonDigits (digits : String) (power : Int) : String :=
  let point := digits.length + power
  if 0 ≤ power ∧ point ≤ jsonWholeDigits then writtenOut digits power ++ ".0"
  else if -jsonLeadingZeros < point ∧ point ≤ jsonWholeDigits then writtenOut digits power
  else
    let mantissa := if digits.length = 1 then digits else pointAfter digits 1
    mantissa ++ "e" ++ signedPower (point - 1)

/-- The text of a number in JSON, where only a finite number has one. -/
def json (x : Float32) : String :=
  match Binary32.parts x with
  | .zero s => signText s ++ "0.0"
  | .finite s m e _ =>
    let (digits, power) := Shortest.decimal .toEven m e
    signText s ++ jsonDigits digits.repr power
  | _ => "null"

/-- The whole number nearest to `n / d`, the even one of two equally near ones. -/
def roundToEven (n d : Nat) : Nat :=
  let q := n / d
  match compare (2 * (n % d)) d with
  | .lt => q
  | .eq => q + q % 2
  | .gt => q + 1

/-- A count of hundredths with two places. -/
def hundredths (n : Nat) : String :=
  (n / 100).repr ++ "." ++ (if n % 100 < 10 then "0" else "") ++ (n % 100).repr

/-- The text of a number with two places. -/
def twoPlaces (x : Float32) : String :=
  match Binary32.parts x with
  | .notANumber => "NaN"
  | .infinity s => signText s ++ "inf"
  | .zero s => signText s ++ hundredths 0
  | .finite s m e _ =>
    signText s ++ hundredths (roundToEven (100 * m * Nat.pow 2 e.toNat) (Nat.pow 2 (-e).toNat))

end Tandem.Layout
