import Tandem.Json.Basic
import Tandem.Binary32
import Tandem.Decimal.Basic

/-!
# The value of a JSON number

A number without a point and without a power of ten is a whole number as long as 64 bits hold
it. Every other number is read in double precision: as many leading digits as 64 bits hold
make the mantissa, which is then multiplied or divided by one power of ten. A number past the
greatest finite one has no value.
-/

namespace Tandem.Json.Number

/-- The greatest whole number that 64 bits hold. -/
def mantissaCap : Nat := 0xFFFFFFFFFFFFFFFF

/-- The mantissa `m` followed by as many of the digits as fit, and the digits that do not. -/
def takeDigits : List Char → Nat → Nat × List Char
  | [], m => (m, [])
  | d :: ds, m =>
    let next := 10 * m + (d.toNat - '0'.toNat)
    if next ≤ mantissaCap then takeDigits ds next else (m, d :: ds)

/-- The whole number written, if it is written as one and 64 bits hold it. A negative zero is
not a whole number. -/
def toInt? (n : Number) : Option Int :=
  if n.fraction = [] ∧ n.power = none then
    let v := Decimal.natOfDigits n.whole
    if n.negative then
      if 0 < v ∧ v ≤ 0x8000000000000000 then some (-(v : Int)) else none
    else if v ≤ mantissaCap then some v
    else none
  else none

/-- A power of ten in double precision. -/
def tenTo (k : Nat) : Float :=
  Float.ofScientific 1 false k

/-- The greatest power of ten in double precision. -/
def greatestPower : Nat := 308

/-- `f · 10 ^ e`, by one multiplication, or by one or two divisions. -/
def scale? (f : Float) (e : Int) : Option Float :=
  if 0 ≤ e then
    if e ≤ greatestPower then
      let r := f * tenTo e.toNat
      if r.isInf then none else some r
    else if f == 0 then some f
    else none
  else
    let k := (-e).toNat
    if k ≤ greatestPower then some (f / tenTo k)
    else if k ≤ 2 * greatestPower then
      some (f / tenTo greatestPower / tenTo (k - greatestPower))
    else some 0

/-- The number in double precision. -/
def toFloat? (n : Number) : Option Float :=
  let (m, restWhole) := takeDigits n.whole 0
  let (m, restFraction) := takeDigits n.fraction m
  let used := n.fraction.length - restFraction.length
  let e := (restWhole.length : Int) - used + n.power.getD 0
  (scale? m.toUInt64.toFloat e).map fun f => if n.negative then -f else f

/-- The number in single precision: a whole number is rounded once, every other number from
its double-precision value. -/
def toFloat32? (n : Number) : Option Float32 :=
  match n.toInt? with
  | some i =>
    let magnitude := i.natAbs.toUInt64.toFloat32
    some (if i < 0 then -magnitude else magnitude)
  | none => n.toFloat?.map Binary32.ofFloat

end Tandem.Json.Number
