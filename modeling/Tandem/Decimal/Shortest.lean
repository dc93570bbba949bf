import Tandem.Binary32

/-!
# The shortest decimal of a single-precision number

The numbers that round to a given single-precision number form an interval around it, and the
ends belong to it when the mantissa is even. The shortest decimal is the point of that
interval on the coarsest grid of powers of ten that has a point in it, the nearest one to the
number if there are two. Two points can be equally near; which one is taken then is up to who
writes the number. Mantissa, interval and grid are compared as natural numbers.
-/

namespace Tandem.Shortest

/-- Which one of two equally near points stands for a number. -/
inductive Tie where
  /-- The one whose digits make an even number. -/
  | toEven
  /-- The one with the greater digits. -/
  | up
deriving DecidableEq, Repr

/-- The interval of numbers that round to a number: `low / unit` to `high / unit` around
`value / unit`, with its ends if `closed` is set. -/
structure Interval where
  low : Nat
  value : Nat
  high : Nat
  unit : Nat
  closed : Bool

/-- The interval of `m · 2 ^ e`. The gap below a power of two is half the gap above it, unless
the number is the least normal one or subnormal. -/
def interval (m : Nat) (e : Int) : Interval :=
  let below := if m = 0x800000 ∧ -149 < e then 1 else 2
  let scale := Nat.pow 2 (e - 2).toNat
  { low := (4 * m - below) * scale
    value := 4 * m * scale
    high := (4 * m + 2) * scale
    unit := Nat.pow 2 (2 - e).toNat
    closed := m % 2 = 0 }

/-- The point of the grid of multiples of `10 ^ power` that stands for the number, if the
interval has one. -/
def onGrid? (tie : Tie) (i : Interval) (power : Int) : Option Nat :=
  let factor := Nat.pow 10 (-power).toNat
  let step := i.unit * Nat.pow 10 power.toNat
  let inside (c : Nat) : Bool :=
    let p := c * step
    let low := i.low * factor
    let high := i.high * factor
    if i.closed then low ≤ p && p ≤ high else low < p && p < high
  let value := i.value * factor
  let down := value / step
  let up := down + 1
  let downGap := value - down * step
  let upGap := up * step - value
  let staysDown := tie == .toEven && down % 2 == 0
  let nearer := if downGap < upGap || (downGap == upGap && staysDown) then down else up
  let farther := if nearer == down then up else down
  [nearer, farther].find? fun c => 0 < c && inside c

/-- The powers of ten from `10 ^ 38` downwards, past the least positive number. -/
def powers : List Int :=
  (List.range 90).map fun k => 38 - Int.ofNat k

/-- The digits and the power of ten of the shortest decimal of `m · 2 ^ e`. -/
def decimal (tie : Tie) (m : Nat) (e : Int) : Nat × Int :=
  let i := interval m e
  (powers.findSome? fun power => (onGrid? tie i power).map (·, power)).getD (0, 0)

end Tandem.Shortest
