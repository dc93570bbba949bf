import Tandem.Command

/-!
# Ticks

A run proceeds by ticks. A leaf takes one tick, a waiting command as many as its argument asks
for, a loop those of its children times its count, and a disabled command none.

`ticks` is the exact number, `tickCount` the number as shown, which stops at the greatest
64-bit word, and `hasTicks` tells without counting whether there is a tick at all.
-/

namespace Tandem

/-- Which command waits, and into how many ticks a second of waiting is cut. -/
structure WaitRule where
  command : String
  ticksPerSecond : UInt32
deriving DecidableEq, Repr

/-- The seconds that a waiting command's arguments ask for: its first argument read as a
number, or none if it cannot be read, is not finite or is not above zero. -/
def waitSeconds (args : List String) : Float32 :=
  match args.head?.bind fun a => readFloat32? (Text.trim a.toList) with
  | some s => if s.isFinite ∧ 0 < s then s else 0
  | none => 0

/-- The ticks that a waiting command takes: its seconds in ticks, a begun tick counting as a
whole one. -/
def waitTicks (args : List String) (ticksPerSecond : UInt32) : UInt32 :=
  UInt32.ofNat <|
    Binary32.ceilNat Binary32.wordCap (waitSeconds args * ticksPerSecond.toFloat32)

namespace WaitRule

/-- The named command waits. -/
def waits (rule : WaitRule) (name : String) : Bool :=
  name = rule.command

/-- The ticks that a leaf takes. -/
def leafTicks (rule : WaitRule) (b : CommandHead) : Nat :=
  if rule.waits b.name then (waitTicks b.args rule.ticksPerSecond).toNat else 1

end WaitRule

/-- The greatest number of ticks that is shown. -/
def tickCap : Nat := 0xFFFFFFFFFFFFFFFF

/-- The sum, but at most the greatest word. -/
def addCapped (a b : UInt64) : UInt64 :=
  UInt64.ofNat (min tickCap (a.toNat + b.toNat))

/-- The product, but at most the greatest word. -/
def mulCapped (a b : UInt64) : UInt64 :=
  UInt64.ofNat (min tickCap (a.toNat * b.toNat))

namespace Command

variable (rule : WaitRule)

mutual

/-- The number of ticks that the command takes. -/
def ticks : Command → Nat
  | leaf b => if b.flags.disabled then 0 else rule.leafTicks b
  | loop b n cs => if b.flags.disabled then 0 else n.toNat * ticksList cs

/-- The number of ticks that the commands take together. -/
def ticksList : List Command → Nat
  | [] => 0
  | c :: cs => ticks c + ticksList cs

end

mutual

/-- The number of ticks that the command takes, as far as a word shows it. -/
def tickCount : Command → UInt64
  | leaf b => if b.flags.disabled then 0 else UInt64.ofNat (rule.leafTicks b)
  | loop b n cs => if b.flags.disabled then 0 else mulCapped (tickCountList cs) n.toUInt64

/-- The number of ticks that the commands take together, as far as a word shows it. -/
def tickCountList : List Command → UInt64
  | [] => 0
  | c :: cs => addCapped (tickCount c) (tickCountList cs)

end

mutual

/-- Whether the command takes a tick. -/
def hasTicks : Command → Bool
  | leaf b => !b.flags.disabled && 0 < rule.leafTicks b
  | loop b n cs => !b.flags.disabled && 0 < n && hasTicksList cs

/-- Whether one of the commands takes a tick. -/
def hasTicksList : List Command → Bool
  | [] => false
  | c :: cs => hasTicks c || hasTicksList cs

end

end Command

end Tandem
