/-!
# Single-precision numbers as exact numbers

Time is counted in single-precision numbers, whose arithmetic is `Float32`'s. Where a time
becomes a count of ticks or steps, or a text, the number is taken apart into its sign, a
natural mantissa and a power of two, and the rest of the work is exact arithmetic on natural
numbers: `ceilNat` and `roundNat` are the two ways a time becomes a count.
-/

namespace Tandem.Binary32

open Float.Model (UnpackedFloat Format)

/-- The sign, mantissa and exponent of a number, or which special value it is. -/
def parts (x : Float32) : UnpackedFloat :=
  x.toModel.unpack

/-- The least natural number at or above `m · 2 ^ e`. -/
def ceilScaled (m : Nat) : Int → Nat
  | .ofNat k => m * Nat.pow 2 k
  | .negSucc k => (m + (Nat.pow 2 (k + 1) - 1)) / Nat.pow 2 (k + 1)

/-- The natural number nearest to `m · 2 ^ e`, the greater of two equally near ones. -/
def roundScaled (m : Nat) : Int → Nat
  | .ofNat k => m * Nat.pow 2 k
  | .negSucc k => (m + Nat.pow 2 k) / Nat.pow 2 (k + 1)

/-- The least natural number at or above `x`, but at most `cap`. A number that is not above
zero, and one that is no number, counts nothing. -/
def ceilNat (cap : Nat) (x : Float32) : Nat :=
  match parts x with
  | .finite .positive m e _ => min cap (ceilScaled m e)
  | .infinity .positive => cap
  | _ => 0

/-- The natural number nearest to `x`, a half going up, but at most `cap`. A number that is
not above zero, and one that is no number, counts nothing. -/
def roundNat (cap : Nat) (x : Float32) : Nat :=
  match parts x with
  | .finite .positive m e _ => min cap (roundScaled m e)
  | .infinity .positive => cap
  | _ => 0

/-- The greatest count that a 32-bit word holds. -/
def wordCap : Nat := 0xFFFFFFFF

theorem ceilNat_le (cap : Nat) (x : Float32) : ceilNat cap x ≤ cap := by
  unfold ceilNat
  split
  · exact Nat.min_le_left _ _
  · exact Nat.le_refl _
  · exact Nat.zero_le _

theorem roundNat_le (cap : Nat) (x : Float32) : roundNat cap x ≤ cap := by
  unfold roundNat
  split
  · exact Nat.min_le_left _ _
  · exact Nat.le_refl _
  · exact Nat.zero_le _

/-- The single-precision number nearest to a double-precision one, the even one of two equally
near ones. -/
def ofFloat (x : Float) : Float32 :=
  .ofModel <| .pack <|
    match x.toModel.unpack with
    | .finite s m e _ => UnpackedFloat.round Format.binary32 s m e
    | special => special

/-- The greatest number, above every finite one. -/
def infinity : Float32 := Float32.ofBits 0x7f800000

/-- What an undefined operation gives. -/
def notANumber : Float32 := Float32.ofBits 0x7fc00000

end Tandem.Binary32
