import Tandem.Binary32
import Mathlib

/-!
# Single-precision numbers and their parts

A number is taken apart into a sign, a mantissa and an exponent (`parts`), and can be put together
again from them (`ofParts`). Nothing is lost either way : the parts of a number give that number
(`ofParts_parts`), and if a mantissa and an exponent are those that a finite number has
(`Canonical`), they are the parts of the number that they give (`parts_ofParts`). An exponent beyond
those gives infinity (`ofParts_of_lt`).
-/

namespace Tandem.Binary32

open Float.Model UnpackedFloat

/-- The number that has those parts. -/
def ofParts (u : UnpackedFloat) : Float32 :=
  .ofModel (.pack u)

/-- The mantissa and the exponent are those of a finite number. -/
structure Canonical (m : Nat) (e : Int) : Prop where
  pos : 0 < m
  lt : m < 2 ^ 24
  least : -149 ≤ e
  most : e ≤ 104
  normal : e = -149 ∨ 2 ^ 23 ≤ m

/-- The parts are those of a number. -/
def ArePartsOfOne : UnpackedFloat → Prop
  | .finite _ m e _ => Canonical m e
  | _ => True

/-! ## Bit patterns -/

section Bits

variable (s : Sign) (exponent : BitVec 8) (mantissa : BitVec 23)

theorem toNat_implicit : (1#1 ++ mantissa).toNat = 2 ^ 23 + mantissa.toNat := by
  rw [BitVec.toNat_append, ← Nat.shiftLeft_add_eq_or_of_lt mantissa.isLt, Nat.shiftLeft_eq]
  rfl

/-- A finite number is packed as infinity, as a normal number or as a subnormal one, by the size of
its exponent and its mantissa. -/
theorem pack_finite {m : Nat} {e : Int} (h : 0 < m) (hm : m < 2 ^ 24) (he : -149 ≤ e) :
    UnpackedFloat.pack .binary32 (.finite s m e h) =
      if 104 < e then packedInfinity .binary32 s
      else if 2 ^ 23 ≤ m then
        packComponents .binary32 s (BitVec.ofNat 8 (e + 150).toNat) (BitVec.ofNat 23 m)
      else packComponents .binary32 s 0#8 (BitVec.ofNat 23 m) := by
  have hexp : (2 ^ 8 ≤ (e + 150).toNat + 1) = (104 < e) := by
    rw [eq_iff_iff]
    omega
  have hlog : (m.log2 + 1 = Format.binary32.mantissaBits) = (2 ^ 23 ≤ m) := by
    rw [eq_iff_iff, ← Nat.le_log2 (Nat.ne_of_gt h)]
    have := (Nat.log2_lt (Nat.ne_of_gt h)).mpr hm
    show m.log2 + 1 = 24 ↔ _
    omega
  have hbiased : (e + Format.binary32.exponentBias +
      Format.binary32.mantissaBitsWithoutImplicit).toNat = (e + 150).toNat := by
    show (e + 127 + 23).toNat = _
    omega
  unfold UnpackedFloat.pack
  simp only [hbiased, hlog, hexp]

/-- The parts that the components of a bit pattern stand for. -/
theorem unpack_packComponents :
    UnpackedFloat.unpack .binary32 (packComponents .binary32 s exponent mantissa) =
      if exponent = -1#8 then if mantissa = 0#23 then .infinity s else .notANumber
      else if exponent = 0#8 then
        if h : mantissa = 0#23 then .zero s
        else .finite s mantissa.toNat (-149) (BitVec.toNat_pos_of_ne_zero h)
      else .finite s (2 ^ 23 + mantissa.toNat) (exponent.toNat - 150)
        (Nat.add_pos_left (by decide) _) := by
  unfold UnpackedFloat.unpack
  simp only [unpackMantissa_packComponents, unpackExponent_packComponents,
    unpackSign_packComponents, Sign.ofBitVec_toBitVec, toNat_implicit]
  by_cases h1 : exponent = -1#8
  · rw [if_pos h1, if_pos h1]
  rw [if_neg h1, if_neg h1]
  by_cases h0 : exponent = 0#8
  · subst h0
    rfl
  · rw [if_neg h0, if_neg h0]
    rfl

/-- What is unpacked are the parts of one number. -/
theorem arePartsOfOne_unpack : ArePartsOfOne
    (UnpackedFloat.unpack .binary32 (packComponents .binary32 s exponent mantissa)) := by
  have hm := mantissa.isLt
  have he := exponent.isLt
  rw [unpack_packComponents]
  split
  · split <;> trivial
  · next h1 =>
    split
    · split
      · trivial
      · next h0 => exact ⟨BitVec.toNat_pos_of_ne_zero h0, by omega, by omega, by omega, Or.inl rfl⟩
    · next h0 =>
      have hpos := BitVec.toNat_pos_of_ne_zero h0
      have hlast : exponent.toNat ≠ 255 := fun h => h1 (BitVec.eq_of_toNat_eq h)
      exact ⟨by omega, by omega, by omega, by omega, Or.inr (by omega)⟩

theorem finite_congr {s : Sign} {m m' : Nat} {e e' : Int} {h : 0 < m} {h' : 0 < m'} (hm : m = m')
    (he : e = e') : UnpackedFloat.finite s m e h = .finite s m' e' h' := by
  subst hm he
  rfl

/-- What is packed from the parts of a number is unpacked to them. -/
theorem unpack_pack {u : UnpackedFloat} (h : ArePartsOfOne u) :
    UnpackedFloat.unpack .binary32 (UnpackedFloat.pack .binary32 u) = u := by
  cases u with
  | infinity s => exact unpack_packComponents s (-1#8) 0#23
  | notANumber => exact unpack_packComponents .positive (-1#8) (1#23 <<< 22)
  | zero s => exact unpack_packComponents s 0#8 0#23
  | finite s m e hpos =>
    obtain ⟨-, hlt, hleast, hmost, hnormal⟩ := h
    rw [pack_finite s hpos hlt hleast, if_neg (by omega)]
    split
    · next hm =>
      have hexp : (BitVec.ofNat 8 (e + 150).toNat).toNat = (e + 150).toNat := by
        rw [BitVec.toNat_ofNat]
        omega
      have hmant : (BitVec.ofNat 23 m).toNat = m - 2 ^ 23 := by
        rw [BitVec.toNat_ofNat]
        omega
      have h1 : BitVec.ofNat 8 (e + 150).toNat ≠ -1#8 := fun h => by
        have : (e + 150).toNat = 255 := hexp.symm.trans (congrArg BitVec.toNat h)
        omega
      have h0 : BitVec.ofNat 8 (e + 150).toNat ≠ 0#8 := fun h => by
        have : (e + 150).toNat = 0 := hexp.symm.trans (congrArg BitVec.toNat h)
        omega
      rw [unpack_packComponents, if_neg h1, if_neg h0]
      exact finite_congr (by omega) (by omega)
    · next hm =>
      have hmant : (BitVec.ofNat 23 m).toNat = m := by
        rw [BitVec.toNat_ofNat]
        omega
      have h0 : BitVec.ofNat 23 m ≠ 0#23 := fun h => by
        have : m = 0 := hmant.symm.trans (congrArg BitVec.toNat h)
        omega
      rw [unpack_packComponents, if_neg (by decide), if_pos rfl, dif_neg h0]
      exact finite_congr hmant (by omega)

end Bits

/-! ## Taking apart and putting together -/

/-- What is taken apart is a zero, infinity, no number, or a finite number. -/
theorem arePartsOfOne_parts (x : Float32) : ArePartsOfOne (parts x) := by
  have hbits := @packComponents_unpackSign_unpackExponent_unpackMantissa .binary32
    x.toModel.toBits.toBitVec
  unfold parts Float32.Model.unpack
  rw [← hbits]
  exact arePartsOfOne_unpack _ _ _

/-- The parts of a number give it again. -/
theorem ofParts_parts (x : Float32) : ofParts (parts x) = x := by
  obtain ⟨bits, hvalid⟩ := x
  show Float32.ofModel ⟨UInt32.ofBitVec (UnpackedFloat.pack .binary32 _), _⟩ = _
  congr 2
  exact congrArg UInt32.ofBitVec (pack_unpack_of_valid hvalid)

/-- What is put together from the parts of a number has those parts. -/
theorem parts_ofParts {u : UnpackedFloat} (h : ArePartsOfOne u) : parts (ofParts u) = u :=
  unpack_pack h

/-! ## Operations -/

theorem add_eq (x y : Float32) :
    x + y = ofParts (UnpackedFloat.add .binary32 (parts x) (parts y)) :=
  rfl

theorem sub_eq (x y : Float32) :
    x - y = ofParts (UnpackedFloat.sub .binary32 (parts x) (parts y)) :=
  rfl

/-- A number is less than another one if its parts compare so. -/
theorem lt_iff {x y : Float32} : x < y ↔ (parts x).compare (parts y) = some .lt := by
  show decide ((UnpackedFloat.compare _ _ == some .lt) = true) = true ↔ _
  rw [decide_eq_true_iff, beq_iff_eq]
  rfl

/-- A number is at most another one if its parts compare so. -/
theorem le_iff {x y : Float32} : x ≤ y ↔ ((parts x).compare (parts y)).any (·.isLE) = true := by
  show decide (UnpackedFloat.le _ _ = true) = true ↔ _
  rw [decide_eq_true_iff]
  rfl

theorem parts_zero : parts 0 = .zero .positive := rfl

/-- A positive number is infinite, or finite with a positive mantissa. -/
theorem pos_iff {x : Float32} : 0 < x ↔
    parts x = .infinity .positive ∨ ∃ m e h, parts x = .finite .positive m e h := by
  rw [lt_iff, parts_zero]
  cases parts x with
  | infinity s => cases s <;> simp [UnpackedFloat.compare]
  | notANumber => simp [UnpackedFloat.compare]
  | zero s => simp [UnpackedFloat.compare]
  | finite s m e h => cases s <;> simp [UnpackedFloat.compare, h]

/-- What is above something positive is positive. -/
theorem pos_of_lt {x y : Float32} (hx : 0 < x) (h : x < y) : 0 < y := by
  rw [lt_iff] at h
  obtain hx | ⟨m, e, hm, hx⟩ := pos_iff.mp hx
  · rw [hx] at h
    cases hy : parts y with
    | infinity s => cases s <;> rw [hy] at h <;> cases h
    | _ => rw [hy] at h; cases h
  · rw [hx] at h
    cases hy : parts y with
    | infinity s =>
      cases s with
      | positive => exact pos_iff.mpr (Or.inl hy)
      | negative => rw [hy] at h; cases h
    | finite s m' e' hm' =>
      cases s with
      | positive => exact pos_iff.mpr (Or.inr ⟨m', e', hm', hy⟩)
      | negative => rw [hy] at h; cases h
    | _ => rw [hy] at h; cases h

/-- Nothing is lost where nothing is taken away. -/
theorem sub_zero (x : Float32) : x - 0 = x := by
  have hsub : UnpackedFloat.sub .binary32 (parts x) (.zero .positive) = parts x := by
    cases parts x with
    | zero s => cases s <;> rfl
    | infinity s => rfl
    | notANumber => rfl
    | finite s m e h => rfl
  rw [sub_eq, parts_zero, hsub, ofParts_parts]

end Tandem.Binary32
