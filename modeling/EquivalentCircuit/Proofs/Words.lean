import EquivalentCircuit.Arithmetic.Binary64
import Mathlib

/-!
# Words of Double-Precision Numbers

Arithmetic on binary64 numbers takes words apart, computes on what they stand for, and packs the
result into a word again. What a word stands for is an **unpacked number**: an infinity or a zero
with its sign, NaN, or a sign with a mantissa and an exponent.

One number has several mantissas, and a word has room for one of them: the **canonical** one, which
has all 53 bits unless the exponent is the least one. `unpack_pack` says what is left of a
rounded number after packing. Nothing is lost, except that a number with too large an exponent
overflows to infinity.

## Main results

* `Unpacked.unpack_packComponents`: what a word stands for, in terms of its fields.
* `Unpacked.unpack_pack`: what packing keeps.
-/

namespace EquivalentCircuit

open Float.Model (Format UnpackedFloat)
open Float.Model.UnpackedFloat

/-! ### Fields -/

namespace Word

variable (sign : Sign) (exponent : BitVec 11) (fraction : BitVec 52)

/-- The word with given fields, as a natural number. -/
theorem toNat_packComponents :
    (packComponents Format.binary64 sign exponent fraction).toNat =
      sign.toBitVec.toNat * 2 ^ 63 + exponent.toNat * 2 ^ 52 + fraction.toNat := by
  change (sign.toBitVec ++ exponent ++ fraction).toNat = _
  rw [BitVec.toNat_append, BitVec.toNat_append, ← Nat.shiftLeft_add_eq_or_of_lt fraction.isLt,
    ← Nat.shiftLeft_add_eq_or_of_lt exponent.isLt, Nat.shiftLeft_eq, Nat.shiftLeft_eq,
    Nat.add_mul, Nat.mul_assoc, ← Nat.pow_add]

/-- Changing the first bit changes the sign. -/
theorem packComponents_xor_signBit :
    packComponents Format.binary64 sign exponent fraction ^^^ 0x8000000000000000#64 =
      packComponents Format.binary64 (-sign) exponent fraction := by
  have hBit : 0x8000000000000000#64 = 1#1 ++ 0#11 ++ 0#52 := by decide
  rw [hBit]
  change (sign.toBitVec ++ exponent ++ fraction) ^^^ _ = (-sign).toBitVec ++ exponent ++ fraction
  rw [BitVec.xor_append, BitVec.xor_append, BitVec.xor_zero, BitVec.xor_zero]
  cases sign <;> rfl

end Word

/-! ### Unpacking -/

namespace Unpacked

variable (sign : Sign)

/-- **What a word stands for**: the greatest exponent field is kept for infinities and NaN, and the
least one for zeros and for the numbers that have no leading bit. -/
theorem unpack_packComponents (exponent : BitVec 11) (fraction : BitVec 52) :
    UnpackedFloat.unpack Format.binary64 (packComponents Format.binary64 sign exponent fraction) =
      if exponent = -1#11 then if fraction = 0#52 then .infinity sign else .notANumber
      else if exponent = 0#11 then
        if h : fraction = 0#52 then .zero sign
        else .finite sign fraction.toNat (-1074)
          (by simpa [BitVec.toNat_pos, BitVec.pos_iff_ne_zero])
      else .finite sign (2 ^ 52 + fraction.toNat) (exponent.toNat - 1075) (by omega) := by
  have hLeadingBit : (1#1 ++ fraction).toNat = 2 ^ 52 + fraction.toNat := by
    rw [BitVec.toNat_append, ← Nat.shiftLeft_add_eq_or_of_lt fraction.isLt]
    rfl
  rw [UnpackedFloat.unpack]
  simp only [unpackExponent_packComponents, unpackMantissa_packComponents,
    unpackSign_packComponents, Sign.ofBitVec_toBitVec, hLeadingBit]
  split
  · rfl
  · split
    · rename_i hLeast
      subst hLeast
      rfl
    · rfl

theorem unpack_packedInfinity :
    UnpackedFloat.unpack Format.binary64 (packedInfinity Format.binary64 sign) =
      .infinity sign := by
  rw [packedInfinity, unpack_packComponents]
  rfl

section Finite

variable {exponent : BitVec 11} {fraction : BitVec 52}

theorem unpack_subnormal (h : 0 < fraction.toNat) :
    UnpackedFloat.unpack Format.binary64 (packComponents Format.binary64 sign 0#11 fraction) =
      .finite sign fraction.toNat (-1074) h := by
  have hFraction : fraction ≠ 0#52 := by
    rintro rfl
    exact absurd h (by decide)
  rw [unpack_packComponents, if_neg (by decide), if_pos rfl, dif_neg hFraction]

theorem unpack_normal (hPos : 0 < exponent.toNat) (hLt : exponent.toNat < 2047) :
    UnpackedFloat.unpack Format.binary64 (packComponents Format.binary64 sign exponent fraction) =
      .finite sign (2 ^ 52 + fraction.toNat) (exponent.toNat - 1075) (by omega) := by
  have hNotLeast : exponent ≠ 0#11 := by
    rintro rfl
    exact absurd hPos (by decide)
  have hNotGreatest : exponent ≠ -1#11 := by
    rintro rfl
    exact absurd hLt (by decide)
  rw [unpack_packComponents, if_neg hNotGreatest, if_neg hNotLeast]

end Finite

/-! ### Packing -/

/-- A mantissa and an exponent are **canonical**: the mantissa has all 53 bits, or it has fewer and
the exponent is the least one. -/
structure IsCanonical (mantissa : Nat) (exponent : Int) : Prop where
  lt_two_pow : mantissa < 2 ^ 53
  least_le : -1074 ≤ exponent
  normal_or_least : 2 ^ 52 ≤ mantissa ∨ exponent = -1074

theorem IsCanonical.log2_eq_or {mantissa : Nat} {exponent : Int} (hPos : 0 < mantissa)
    (h : IsCanonical mantissa exponent) :
    mantissa.log2 = 52 ∨ mantissa.log2 < 52 ∧ exponent = -1074 := by
  obtain ⟨hLt, -, hNormal⟩ := h
  rcases Nat.lt_or_ge mantissa (2 ^ 52) with hSmall | hLarge
  · exact .inr ⟨(Nat.log2_lt (by omega)).mpr hSmall, by omega⟩
  · exact .inl ((Nat.log2_eq_iff (by omega)).mpr ⟨hLarge, hLt⟩)

/-- An unpacked number is **rounded** when it is canonical, its exponent possibly too large. -/
def IsRounded : UnpackedFloat → Prop
  | .finite _ mantissa exponent _ => IsCanonical mantissa exponent
  | _ => True

/-- What is left of a rounded number in a word: a large exponent **overflows**. -/
def overflowed : UnpackedFloat → UnpackedFloat
  | .finite sign mantissa exponent h =>
    if 971 < exponent then .infinity sign else .finite sign mantissa exponent h
  | number => number

/-- Overflow makes no NaN. -/
theorem isNaN_overflowed (number : UnpackedFloat) : (overflowed number).isNaN = number.isNaN := by
  cases number with
  | finite sign mantissa exponent h =>
      rw [overflowed]
      split <;> rfl
  | _ => rfl

/-- What is finite after overflow was finite before. -/
theorem isFinite_of_overflowed {number : UnpackedFloat}
    (h : (overflowed number).isFinite = true) : number.isFinite = true := by
  cases number with
  | finite => rfl
  | _ => exact h

/-- Two finite numbers are equal when their parts are. -/
theorem finite_congr {mantissa mantissa' : Nat} {exponent exponent' : Int}
    (hMantissa : mantissa = mantissa') (hExponent : exponent = exponent') (h : 0 < mantissa)
    (h' : 0 < mantissa') :
    UnpackedFloat.finite sign mantissa exponent h = .finite sign mantissa' exponent' h' := by
  subst hMantissa hExponent
  rfl

theorem pack_finite (mantissa : Nat) (exponent : Int) (h : 0 < mantissa) :
    UnpackedFloat.pack Format.binary64 (.finite sign mantissa exponent h) =
      if 2048 ≤ (exponent + 1023 + 52).toNat + 1 then packedInfinity Format.binary64 sign
      else if mantissa.log2 + 1 = 53 then
        packComponents Format.binary64 sign (BitVec.ofNat 11 (exponent + 1023 + 52).toNat)
          (BitVec.ofNat 52 mantissa)
      else packComponents Format.binary64 sign 0#11 (BitVec.ofNat 52 mantissa) := rfl

/-- **Packing keeps a rounded number**, up to overflow. -/
theorem unpack_pack {number : UnpackedFloat} (h : IsRounded number) :
    UnpackedFloat.unpack Format.binary64 (UnpackedFloat.pack Format.binary64 number) =
      overflowed number := by
  cases number with
  | infinity sign => exact unpack_packedInfinity sign
  | notANumber => exact unpack_packedNaN
  | zero sign => exact unpack_packedZero
  | finite sign mantissa exponent hPos =>
      obtain ⟨hLt, hLeast, hNormal⟩ := h
      rw [overflowed, pack_finite]
      by_cases hOver : 971 < exponent
      · rw [if_pos (by omega), if_pos hOver, unpack_packedInfinity]
      rw [if_neg (by omega), if_neg hOver]
      by_cases hBit : 2 ^ 52 ≤ mantissa
      · have hLog : mantissa.log2 = 52 := (Nat.log2_eq_iff (by omega)).mpr ⟨hBit, hLt⟩
        have hField : (BitVec.ofNat 11 (exponent + 1023 + 52).toNat).toNat =
            (exponent + 1023 + 52).toNat := by
          rw [BitVec.toNat_ofNat]
          omega
        rw [if_pos (by omega), unpack_normal sign (by omega) (by omega)]
        refine finite_congr sign ?_ (by omega) _ _
        rw [BitVec.toNat_ofNat]
        omega
      · have hLog : mantissa.log2 < 52 := (Nat.log2_lt (by omega)).mpr (by omega)
        have hFraction : (BitVec.ofNat 52 mantissa).toNat = mantissa := by
          rw [BitVec.toNat_ofNat]
          omega
        rw [if_neg (by omega), unpack_subnormal sign (by omega)]
        exact finite_congr sign hFraction (hNormal.resolve_left hBit).symm _ _

end Unpacked

end EquivalentCircuit
