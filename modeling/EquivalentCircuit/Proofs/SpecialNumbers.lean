import EquivalentCircuit.Proofs.Magnitudes

/-!
# Zeros, Infinities and NaN

A double-precision number is read as an unpacked number (`Binary64.unpacked`), and the operations
are those of unpacked numbers, up to overflow. From this follow the rules by which the special
numbers propagate: a sum is NaN when a summand is or when the summands are opposite infinities, a
product when it multiplies an infinity by a zero, a quotient when it divides zeros or infinities.
Rounding and overflow never make a NaN.

## Main results

* `Binary64.reads_unpacked`: the classes of patterns and the cases of unpacked numbers agree.
* `Binary64.unpacked_add` and the same for the other operations.
* `Binary64.isNaN_add`, `Binary64.isNaN_mul`, `Binary64.isNaN_div`: where NaN comes from.
* `Binary64.isFinite_of_add`: a finite sum has finite summands.
-/

namespace EquivalentCircuit.Binary64

open Float.Model (Format UnpackedFloat)
open Float.Model.UnpackedFloat
open Unpacked

/-! ### Reading a pattern -/

/-- The number that a pattern **stands for**. -/
def unpacked (x : Binary64) : UnpackedFloat :=
  UnpackedFloat.unpack Format.binary64 x.bits.toBitVec

/-- The pattern of an unpacked number. -/
def ofUnpacked (number : UnpackedFloat) : Binary64 :=
  ⟨UInt64.ofBitVec (UnpackedFloat.pack Format.binary64 number)⟩

/-- Every pattern has a sign, an exponent field and a fraction field. -/
theorem exists_bits_eq_packComponents (x : Binary64) :
    ∃ (sign : Sign) (exponent : BitVec 11) (fraction : BitVec 52),
      x.bits.toBitVec = packComponents Format.binary64 sign exponent fraction :=
  ⟨_, _, _, (@packComponents_unpackSign_unpackExponent_unpackMantissa Format.binary64
    x.bits.toBitVec).symm⟩

theorem unpacked_ofUnpacked {number : UnpackedFloat} (h : IsRounded number) :
    (ofUnpacked number).unpacked = overflowed number :=
  unpack_pack h

/-- **Reading a pattern**: its magnitude decides on the case and on the order, its first bit on the
sign. -/
inductive Reads (x : Binary64) : UnpackedFloat → Prop
  | notANumber (h : 0x7ff0000000000000 < x.magnitude) : Reads x .notANumber
  | infinity (sign : Sign) (h : x.magnitude = 0x7ff0000000000000)
      (hSign : x.isNegative = true ↔ sign = .negative) : Reads x (.infinity sign)
  | zero (sign : Sign) (h : x.magnitude = 0) : Reads x (.zero sign)
  | finite (sign : Sign) (mantissa : Nat) (exponent : Int) (hPos : 0 < mantissa)
      (h : 0 < x.magnitude ∧ x.magnitude < 0x7ff0000000000000)
      (hCanonical : IsCanonical mantissa exponent) (hExponent : exponent ≤ 971)
      (hOrder : 2 ^ 52 ≤ x.magnitude →
        x.magnitude < (mantissa.log2 + exponent + 1024) * (2 ^ 52 : Int)) :
      Reads x (.finite sign mantissa exponent hPos)

theorem reads_unpacked (x : Binary64) : x.Reads x.unpacked := by
  obtain ⟨sign, exponent, fraction, hWord⟩ := x.exists_bits_eq_packComponents
  have hBits : x.bits.toNat =
      sign.toBitVec.toNat * 2 ^ 63 + exponent.toNat * 2 ^ 52 + fraction.toNat :=
    (congrArg BitVec.toNat hWord).trans (Word.toNat_packComponents sign exponent fraction)
  have hExponent := exponent.isLt
  have hFraction := fraction.isLt
  have hMagnitude : x.magnitude = exponent.toNat * 2 ^ 52 + fraction.toNat := by
    rw [magnitude, hBits]
    omega
  have hSign : x.isNegative = true ↔ sign = .negative := by
    rw [isNegative, decide_eq_true_iff, hBits]
    cases sign with
    | negative =>
        have hBit : Sign.negative.toBitVec.toNat = 1 := rfl
        exact iff_of_true (by omega) rfl
    | positive =>
        have hBit : Sign.positive.toBitVec.toNat = 0 := rfl
        exact iff_of_false (by omega) (by simp)
  rw [unpacked, hWord, unpack_packComponents]
  by_cases hGreatest : exponent = -1#11
  · subst hGreatest
    rw [if_pos rfl]
    change x.magnitude = 2047 * 2 ^ 52 + fraction.toNat at hMagnitude
    by_cases hZero : fraction = 0#52
    · subst hZero
      rw [if_pos rfl]
      exact .infinity sign hMagnitude hSign
    · have hNonzero : fraction.toNat ≠ 0 := fun h => hZero (BitVec.eq_of_toNat_eq h)
      rw [if_neg hZero]
      exact .notANumber (by omega)
  · have hBelow : exponent.toNat ≠ 2047 := fun h => hGreatest (BitVec.eq_of_toNat_eq h)
    rw [if_neg hGreatest]
    by_cases hLeast : exponent = 0#11
    · subst hLeast
      rw [if_pos rfl]
      change x.magnitude = 0 * 2 ^ 52 + fraction.toNat at hMagnitude
      by_cases hZero : fraction = 0#52
      · subst hZero
        rw [dif_pos rfl]
        exact .zero sign hMagnitude
      · have hNonzero : fraction.toNat ≠ 0 := fun h => hZero (BitVec.eq_of_toNat_eq h)
        rw [dif_neg hZero]
        exact .finite sign _ _ _ (by omega) ⟨by omega, by omega, .inr rfl⟩ (by omega) (by omega)
    · have hAbove : exponent.toNat ≠ 0 := fun h => hLeast (BitVec.eq_of_toNat_eq h)
      rw [if_neg hLeast]
      have hLog : (2 ^ 52 + fraction.toNat).log2 = 52 :=
        (Nat.log2_eq_iff (by omega)).mpr ⟨by omega, by omega⟩
      refine .finite sign _ _ _ (by omega) ⟨by omega, by omega, .inl (by omega)⟩ (by omega) ?_
      rw [hLog]
      omega

/-! ### Classes -/

section Classes

variable (x : Binary64)

theorem isNaN_eq : x.isNaN = x.unpacked.isNaN := by
  have h := x.reads_unpacked
  generalize x.unpacked = number at h ⊢
  rw [isNaN]
  cases h with
  | notANumber h => exact decide_eq_true h
  | infinity _ h | zero _ h => exact decide_eq_false (by omega)
  | finite _ _ _ _ h => exact decide_eq_false (by omega)

theorem isInfinite_eq : x.isInfinite = x.unpacked.isInf := by
  have h := x.reads_unpacked
  generalize x.unpacked = number at h ⊢
  rw [isInfinite]
  cases h with
  | infinity _ h => exact decide_eq_true h
  | notANumber h | zero _ h => exact decide_eq_false (by omega)
  | finite _ _ _ _ h => exact decide_eq_false (by omega)

theorem isFinite_eq : x.isFinite = x.unpacked.isFinite := by
  have h := x.reads_unpacked
  generalize x.unpacked = number at h ⊢
  rw [isFinite]
  cases h with
  | notANumber h | infinity _ h => exact decide_eq_false (by omega)
  | zero _ h => exact decide_eq_true (by omega)
  | finite _ _ _ _ h => exact decide_eq_true h.2

theorem isFinite_eq_not : x.isFinite = (!x.isNaN && !x.isInfinite) := by
  rw [isFinite_eq, isNaN_eq, isInfinite_eq]
  cases x.unpacked <;> rfl

theorem isRounded_unpacked : IsRounded x.unpacked := by
  have h := x.reads_unpacked
  generalize x.unpacked = number at h ⊢
  cases h with
  | finite _ _ _ _ _ hCanonical => exact hCanonical
  | _ => trivial

theorem overflowed_unpacked : overflowed x.unpacked = x.unpacked := by
  have h := x.reads_unpacked
  generalize x.unpacked = number at h ⊢
  cases h with
  | finite _ _ _ _ _ _ hExponent => exact if_neg (by omega)
  | _ => rfl

end Classes

/-! ### Operations -/

theorem unpack_toFloat (x : Binary64) : x.toFloat.toModel.unpack = x.unpacked :=
  (unpack_pack x.isRounded_unpacked).trans x.overflowed_unpacked

theorem unpacked_add (x y : Binary64) : (x + y).unpacked =
    overflowed (UnpackedFloat.add Format.binary64 x.unpacked y.unpacked) := by
  have hEq : x + y = ofUnpacked (UnpackedFloat.add Format.binary64 x.unpacked y.unpacked) := by
    rw [← unpack_toFloat x, ← unpack_toFloat y]
    rfl
  rw [hEq]
  exact unpacked_ofUnpacked (isRounded_add x.isRounded_unpacked y.isRounded_unpacked)

theorem unpacked_mul (x y : Binary64) : (x * y).unpacked =
    overflowed (UnpackedFloat.mul Format.binary64 x.unpacked y.unpacked) := by
  have hEq : x * y = ofUnpacked (UnpackedFloat.mul Format.binary64 x.unpacked y.unpacked) := by
    rw [← unpack_toFloat x, ← unpack_toFloat y]
    rfl
  rw [hEq]
  exact unpacked_ofUnpacked (isRounded_mul x.isRounded_unpacked y.isRounded_unpacked)

theorem unpacked_div (x y : Binary64) : (x / y).unpacked =
    overflowed (UnpackedFloat.div Format.binary64 x.unpacked y.unpacked) := by
  have hEq : x / y = ofUnpacked (UnpackedFloat.div Format.binary64 x.unpacked y.unpacked) := by
    rw [← unpack_toFloat x, ← unpack_toFloat y]
    rfl
  rw [hEq]
  exact unpacked_ofUnpacked (isRounded_div _ _)

theorem unpacked_sqrt (x : Binary64) : (Elementary.sqrt x).unpacked =
    overflowed (UnpackedFloat.sqrt Format.binary64 x.unpacked) := by
  have hEq : Elementary.sqrt x =
      ofUnpacked (UnpackedFloat.sqrt Format.binary64 x.unpacked) := by
    rw [← unpack_toFloat x]
    rfl
  rw [hEq]
  exact unpacked_ofUnpacked (isRounded_sqrt _)

theorem unpacked_neg (x : Binary64) : (-x).unpacked = x.unpacked.neg := by
  obtain ⟨sign, exponent, fraction, hWord⟩ := x.exists_bits_eq_packComponents
  have hNeg : (-x).bits.toBitVec = packComponents Format.binary64 (-sign) exponent fraction := by
    rw [← Word.packComponents_xor_signBit, ← hWord]
    rfl
  rw [unpacked, unpacked, hNeg, hWord, unpack_packComponents, unpack_packComponents]
  by_cases hGreatest : exponent = -1#11
  · rw [if_pos hGreatest, if_pos hGreatest]
    split <;> rfl
  · rw [if_neg hGreatest, if_neg hGreatest]
    split
    · split <;> rfl
    · rfl

theorem lt_iff (x y : Binary64) : x < y ↔ decide (x.unpacked.lt y.unpacked = true) = true := by
  rw [← unpack_toFloat x, ← unpack_toFloat y]
  rfl

theorem le_iff (x y : Binary64) : x ≤ y ↔ decide (x.unpacked.le y.unpacked = true) = true := by
  rw [← unpack_toFloat x, ← unpack_toFloat y]
  rfl

/-! ### Zeros -/

/-- Whether an unpacked number is a zero of either sign. -/
def isNull : UnpackedFloat → Bool
  | .zero _ => true
  | _ => false

theorem beq_zero_eq (x : Binary64) : (x == 0) = isNull x.unpacked := by
  have hEq : (x == 0) = x.unpacked.beq (.zero .positive) := by
    rw [← unpack_toFloat x]
    rfl
  rw [hEq]
  rcases x.unpacked with ⟨_ | _⟩ | _ | _ | ⟨_ | _⟩ <;> rfl

theorem neg_beq_zero (x : Binary64) : (-x == 0) = (x == 0) := by
  rw [beq_zero_eq, unpacked_neg, beq_zero_eq]
  cases x.unpacked <;> rfl

theorem isFinite_of_beq_zero {x : Binary64} (h : (x == 0) = true) : x.isFinite = true := by
  rw [beq_zero_eq] at h
  rw [isFinite_eq]
  generalize x.unpacked = number at *
  cases number with
  | zero => rfl
  | _ => cases h

theorem isNaN_of_isFinite {x : Binary64} (h : x.isFinite = true) : x.isNaN = false := by
  rw [isFinite_eq_not, Bool.and_eq_true, Bool.not_eq_true'] at h
  exact h.1

theorem isFinite_of_isNaN {x : Binary64} (h : x.isNaN = true) : x.isFinite = false := by
  rw [isFinite_eq_not, h]
  rfl

/-! ### Infinities -/

/-- Whether two numbers are **opposite infinities**. -/
def opposes (x y : Binary64) : Bool :=
  x.isInfinite && y.isInfinite && (x.isNegative != y.isNegative)

/-- The same for unpacked numbers. -/
def opposite : UnpackedFloat → UnpackedFloat → Bool
  | .infinity sign, .infinity sign' => sign != sign'
  | _, _ => false

theorem isNegative_of_unpacked {x : Binary64} {sign : Sign} (h : x.unpacked = .infinity sign) :
    x.isNegative = (sign == .negative) := by
  have hReads := x.reads_unpacked
  rw [h] at hReads
  cases hReads with
  | infinity _ _ hSign =>
      cases sign with
      | negative => exact hSign.mpr rfl
      | positive => exact Bool.eq_false_iff.mpr fun hNegative => by simpa using hSign.mp hNegative

/-- There is one pattern for each infinity. -/
theorem eq_infinity_of_unpacked {x : Binary64} (h : x.unpacked = .infinity .positive) :
    x = infinity := by
  have hNegative := isNegative_of_unpacked h
  have hReads := x.reads_unpacked
  rw [h] at hReads
  cases hReads with
  | infinity _ hMagnitude =>
      rw [isNegative, show (Sign.positive == .negative) = false from rfl,
        decide_eq_false_iff_not] at hNegative
      rw [magnitude] at hMagnitude
      have hBits : x.bits.toNat = infinity.bits.toNat := by
        change _ = 0x7ff0000000000000
        omega
      exact congrArg Binary64.mk (UInt64.toNat.inj hBits)

theorem opposes_eq (x y : Binary64) : x.opposes y = opposite x.unpacked y.unpacked := by
  rw [opposes, isInfinite_eq, isInfinite_eq]
  rcases hx : x.unpacked with sign | _ | _ | _ <;>
    rcases hy : y.unpacked with sign' | _ | _ | _
  case infinity.infinity =>
    rw [isNegative_of_unpacked hx, isNegative_of_unpacked hy]
    cases sign <;> cases sign' <;> rfl
  all_goals rfl

theorem isInfinite_neg (x : Binary64) : (-x).isInfinite = x.isInfinite := by
  rw [isInfinite_eq, unpacked_neg, isInfinite_eq]
  cases x.unpacked <;> rfl

/-- A **finite sum** has finite summands. -/
theorem isFinite_of_add {x y : Binary64} (h : (x + y).isFinite = true) :
    x.isFinite = true ∧ y.isFinite = true := by
  rw [isFinite_eq, unpacked_add] at h
  have hSum := isFinite_of_overflowed h
  rw [isFinite_eq, isFinite_eq]
  generalize x.unpacked = u at *
  generalize y.unpacked = v at *
  rcases u with s | _ | _ | _ <;> rcases v with t | _ | _ | _
  case infinity.infinity =>
    rw [UnpackedFloat.add] at hSum
    split at hSum <;> cases hSum
  case zero.zero | zero.finite | finite.zero | finite.finite => exact ⟨rfl, rfl⟩
  all_goals cases hSum

/-- A quotient by zero is not finite. -/
theorem isFinite_div_of_zero (x : Binary64) {y : Binary64} (h : (y == 0) = true) :
    (x / y).isFinite = false := by
  rw [beq_zero_eq] at h
  rw [isFinite_eq, unpacked_div]
  generalize y.unpacked = v at *
  cases v with
  | zero => cases x.unpacked <;> rfl
  | _ => cases h

/-! ### NaN -/

theorem isNaN_neg (x : Binary64) : (-x).isNaN = x.isNaN := by
  rw [isNaN_eq, unpacked_neg, isNaN_eq]
  cases x.unpacked <;> rfl

/-- **Sums** are NaN when the summands are opposite infinities. -/
theorem isNaN_add (x y : Binary64) :
    (x + y).isNaN = (x.isNaN || y.isNaN || x.opposes y) := by
  rw [isNaN_eq, unpacked_add, isNaN_overflowed, isNaN_eq, isNaN_eq, opposes_eq]
  rcases x.unpacked with s | _ | s | ⟨s, m, e, hm⟩ <;>
    rcases y.unpacked with t | _ | t | ⟨t, n, f, hn⟩
  case finite.finite =>
    rcases add_rounds_or_zero hm hn e f s t with hZero | ⟨_, _, hRounds⟩
    · rw [hZero]
      rfl
    · rw [hRounds.isNaN_eq_false]
      rfl
  case infinity.infinity | zero.zero => cases s <;> cases t <;> rfl
  all_goals rfl

/-- **Products** are NaN when an infinity meets a zero. -/
theorem isNaN_mul (x y : Binary64) : (x * y).isNaN =
    (x.isNaN || y.isNaN || (x.isInfinite && y == 0) || (x == 0 && y.isInfinite)) := by
  have hRounded := x.isRounded_unpacked
  have hRounded' := y.isRounded_unpacked
  rw [isNaN_eq, unpacked_mul, isNaN_overflowed, isNaN_eq, isNaN_eq, isInfinite_eq, isInfinite_eq,
    beq_zero_eq, beq_zero_eq]
  generalize x.unpacked = u at *
  generalize y.unpacked = v at *
  rcases u with s | _ | s | ⟨s, m, e, hm⟩ <;> rcases v with t | _ | t | ⟨t, n, f, hn⟩
  case finite.finite =>
    rw [(mul_rounds hm hn s t hRounded hRounded').isNaN_eq_false]
    rfl
  all_goals rfl

/-- **Quotients** are NaN when an infinity is divided by an infinity, or a zero by a zero. -/
theorem isNaN_div (x y : Binary64) : (x / y).isNaN =
    (x.isNaN || y.isNaN || (x.isInfinite && y.isInfinite) || (x == 0 && y == 0)) := by
  rw [isNaN_eq, unpacked_div, isNaN_overflowed, isNaN_eq, isNaN_eq, isInfinite_eq, isInfinite_eq,
    beq_zero_eq, beq_zero_eq]
  rcases x.unpacked with s | _ | s | ⟨s, m, e, hm⟩ <;>
    rcases y.unpacked with t | _ | t | ⟨t, n, f, hn⟩
  case finite.finite =>
    rw [(div_rounds hm hn e f s t).isNaN_eq_false]
    rfl
  all_goals rfl

end EquivalentCircuit.Binary64
