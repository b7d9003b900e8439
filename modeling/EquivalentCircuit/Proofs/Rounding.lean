import EquivalentCircuit.Proofs.Words

/-!
# Rounding in Double Precision

The operations of binary64 arithmetic compute exactly, up to a remainder that is remembered as an
accuracy, and round once. This module follows a number through rounding by its **order**, the
greatest power of two that is not above it: `mantissa.log2 + exponent` for the number
`mantissa * 2 ^ exponent`.

About the rounding rule one fact is needed (`roundedMantissa_eq_or`): the mantissa that is left
after its low bits are shifted out is kept or replaced by its successor. So the order is kept or
grows by one, except that a number below the least positive one becomes zero or that one. The
results are canonical provided that the exact number has enough bits or a small exponent, which
each operation sees to.

## Main results

* `Unpacked.roundWithAccuracy_rounds`: what rounding does to an order.
* `Unpacked.mul_rounds`, `Unpacked.div_rounds`, `Unpacked.add_rounds`,
  `Unpacked.add_rounds_or_zero`: the orders of products, quotients and sums.
* `Unpacked.isRounded_add` and the same for the other operations: their results can be packed.
-/

namespace EquivalentCircuit.Unpacked

open Float.Model (Format UnpackedFloat totalExponent)
open Float.Model.UnpackedFloat

/-! ### Orders of natural numbers -/

theorem log2_le_log2 {small large : Nat} (hPos : 0 < small) (h : small ≤ large) :
    small.log2 ≤ large.log2 := by
  rw [Nat.le_log2 (by omega)]
  exact Nat.le_trans (Nat.log2_self_le (by omega)) h

theorem log2_shiftLeft {mantissa : Nat} (hPos : 0 < mantissa) (count : Nat) :
    (mantissa <<< count).log2 = mantissa.log2 + count := by
  have hLow : 2 ^ mantissa.log2 ≤ mantissa := Nat.log2_self_le (by omega)
  have hHigh : mantissa < 2 ^ (mantissa.log2 + 1) := Nat.lt_log2_self
  have hScale : 0 < 2 ^ count := Nat.two_pow_pos count
  have hShifted : 0 < mantissa * 2 ^ count := Nat.mul_pos hPos hScale
  rw [Nat.shiftLeft_eq]
  refine (Nat.log2_eq_iff (by omega)).mpr ⟨?_, ?_⟩
  · rw [Nat.pow_add]
    exact Nat.mul_le_mul_right _ hLow
  · rw [Nat.add_right_comm, Nat.pow_add]
    exact Nat.mul_lt_mul_of_pos_right hHigh hScale

theorem log2_add_bounds {first second : Nat} (hFirst : 0 < first) (hSecond : 0 < second) :
    max first.log2 second.log2 ≤ (first + second).log2 ∧
      (first + second).log2 ≤ max first.log2 second.log2 + 1 := by
  have hLow := log2_le_log2 hFirst (Nat.le_add_right first second)
  have hLow' := log2_le_log2 hSecond (Nat.le_add_left second first)
  refine ⟨by omega, Nat.le_of_lt_succ ?_⟩
  have hHigh : first < 2 ^ (max first.log2 second.log2 + 1) :=
    Nat.lt_of_lt_of_le Nat.lt_log2_self (Nat.pow_le_pow_right (by decide) (by omega))
  have hHigh' : second < 2 ^ (max first.log2 second.log2 + 1) :=
    Nat.lt_of_lt_of_le Nat.lt_log2_self (Nat.pow_le_pow_right (by decide) (by omega))
  rw [Nat.log2_lt (by omega), Nat.succ_eq_add_one, Nat.pow_succ]
  omega

theorem log2_mul_bounds {first second : Nat} (hFirst : 0 < first) (hSecond : 0 < second) :
    first.log2 + second.log2 ≤ (first * second).log2 ∧
      (first * second).log2 ≤ first.log2 + second.log2 + 1 := by
  have hProduct : 0 < first * second := Nat.mul_pos hFirst hSecond
  constructor
  · rw [Nat.le_log2 (by omega), Nat.pow_add]
    exact Nat.mul_le_mul (Nat.log2_self_le (by omega)) (Nat.log2_self_le (by omega))
  · have hLess : first * second < 2 ^ (first.log2 + 1) * 2 ^ (second.log2 + 1) :=
      Nat.mul_lt_mul'' Nat.lt_log2_self Nat.lt_log2_self
    rw [← Nat.pow_add, ← Nat.log2_lt (by omega)] at hLess
    omega

theorem log2_div_bounds {dividend divisor : Nat} (hDividend : 0 < dividend)
    (hDivisor : 0 < divisor) :
    (dividend / divisor = 0 → dividend.log2 ≤ divisor.log2) ∧
      (0 < dividend / divisor →
        (dividend / divisor).log2 + divisor.log2 ≤ dividend.log2 ∧
          dividend.log2 ≤ (dividend / divisor).log2 + divisor.log2 + 1) := by
  constructor
  · intro hZero
    exact log2_le_log2 hDividend (Nat.le_of_lt ((Nat.div_eq_zero_iff_lt hDivisor).mp hZero))
  · intro hQuotient
    have hLow := (log2_mul_bounds hQuotient hDivisor).1
    constructor
    · exact Nat.le_trans hLow (log2_le_log2 (Nat.mul_pos hQuotient hDivisor)
        (Nat.div_mul_le_self dividend divisor))
    · have hLess : dividend < 2 ^ ((dividend / divisor).log2 + 1) * 2 ^ (divisor.log2 + 1) :=
        Nat.lt_of_lt_of_le (Nat.lt_mul_of_div_lt (Nat.lt_succ_self _) hDivisor)
          (Nat.mul_le_mul Nat.lt_log2_self (Nat.le_of_lt Nat.lt_log2_self))
      rw [← Nat.pow_add, ← Nat.log2_lt (by omega)] at hLess
      omega

/-! ### Shifting and rounding -/

theorem mantissa_shiftRight (extended : ExtendedMantissa) (count : Nat) :
    (extended >>> count).mantissa = extended.mantissa / 2 ^ count := by
  induction count with
  | zero => exact (Nat.div_one _).symm
  | succ count ih =>
      change (extended >>> count).mantissa / 2 = _
      rw [ih, Nat.div_div_eq_div_mul, Nat.pow_succ]

theorem mantissa_ofMantissaAndAccuracy (mantissa : Nat) (accuracy : Accuracy) :
    (ExtendedMantissa.ofMantissaAndAccuracy mantissa accuracy).mantissa = mantissa := by
  rcases accuracy with - | ordering
  · rfl
  · cases ordering <;> rfl

/-- Rounding **keeps a mantissa or takes its successor**. -/
theorem roundedMantissa_eq_or (extended : ExtendedMantissa) :
    extended.roundedMantissa = extended.mantissa ∨
      extended.roundedMantissa = extended.mantissa + 1 := by
  obtain ⟨mantissa, roundBit, stickyBit⟩ := extended
  cases roundBit <;> cases stickyBit <;>
    simp only [ExtendedMantissa.roundedMantissa, ExtendedMantissa.accuracy,
      Accuracy.roundToNearestEven] <;> grind

theorem targetExponent_eq (mantissa : Nat) (exponent : Int) :
    Format.binary64.targetExponent (totalExponent mantissa exponent) =
      max (mantissa.log2 + exponent - 52) (-1074) := by
  change max ((mantissa.log2 : Int) + 1 + exponent - 53) (-1074) = _
  omega

/-- A canonical number needs no shift. -/
theorem shiftToTargetExponent_of_lt {mantissa : Nat} (hLt : mantissa < 2 ^ 53) {exponent : Int}
    (hLeast : -1074 ≤ exponent) :
    shiftToTargetExponent Format.binary64 mantissa exponent .exact =
      (⟨mantissa, false, false⟩, exponent) := by
  have hLog : mantissa.log2 ≤ 52 := by
    rcases Nat.eq_zero_or_pos mantissa with rfl | hPos
    · decide
    · exact Nat.le_of_lt_succ ((Nat.log2_lt (by omega)).mpr hLt)
  have hShift : (max ((mantissa.log2 : Int) + exponent - 52) (-1074) - exponent).toNat = 0 := by
    omega
  rw [shiftToTargetExponent, targetExponent_eq, shiftToExponent, hShift]
  exact congrArg (Prod.mk _) (Int.add_zero _)

/-- A mantissa that has grown to 54 bits is halved. -/
theorem shiftToTargetExponent_two_pow {exponent : Int} (hLeast : -1074 ≤ exponent) :
    shiftToTargetExponent Format.binary64 (2 ^ 53) exponent .exact =
      (⟨2 ^ 52, false, false⟩, exponent + 1) := by
  have hShift :
      (max ((Nat.log2 (2 ^ 53) : Int) + exponent - 52) (-1074) - exponent).toNat = 1 := by
    rw [Nat.log2_two_pow]
    omega
  rw [shiftToTargetExponent, targetExponent_eq, shiftToExponent, hShift]
  rfl

/-- Rounding divides the mantissa by a power of two that makes it canonical, keeps the quotient or
takes its successor, and shifts once more. -/
theorem roundWithAccuracy_eq (sign : Sign) (mantissa : Nat) (exponent : Int)
    (accuracy : Accuracy) (hFine : 52 ≤ mantissa.log2 ∨ exponent ≤ -1074) :
    ∃ rounded shift : Nat, exponent + shift = max (mantissa.log2 + exponent - 52) (-1074) ∧
      (rounded = mantissa / 2 ^ shift ∨ rounded = mantissa / 2 ^ shift + 1) ∧
      roundWithAccuracy Format.binary64 sign mantissa exponent accuracy =
        let final := shiftToTargetExponent Format.binary64 rounded (exponent + shift) .exact
        if h : final.1.mantissa = 0 then .zero sign
        else .finite sign final.1.mantissa final.2 (Nat.pos_of_ne_zero h) := by
  refine ⟨(shiftToTargetExponent Format.binary64 mantissa exponent accuracy).1.roundedMantissa,
    (max (mantissa.log2 + exponent - 52) (-1074) - exponent).toNat, by omega, ?_, ?_⟩
  · rw [shiftToTargetExponent, targetExponent_eq, shiftToExponent]
    have hRounded :=
      roundedMantissa_eq_or (ExtendedMantissa.ofMantissaAndAccuracy mantissa accuracy >>>
        (max (mantissa.log2 + exponent - 52) (-1074) - exponent).toNat)
    rwa [mantissa_shiftRight, mantissa_ofMantissaAndAccuracy] at hRounded
  · rw [← targetExponent_eq]
    rfl

/-- A quotient by a power of two, or its successor: the leading bit stays in place unless all bits
are shifted out. -/
theorem bounds_of_quotient {mantissa rounded shift : Nat} (hPos : 0 < mantissa)
    (h : rounded = mantissa / 2 ^ shift ∨ rounded = mantissa / 2 ^ shift + 1) :
    (shift ≤ mantissa.log2 → 2 ^ (mantissa.log2 - shift) ≤ rounded ∧
      rounded ≤ 2 ^ (mantissa.log2 - shift + 1)) ∧ (mantissa.log2 < shift → rounded ≤ 1) := by
  have hLow : 2 ^ mantissa.log2 ≤ mantissa := Nat.log2_self_le (by omega)
  have hHigh : mantissa < 2 ^ (mantissa.log2 + 1) := Nat.lt_log2_self
  constructor
  · intro hShift
    have hQuotientLow : 2 ^ (mantissa.log2 - shift) ≤ mantissa / 2 ^ shift := by
      rw [Nat.le_div_iff_mul_le (Nat.two_pow_pos _), ← Nat.pow_add, Nat.sub_add_cancel hShift]
      exact hLow
    have hQuotientHigh : mantissa / 2 ^ shift < 2 ^ (mantissa.log2 - shift + 1) := by
      rw [Nat.div_lt_iff_lt_mul (Nat.two_pow_pos _), ← Nat.pow_add]
      have hSum : mantissa.log2 - shift + 1 + shift = mantissa.log2 + 1 := by omega
      rwa [hSum]
    omega
  · intro hShift
    have hLess : mantissa < 2 ^ shift :=
      Nat.lt_of_lt_of_le hHigh (Nat.pow_le_pow_right (by decide) hShift)
    have hQuotient : mantissa / 2 ^ shift = 0 := Nat.div_eq_of_lt hLess
    omega

/-! ### Rounding by orders -/

/-- **Rounding by orders**: the numbers that rounding can give, with a sign, for an exact number
whose order lies between `low` and `high`. -/
inductive Rounds (sign : Sign) (low high : Int) : UnpackedFloat → Prop
  | zero (h : low < -1074) : Rounds sign low high (.zero sign)
  | finite {mantissa : Nat} {exponent : Int} (hPos : 0 < mantissa)
      (hCanonical : IsCanonical mantissa exponent) (hLow : low ≤ mantissa.log2 + exponent)
      (hHigh : mantissa.log2 + exponent ≤ max (high + 1) (-1074)) :
      Rounds sign low high (.finite sign mantissa exponent hPos)

namespace Rounds

theorem mono {sign : Sign} {low low' high high' : Int} {number : UnpackedFloat}
    (h : Rounds sign low high number) (hLow : low' ≤ low) (hHigh : high ≤ high') :
    Rounds sign low' high' number := by
  cases h with
  | zero h => exact .zero (by omega)
  | finite hPos hCanonical hLow' hHigh' =>
      exact .finite hPos hCanonical (by omega) (by omega)

theorem isRounded {sign : Sign} {low high : Int} {number : UnpackedFloat}
    (h : Rounds sign low high number) : IsRounded number := by
  cases h with
  | zero => trivial
  | finite hPos hCanonical => exact hCanonical

theorem isNaN_eq_false {sign : Sign} {low high : Int} {number : UnpackedFloat}
    (h : Rounds sign low high number) : number.isNaN = false := by
  cases h <;> rfl

/-- The last shift gives a rounding when its mantissa has all bits or the least exponent. -/
theorem of_rounded (sign : Sign) {rounded : Nat} {low high scale : Int}
    (hLeast : -1074 ≤ scale) (hLe : rounded ≤ 2 ^ 53) (hZero : rounded = 0 → low < -1074)
    (hNormal : 2 ^ 52 ≤ rounded ∨ scale = -1074) (hLow : 0 < rounded → low ≤ rounded.log2 + scale)
    (hHigh : 0 < rounded → rounded.log2 + scale ≤ max (high + 1) (-1074)) :
    Rounds sign low high
      (let final := shiftToTargetExponent Format.binary64 rounded scale .exact
        if h : final.1.mantissa = 0 then .zero sign
        else .finite sign final.1.mantissa final.2 (Nat.pos_of_ne_zero h)) := by
  rcases Nat.lt_or_eq_of_le hLe with hLt | rfl
  · rw [shiftToTargetExponent_of_lt hLt hLeast]
    rcases Nat.eq_zero_or_pos rounded with rfl | hPos
    · exact .zero (hZero rfl)
    · dsimp only
      rw [dif_neg (by omega)]
      exact .finite hPos ⟨hLt, hLeast, hNormal⟩ (hLow hPos) (hHigh hPos)
  · rw [shiftToTargetExponent_two_pow hLeast]
    have hLog : Nat.log2 (2 ^ 53) = 53 := Nat.log2_two_pow
    have hLog' : Nat.log2 (2 ^ 52) = 52 := Nat.log2_two_pow
    have hLow := hLow (Nat.two_pow_pos _)
    have hHigh := hHigh (Nat.two_pow_pos _)
    dsimp only
    rw [dif_neg (by decide)]
    rw [hLog] at hLow hHigh
    refine .finite _ ⟨by decide, by omega, .inl (Nat.le_refl _)⟩ ?_ ?_ <;> rw [hLog'] <;> omega

end Rounds

/-- **What rounding does**. The mantissa may be zero, where a quotient is cut off. -/
theorem roundWithAccuracy_rounds (sign : Sign) {mantissa : Nat} {exponent low high : Int}
    (accuracy : Accuracy) (hFine : 52 ≤ mantissa.log2 ∨ exponent ≤ -1074)
    (hZero : mantissa = 0 → low < -1074)
    (hPos : 0 < mantissa → low ≤ mantissa.log2 + exponent ∧ mantissa.log2 + exponent ≤ high) :
    Rounds sign low high
      (roundWithAccuracy Format.binary64 sign mantissa exponent accuracy) := by
  obtain ⟨rounded, shift, hScale, hRounded, hEq⟩ :=
    roundWithAccuracy_eq sign mantissa exponent accuracy hFine
  rw [hEq]
  rcases Nat.eq_zero_or_pos mantissa with rfl | hMantissa
  · have hTiny : rounded ≤ 1 := by
      rw [Nat.zero_div] at hRounded
      omega
    have hLow := hZero rfl
    have hLog : (0 : Nat).log2 = 0 := rfl
    have hLog' : rounded.log2 = 0 := by
      rcases Nat.le_one_iff_eq_zero_or_eq_one.mp hTiny with rfl | rfl <;> rfl
    refine .of_rounded sign ?_ ?_ ?_ ?_ ?_ ?_ <;> omega
  obtain ⟨hLow, hHigh⟩ := hPos hMantissa
  obtain ⟨hLarge, hTiny⟩ := bounds_of_quotient hMantissa hRounded
  rcases Nat.lt_or_ge mantissa.log2 shift with hShift | hShift
  · -- The exact number lies below the least positive one.
    have hTiny := hTiny hShift
    have hLog : rounded.log2 = 0 := by
      rcases Nat.le_one_iff_eq_zero_or_eq_one.mp hTiny with rfl | rfl <;> rfl
    refine .of_rounded sign ?_ ?_ ?_ ?_ ?_ ?_ <;> omega
  · -- The quotient keeps the leading bit of the mantissa.
    obtain ⟨hLeading, hNext⟩ := hLarge hShift
    have hRoundedPos : 0 < rounded := Nat.lt_of_lt_of_le (Nat.two_pow_pos _) hLeading
    have hLogLow : mantissa.log2 - shift ≤ rounded.log2 := (Nat.le_log2 (by omega)).mpr hLeading
    have hLogHigh : rounded.log2 < mantissa.log2 - shift + 1 + 1 :=
      (Nat.log2_lt (by omega)).mpr
        (Nat.lt_of_le_of_lt hNext (Nat.pow_lt_pow_right (by decide) (by omega)))
    have hLe : rounded ≤ 2 ^ 53 :=
      Nat.le_trans hNext (Nat.pow_le_pow_right (by decide) (by omega))
    have hNormal : 2 ^ 52 ≤ rounded ∨ exponent + shift = -1074 := by
      by_cases hLeast : exponent + shift = -1074
      · exact .inr hLeast
      · have hBits : mantissa.log2 - shift = 52 := by omega
        exact .inl (hBits ▸ hLeading)
    exact .of_rounded sign (by omega) hLe (by omega) hNormal (by omega) (by omega)

/-- The result of rounding can be packed. -/
theorem isRounded_roundWithAccuracy (sign : Sign) (mantissa : Nat) (exponent : Int)
    (accuracy : Accuracy) (hFine : 52 ≤ mantissa.log2 ∨ exponent ≤ -1074) :
    IsRounded (roundWithAccuracy Format.binary64 sign mantissa exponent accuracy) := by
  have hRounds : Rounds sign (min (-1075) (mantissa.log2 + exponent)) (mantissa.log2 + exponent)
      (roundWithAccuracy Format.binary64 sign mantissa exponent accuracy) :=
    roundWithAccuracy_rounds sign accuracy hFine (by omega) (by omega)
  exact hRounds.isRounded

/-- Rounding gives no NaN. -/
theorem isNaN_roundWithAccuracy (sign : Sign) (mantissa : Nat) (exponent : Int)
    (accuracy : Accuracy) :
    (roundWithAccuracy Format.binary64 sign mantissa exponent accuracy).isNaN = false := by
  rw [roundWithAccuracy]
  dsimp only
  split <;> rfl

theorem round_rounds (sign : Sign) {mantissa : Nat} {exponent low high : Int} (hPos : 0 < mantissa)
    (hLow : low ≤ mantissa.log2 + exponent) (hHigh : mantissa.log2 + exponent ≤ high) :
    Rounds sign low high (UnpackedFloat.round Format.binary64 sign mantissa exponent) := by
  rw [UnpackedFloat.round, targetExponent_eq, decreaseExponent]
  generalize hShift : (exponent - max (mantissa.log2 + exponent - 52) (-1074)).toNat = shift
  have hLog := log2_shiftLeft hPos shift
  have hMantissa : 0 < mantissa <<< shift := Nat.shiftLeft_pos_iff.mpr hPos
  exact roundWithAccuracy_rounds sign .exact (by omega) (by omega) (by omega)

theorem normalize_rounds {mantissa : Int} (hNonzero : mantissa ≠ 0) (exponent : Int)
    (zeroSign : Sign) :
    Rounds (if mantissa < 0 then .negative else .positive) (mantissa.natAbs.log2 + exponent)
      (mantissa.natAbs.log2 + exponent)
      (UnpackedFloat.normalize Format.binary64 mantissa exponent zeroSign) := by
  rw [UnpackedFloat.normalize]
  rcases Int.lt_trichotomy mantissa 0 with hNegative | hZero | hPositive
  · rw [Int.compare_eq_lt.mpr hNegative, if_pos hNegative]
    have hAbs : (-mantissa).toNat = mantissa.natAbs := by omega
    rw [hAbs]
    exact round_rounds .negative (by omega) (by omega) (by omega)
  · exact absurd hZero hNonzero
  · rw [Int.compare_eq_gt.mpr hPositive, if_neg (by omega)]
    have hAbs : mantissa.toNat = mantissa.natAbs := by omega
    rw [hAbs]
    exact round_rounds .positive (by omega) (by omega) (by omega)

/-! ### Operations on two finite numbers -/

section Operations

variable {mantissa mantissa' : Nat} (hPos : 0 < mantissa) (hPos' : 0 < mantissa')

/-- **Products**: the orders add. -/
theorem mul_rounds (sign sign' : Sign) {exponent exponent' : Int}
    (h : IsCanonical mantissa exponent) (h' : IsCanonical mantissa' exponent') :
    Rounds (sign * sign') (mantissa.log2 + exponent + (mantissa'.log2 + exponent'))
      (mantissa.log2 + exponent + (mantissa'.log2 + exponent') + 1)
      (UnpackedFloat.mul Format.binary64 (.finite sign mantissa exponent hPos)
        (.finite sign' mantissa' exponent' hPos')) := by
  have hProduct : 0 < mantissa * mantissa' := Nat.mul_pos hPos hPos'
  obtain ⟨hLow, hHigh⟩ := log2_mul_bounds hPos hPos'
  have hBits := h.log2_eq_or hPos
  have hBits' := h'.log2_eq_or hPos'
  exact roundWithAccuracy_rounds _ .exact (by omega) (by omega) (by omega)

variable (exponent exponent' : Int)

/-- A quotient is computed with all bits, or to the least exponent, and then cut off. -/
theorem exists_div_eq_roundWithAccuracy (sign sign' : Sign) :
    ∃ (shift : Nat) (scale : Int) (accuracy : Accuracy), scale + shift = exponent - exponent' ∧
      (52 ≤ (mantissa <<< shift / mantissa').log2 ∨ scale ≤ -1074) ∧
      UnpackedFloat.div Format.binary64 (.finite sign mantissa exponent hPos)
          (.finite sign' mantissa' exponent' hPos') =
        roundWithAccuracy Format.binary64 (sign / sign') (mantissa <<< shift / mantissa') scale
          accuracy := by
  have hTarget : Format.binary64.targetExponent
      (totalExponent mantissa exponent - totalExponent mantissa' exponent') =
        max (mantissa.log2 + exponent - (mantissa'.log2 + exponent') - 53) (-1074) := by
    change max ((mantissa.log2 : Int) + 1 + exponent - (mantissa'.log2 + 1 + exponent') - 53)
      (-1074) = _
    omega
  rw [UnpackedFloat.div, divCore, hTarget]
  generalize hScale : min (exponent - exponent') (max _ (-1074)) = scale
  refine ⟨(exponent - exponent' - scale).toNat, scale, _, by omega, ?_, rfl⟩
  generalize hShift : (exponent - exponent' - scale).toNat = shift
  have hLog := log2_shiftLeft hPos shift
  obtain ⟨hZero, hQuotient⟩ := log2_div_bounds (Nat.shiftLeft_pos_iff.mpr hPos) hPos'
  rw [hLog] at hZero hQuotient
  generalize mantissa <<< shift / mantissa' = quotient at *
  omega

/-- **Quotients**: the order of the divisor is subtracted. -/
theorem div_rounds (sign sign' : Sign) :
    Rounds (sign / sign') (mantissa.log2 + exponent - (mantissa'.log2 + exponent') - 1)
      (mantissa.log2 + exponent - (mantissa'.log2 + exponent'))
      (UnpackedFloat.div Format.binary64 (.finite sign mantissa exponent hPos)
        (.finite sign' mantissa' exponent' hPos')) := by
  obtain ⟨shift, scale, accuracy, hScale, hFine, hEq⟩ :=
    exists_div_eq_roundWithAccuracy hPos hPos' exponent exponent' sign sign'
  have hLog := log2_shiftLeft hPos shift
  obtain ⟨hZero, hQuotient⟩ := log2_div_bounds (Nat.shiftLeft_pos_iff.mpr hPos) hPos'
  rw [hLog] at hZero hQuotient
  rw [hEq]
  generalize mantissa <<< shift / mantissa' = quotient at *
  have hLogZero : quotient = 0 → quotient.log2 = 0 := fun h => h ▸ Nat.log2_zero
  exact roundWithAccuracy_rounds _ _ hFine (by omega) (by omega)

include hPos hPos' in
/-- A sum is computed at a common exponent, at which both numbers keep their orders. -/
theorem exists_add_eq_normalize (sign sign' : Sign) :
    ∃ (first second : Nat) (scale : Int), 0 < first ∧ 0 < second ∧
      first.log2 + scale = mantissa.log2 + exponent ∧
      second.log2 + scale = mantissa'.log2 + exponent' ∧
      UnpackedFloat.add Format.binary64 (.finite sign mantissa exponent hPos)
          (.finite sign' mantissa' exponent' hPos') =
        UnpackedFloat.normalize Format.binary64 (sign.apply first + sign'.apply second) scale
          .positive := by
  refine ⟨mantissa <<< (exponent - min exponent exponent').toNat,
    mantissa' <<< (exponent' - min exponent exponent').toNat, min exponent exponent',
    Nat.shiftLeft_pos_iff.mpr hPos, Nat.shiftLeft_pos_iff.mpr hPos', ?_, ?_, rfl⟩
  · rw [log2_shiftLeft hPos]
    omega
  · rw [log2_shiftLeft hPos']
    omega

/-- **Sums** may cancel, and otherwise have an order of at most one more. -/
theorem add_rounds_or_zero (sign sign' : Sign) :
    UnpackedFloat.add Format.binary64 (.finite sign mantissa exponent hPos)
        (.finite sign' mantissa' exponent' hPos') = .zero .positive ∨
      ∃ resultSign low, Rounds resultSign low
        (max (mantissa.log2 + exponent) (mantissa'.log2 + exponent') + 1)
        (UnpackedFloat.add Format.binary64 (.finite sign mantissa exponent hPos)
          (.finite sign' mantissa' exponent' hPos')) := by
  obtain ⟨first, second, scale, hFirst, hSecond, hLog, hLog', hEq⟩ :=
    exists_add_eq_normalize hPos hPos' exponent exponent' sign sign'
  rw [hEq]
  have hAbs : (sign.apply first + sign'.apply second).natAbs ≤ first + second := by
    cases sign <;> cases sign' <;> simp only [Sign.apply] <;> omega
  generalize sign.apply first + sign'.apply second = sum at *
  rcases eq_or_ne sum 0 with rfl | hSum
  · exact .inl rfl
  · have hLess := log2_le_log2 (by omega) hAbs
    obtain ⟨-, hHigh⟩ := log2_add_bounds hFirst hSecond
    exact .inr ⟨_, _, (normalize_rounds hSum scale .positive).mono (Int.le_refl _) (by omega)⟩

/-- Sums of **two numbers with one sign** do not cancel. -/
theorem add_rounds (sign : Sign) :
    Rounds sign (max (mantissa.log2 + exponent) (mantissa'.log2 + exponent'))
      (max (mantissa.log2 + exponent) (mantissa'.log2 + exponent') + 1)
      (UnpackedFloat.add Format.binary64 (.finite sign mantissa exponent hPos)
        (.finite sign mantissa' exponent' hPos')) := by
  obtain ⟨first, second, scale, hFirst, hSecond, hLog, hLog', hEq⟩ :=
    exists_add_eq_normalize hPos hPos' exponent exponent' sign sign
  rw [hEq]
  have hAbs : (sign.apply first + sign.apply second).natAbs = first + second := by
    cases sign <;> simp only [Sign.apply] <;> omega
  have hNonzero : sign.apply first + sign.apply second ≠ 0 := by omega
  have hSign : (if sign.apply first + sign.apply second < 0 then Sign.negative else .positive) =
      sign := by
    cases sign
    · exact if_pos (by simp only [Sign.apply]; omega)
    · exact if_neg (by simp only [Sign.apply]; omega)
  obtain ⟨hLow, hHigh⟩ := log2_add_bounds hFirst hSecond
  have hRounds := normalize_rounds hNonzero scale .positive
  rw [hAbs, hSign] at hRounds
  exact hRounds.mono (by omega) (by omega)

end Operations

/-! ### Results can be packed -/

theorem isRounded_add {u v : UnpackedFloat} (hu : IsRounded u) (hv : IsRounded v) :
    IsRounded (UnpackedFloat.add Format.binary64 u v) := by
  rcases u with s | _ | s | ⟨s, m, e, hm⟩ <;> rcases v with t | _ | t | ⟨t, n, f, hn⟩
  case finite.finite =>
    rcases add_rounds_or_zero hm hn e f s t with hZero | ⟨_, _, hRounds⟩
    · rw [hZero]
      trivial
    · exact hRounds.isRounded
  case finite.zero => exact hu
  case zero.finite => exact hv
  case infinity.infinity | zero.zero =>
    rw [UnpackedFloat.add]
    split <;> trivial
  all_goals trivial

theorem isRounded_mul {u v : UnpackedFloat} (hu : IsRounded u) (hv : IsRounded v) :
    IsRounded (UnpackedFloat.mul Format.binary64 u v) := by
  rcases u with s | _ | s | ⟨s, m, e, hm⟩ <;> rcases v with t | _ | t | ⟨t, n, f, hn⟩
  case finite.finite => exact (mul_rounds hm hn s t hu hv).isRounded
  all_goals trivial

theorem isRounded_div (u v : UnpackedFloat) :
    IsRounded (UnpackedFloat.div Format.binary64 u v) := by
  rcases u with s | _ | s | ⟨s, m, e, hm⟩ <;> rcases v with t | _ | t | ⟨t, n, f, hn⟩
  case finite.finite => exact (div_rounds hm hn e f s t).isRounded
  all_goals trivial

/-- The mantissa is scaled so that its root has all 53 bits. -/
theorem isRounded_sqrt_finite {mantissa : Nat} (hPos : 0 < mantissa) (exponent : Int) :
    IsRounded (UnpackedFloat.sqrt Format.binary64 (.finite .positive mantissa exponent hPos)) := by
  have hTarget : Format.binary64.targetExponent ((totalExponent mantissa exponent + 1).ediv 2) =
      max ((mantissa.log2 + 1 + exponent + 1) / 2 - 53) (-1074) := rfl
  rw [UnpackedFloat.sqrt, sqrtCore, hTarget]
  refine isRounded_roundWithAccuracy _ _ _ _ ?_
  change 52 ≤ (Nat.sqrt (mantissa <<< (exponent - 2 * min (exponent / 2) _).toNat)).log2 ∨
    min (exponent / 2) _ ≤ -1074
  generalize hScale : min (exponent / 2) (max _ (-1074)) = scale
  by_cases hLeast : scale ≤ -1074
  · exact .inr hLeast
  · left
    have hLog := log2_shiftLeft hPos (exponent - 2 * scale).toNat
    have hSquare : 0 < mantissa <<< (exponent - 2 * scale).toNat :=
      Nat.shiftLeft_pos_iff.mpr hPos
    have hRoot : 2 ^ 52 ≤ (mantissa <<< (exponent - 2 * scale).toNat).sqrt := by
      rw [Nat.le_sqrt, ← Nat.pow_add, ← Nat.le_log2 (by omega), hLog]
      omega
    rwa [Nat.le_log2 (by omega)]

theorem isRounded_sqrt (number : UnpackedFloat) :
    IsRounded (UnpackedFloat.sqrt Format.binary64 number) := by
  rcases number with ⟨_ | _⟩ | _ | _ | ⟨_ | _, mantissa, exponent, hPos⟩
  case finite.positive => exact isRounded_sqrt_finite hPos exponent
  all_goals trivial

end EquivalentCircuit.Unpacked
