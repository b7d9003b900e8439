import EquivalentCircuit.Proofs.SpecialNumbers

/-!
# Errors of Rounding

A finite double-precision number has a rational **value**. The value of a sum, difference, product
or quotient is that of the exact result up to an error of rounding. The bound used here is twice the
unit in the last place, which is more than the rule of rounding needs: that a mantissa is kept or
replaced by its successor is enough for it, and for a quotient, which is cut off before it is
rounded, the same is lost twice. Below one the bound is not relative but that at one, so that
it covers numbers that have lost bits to the least exponent, and zero.

No operation overflows whose exact result is not very large.

## Main results

* `Unpacked.isWithin_roundWithAccuracy`: the error of rounding.
* `Binary64.isWithin_add`, `Binary64.isWithin_sub`, `Binary64.isWithin_mul`,
  `Binary64.isWithin_div`: the errors of the operations.
* `Binary64.isWithin_natCast`: the error of counting.
-/

namespace EquivalentCircuit

open Float.Model (Format UnpackedFloat totalExponent)
open Float.Model.UnpackedFloat

namespace Unpacked

/-! ### Values -/

/-- The **value** of a finite number. What is not finite has none; it is given zero. -/
def value : UnpackedFloat → ℚ
  | .finite sign mantissa exponent _ => (sign.apply mantissa : ℤ) * 2 ^ exponent
  | _ => 0

theorem value_neg (number : UnpackedFloat) : value number.neg = -value number := by
  rcases number with _ | _ | _ | ⟨_ | _, mantissa, exponent, hPos⟩
  case finite.negative | finite.positive => simp [value, UnpackedFloat.neg, Sign.apply]
  all_goals exact neg_zero.symm

theorem cast_apply (sign : Sign) (mantissa : ℤ) :
    ((sign.apply mantissa : ℤ) : ℚ) = (sign.apply 1 : ℤ) * mantissa := by
  cases sign <;> simp [Sign.apply]

theorem abs_apply_one (sign : Sign) : |((sign.apply 1 : ℤ) : ℚ)| = 1 := by
  cases sign <;> simp [Sign.apply]

theorem abs_apply_mul (sign : Sign) (mantissa : Nat) (exponent : Int) :
    |((sign.apply mantissa : ℤ) : ℚ) * 2 ^ exponent| = mantissa * 2 ^ exponent := by
  rw [cast_apply, abs_mul, abs_mul, abs_apply_one, one_mul, Int.cast_natCast, Nat.abs_cast,
    abs_of_pos (show (0 : ℚ) < 2 ^ exponent by positivity)]

/-- Bits that are shifted in do not change a value. -/
theorem apply_shiftLeft_mul (sign : Sign) (mantissa : Nat) {scale exponent : Int}
    (h : scale ≤ exponent) :
    ((sign.apply (mantissa <<< (exponent - scale).toNat : Nat) : ℤ) : ℚ) * 2 ^ scale =
      (sign.apply mantissa : ℤ) * 2 ^ exponent := by
  have hPower : (2 : ℚ) ^ exponent = 2 ^ (exponent - scale).toNat * 2 ^ scale := by
    rw [← zpow_natCast, ← zpow_add₀ two_ne_zero]
    congr 1
    omega
  rw [hPower, Nat.shiftLeft_eq, cast_apply, cast_apply sign mantissa]
  push_cast
  ring

/-- A number is finite, and its value lies **within an error** of an exact one. -/
def IsWithin (error exact : ℚ) (number : UnpackedFloat) : Prop :=
  number.isFinite = true ∧ |value number - exact| ≤ error

theorem IsWithin.mono {error error' exact : ℚ} {number : UnpackedFloat}
    (h : IsWithin error exact number) (hError : error ≤ error') : IsWithin error' exact number :=
  ⟨h.1, h.2.trans hError⟩

theorem isWithin_of_value_eq {error exact : ℚ} {number : UnpackedFloat}
    (hFinite : number.isFinite = true) (hValue : value number = exact) (hError : 0 ≤ error) :
    IsWithin error exact number :=
  ⟨hFinite, by rwa [hValue, sub_self, abs_zero]⟩

/-- A bound for the **error of rounding** an exact number. -/
def roundingError (exact : ℚ) : ℚ :=
  (|exact| + 1) / 2 ^ 52

theorem roundingError_nonneg (exact : ℚ) : 0 ≤ roundingError exact := by
  rw [roundingError]
  positivity

/-- The error grows with the number. -/
theorem roundingError_mono {exact exact' : ℚ} (h : |exact| ≤ |exact'|) :
    roundingError exact ≤ roundingError exact' := by
  rw [roundingError, roundingError]
  gcongr

/-- Beside a large number the error of rounding is small. -/
theorem add_roundingError_lt {exact large : ℚ} (h : |exact| ≤ large) (hLarge : 1 ≤ large) :
    |exact| + 2 * roundingError exact < 2 ^ 24 * large := by
  rw [roundingError]
  linarith

/-! ### Rounding -/

/-- A mantissa that has been rounded has at most one bit too many. -/
theorem rounded_le {mantissa rounded shift : Nat} {exponent : Int}
    (hScale : exponent + shift = max (mantissa.log2 + exponent - 52) (-1074))
    (hRounded : rounded = mantissa / 2 ^ shift ∨ rounded = mantissa / 2 ^ shift + 1) :
    rounded ≤ 2 ^ 53 := by
  have hHigh : mantissa < 2 ^ (53 + shift) :=
    Nat.lt_of_lt_of_le Nat.lt_log2_self (Nat.pow_le_pow_right (by decide) (by omega))
  rw [Nat.pow_add, ← Nat.div_lt_iff_lt_mul (Nat.two_pow_pos shift)] at hHigh
  omega

/-- The last shift keeps the value. -/
theorem isWithin_of_rounded (sign : Sign) {rounded : Nat} {scale : Int} (hLeast : -1074 ≤ scale)
    (hLe : rounded ≤ 2 ^ 53) :
    IsWithin 0 ((sign.apply rounded : ℤ) * 2 ^ scale)
      (let final := shiftToTargetExponent Format.binary64 rounded scale .exact
        if h : final.1.mantissa = 0 then .zero sign
        else .finite sign final.1.mantissa final.2 (Nat.pos_of_ne_zero h)) := by
  rcases Nat.lt_or_eq_of_le hLe with hLt | rfl
  · rw [shiftToTargetExponent_of_lt hLt hLeast]
    rcases Nat.eq_zero_or_pos rounded with rfl | hPos
    · exact isWithin_of_value_eq rfl (by rw [cast_apply]; simp [value]) le_rfl
    · dsimp only
      rw [dif_neg (by omega)]
      exact isWithin_of_value_eq rfl rfl le_rfl
  · rw [shiftToTargetExponent_two_pow hLeast]
    dsimp only
    rw [dif_neg (by decide)]
    refine isWithin_of_value_eq rfl ?_ le_rfl
    rw [value, zpow_add_one₀ two_ne_zero, cast_apply, cast_apply sign (2 ^ 53 : Nat)]
    push_cast
    ring

/-- What rounding adds or leaves out is less than one in the last bit that is kept. -/
theorem abs_rounded_mul_sub_le {mantissa rounded shift : Nat}
    (h : rounded = mantissa / 2 ^ shift ∨ rounded = mantissa / 2 ^ shift + 1) :
    |(rounded : ℚ) * 2 ^ shift - mantissa| ≤ 2 ^ shift := by
  have hMantissa : (mantissa : ℚ) =
      2 ^ shift * (mantissa / 2 ^ shift : Nat) + (mantissa % 2 ^ shift : Nat) := by
    exact_mod_cast (Nat.div_add_mod mantissa (2 ^ shift)).symm
  have hRest : ((mantissa % 2 ^ shift : Nat) : ℚ) ≤ 2 ^ shift := by
    exact_mod_cast (Nat.mod_lt mantissa (Nat.two_pow_pos shift)).le
  have hRest' : (0 : ℚ) ≤ (mantissa % 2 ^ shift : Nat) := Nat.cast_nonneg _
  rw [abs_le, hMantissa]
  rcases h with rfl | rfl
  · constructor <;> linarith
  · push_cast
    constructor <;> linarith

/-- One in the last bit that is kept is small beside the number, or the least number there is. -/
theorem two_zpow_le (sign : Sign) {mantissa : Nat} {exponent : Int}
    (hFine : 52 ≤ mantissa.log2 ∨ exponent ≤ -1074) :
    (2 : ℚ) ^ max (mantissa.log2 + exponent - 52) (-1074) ≤
      roundingError ((sign.apply mantissa : ℤ) * 2 ^ exponent) := by
  rw [roundingError, abs_apply_mul]
  have hNumber : (0 : ℚ) ≤ mantissa * 2 ^ exponent := by positivity
  have hLeast : (2 : ℚ) ^ (-1074 : ℤ) ≤ 1 / 2 ^ 52 := by
    rw [one_div, ← zpow_natCast, ← zpow_neg]
    exact zpow_le_zpow_right₀ one_le_two (by decide)
  rcases Nat.eq_zero_or_pos mantissa with rfl | hPos
  · have hExponent : max (((0 : Nat).log2 : ℤ) + exponent - 52) (-1074) = -1074 := by
      rw [Nat.log2_zero] at *
      omega
    rw [hExponent]
    simpa using hLeast
  rcases max_choice (mantissa.log2 + exponent - 52) (-1074) with hMax | hMax <;> rw [hMax]
  · have hLeading : (2 : ℚ) ^ (mantissa.log2 : ℤ) ≤ mantissa := by
      rw [zpow_natCast]
      exact_mod_cast Nat.log2_self_le (by omega)
    calc (2 : ℚ) ^ (mantissa.log2 + exponent - 52)
        = 2 ^ (mantissa.log2 : ℤ) * 2 ^ exponent / 2 ^ 52 := by
          rw [zpow_sub₀ two_ne_zero, zpow_add₀ two_ne_zero]
          rfl
      _ ≤ (mantissa * 2 ^ exponent + 1) / 2 ^ 52 := by
          gcongr
          calc (2 : ℚ) ^ (mantissa.log2 : ℤ) * 2 ^ exponent ≤ mantissa * 2 ^ exponent := by gcongr
            _ ≤ mantissa * 2 ^ exponent + 1 := by linarith
  · refine hLeast.trans ?_
    gcongr
    linarith

/-- **Rounding** moves a number by little. The exact number may be larger than the mantissa says by
less than one; that is for the operation to account for. -/
theorem isWithin_roundWithAccuracy (sign : Sign) (mantissa : Nat) (exponent : Int)
    (accuracy : Accuracy) (hFine : 52 ≤ mantissa.log2 ∨ exponent ≤ -1074) :
    IsWithin (roundingError ((sign.apply mantissa : ℤ) * 2 ^ exponent))
      ((sign.apply mantissa : ℤ) * 2 ^ exponent)
      (roundWithAccuracy Format.binary64 sign mantissa exponent accuracy) := by
  obtain ⟨rounded, shift, hScale, hRounded, hEq⟩ :=
    roundWithAccuracy_eq sign mantissa exponent accuracy hFine
  obtain ⟨hFinite, hValue⟩ := isWithin_of_rounded sign
    (show -1074 ≤ exponent + shift by omega) (rounded_le hScale hRounded)
  have hMove : ((sign.apply rounded : ℤ) : ℚ) * (2 ^ exponent * 2 ^ shift) -
      (sign.apply mantissa : ℤ) * 2 ^ exponent =
        (sign.apply 1 : ℤ) * ((rounded * 2 ^ shift - mantissa) * 2 ^ exponent) := by
    rw [cast_apply sign rounded, cast_apply sign mantissa]
    push_cast
    ring
  have hPower : (0 : ℚ) < 2 ^ exponent := by positivity
  rw [hEq]
  refine ⟨hFinite, ?_⟩
  rw [sub_eq_zero.mp (abs_nonpos_iff.mp hValue), zpow_add₀ two_ne_zero, zpow_natCast]
  calc |((sign.apply rounded : ℤ) : ℚ) * (2 ^ exponent * 2 ^ shift) -
      (sign.apply mantissa : ℤ) * 2 ^ exponent|
      = |(rounded : ℚ) * 2 ^ shift - mantissa| * 2 ^ exponent := by
        rw [hMove, abs_mul, abs_apply_one, one_mul, abs_mul, abs_of_pos hPower]
    _ ≤ 2 ^ shift * 2 ^ exponent := by
        gcongr
        exact abs_rounded_mul_sub_le hRounded
    _ = 2 ^ max (mantissa.log2 + exponent - 52) (-1074) := by
        rw [← hScale, zpow_add₀ two_ne_zero, zpow_natCast, mul_comm]
    _ ≤ roundingError ((sign.apply mantissa : ℤ) * 2 ^ exponent) := two_zpow_le sign hFine

/-- Rounding a number that was **cut off** after its last bit: the number before that was larger, by
no more than one in the last bit. -/
theorem isWithin_of_cut_off (sign : Sign) {mantissa : Nat} {scale : Int} {exact : ℚ}
    (accuracy : Accuracy) (hFine : 52 ≤ mantissa.log2 ∨ scale ≤ -1074)
    (hLow : (mantissa : ℚ) ≤ exact) (hHigh : exact ≤ mantissa + 1) :
    IsWithin (2 * roundingError ((sign.apply 1 : ℤ) * (exact * 2 ^ scale)))
      ((sign.apply 1 : ℤ) * (exact * 2 ^ scale))
      (roundWithAccuracy Format.binary64 sign mantissa scale accuracy) := by
  obtain ⟨hFinite, hRounding⟩ := isWithin_roundWithAccuracy sign mantissa scale accuracy hFine
  have hPower : (0 : ℚ) < 2 ^ scale := by positivity
  have hNonneg : 0 ≤ exact := (Nat.cast_nonneg _).trans hLow
  have hError : roundingError ((sign.apply mantissa : ℤ) * 2 ^ scale) ≤
      roundingError ((sign.apply 1 : ℤ) * (exact * 2 ^ scale)) := by
    refine roundingError_mono ?_
    rw [abs_apply_mul, abs_mul, abs_apply_one, one_mul, abs_of_nonneg (by positivity)]
    gcongr
  have hCut : |((sign.apply mantissa : ℤ) : ℚ) * 2 ^ scale -
      (sign.apply 1 : ℤ) * (exact * 2 ^ scale)| ≤
        roundingError ((sign.apply mantissa : ℤ) * 2 ^ scale) := by
    have hFactor : ((sign.apply mantissa : ℤ) : ℚ) * 2 ^ scale -
        (sign.apply 1 : ℤ) * (exact * 2 ^ scale) =
          (sign.apply 1 : ℤ) * ((mantissa - exact) * 2 ^ scale) := by
      rw [cast_apply sign mantissa]
      push_cast
      ring
    have hBit : |(mantissa : ℚ) - exact| ≤ 1 := abs_le.mpr ⟨by linarith, by linarith⟩
    calc |((sign.apply mantissa : ℤ) : ℚ) * 2 ^ scale - (sign.apply 1 : ℤ) * (exact * 2 ^ scale)|
        = |(mantissa : ℚ) - exact| * 2 ^ scale := by
          rw [hFactor, abs_mul, abs_apply_one, one_mul, abs_mul, abs_of_pos hPower]
      _ ≤ 1 * 2 ^ scale := by gcongr
      _ ≤ 2 ^ max (mantissa.log2 + scale - 52) (-1074) := by
          rw [one_mul]
          exact zpow_le_zpow_right₀ one_le_two (by omega)
      _ ≤ roundingError ((sign.apply mantissa : ℤ) * 2 ^ scale) := two_zpow_le sign hFine
  exact ⟨hFinite, (abs_sub_le _ _ _).trans (by linarith)⟩

/-- Rounding a number of any size: first bits are shifted in, which changes nothing. -/
theorem isWithin_round (sign : Sign) {mantissa : Nat} (exponent : Int) (hPos : 0 < mantissa) :
    IsWithin (roundingError ((sign.apply mantissa : ℤ) * 2 ^ exponent))
      ((sign.apply mantissa : ℤ) * 2 ^ exponent)
      (UnpackedFloat.round Format.binary64 sign mantissa exponent) := by
  rw [UnpackedFloat.round, targetExponent_eq, decreaseExponent]
  generalize hTarget : max (mantissa.log2 + exponent - 52) (-1074) = target
  have hScale : exponent - (exponent - target).toNat = min target exponent := by omega
  have hShift : (exponent - target).toNat = (exponent - min target exponent).toNat := by omega
  have hLog := log2_shiftLeft hPos (exponent - min target exponent).toNat
  have hRounds := isWithin_roundWithAccuracy sign
    (mantissa <<< (exponent - min target exponent).toNat) (min target exponent) .exact (by omega)
  rw [hScale, hShift]
  rwa [apply_shiftLeft_mul sign mantissa (min_le_right _ _)] at hRounds

theorem isWithin_normalize (mantissa : ℤ) (exponent : Int) (zeroSign : Sign) :
    IsWithin (roundingError (mantissa * 2 ^ exponent)) (mantissa * 2 ^ exponent)
      (UnpackedFloat.normalize Format.binary64 mantissa exponent zeroSign) := by
  rw [UnpackedFloat.normalize]
  rcases Int.lt_trichotomy mantissa 0 with hNegative | rfl | hPositive
  · have hValue : Sign.negative.apply ((-mantissa).toNat : ℤ) = mantissa := by
      simp only [Sign.apply]
      omega
    rw [Int.compare_eq_lt.mpr hNegative]
    simpa only [hValue] using isWithin_round .negative exponent
      (show 0 < (-mantissa).toNat by omega)
  · exact isWithin_of_value_eq rfl (by simp [value]) (roundingError_nonneg _)
  · have hValue : Sign.positive.apply (mantissa.toNat : ℤ) = mantissa := by
      simp only [Sign.apply]
      omega
    rw [Int.compare_eq_gt.mpr hPositive]
    simpa only [hValue] using isWithin_round .positive exponent (show 0 < mantissa.toNat by omega)

theorem isRounded_normalize (mantissa : ℤ) (exponent : Int) (zeroSign : Sign) :
    IsRounded (UnpackedFloat.normalize Format.binary64 mantissa exponent zeroSign) := by
  rcases eq_or_ne mantissa 0 with rfl | hNonzero
  · trivial
  · exact (normalize_rounds hNonzero exponent zeroSign).isRounded

/-! ### Operations on unpacked numbers -/

section Operations

variable {u v : UnpackedFloat} (hu : u.isFinite = true) (hv : v.isFinite = true)

include hu hv

theorem add_isWithin : IsWithin (roundingError (value u + value v)) (value u + value v)
    (UnpackedFloat.add Format.binary64 u v) := by
  have hError := roundingError_nonneg (value u + value v)
  rcases u with _ | _ | s | ⟨s, m, e, hm⟩
  case infinity | notANumber => cases hu
  all_goals rcases v with _ | _ | t | ⟨t, n, f, hn⟩
  case zero.infinity | zero.notANumber | finite.infinity | finite.notANumber => cases hv
  case zero.zero =>
    cases s <;> cases t <;> exact isWithin_of_value_eq rfl (add_zero _).symm hError
  case zero.finite => exact isWithin_of_value_eq rfl (zero_add _).symm hError
  case finite.zero => exact isWithin_of_value_eq rfl (add_zero _).symm hError
  case finite.finite =>
    have hSum := isWithin_normalize (s.apply (m <<< (e - min e f).toNat : Nat) +
      t.apply (n <<< (f - min e f).toNat : Nat)) (min e f) .positive
    rwa [Int.cast_add, add_mul, apply_shiftLeft_mul s m (min_le_left e f),
      apply_shiftLeft_mul t n (min_le_right e f)] at hSum

theorem mul_isWithin (hRounded : IsRounded u) (hRounded' : IsRounded v) :
    IsWithin (roundingError (value u * value v)) (value u * value v)
      (UnpackedFloat.mul Format.binary64 u v) := by
  have hError := roundingError_nonneg (value u * value v)
  rcases u with _ | _ | s | ⟨s, m, e, hm⟩
  case infinity | notANumber => cases hu
  all_goals rcases v with _ | _ | t | ⟨t, n, f, hn⟩
  case zero.infinity | zero.notANumber | finite.infinity | finite.notANumber => cases hv
  case zero.zero | zero.finite => exact isWithin_of_value_eq rfl (zero_mul _).symm hError
  case finite.zero => exact isWithin_of_value_eq rfl (mul_zero _).symm hError
  case finite.finite =>
    obtain ⟨hLow, -⟩ := log2_mul_bounds hm hn
    have hBits := hRounded.log2_eq_or hm
    have hBits' := hRounded'.log2_eq_or hn
    have hProduct := isWithin_roundWithAccuracy (s * t) (m * n) (e + f) .exact (by omega)
    have hSigns : (s * t).apply (m * n : Nat) = s.apply m * t.apply n := by
      cases s <;> cases t <;> simp only [Sign.apply] <;> push_cast <;> ring
    have hExact : (((s * t).apply (m * n : Nat) : ℤ) : ℚ) * 2 ^ (e + f) =
        value (.finite s m e hm) * value (.finite t n f hn) := by
      rw [hSigns, value, value, zpow_add₀ two_ne_zero]
      push_cast
      ring
    rwa [hExact] at hProduct

/-- A quotient is cut off first, which moves it by no more than rounding does. -/
theorem div_isWithin (hNonzero : value v ≠ 0) :
    IsWithin (2 * roundingError (value u / value v)) (value u / value v)
      (UnpackedFloat.div Format.binary64 u v) := by
  have hError : 0 ≤ 2 * roundingError (value u / value v) :=
    mul_nonneg zero_le_two (roundingError_nonneg _)
  rcases u with _ | _ | s | ⟨s, m, e, hm⟩
  case infinity | notANumber => cases hu
  all_goals rcases v with _ | _ | t | ⟨t, n, f, hn⟩
  case zero.infinity | zero.notANumber | finite.infinity | finite.notANumber => cases hv
  case zero.zero | finite.zero => exact absurd rfl hNonzero
  case zero.finite => exact isWithin_of_value_eq rfl (zero_div _).symm hError
  case finite.finite =>
    obtain ⟨shift, scale, accuracy, hScale, hFine, hEq⟩ :=
      exists_div_eq_roundWithAccuracy hm hn e f s t
    have hLow : ((m <<< shift / n : ℕ) : ℚ) ≤ (m <<< shift : ℕ) / n := Nat.cast_div_le
    have hHigh : ((m <<< shift : ℕ) : ℚ) / n ≤ (m <<< shift / n : ℕ) + 1 := by
      rw [← Nat.floor_div_eq_div (K := ℚ)]
      exact (Nat.lt_floor_add_one _).le
    have hExact : value (.finite s m e hm) / value (.finite t n f hn) =
        ((s / t).apply 1 : ℤ) * ((m <<< shift : ℕ) / n * 2 ^ scale) := by
      have hSigns : s.apply 1 = (s / t).apply 1 * t.apply 1 := by cases s <;> cases t <;> rfl
      have hSign : ((t.apply 1 : ℤ) : ℚ) ≠ 0 := by
        rw [← abs_ne_zero, abs_apply_one]
        exact one_ne_zero
      have hExponent : e = f + (shift + scale) := by omega
      rw [value, value, cast_apply s m, cast_apply t n, hSigns, hExponent,
        zpow_add₀ two_ne_zero, zpow_add₀ two_ne_zero, zpow_natCast, Nat.shiftLeft_eq]
      push_cast
      field_simp
    rw [hEq, hExact]
    exact isWithin_of_cut_off (s / t) accuracy hFine hLow hHigh

end Operations

/-! ### Overflow -/

/-- A number that is not very large **does not overflow**. -/
theorem IsWithin.overflowed {error exact : ℚ} {number : UnpackedFloat}
    (h : IsWithin error exact number) (hRounded : IsRounded number)
    (hBound : |exact| + error < 2 ^ 1024) : IsWithin error exact (overflowed number) := by
  obtain ⟨hFinite, hError⟩ := h
  suffices hEq : Unpacked.overflowed number = number by
    rw [hEq]
    exact ⟨hFinite, hError⟩
  rcases number with _ | _ | _ | ⟨sign, mantissa, exponent, hPos⟩
  case infinity | notANumber => cases hFinite
  case zero => rfl
  case finite =>
    refine if_neg fun hLarge => ?_
    obtain ⟨-, -, hNormal⟩ := hRounded
    have hMantissa : (2 : ℚ) ^ 52 ≤ mantissa := by
      exact_mod_cast hNormal.resolve_right (by omega)
    have hExponent : (2 : ℚ) ^ (972 : ℤ) ≤ 2 ^ exponent :=
      zpow_le_zpow_right₀ one_le_two (by omega)
    have hValue : (2 : ℚ) ^ 1024 ≤ |value (.finite sign mantissa exponent hPos)| := by
      rw [value, abs_apply_mul]
      calc (2 : ℚ) ^ 1024 = (2 : ℚ) ^ 52 * (2 : ℚ) ^ (972 : ℤ) := by
              rw [← zpow_natCast, ← zpow_natCast, ← zpow_add₀ two_ne_zero]
              rfl
        _ ≤ (mantissa : ℚ) * 2 ^ exponent := by gcongr
    have hTriangle := abs_sub_abs_le_abs_sub (value (.finite sign mantissa exponent hPos)) exact
    exact hBound.not_ge (hValue.trans (sub_le_iff_le_add'.mp (hTriangle.trans hError)))

end Unpacked

namespace Binary64

open Unpacked

/-! ### Operations on double-precision numbers -/

/-- The **value** of a finite number. -/
def value (x : Binary64) : ℚ :=
  Unpacked.value x.unpacked

/-- A number is finite, and its value lies **within an error** of an exact one. -/
def IsWithin (x : Binary64) (error exact : ℚ) : Prop :=
  x.isFinite = true ∧ |x.value - exact| ≤ error

theorem IsWithin.mono {x : Binary64} {error error' exact : ℚ} (h : x.IsWithin error exact)
    (hError : error ≤ error') : x.IsWithin error' exact :=
  ⟨h.1, h.2.trans hError⟩

theorem value_one : value 1 = 1 := by
  change ((Sign.positive.apply (2 ^ 52 : ℕ) : ℤ) : ℚ) * 2 ^ (-52 : ℤ) = 1
  norm_num [Sign.apply]

theorem value_neg (x : Binary64) : (-x).value = -x.value := by
  rw [value, unpacked_neg, Unpacked.value_neg, value]

theorem isFinite_neg (x : Binary64) : (-x).isFinite = x.isFinite := by
  rw [isFinite_eq, isFinite_eq, unpacked_neg]
  cases x.unpacked <;> rfl

/-- Subtracting is adding the negated number. -/
protected theorem sub_eq_add_neg (x y : Binary64) : x - y = x + -y := by
  have hSub : x - y = ofUnpacked (UnpackedFloat.sub Format.binary64 x.unpacked y.unpacked) := by
    rw [← unpack_toFloat x, ← unpack_toFloat y]
    rfl
  have hAdd : x + -y =
      ofUnpacked (UnpackedFloat.add Format.binary64 x.unpacked y.unpacked.neg) := by
    rw [← unpacked_neg, ← unpack_toFloat x, ← unpack_toFloat (-y)]
    rfl
  rw [hSub, hAdd]
  congr 1
  rcases x.unpacked with s | _ | s | ⟨s, m, e, hm⟩ <;>
    rcases y.unpacked with t | _ | t | ⟨t, n, f, hn⟩
  case finite.finite =>
    change UnpackedFloat.normalize _ (s.apply _ - t.apply _) _ _ =
      UnpackedFloat.normalize _ (s.apply _ + (-t).apply _) _ _
    congr 1
    cases t
    · exact Int.sub_neg _ _
    · exact Int.sub_eq_add_neg
  all_goals rfl

theorem isWithin_of_unpacked {x : Binary64} {error exact : ℚ} {number : UnpackedFloat}
    (hEq : x.unpacked = overflowed number) (hRounded : IsRounded number)
    (h : Unpacked.IsWithin error exact number) (hError : error ≤ 2 * roundingError exact)
    (hBound : |exact| ≤ 2 ^ 1000) : x.IsWithin (2 * roundingError exact) exact := by
  have hSmall : |exact| + 2 * roundingError exact < 2 ^ 24 * 2 ^ 1000 :=
    add_roundingError_lt hBound (one_le_pow₀ one_le_two)
  rw [← pow_add] at hSmall
  obtain ⟨hFinite, hValue⟩ := (h.mono hError).overflowed hRounded hSmall
  rw [IsWithin, isFinite_eq, value, hEq]
  exact ⟨hFinite, hValue⟩

theorem isWithin_ofUnpacked {exact : ℚ} {number : UnpackedFloat} (hRounded : IsRounded number)
    (h : Unpacked.IsWithin (roundingError exact) exact number) (hBound : |exact| ≤ 2 ^ 1000) :
    (ofUnpacked number).IsWithin (2 * roundingError exact) exact :=
  isWithin_of_unpacked (unpacked_ofUnpacked hRounded) hRounded h
    (le_mul_of_one_le_left (roundingError_nonneg exact) one_le_two) hBound

section Operations

variable {x y : Binary64} (hx : x.isFinite = true) (hy : y.isFinite = true)

include hx hy

/-- **Sums** are right up to rounding. -/
theorem isWithin_add (hBound : |x.value + y.value| ≤ 2 ^ 1000) :
    (x + y).IsWithin (2 * roundingError (x.value + y.value)) (x.value + y.value) := by
  rw [isFinite_eq] at hx hy
  refine isWithin_of_unpacked (unpacked_add x y)
    (isRounded_add x.isRounded_unpacked y.isRounded_unpacked) (add_isWithin hx hy)
    (le_mul_of_one_le_left (roundingError_nonneg _) one_le_two) hBound

/-- **Differences** are right up to rounding. -/
theorem isWithin_sub (hBound : |x.value - y.value| ≤ 2 ^ 1000) :
    (x - y).IsWithin (2 * roundingError (x.value - y.value)) (x.value - y.value) := by
  have hExact : x.value - y.value = x.value + (-y).value := by
    rw [value_neg, ← sub_eq_add_neg]
  rw [Binary64.sub_eq_add_neg, hExact]
  exact isWithin_add hx (y.isFinite_neg ▸ hy) (hExact ▸ hBound)

/-- **Products** are right up to rounding. -/
theorem isWithin_mul (hBound : |x.value * y.value| ≤ 2 ^ 1000) :
    (x * y).IsWithin (2 * roundingError (x.value * y.value)) (x.value * y.value) := by
  rw [isFinite_eq] at hx hy
  refine isWithin_of_unpacked (unpacked_mul x y)
    (isRounded_mul x.isRounded_unpacked y.isRounded_unpacked)
    (mul_isWithin hx hy x.isRounded_unpacked y.isRounded_unpacked)
    (le_mul_of_one_le_left (roundingError_nonneg _) one_le_two) hBound

/-- **Quotients** are right up to rounding. -/
theorem isWithin_div (hNonzero : y.value ≠ 0) (hBound : |x.value / y.value| ≤ 2 ^ 1000) :
    (x / y).IsWithin (2 * roundingError (x.value / y.value)) (x.value / y.value) := by
  rw [isFinite_eq] at hx hy
  exact isWithin_of_unpacked (unpacked_div x y) (isRounded_div _ _) (div_isWithin hx hy hNonzero)
    le_rfl hBound

end Operations

/-- An operation whose operands are **not exact**: what it rounds is near the exact result, which is
no larger than numbers that count. -/
theorem isWithin_of_near {x : Binary64} {near exact size error : ℚ}
    (hRounds : |near| ≤ 2 ^ 1000 → x.IsWithin (2 * roundingError near) near)
    (hExact : |exact| ≤ size) (hNear : |near - exact| ≤ error) (hBound : size + error ≤ 2 ^ 64) :
    x.IsWithin (error + (size + error + 1) / 2 ^ 51) exact := by
  have hSize : |near| ≤ size + error := by
    have hTriangle := abs_sub_abs_le_abs_sub near exact
    linarith only [hTriangle, hExact, hNear]
  have hLarge : (2 : ℚ) ^ 64 ≤ 2 ^ 1000 := pow_le_pow_right₀ one_le_two (by decide)
  obtain ⟨hFinite, hRounding⟩ := hRounds (hSize.trans (hBound.trans hLarge))
  refine ⟨hFinite, (abs_sub_le _ near _).trans ?_⟩
  rw [roundingError] at hRounding
  linarith only [hSize, hRounding, hNear]

/-! ### Counting -/

/-- A small number is converted as a word and multiplied by one. -/
theorem natCast_of_lt {n : ℕ} (h : n < 2 ^ 53) : (n : Binary64) =
    ofUnpacked (UnpackedFloat.normalize Format.binary64 n 0 .positive) * 1 := by
  have hWord : n.toUInt64.toNat = n := Nat.mod_eq_of_lt (by omega)
  generalize hOne : (ofUnpacked _ : Binary64) = x
  have hMul : x * 1 = ofUnpacked (UnpackedFloat.mul Format.binary64 x.unpacked (unpacked 1)) := by
    rw [← unpack_toFloat x]
    rfl
  change ofFloat (Float.ofScientific n false 0) = _
  rw [Float.ofScientific, dif_pos ⟨h, by decide⟩, hMul, ← hOne]
  conv_rhs => rw [← hWord]
  rfl

/-- A greater number is converted as a decimal with no exponent. -/
theorem natCast_of_ge {n : ℕ} (h : 2 ^ 53 ≤ n) : (n : Binary64) = ofUnpacked
    (roundWithAccuracy Format.binary64 .positive (n <<< 53 * 1) (-53) .exact) := by
  have hDecimal : UnpackedFloat.ofScientific Format.binary64 n 0 =
      roundWithAccuracy Format.binary64 .positive (n <<< 53 * 1) (-53) .exact := by
    have hSmall : ¬(0 : ℤ) < -((2 ^ Format.binary64.exponentBits : ℤ) + n.log2) := by
      change ¬(0 : ℤ) < -((2 ^ 11 : ℤ) + n.log2)
      omega
    rw [UnpackedFloat.ofScientific, dif_neg (by omega), if_neg (by decide), if_neg hSmall,
      if_pos (le_refl 0)]
    rfl
  change ofFloat (Float.ofScientific n false 0) = _
  rw [Float.ofScientific, dif_neg (by omega), ← hDecimal]
  rfl

/-- Numbers that **count** something are right up to rounding. -/
theorem isWithin_natCast {n : ℕ} (h : n < 2 ^ 64) :
    (n : Binary64).IsWithin ((n + 1) / 2 ^ 48) n := by
  have hNonneg : (0 : ℚ) ≤ n := Nat.cast_nonneg n
  have hBound : |(n : ℚ)| ≤ 2 ^ 1000 := by
    rw [Nat.abs_cast]
    exact_mod_cast (h.trans (Nat.pow_lt_pow_right (by decide) (by decide))).le
  have hError : 2 * roundingError n ≤ (n + 1) / 2 ^ 50 := by
    rw [roundingError, Nat.abs_cast]
    linarith
  rcases Nat.lt_or_ge n (2 ^ 53) with hWord | hDecimal
  · have hNormalized := isWithin_normalize n 0 .positive
    rw [Int.cast_natCast, zpow_zero, mul_one] at hNormalized
    obtain ⟨hFinite, hConverted⟩ :=
      isWithin_ofUnpacked (isRounded_normalize n 0 .positive) hNormalized hBound
    rw [natCast_of_lt hWord]
    generalize ofUnpacked _ = x at *
    have hNear : |x.value * value 1 - n| ≤ (n + 1) / 2 ^ 50 := by
      rw [value_one, mul_one]
      exact hConverted.trans hError
    have hSmall : (n : ℚ) ≤ 2 ^ 53 := by exact_mod_cast hWord.le
    have hProduct := isWithin_of_near (isWithin_mul hFinite rfl) (Nat.abs_cast n).le hNear
      (by linarith only [hSmall])
    refine hProduct.mono ?_
    linarith only [hNonneg]
  · have hExact : ((Sign.positive.apply (n <<< 53 * 1 : ℕ) : ℤ) : ℚ) * 2 ^ (-53 : ℤ) = n := by
      rw [Nat.shiftLeft_eq, Sign.apply]
      push_cast
      norm_num
      ring
    have hLog : 52 ≤ (n <<< 53 * 1).log2 := by
      rw [Nat.mul_one, log2_shiftLeft (by omega)]
      omega
    have hRounds := isWithin_roundWithAccuracy .positive _ (-53) .exact (.inl hLog)
    rw [hExact] at hRounds
    rw [natCast_of_ge hDecimal]
    refine (isWithin_ofUnpacked (isRounded_roundWithAccuracy _ _ _ _ (.inl hLog)) hRounds
      hBound).mono ?_
    linarith

end Binary64

end EquivalentCircuit
