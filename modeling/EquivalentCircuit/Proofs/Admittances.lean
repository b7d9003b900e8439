import EquivalentCircuit.Network.Immittance
import EquivalentCircuit.Proofs.SpecialNumbers

/-!
# Admittances in Double Precision

The reciprocal of a complex number divides by the sum of the squares of the parts, which is not
rescaled. For a finite number this sum is a number that is not negative, possibly infinite; the
reciprocal is then finite, with one exception: the squares vanish though the number does not, which
takes parts below `2 ^ (-537)`, and the reciprocal divides by zero.

Where the squares do not vanish, the parts of a reciprocal are below `2 ^ 539`: a small number has a
square that is small, but not smaller than the least positive number (`inv_atMost`). So the sum
of two reciprocals does not overflow, and it is finite exactly when both reciprocals are.

## Main results

* `Complex.squaresVanish_eq_false`: where the squares do not vanish.
* `Complex.isFinite_inv`: where a reciprocal is finite.
* `Complex.isFinite_inv_add_inv`: where an admittance of two branches is finite.
* `Complex.isDefined_ofAdmittance`: where the impedance with a given admittance has no NaN in it.
-/

namespace EquivalentCircuit.Complex

open Float.Model (Format UnpackedFloat)
open Float.Model.UnpackedFloat
open Unpacked

/-- Whether **neither part is NaN**. -/
def isDefined (z : Complex Binary64) : Bool :=
  !z.re.isNaN && !z.im.isNaN

/-- Whether both parts are finite. -/
def isFinite (z : Complex Binary64) : Bool :=
  z.re.isFinite && z.im.isFinite

/-- Whether the **squares vanish**: they add up to zero, but the number is not zero. -/
def squaresVanish (z : Complex Binary64) : Bool :=
  !z.isZero && z.normSq == 0

/-- Whether a number lies on one of the axes. -/
def onAxis (z : Complex Binary64) : Bool :=
  z.re == 0 || z.im == 0

/-- Whether two numbers have **opposite infinities** in one of the parts. -/
def opposes (z w : Complex Binary64) : Bool :=
  z.re.opposes w.re || z.im.opposes w.im

theorem isDefined_iff {z : Complex Binary64} :
    z.isDefined = true ↔ z.re.isNaN = false ∧ z.im.isNaN = false := by
  rw [isDefined, Bool.and_eq_true, Bool.not_eq_true', Bool.not_eq_true']

theorem isFinite_iff {z : Complex Binary64} :
    z.isFinite = true ↔ z.re.isFinite = true ∧ z.im.isFinite = true := by
  rw [isFinite, Bool.and_eq_true]

theorem isFinite_eq (z : Complex Binary64) :
    z.isFinite = (z.isDefined && !z.hasInfinitePart) := by
  rw [isFinite, Binary64.isFinite_eq_not, Binary64.isFinite_eq_not, isDefined, hasInfinitePart,
    Bool.not_or]
  ac_rfl

theorem isDefined_of_isFinite {z : Complex Binary64} (h : z.isFinite = true) :
    z.isDefined = true := by
  rw [isFinite_eq, Bool.and_eq_true] at h
  exact h.1

theorem isFinite_of_isZero {z : Complex Binary64} (h : z.isZero = true) : z.isFinite = true := by
  rw [isZero, Bool.and_eq_true] at h
  exact isFinite_iff.mpr ⟨Binary64.isFinite_of_beq_zero h.1, Binary64.isFinite_of_beq_zero h.2⟩

/-- A **sum** is defined when the summands are and do not have opposite infinities. -/
theorem isDefined_add (z w : Complex Binary64) :
    (z + w).isDefined = (z.isDefined && w.isDefined && !z.opposes w) := by
  rw [isDefined, add_re, add_im, Binary64.isNaN_add, Binary64.isNaN_add, isDefined, isDefined,
    opposes]
  simp only [Bool.not_or]
  ac_rfl

theorem isFinite_of_add {z w : Complex Binary64} (h : (z + w).isFinite = true) :
    z.isFinite = true ∧ w.isFinite = true := by
  obtain ⟨hRe, hIm⟩ := isFinite_iff.mp h
  obtain ⟨hzRe, hwRe⟩ := Binary64.isFinite_of_add hRe
  obtain ⟨hzIm, hwIm⟩ := Binary64.isFinite_of_add hIm
  exact ⟨isFinite_iff.mpr ⟨hzRe, hzIm⟩, isFinite_iff.mpr ⟨hwRe, hwIm⟩⟩

/-! ### The sum of the squares -/

theorem isNonnegative_mul_self {x : Binary64} (h : x.isNaN = false) :
    IsNonnegative (x * x).unpacked := by
  rw [Binary64.isNaN_eq] at h
  rw [Binary64.unpacked_mul]
  exact (isNonnegative_square x.isRounded_unpacked h).overflowed

theorem unpacked_mul_self_of_isInfinite {x : Binary64} (h : x.isInfinite = true) :
    (x * x).unpacked = .infinity .positive := by
  rw [Binary64.isInfinite_eq] at h
  rw [Binary64.unpacked_mul]
  generalize x.unpacked = number at *
  cases number with
  | infinity sign => cases sign <;> rfl
  | _ => cases h

theorem isNonnegative_normSq {z : Complex Binary64} (h : z.isDefined = true) :
    IsNonnegative z.normSq.unpacked := by
  obtain ⟨hRe, hIm⟩ := isDefined_iff.mp h
  rw [normSq, Binary64.unpacked_add]
  exact ((isNonnegative_mul_self hRe).add (isNonnegative_mul_self hIm)).overflowed

theorem isNaN_normSq (z : Complex Binary64) : z.normSq.isNaN = !z.isDefined := by
  cases hDefined : z.isDefined
  · rw [normSq, Binary64.isNaN_add, Binary64.isNaN_mul, Binary64.isNaN_mul]
    rw [isDefined, Bool.and_eq_false_iff, Bool.not_eq_false', Bool.not_eq_false'] at hDefined
    rcases hDefined with hNaN | hNaN <;> rw [hNaN] <;> simp
  · rw [Binary64.isNaN_eq, (isNonnegative_normSq hDefined).isNaN_eq_false]
    rfl

theorem isInfinite_normSq {z : Complex Binary64} (h : z.isDefined = true)
    (hOpen : z.hasInfinitePart = true) : z.normSq.isInfinite = true := by
  obtain ⟨hRe, hIm⟩ := isDefined_iff.mp h
  rw [Binary64.isInfinite_eq, normSq, Binary64.unpacked_add]
  rcases Bool.or_eq_true_iff.mp hOpen with hInfinite | hInfinite
  · rw [unpacked_mul_self_of_isInfinite hInfinite, (isNonnegative_mul_self hIm).infinity_add]
    rfl
  · rw [unpacked_mul_self_of_isInfinite hInfinite, (isNonnegative_mul_self hRe).add_infinity]
    rfl

theorem normSq_atLeast_least {z : Complex Binary64} (h : z.isDefined = true)
    (hNorm : (z.normSq == 0) = false) : AtLeast (-1074) z.normSq.unpacked := by
  refine (isNonnegative_normSq h).eq_zero_or_atLeast.resolve_left fun hZero => ?_
  rw [Binary64.beq_zero_eq, hZero] at hNorm
  cases hNorm

theorem normSq_atLeast {z : Complex Binary64} (h : z.isDefined = true) {order : Int}
    (hSquare : AtLeast order (z.re * z.re).unpacked ∨ AtLeast order (z.im * z.im).unpacked) :
    AtLeast order z.normSq.unpacked := by
  obtain ⟨hRe, hIm⟩ := isDefined_iff.mp h
  rw [normSq, Binary64.unpacked_add]
  exact ((isNonnegative_mul_self hRe).add_atLeast (isNonnegative_mul_self hIm) hSquare).overflowed

/-- The square of a number with a magnitude of `2 ^ (-537)` or more is at least the least positive
number. -/
theorem mul_self_atLeast_least {x : Binary64} (h : x.isFinite = true)
    (hMagnitude : 0x1e60000000000000 ≤ x.magnitude) : AtLeast (-1074) (x * x).unpacked := by
  have hReads := x.reads_unpacked
  have hRounded := x.isRounded_unpacked
  rw [Binary64.isFinite_eq] at h
  rw [Binary64.unpacked_mul]
  generalize x.unpacked = number at *
  cases hReads with
  | notANumber | infinity => cases h
  | zero _ hZero => omega
  | finite sign mantissa exponent hPos _ _ _ hOrder =>
      have hOrder := hOrder (by omega)
      exact (square_atLeast sign hPos hRounded (by omega)).overflowed.mono (by omega)

/-- **Where squares do not vanish**: it is enough that one part is not below `2 ^ (-537)`. -/
theorem squaresVanish_eq_false {z : Complex Binary64}
    (h : 0x1e60000000000000 ≤ z.re.magnitude ∨ 0x1e60000000000000 ≤ z.im.magnitude) :
    z.squaresVanish = false := by
  refine Bool.and_eq_false_iff.mpr (.inr (Bool.eq_false_iff.mpr fun hNorm => ?_))
  have hFinite := Binary64.isFinite_of_beq_zero hNorm
  rw [Binary64.isFinite_eq_not, isNaN_normSq, Bool.not_not, Bool.and_eq_true,
    Bool.not_eq_true'] at hFinite
  obtain ⟨hDefined, hBounded⟩ := hFinite
  have hOpen : z.hasInfinitePart = false :=
    Bool.eq_false_iff.mpr fun hOpen => by simp [isInfinite_normSq hDefined hOpen] at hBounded
  obtain ⟨hRe, hIm⟩ : z.re.isFinite = true ∧ z.im.isFinite = true := by
    rw [← isFinite_iff, isFinite_eq, hDefined, hOpen]
    rfl
  have hLeast : AtLeast (-1074) z.normSq.unpacked :=
    normSq_atLeast hDefined (h.imp (mul_self_atLeast_least hRe) (mul_self_atLeast_least hIm))
  rw [Binary64.beq_zero_eq] at hNorm
  generalize z.normSq.unpacked = number at *
  cases number with
  | zero => exact hLeast.elim
  | _ => cases hNorm

/-! ### Reciprocals -/

/-- A finite number is not much larger than its square, unless it is so small that it is not much
larger than the least positive number. -/
theorem exists_order_of_isFinite {x : Binary64} (h : x.isFinite = true) :
    ∃ order : Int, AtMost order x.unpacked ∧
      (order - 537 ≤ -1074 ∨ AtLeast (order - 537) (x * x).unpacked) := by
  have hRounded := x.isRounded_unpacked
  rw [Binary64.isFinite_eq] at h
  rw [Binary64.unpacked_mul]
  generalize x.unpacked = number at *
  rcases number with _ | _ | _ | ⟨sign, mantissa, exponent, hPos⟩
  case infinity | notANumber => cases h
  case zero => exact ⟨-537, trivial, .inl (by decide)⟩
  case finite =>
    refine ⟨mantissa.log2 + exponent, Int.le_refl _, ?_⟩
    by_cases hOrder : -1074 ≤ 2 * (mantissa.log2 + exponent)
    · exact .inr ((square_atLeast sign hPos hRounded hOrder).overflowed.mono (by omega))
    · exact .inl (by omega)

/-- The **parts of a reciprocal** are bounded where the squares do not vanish. -/
theorem inv_atMost {z : Complex Binary64} (h : z.isFinite = true)
    (hNorm : (z.normSq == 0) = false) :
    AtMost 538 z.inv.re.unpacked ∧ AtMost 538 z.inv.im.unpacked := by
  have hDefined := isDefined_of_isFinite h
  obtain ⟨hRe, hIm⟩ := isFinite_iff.mp h
  have hLeast := normSq_atLeast_least hDefined hNorm
  have hQuotient {number : UnpackedFloat} {order : Int} (hNumber : AtMost order number)
      (hOrder : AtLeast (order - 537) z.normSq.unpacked) :
      AtMost 538 (overflowed (UnpackedFloat.div Format.binary64 number z.normSq.unpacked)) := by
    have hDiv := div_atMost hNumber hOrder (by decide)
    rwa [hDiv.overflowed_eq (by decide)]
  constructor
  · rw [inv, Binary64.unpacked_div]
    obtain ⟨order, hOrder, hSmall | hSquare⟩ := exists_order_of_isFinite hRe
    · exact hQuotient hOrder (hLeast.mono hSmall)
    · exact hQuotient hOrder (normSq_atLeast hDefined (.inl hSquare))
  · rw [inv, Binary64.unpacked_div, Binary64.unpacked_neg]
    obtain ⟨order, hOrder, hSmall | hSquare⟩ := exists_order_of_isFinite hIm
    · exact hQuotient hOrder.neg (hLeast.mono hSmall)
    · exact hQuotient hOrder.neg (normSq_atLeast hDefined (.inr hSquare))

/-- The reciprocal of a finite number divides zero by zero where the squares vanish and a part is
zero. -/
theorem isDefined_inv {z : Complex Binary64} (h : z.isFinite = true) :
    z.inv.isDefined = !(z.normSq == 0 && z.onAxis) := by
  have hNorm : z.normSq.isNaN = false := by
    rw [isNaN_normSq, isDefined_of_isFinite h]
    rfl
  rw [isFinite_iff, Binary64.isFinite_eq_not, Binary64.isFinite_eq_not] at h
  simp only [Bool.and_eq_true, Bool.not_eq_true'] at h
  obtain ⟨⟨hRe, hReInfinite⟩, hIm, hImInfinite⟩ := h
  rw [isDefined, inv, Binary64.isNaN_div, Binary64.isNaN_div, Binary64.isNaN_neg,
    Binary64.isInfinite_neg, Binary64.neg_beq_zero, hNorm, hRe, hReInfinite, hIm, hImInfinite,
    onAxis]
  cases z.re == 0 <;> cases z.im == 0 <;> cases z.normSq == 0 <;> rfl

/-- The reciprocal of a number that is not finite is not defined: it divides by NaN, or an infinity
by an infinity. -/
theorem isDefined_inv_of_not_isFinite {z : Complex Binary64} (h : z.isFinite = false) :
    z.inv.isDefined = false := by
  rw [isDefined, inv, Binary64.isNaN_div, Binary64.isNaN_div, Binary64.isNaN_neg,
    Binary64.isInfinite_neg]
  cases hDefined : z.isDefined
  · rw [isNaN_normSq, hDefined]
    simp
  · have hOpen : z.hasInfinitePart = true := by
      rw [isFinite_eq, hDefined] at h
      simpa using h
    rw [isInfinite_normSq hDefined hOpen]
    rcases Bool.or_eq_true_iff.mp hOpen with hInfinite | hInfinite <;> rw [hInfinite] <;> simp

/-- **Where a reciprocal is finite.** -/
theorem isFinite_inv (z : Complex Binary64) :
    z.inv.isFinite = (z.isFinite && !(z.normSq == 0)) := by
  cases hFinite : z.isFinite
  · have hUndefined := isDefined_inv_of_not_isFinite hFinite
    rw [isFinite_eq, hUndefined]
    rfl
  cases hNorm : z.normSq == 0
  · obtain ⟨hRe, hIm⟩ := inv_atMost hFinite hNorm
    rw [isFinite, Binary64.isFinite_eq, Binary64.isFinite_eq, hRe.isFinite, hIm.isFinite]
    rfl
  · rw [isFinite, inv, Binary64.isFinite_div_of_zero z.re hNorm]
    rfl

/-! ### Admittances -/

theorem isFinite_add_of_atMost {x y : Binary64} (hx : AtMost 538 x.unpacked)
    (hy : AtMost 538 y.unpacked) : (x + y).isFinite = true := by
  have hSum : AtMost 540 _ := add_atMost hx hy (by decide)
  rw [Binary64.isFinite_eq, Binary64.unpacked_add, hSum.overflowed_eq (by decide)]
  exact hSum.isFinite

/-- The **sum of two reciprocals** does not overflow. -/
theorem isFinite_inv_add_inv (z w : Complex Binary64) :
    (z.inv + w.inv).isFinite = (z.inv.isFinite && w.inv.isFinite) := by
  rw [Bool.eq_iff_iff, Bool.and_eq_true]
  refine ⟨isFinite_of_add, fun h => ?_⟩
  rw [isFinite_inv, isFinite_inv, Bool.and_eq_true, Bool.and_eq_true, Bool.not_eq_true',
    Bool.not_eq_true'] at h
  obtain ⟨⟨hz, hzNorm⟩, hw, hwNorm⟩ := h
  obtain ⟨hzRe, hzIm⟩ := inv_atMost hz hzNorm
  obtain ⟨hwRe, hwIm⟩ := inv_atMost hw hwNorm
  exact isFinite_iff.mpr ⟨isFinite_add_of_atMost hzRe hwRe, isFinite_add_of_atMost hzIm hwIm⟩

/-- The reciprocal of an impedance that is neither shorted nor open. -/
theorem isFinite_inv_of_not_limit {z : Complex Binary64} (hShort : z.isZero = false)
    (hOpen : z.hasInfinitePart = false) :
    z.inv.isFinite = (z.isDefined && !z.squaresVanish) := by
  rw [isFinite_inv, isFinite_eq, hOpen, squaresVanish, hShort, Bool.not_false, Bool.and_true,
    Bool.true_and]

/-- The impedance **with a given admittance**: open where the admittance is zero. -/
def ofAdmittance (admittance : Complex Binary64) : Complex Binary64 :=
  if admittance.isZero then Immittance.openCircuit else admittance.inv

/-- The impedance with an admittance is defined when the admittance is finite and does not vanish on
an axis. -/
theorem isDefined_ofAdmittance (admittance : Complex Binary64) :
    admittance.ofAdmittance.isDefined =
      (admittance.isFinite && !(admittance.squaresVanish && admittance.onAxis)) := by
  rw [ofAdmittance, squaresVanish]
  cases hZero : admittance.isZero
  · cases hFinite : admittance.isFinite
    · exact isDefined_inv_of_not_isFinite hFinite
    · exact isDefined_inv hFinite
  · rw [isFinite_of_isZero hZero]
    rfl

end EquivalentCircuit.Complex
