import EquivalentCircuit.Network.Connection
import Mathlib.Algebra.Order.Field.Basic
import Mathlib.Tactic.FieldSimp
import Mathlib.Tactic.Ring

/-!
# Reciprocals of Exact Immittances

Over an ordered field the extended complex numbers have a reciprocal that is defined everywhere
and is its own inverse: the reciprocal of zero is the infinite point, and that of the infinite
point is zero. A parallel connection, with its limits for shorted, open and cancelling branches,
is the reciprocal of the sum of the reciprocals (`combine_parallel`), so that what it obeys follows
from what sums obey.

The field is ordered so that a sum of two squares vanishes only where both do.

## Main results

* `Complex.mul_inv`: a complex number times its reciprocal is one.
* `Extended.reciprocal_reciprocal`: the reciprocal is its own inverse.
* `Extended.combine_parallel`: a parallel connection in terms of reciprocals.
* `Extended.combine_comm` and `Extended.combine_assoc`: the operands of a connection may be
  swapped and regrouped.
-/

universe u

namespace EquivalentCircuit

variable {K : Type u} [Field K]

/-! ### Products -/

namespace Complex

/-- The **product** of complex numbers. No law of an element needs it; it says what a reciprocal
is. -/
instance : Mul (Complex K) := ⟨fun z w => ⟨z.re * w.re - z.im * w.im, z.re * w.im + z.im * w.re⟩⟩

instance : One (Complex K) := ⟨⟨1, 0⟩⟩

/-- The reciprocal of a **real number**. -/
theorem inv_real (r : K) : (⟨r, 0⟩ : Complex K).inv = ⟨1 / r, 0⟩ := by
  refine Complex.ext ?_ ?_
  · change r / (r * r + 0 * 0) = 1 / r
    rw [mul_zero, add_zero, div_self_mul_self', one_div]
  · change -0 / (r * r + 0 * 0) = 0
    rw [neg_zero, zero_div]

end Complex

/-! ### Sums -/

namespace Extended

@[simp] theorem infinite_add (z : Extended K) : add .infinite z = .infinite := rfl

@[simp] theorem add_infinite (z : Extended K) : add z .infinite = .infinite := by
  cases z <;> rfl

theorem finite_add_finite (z w : Complex K) : add (.finite z) (.finite w) = .finite (z + w) := rfl

protected theorem add_comm (z w : Extended K) : add z w = add w z := by
  cases z with
  | infinite => rw [infinite_add, add_infinite]
  | finite z =>
      cases w with
      | infinite => rw [infinite_add, add_infinite]
      | finite w => exact congrArg finite (Complex.ext (add_comm z.re w.re) (add_comm z.im w.im))

protected theorem add_assoc (z w v : Extended K) : add (add z w) v = add z (add w v) := by
  cases z with
  | infinite => rfl
  | finite z =>
      cases w with
      | infinite => rfl
      | finite w =>
          cases v with
          | infinite => rfl
          | finite v =>
              exact congrArg finite
                (Complex.ext (add_assoc z.re w.re v.re) (add_assoc z.im w.im v.im))

@[simp] protected theorem zero_add (z : Extended K) : add (.finite 0) z = z := by
  cases z with
  | infinite => rfl
  | finite z => exact congrArg finite (Complex.ext (zero_add z.re) (zero_add z.im))

@[simp] protected theorem add_zero (z : Extended K) : add z (.finite 0) = z := by
  rw [Extended.add_comm, Extended.zero_add]

end Extended

variable [LinearOrder K]

/-! ### The reciprocal -/

theorem Complex.isZero_iff {z : Complex K} : z.isZero = true ↔ z = 0 := by
  rw [isZero, Bool.and_eq_true, beq_iff_eq, beq_iff_eq]
  exact ⟨fun h => Complex.ext h.1 h.2, fun h => h ▸ ⟨rfl, rfl⟩⟩

namespace Extended

/-- The **reciprocal** on the whole of the extended plane. -/
def reciprocal : Extended K → Extended K
  | .finite z => if z.isZero then .infinite else .finite z.inv
  | .infinite => .finite 0

@[simp] theorem reciprocal_infinite : reciprocal (.infinite : Extended K) = .finite 0 := rfl

@[simp] theorem reciprocal_zero : reciprocal (.finite 0 : Extended K) = .infinite := by
  rw [reciprocal, if_pos (Complex.isZero_iff.mpr rfl)]

theorem reciprocal_finite {z : Complex K} (h : z ≠ 0) :
    reciprocal (.finite z) = .finite z.inv := by
  rw [reciprocal, if_neg (mt Complex.isZero_iff.mp h)]

/-- The reciprocal of a real number other than zero. -/
theorem reciprocal_real {r : K} (h : r ≠ 0) :
    reciprocal (.finite ⟨r, 0⟩) = .finite ⟨1 / r, 0⟩ := by
  rw [reciprocal_finite fun hZero => h (congrArg Complex.re hZero), Complex.inv_real]

/-- Only zero is a short circuit. -/
theorem isShort_iff {z : Extended K} : Immittance.isShort z = true ↔ z = .finite 0 := by
  cases z with
  | infinite => exact ⟨fun h => absurd h Bool.false_ne_true, fun h => absurd h (by simp)⟩
  | finite z => exact Complex.isZero_iff.trans (by rw [finite.injEq])

end Extended

variable [IsStrictOrderedRing K]

namespace Complex

/-- A complex number without length is zero. -/
theorem normSq_eq_zero_iff {z : Complex K} : z.normSq = 0 ↔ z = 0 := by
  rw [normSq, mul_self_add_mul_self_eq_zero]
  exact ⟨fun h => Complex.ext h.1 h.2, fun h => h ▸ ⟨rfl, rfl⟩⟩

theorem normSq_nonneg (z : Complex K) : 0 ≤ z.normSq :=
  add_nonneg (mul_self_nonneg _) (mul_self_nonneg _)

/-- A complex number times its **reciprocal** is one. -/
theorem mul_inv {z : Complex K} (h : z ≠ 0) : z * z.inv = 1 := by
  have hNorm : z.normSq ≠ 0 := mt normSq_eq_zero_iff.mp h
  refine Complex.ext ?_ ?_
  · calc
      z.re * (z.re / z.normSq) - z.im * (-z.im / z.normSq)
      _ = (z.re * z.re + z.im * z.im) / z.normSq := by ring
      _ = 1 := div_self hNorm
  · change z.re * (-z.im / z.normSq) + z.im * (z.re / z.normSq) = 0
    ring

/-- The squared length of a reciprocal. -/
theorem normSq_inv {z : Complex K} (h : z ≠ 0) : z.inv.normSq = 1 / z.normSq := by
  have hNorm : z.re * z.re + z.im * z.im ≠ 0 := mt normSq_eq_zero_iff.mp h
  simp only [inv, normSq]
  field_simp

theorem inv_ne_zero {z : Complex K} (h : z ≠ 0) : z.inv ≠ 0 := by
  rw [Ne, ← normSq_eq_zero_iff, normSq_inv h]
  exact one_div_ne_zero (mt normSq_eq_zero_iff.mp h)

/-- The reciprocal of a reciprocal. -/
theorem inv_inv {z : Complex K} (h : z ≠ 0) : z.inv.inv = z := by
  have hNorm : z.normSq ≠ 0 := mt normSq_eq_zero_iff.mp h
  have hInv : z.inv.normSq = 1 / z.normSq := normSq_inv h
  apply Complex.ext
  · change z.re / z.normSq / z.inv.normSq = z.re
    rw [hInv]
    field_simp
  · change -(-z.im / z.normSq) / z.inv.normSq = z.im
    rw [hInv]
    field_simp

end Complex

namespace Extended

/-- The reciprocal is **its own inverse**. -/
@[simp] theorem reciprocal_reciprocal (z : Extended K) : z.reciprocal.reciprocal = z := by
  cases z with
  | infinite => rw [reciprocal_infinite, reciprocal_zero]
  | finite z =>
      by_cases hZero : z = 0
      · rw [hZero, reciprocal_zero, reciprocal_infinite]
      · rw [reciprocal_finite hZero, reciprocal_finite (Complex.inv_ne_zero hZero),
          Complex.inv_inv hZero]

/-- The **impedance of two networks in parallel** is the reciprocal of the sum of their reciprocals,
also where a branch is a short or an open circuit and where the branches cancel. -/
theorem combine_parallel (z w : Extended K) :
    Connection.combine .parallel z w = (add z.reciprocal w.reciprocal).reciprocal := by
  rw [Connection.combine, Connection.combineParallel]
  by_cases hShort : z = .finite 0 ∨ w = .finite 0
  · rw [if_pos (by rwa [Bool.or_eq_true, isShort_iff, isShort_iff])]
    rcases hShort with rfl | rfl
    · rw [reciprocal_zero, infinite_add, reciprocal_infinite]
      rfl
    · rw [reciprocal_zero, add_infinite, reciprocal_infinite]
      rfl
  · rw [if_neg (by rwa [Bool.or_eq_true, isShort_iff, isShort_iff])]
    obtain ⟨hLeft, hRight⟩ := not_or.mp hShort
    cases z with
    | infinite =>
        rw [reciprocal_infinite, Extended.zero_add, reciprocal_reciprocal]
        rfl
    | finite z =>
        cases w with
        | infinite =>
            rw [reciprocal_infinite, Extended.add_zero, reciprocal_reciprocal]
            rfl
        | finite w =>
            rw [reciprocal_finite fun h => hLeft (congrArg finite h),
              reciprocal_finite fun h => hRight (congrArg finite h)]
            rfl

/-- Two **real impedances** in parallel, none of which is zero and which do not cancel. -/
theorem combine_parallel_real {r s : K} (hr : r ≠ 0) (hs : s ≠ 0) (hSum : 1 / r + 1 / s ≠ 0) :
    Connection.combine .parallel (.finite ⟨r, 0⟩) (.finite ⟨s, 0⟩) =
      Extended.finite ⟨1 / (1 / r + 1 / s), 0⟩ := by
  have hAdd : (⟨1 / r, 0⟩ + ⟨1 / s, 0⟩ : Complex K) = ⟨1 / r + 1 / s, 0⟩ :=
    Complex.ext rfl (add_zero 0)
  rw [combine_parallel, reciprocal_real hr, reciprocal_real hs, finite_add_finite, hAdd,
    reciprocal_real hSum]

/-- The operands of a connection may be **swapped**. -/
theorem combine_comm (connection : Connection) (z w : Extended K) :
    connection.combine z w = connection.combine w z := by
  cases connection with
  | series => exact Extended.add_comm z w
  | parallel => rw [combine_parallel, combine_parallel, Extended.add_comm]

/-- The operands of a connection may be **regrouped**. -/
theorem combine_assoc (connection : Connection) (z w v : Extended K) :
    connection.combine (connection.combine z w) v =
      connection.combine z (connection.combine w v) := by
  cases connection with
  | series => exact Extended.add_assoc z w v
  | parallel =>
      rw [combine_parallel, combine_parallel, combine_parallel, combine_parallel,
        reciprocal_reciprocal, reciprocal_reciprocal, Extended.add_assoc]

end Extended

end EquivalentCircuit
