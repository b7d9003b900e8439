import EquivalentCircuit.Arithmetic.Binary64

/-!
# Complex Numbers

Pairs of a real and an imaginary part over any number type. The operations are the textbook
formulas and nothing is rescaled on the way: the reciprocal and the quotient divide by the sum
of the squares of the parts. In floating-point arithmetic the order of the operations is part
of each definition, since it decides how results round.
-/

universe u

namespace EquivalentCircuit

/-- A **complex number** in rectangular form. -/
@[ext]
structure Complex (α : Type u) where
  re : α
  im : α

namespace Complex

variable {α : Type u}

instance [Zero α] : Zero (Complex α) := ⟨⟨0, 0⟩⟩

instance [Add α] : Add (Complex α) := ⟨fun z w => ⟨z.re + w.re, z.im + w.im⟩⟩

/-- The **imaginary unit**. -/
def j [Zero α] [One α] : Complex α := ⟨0, 1⟩

/-- Whether both parts are zero. -/
def isZero [Zero α] [BEq α] (z : Complex α) : Bool :=
  z.re == 0 && z.im == 0

/-- The square of the absolute value. -/
def normSq [Add α] [Mul α] (z : Complex α) : α :=
  z.re * z.re + z.im * z.im

/-- The **reciprocal**. -/
def inv [Add α] [Mul α] [Neg α] [Div α] (z : Complex α) : Complex α :=
  ⟨z.re / z.normSq, -z.im / z.normSq⟩

instance [Add α] [Sub α] [Mul α] [Div α] : Div (Complex α) :=
  ⟨fun z w =>
    ⟨(z.re * w.re + z.im * w.im) / w.normSq, (z.im * w.re - z.re * w.im) / w.normSq⟩⟩

/-- The complex number at a given distance from zero and at a given angle. -/
def polar [Mul α] [Elementary α] (radius angle : α) : Complex α :=
  ⟨radius * Elementary.cos angle, radius * Elementary.sin angle⟩

/-- The **power of an imaginary frequency**, `(j ω) ^ exponent`. It is taken in polar form, so that
a fractional exponent stays on the principal branch. -/
def jOmegaPow [Mul α] [Elementary α] (omega exponent : α) : Complex α :=
  polar (Elementary.pow omega exponent) (exponent * Elementary.quarterTurn)

/-! ### Reading off the parts -/

@[simp] theorem zero_re [Zero α] : (0 : Complex α).re = 0 := rfl

@[simp] theorem zero_im [Zero α] : (0 : Complex α).im = 0 := rfl

@[simp] theorem add_re [Add α] (z w : Complex α) : (z + w).re = z.re + w.re := rfl

@[simp] theorem add_im [Add α] (z w : Complex α) : (z + w).im = z.im + w.im := rfl

theorem div_eq [Add α] [Sub α] [Mul α] [Div α] (z w : Complex α) :
    z / w = ⟨(z.re * w.re + z.im * w.im) / w.normSq, (z.im * w.re - z.re * w.im) / w.normSq⟩ :=
  rfl

/-! ### Absolute value and phase in floating-point arithmetic -/

/-- The **absolute value**. -/
def abs (z : Complex Binary64) : Binary64 :=
  Binary64.hypot z.re z.im

/-- The **phase angle** in radians. -/
def arg (z : Complex Binary64) : Binary64 :=
  Binary64.angle z.re z.im

end Complex

end EquivalentCircuit
