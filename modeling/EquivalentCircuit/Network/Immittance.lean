import EquivalentCircuit.Arithmetic.Complex

/-!
# Immittances

An **immittance** is an impedance or an admittance: a complex number, or the infinite impedance
of an open circuit. How an open circuit is represented depends on the arithmetic, so the
operations that networks need form a class, with two instances:

* over double-precision numbers an immittance is a pair of parts, and it is open when a part is
  infinite;
* over any other number type `α` an immittance is an element of `Extended α`, the complex plane
  with one infinite point.
-/

universe u

namespace EquivalentCircuit

/-- What networks do with an impedance or an admittance whose parts are numbers of type `α`. -/
class Immittance (ζ : Type u) (α : outParam (Type u)) where
  /-- The immittance with given parts. -/
  ofComplex : Complex α → ζ
  /-- The impedance of an open circuit. -/
  openCircuit : ζ
  /-- The sum of two immittances. -/
  add : ζ → ζ → ζ
  /-- The admittance of an impedance, and the impedance of an admittance. -/
  inv : ζ → ζ
  /-- Whether an immittance is exactly zero. -/
  isShort : ζ → Bool
  /-- Whether an immittance is infinite. -/
  isOpen : ζ → Bool

/-! ### Double-precision immittances -/

/-- Whether a part is infinite. -/
def Complex.hasInfinitePart (z : Complex Binary64) : Bool :=
  z.re.isInfinite || z.im.isInfinite

instance : Immittance (Complex Binary64) Binary64 where
  ofComplex := id
  openCircuit := ⟨Binary64.infinity, 0⟩
  add z w := z + w
  inv z := z.inv
  isShort z := z.isZero
  isOpen z := z.hasInfinitePart

/-! ### Exact immittances -/

/-- The **extended complex numbers**: the plane and one infinite point. -/
inductive Extended (α : Type u) where
  | finite (z : Complex α)
  | infinite

namespace Extended

variable {α : Type u}

/-- The sum; a sum with the infinite point is infinite. -/
def add [Add α] : Extended α → Extended α → Extended α
  | .finite z, .finite w => .finite (z + w)
  | .infinite, _ => .infinite
  | .finite _, .infinite => .infinite

/-- The reciprocal of a number other than zero; the reciprocal of the infinite point is zero. -/
def inv [Zero α] [Add α] [Mul α] [Neg α] [Div α] : Extended α → Extended α
  | .finite z => .finite z.inv
  | .infinite => .finite 0

/-- Whether an extended number is zero. -/
def isZero [Zero α] [BEq α] : Extended α → Bool
  | .finite z => z.isZero
  | .infinite => false

/-- Whether an extended number is the infinite point. -/
def isInfinite : Extended α → Bool
  | .finite _ => false
  | .infinite => true

instance [Zero α] [Add α] [Mul α] [Neg α] [Div α] [BEq α] : Immittance (Extended α) α where
  ofComplex := finite
  openCircuit := infinite
  add := add
  inv := inv
  isShort := isZero
  isOpen := isInfinite

end Extended

end EquivalentCircuit
