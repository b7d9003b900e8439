/-!
# Elementary Functions over a Number Type

The laws of circuit elements and of frequency grids are formulas: sums, products and quotients
of numbers, and a handful of elementary functions. They are written once, for any number type
`α` that has the operations, so that one formula can be run in floating-point arithmetic and
reasoned about in exact arithmetic.

`Elementary` collects the functions and constants that are not field operations. No law is part
of the class: a statement about exact arithmetic names the laws that it needs.
-/

universe u

namespace EquivalentCircuit

/-- The **elementary functions** of a number type, with the constants that belong to angles. -/
class Elementary (α : Type u) where
  /-- A full turn in radians. -/
  tau : α
  /-- A quarter of a turn in radians. -/
  quarterTurn : α
  /-- The square root. -/
  sqrt : α → α
  /-- The exponential function. -/
  exp : α → α
  /-- The natural logarithm. -/
  log : α → α
  /-- The sine of an angle in radians. -/
  sin : α → α
  /-- The cosine of an angle in radians. -/
  cos : α → α
  /-- The power with a given base and exponent. -/
  pow : α → α → α
  /-- Whether a value is an ordinary number, neither infinite nor undefined. -/
  isFinite : α → Bool

end EquivalentCircuit
