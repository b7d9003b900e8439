import EquivalentCircuit.Arithmetic.Elementary

/-!
# Double-Precision Numbers

A number in the IEEE 754 format **binary64** is a pattern of 64 bits. Arithmetic on patterns is
that of `Float`; what `Float` leaves out is that there is more than one NaN. A NaN is *quiet* or
*signaling*. Arithmetic makes any NaN quiet, and a number that is only stored or negated keeps
its pattern.

Two functions tell the kinds of NaN apart. The absolute value of a complex number with an
infinite part is infinite whatever the other part is, and the power with exponent zero, or with
base one, is one whatever the other operand is: in both cases a quiet NaN counts as a number
that happens to be unknown, and a signaling NaN makes the result NaN.

The elementary functions are computed in double precision. At the special operands (NaN, the
infinities, zero and the negative numbers) the standard fixes the value of the exponential and
of the logarithm, and these values are spelled out.
-/

namespace EquivalentCircuit

/-- A **double-precision number**, as its bit pattern. -/
structure Binary64 where
  bits : UInt64
  deriving DecidableEq

namespace Binary64

/-- The floating-point number with this pattern, in which all NaNs are one. -/
def toFloat (x : Binary64) : Float := Float.ofBits x.bits

/-- The pattern of a floating-point number. A NaN becomes quiet. -/
def ofFloat (x : Float) : Binary64 := ⟨x.toBits⟩

/-! ### Special numbers -/

instance : Zero Binary64 := ⟨⟨0⟩⟩

instance : One Binary64 := ⟨⟨0x3ff0000000000000⟩⟩

instance : NatCast Binary64 := ⟨fun n => ofFloat (Float.ofNat n)⟩

/-- The positive **infinity**. -/
def infinity : Binary64 := ⟨0x7ff0000000000000⟩

/-- The quiet **NaN**. -/
def nan : Binary64 := ⟨0x7ff8000000000000⟩

/-- Whether the sign bit is set. -/
def isNegative (x : Binary64) : Bool :=
  decide (0x8000000000000000 ≤ x.bits.toNat)

/-- The pattern without the sign bit, as a natural number. -/
def magnitude (x : Binary64) : Nat :=
  x.bits.toNat % 0x8000000000000000

/-- Whether a pattern is a NaN of either kind. -/
def isNaN (x : Binary64) : Bool :=
  decide (0x7ff0000000000000 < x.magnitude)

/-- Whether a pattern is a **signaling NaN**: the first bit behind the exponent is not set. -/
def isSignaling (x : Binary64) : Bool :=
  x.isNaN && decide (x.magnitude < 0x7ff8000000000000)

/-- Whether a number is one of the two infinities. -/
def isInfinite (x : Binary64) : Bool :=
  decide (x.magnitude = 0x7ff0000000000000)

/-- Whether a number is neither infinite nor NaN. -/
def isFinite (x : Binary64) : Bool :=
  decide (x.magnitude < 0x7ff0000000000000)

/-! ### Arithmetic -/

instance : Add Binary64 := ⟨fun x y => ofFloat (x.toFloat + y.toFloat)⟩

instance : Sub Binary64 := ⟨fun x y => ofFloat (x.toFloat - y.toFloat)⟩

instance : Mul Binary64 := ⟨fun x y => ofFloat (x.toFloat * y.toFloat)⟩

instance : Div Binary64 := ⟨fun x y => ofFloat (x.toFloat / y.toFloat)⟩

/-- Negation changes the sign bit and nothing else. -/
instance : Neg Binary64 := ⟨fun x => ⟨x.bits ^^^ 0x8000000000000000⟩⟩

/-- Numbers are **compared** by value: the two zeros are equal, and a NaN differs from itself. -/
instance : BEq Binary64 := ⟨fun x y => x.toFloat == y.toFloat⟩

instance : LT Binary64 := ⟨fun x y => x.toFloat < y.toFloat⟩

instance : LE Binary64 := ⟨fun x y => x.toFloat ≤ y.toFloat⟩

instance decidableLT (x y : Binary64) : Decidable (x < y) :=
  Float.decLt x.toFloat y.toFloat

instance decidableLE (x y : Binary64) : Decidable (x ≤ y) :=
  Float.decLe x.toFloat y.toFloat

/-! ### Elementary functions -/

/-- The **exponential**: it is undefined at NaN, keeps the positive infinity, and is zero at the
negative infinity. -/
def exp (x : Binary64) : Binary64 :=
  if x.isNaN then nan
  else if x.isInfinite then if x.isNegative then 0 else x
  else ofFloat x.toFloat.exp

/-- The **natural logarithm**: it is undefined at NaN and below zero, is the negative infinity at
either zero, and keeps the positive infinity. -/
def log (x : Binary64) : Binary64 :=
  if x.isNaN then nan
  else if x == 0 then -infinity
  else if x.isNegative then nan
  else if x.isInfinite then x
  else ofFloat x.toFloat.log

/-- The **power**. A signaling NaN makes it undefined also where a quiet one would not matter. -/
def pow (base exponent : Binary64) : Binary64 :=
  if base.isSignaling || exponent.isSignaling then nan
  else ofFloat (base.toFloat.pow exponent.toFloat)

/-- The **length of the hypotenuse** over two sides. The shorter side is measured against the longer
one, so that no square overflows or vanishes. An infinite side outweighs the other one, unless
that is a signaling NaN. How precise the result is remains unspecified: libraries differ in the
last places, and nothing may depend on them. -/
def hypot (x y : Binary64) : Binary64 :=
  if x.isSignaling || y.isSignaling then nan
  else if x.isInfinite || y.isInfinite then infinity
  else
    let a := x.toFloat.abs
    let b := y.toFloat.abs
    let longer := if a < b then b else a
    let shorter := if a < b then a else b
    if longer == 0.0 then ofFloat (longer + shorter)
    else
      let ratio := shorter / longer
      ofFloat (longer * (1.0 + ratio * ratio).sqrt)

/-- The **angle** in radians at which the point with the given coordinates lies. -/
def angle (x y : Binary64) : Binary64 :=
  ofFloat (Float.atan2 y.toFloat x.toFloat)

/-- The number of degrees in a radian. -/
def degreesPerRadian : Binary64 := ofFloat (180.0 / 3.141592653589793)

instance : Elementary Binary64 where
  tau := ofFloat 6.283185307179586
  quarterTurn := ofFloat 1.5707963267948966
  sqrt x := ofFloat x.toFloat.sqrt
  exp := exp
  log := log
  sin x := ofFloat x.toFloat.sin
  cos x := ofFloat x.toFloat.cos
  pow := pow
  isFinite := isFinite

end Binary64

end EquivalentCircuit
