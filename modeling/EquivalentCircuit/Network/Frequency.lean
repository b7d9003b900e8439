import EquivalentCircuit.Arithmetic.Elementary

/-!
# Frequencies

A frequency is given in hertz; the laws of the elements take the angular frequency in radians
per second. A circuit answers at every finite frequency that is not negative, zero included.
-/

universe u

namespace EquivalentCircuit.Frequency

variable {α : Type u} [Elementary α]

/-- The **angular frequency** of a frequency in hertz. -/
def angular [Mul α] (hertz : α) : α :=
  Elementary.tau * hertz

/-- The frequency in hertz of an angular frequency. -/
def linear [Div α] (omega : α) : α :=
  omega / Elementary.tau

/-- Whether a frequency is **admissible**: finite and not negative. -/
def admissible [Zero α] [LT α] [DecidableLT α] (hertz : α) : Bool :=
  Elementary.isFinite hertz && !decide (hertz < 0)

end EquivalentCircuit.Frequency
