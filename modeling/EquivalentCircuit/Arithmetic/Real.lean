import EquivalentCircuit.Arithmetic.Elementary
import Mathlib.Analysis.SpecialFunctions.Pow.Real
import Mathlib.Analysis.SpecialFunctions.Trigonometric.Basic

/-!
# Real Numbers

In exact arithmetic every number is an ordinary one, and the elementary functions are those of
analysis.
-/

namespace EquivalentCircuit

noncomputable instance : Elementary ℝ where
  tau := 2 * Real.pi
  quarterTurn := Real.pi / 2
  sqrt := Real.sqrt
  exp := Real.exp
  log := Real.log
  sin := Real.sin
  cos := Real.cos
  pow := fun base exponent => base ^ exponent
  isFinite := fun _ => true

end EquivalentCircuit
