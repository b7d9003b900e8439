import EquivalentCircuit.Circuit.CircuitError

/-!
# Errors of the Library

Whatever a caller does, what is reported is a fault in a source or an error of a circuit. The
caller can mend the first kind and most of the second: only a circuit whose structure is at
fault answers no request.
-/

universe u

namespace EquivalentCircuit

/-- An **error of the library**. -/
inductive Error (α : Type u) where
  | source (fault : SyntaxError)
  | circuit (error : CircuitError α)
  deriving DecidableEq

namespace Error

variable {α : Type u}

/-- Whether the error lies in the **input of the caller**. -/
def isInput : Error α → Bool
  | .source _ => true
  | .circuit error => !error.isStructural

/-- The text that reports the error. -/
def message : Error Binary64 → String
  | .source fault => fault.message
  | .circuit error => error.message

end Error

end EquivalentCircuit
