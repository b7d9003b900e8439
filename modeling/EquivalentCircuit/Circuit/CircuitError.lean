import EquivalentCircuit.Decimal.Positional
import EquivalentCircuit.Network.Connection
import EquivalentCircuit.Notation.SyntaxError

/-!
# Errors of a Circuit

What can go wrong when a circuit is built, given values, or evaluated. Two of the causes are
faults of the circuit itself, which show only in evaluation because the notation is not checked
for alternating operands and operators: an operator without two operands, and operands that no
operator joins.
-/

universe u

namespace EquivalentCircuit

/-- Why a circuit **refuses a request**. -/
inductive CircuitError (α : Type u) where
  /-- The source is malformed. -/
  | malformed (fault : SyntaxError)
  /-- No component of the circuit has this literal. -/
  | unknownComponent (literal : String)
  /-- The name of this component has no impedance law. -/
  | unsupportedComponent (literal : String)
  /-- The frequency is negative or not finite. -/
  | invalidFrequency (frequency : α)
  /-- An operator has fewer than two operands. -/
  | missingOperand (connection : Connection)
  /-- The sequence leaves some number of impedances other than one. -/
  | unbalanced (remaining : Nat)
  deriving DecidableEq

namespace CircuitError

variable {α : Type u}

/-- Whether the fault is in the **structure of the circuit** and not in the request. -/
def isStructural : CircuitError α → Bool
  | .missingOperand _ | .unbalanced _ => true
  | .malformed _ | .unknownComponent _ | .unsupportedComponent _ | .invalidFrequency _ => false

/-- The text that reports the error. -/
def message : CircuitError Binary64 → String
  | .malformed fault => fault.message
  | .unknownComponent literal => "component " ++ literal ++ " not found in circuit"
  | .unsupportedComponent literal => "component " ++ literal ++ " has no impedance model"
  | .invalidFrequency frequency => "invalid frequency: " ++ Decimal.textOf frequency
  | .missingOperand connection =>
    "operator '" ++ connection.symbol.toString ++ "' is missing an operand"
  | .unbalanced remaining =>
    "evaluation left " ++ toString remaining ++ " values on the stack, expected 1"

end CircuitError

end EquivalentCircuit
