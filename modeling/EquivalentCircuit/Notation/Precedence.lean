import EquivalentCircuit.Network.Connection

/-!
# Precedence

A chain such as `R - C | L` can be read in two ways. With **uniform** precedence only
parentheses group: the first operator of a chain joins its left operand to all the rest. With
**ranked** precedence parallel connections bind tighter than series connections, and operators
of one rank group to the right.
-/

namespace EquivalentCircuit

/-- How the operators of a chain bind. -/
inductive Precedence where
  | uniform
  | ranked
  deriving DecidableEq

namespace Precedence

instance : Inhabited Precedence := ⟨.uniform⟩

/-- Whether an operator that waits for its right operand is **complete** when another operator
follows. -/
def completes (precedence : Precedence) (waiting incoming : Connection) : Bool :=
  match precedence with
  | .uniform => false
  | .ranked => decide (incoming.rank < waiting.rank)

end Precedence

end EquivalentCircuit
