import EquivalentCircuit.Circuit.Evaluation

/-!
# Interpretation by Name

A circuit can also be evaluated without its program: by walking through the items themselves
and looking every literal up among the components at that moment. It is the slower way and the
plainer one, and it explains what the program is for.
-/

universe u

namespace EquivalentCircuit.Circuit

variable {ζ α : Type u} [Immittance ζ α] [Zero α] [One α] [Add α] [Sub α] [Neg α] [Mul α]
  [Div α] [BEq α] [Elementary α]

/-- **Interpreting** items on a stack of impedances, the last one first. -/
def interpret (circuit : Circuit α) (exponents : Exponents α) (omega : α) :
    List ζ → Postfix → Except (CircuitError α) ζ
  | stack, [] =>
    match stack with
    | [impedance] => .ok impedance
    | _ => .error (.unbalanced stack.length)
  | stack, .operand component :: rest =>
    match component.kind, circuit.components.lookup component.literal with
    | none, _ => .error (.unsupportedComponent component.literal)
    | some _, none => .error (.unknownComponent component.literal)
    | some kind, some value =>
      let exponent := exponents.lookup component.literal
      interpret circuit exponents omega (kind.impedance omega value exponent :: stack) rest
  | stack, .operator op :: rest =>
    match stack with
    | right :: left :: below =>
      interpret circuit exponents omega (op.connection.combine left right :: below) rest
    | _ => .error (.missingOperand op.connection)

/-- The impedance of a circuit **by interpretation** of its items. -/
def interpretWith [LT α] [DecidableLT α] (circuit : Circuit α) (exponents : Exponents α)
    (frequency : α) : Except (CircuitError α) ζ :=
  match exponents.unknown? circuit.literals with
  | some literal => .error (.unknownComponent literal)
  | none =>
    if Frequency.admissible frequency then
      circuit.interpret exponents (Frequency.angular frequency) [] circuit.items
    else .error (.invalidFrequency frequency)

end EquivalentCircuit.Circuit
