import EquivalentCircuit.Circuit.Basic
import EquivalentCircuit.Circuit.Exponents
import EquivalentCircuit.Network.Frequency

/-!
# Evaluation of Circuits

The impedance of a circuit at a frequency is found by running its program on a stack of
impedances: an operand puts the impedance of its element on the stack, an operator replaces the
two impedances on top by that of their connection, and in the end one impedance is left.

Exponents for components that the circuit does not have are refused first, then frequencies
that are not admissible, and then the first step that cannot be taken is reported.
-/

universe u

namespace EquivalentCircuit.Circuit

variable {ζ α : Type u} [Immittance ζ α] [Zero α] [One α] [Add α] [Sub α] [Neg α] [Mul α]
  [Div α] [BEq α] [Elementary α]

/-- The **element** at a place of the circuit: its current value, and its exponent. -/
def element (circuit : Circuit α) (exponents : Exponents α) (kind : ElementKind)
    (place : Fin circuit.literals.length) : Element α :=
  let literal := circuit.literals.get place
  ⟨literal, kind, circuit.values.get place, exponents.lookup literal⟩

/-- **Running** steps on a stack of impedances, the last one first. -/
def run (circuit : Circuit α) (exponents : Exponents α) (omega : α) :
    List ζ → List (Step (Fin circuit.literals.length)) → Except (CircuitError α) ζ
  | [impedance], [] => .ok impedance
  | stack, [] => .error (.unbalanced stack.length)
  | stack, .operand place (some kind) :: rest =>
    run circuit exponents omega
      ((circuit.element exponents kind place).impedance omega :: stack) rest
  | _, .operand place none :: _ => .error (.unsupportedComponent (circuit.literals.get place))
  | right :: left :: stack, .combine connection :: rest =>
    run circuit exponents omega (connection.combine left right :: stack) rest
  | [], .combine connection :: _ => .error (.missingOperand connection)
  | [_], .combine connection :: _ => .error (.missingOperand connection)

variable [LT α] [DecidableLT α]

/-- The impedance at a frequency in hertz, for exponents that have been checked. -/
def impedance (circuit : Circuit α) (exponents : Exponents α) (frequency : α) :
    Except (CircuitError α) ζ :=
  if Frequency.admissible frequency then
    circuit.run exponents (Frequency.angular frequency) [] circuit.steps
  else .error (.invalidFrequency frequency)

/-- The **impedance** of a circuit with given exponents at a frequency in hertz. -/
def evaluateWith (circuit : Circuit α) (exponents : Exponents α) (frequency : α) :
    Except (CircuitError α) ζ :=
  match exponents.unknown? circuit.literals with
  | some literal => .error (.unknownComponent literal)
  | none => circuit.impedance exponents frequency

/-- The impedance of a circuit at a frequency in hertz, with all exponents one. -/
def evaluate (circuit : Circuit α) (frequency : α) : Except (CircuitError α) ζ :=
  circuit.evaluateWith [] frequency

/-- The **impedances at several frequencies**, in their order. The exponents are checked once, also
when there is no frequency; the first frequency that fails makes the whole sweep fail. -/
def sweepWith (circuit : Circuit α) (exponents : Exponents α) (frequencies : List α) :
    Except (CircuitError α) (List ζ) :=
  match exponents.unknown? circuit.literals with
  | some literal => .error (.unknownComponent literal)
  | none => frequencies.mapM (circuit.impedance exponents)

/-- The impedances at several frequencies, with all exponents one. -/
def sweep (circuit : Circuit α) (frequencies : List α) : Except (CircuitError α) (List ζ) :=
  circuit.sweepWith [] frequencies

end EquivalentCircuit.Circuit
