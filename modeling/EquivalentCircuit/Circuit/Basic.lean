import EquivalentCircuit.Circuit.CircuitError
import EquivalentCircuit.Notation.Postfix

/-!
# Circuits

A **circuit** is built from a source. It keeps the source, the items in postfix order, the
literals of its components in the order of their first occurrence, a value for each literal,
and a program: the items once more, with each literal replaced by the position of its value.
Source, items, literals and program never change; values start at one and are changed by
literal.

## Main definitions

* `Circuit.ofSource`: the circuit of a source.
* `Circuit.set` and `Circuit.setAll`: giving values to components.
* `Circuit.components`: the literals with their values.
-/

universe u

namespace EquivalentCircuit

/-- A **step** of a program, which finds the values of components in places of type `σ`. -/
inductive Step (σ : Type) where
  | operand (place : σ) (kind : Option ElementKind)
  | combine (connection : Connection)
  deriving DecidableEq

/-- The step that an item stands for, when its literal is among the given ones. -/
def Step.ofItem? (literals : List String) : Item → Option (Step (Fin literals.length))
  | .operand component =>
    (literals.finIdxOf? component.literal).map fun place => .operand place component.kind
  | .operator op => some (.combine op.connection)

/-- A **circuit** whose components have values of type `α`. -/
structure Circuit (α : Type u) where
  source : String
  items : Postfix
  literals : List String
  values : Vector α literals.length
  steps : List (Step (Fin literals.length))

namespace Circuit

variable {α : Type u}

/-! ### Building a circuit -/

/-- The circuit of a sequence in postfix order, with the source that the sequence was read from. -/
def ofPostfix [One α] (source : String) (items : Postfix) : Circuit α :=
  let literals := items.literals.eraseDups
  { source := source
    items := items
    literals := literals
    values := Vector.replicate literals.length unitValue
    steps := items.filterMap (Step.ofItem? literals) }

/-- The **circuit of a source**. -/
def ofSource [One α] (precedence : Precedence) (source : String) :
    Except (CircuitError α) (Circuit α) :=
  match Postfix.parse precedence source with
  | .ok items => .ok (ofPostfix source items)
  | .error fault => .error (.malformed fault)

/-! ### Reading values -/

/-- The **components**: each literal with its value. -/
def components (circuit : Circuit α) : List (String × α) :=
  circuit.literals.zip circuit.values.toList

/-- The value of a component. -/
def value? (circuit : Circuit α) (literal : String) : Option α :=
  (circuit.literals.finIdxOf? literal).map circuit.values.get

/-- Whether a literal belongs to the circuit. -/
def contains (circuit : Circuit α) (literal : String) : Bool :=
  circuit.literals.contains literal

/-! ### Giving values -/

/-- The circuit with **another value** for one component. -/
def set (circuit : Circuit α) (literal : String) (value : α) :
    Except (CircuitError α) (Circuit α) :=
  match circuit.literals.finIdxOf? literal with
  | some place => .ok { circuit with values := circuit.values.set place value }
  | none => .error (.unknownComponent literal)

/-- Giving **several values** in order. An unknown literal ends the list: the values before it stay
given, it is reported, and those after it are not looked at. -/
def setAll (circuit : Circuit α) :
    List (String × α) → Circuit α × Except (CircuitError α) Unit
  | [] => (circuit, .ok ())
  | (literal, value) :: rest =>
    match circuit.set literal value with
    | .ok changed => changed.setAll rest
    | .error error => (circuit, .error error)

/-! ### Comparing circuits -/

/-- The steps with plain numbers for places, which can be compared across circuits. -/
def program (circuit : Circuit α) : List (Step Nat) :=
  circuit.steps.map fun
    | .operand place kind => .operand place.val kind
    | .combine connection => .combine connection

/-- Two circuits are **equal** when all that they keep is equal. Values are compared as numbers, so
that in floating-point arithmetic an undefined value differs from itself. -/
instance [BEq α] : BEq (Circuit α) :=
  ⟨fun left right =>
    left.source == right.source && left.items == right.items &&
      left.literals == right.literals && left.values.toList == right.values.toList &&
      left.program == right.program⟩

end Circuit

end EquivalentCircuit
