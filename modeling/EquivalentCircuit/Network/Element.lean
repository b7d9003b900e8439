import EquivalentCircuit.Network.Immittance

/-!
# Circuit Elements

The two-terminal elements that have an impedance law, each known by a letter. At an angular
frequency `ω` and with the value `x` of the element the laws are

* resistor: `x`;
* capacitor: `1 / (j ω x)`;
* inductor: `j ω x`;
* constant-phase element with exponent `a`: `x / (j ω) ^ a`;
* Warburg element: `x / √ω + x / (j √ω)`.

Where the denominator of a law vanishes the element is an open circuit.
-/

universe u

namespace EquivalentCircuit

/-- The **kinds of elements** with an impedance law. -/
inductive ElementKind where
  | resistor
  | capacitor
  | inductor
  | constantPhase
  | warburg
  deriving DecidableEq

namespace ElementKind

/-- Every kind. -/
def all : List ElementKind :=
  [.resistor, .capacitor, .inductor, .constantPhase, .warburg]

/-- The letter of a kind. -/
def letter : ElementKind → Char
  | .resistor => 'R'
  | .capacitor => 'C'
  | .inductor => 'L'
  | .constantPhase => 'Q'
  | .warburg => 'W'

/-- The kind with a given letter. -/
def ofLetter? (c : Char) : Option ElementKind :=
  all.find? fun kind => kind.letter == c

/-- The kind of a component, by the **first letter of its name**. -/
def ofName? (name : String) : Option ElementKind :=
  name.toList.head?.bind ofLetter?

theorem ofLetter?_letter (kind : ElementKind) : ofLetter? kind.letter = some kind := by
  cases kind <;> rfl

theorem letter_of_ofLetter? {c : Char} {kind : ElementKind} (h : ofLetter? c = some kind) :
    kind.letter = c := by
  simpa using List.find?_some h

section Impedance

variable {ζ α : Type u} [Immittance ζ α] [Zero α] [One α] [Add α] [Sub α] [Neg α] [Mul α]
  [Div α] [BEq α] [Elementary α]

/-- The **impedance law** of a kind. Only the constant-phase element looks at the exponent. -/
def impedance (kind : ElementKind) (omega value exponent : α) : ζ :=
  match kind with
  | .resistor => Immittance.ofComplex ⟨value, 0⟩
  | .capacitor =>
    let susceptance := omega * value
    if susceptance == 0 then Immittance.openCircuit
    else Immittance.ofComplex ⟨0, -1 / susceptance⟩
  | .inductor => Immittance.ofComplex ⟨0, omega * value⟩
  | .constantPhase =>
    let denominator := Complex.jOmegaPow omega exponent
    if denominator.isZero then Immittance.openCircuit
    else Immittance.ofComplex (⟨value, 0⟩ / denominator)
  | .warburg =>
    let root := Elementary.sqrt omega
    if root == 0 then Immittance.openCircuit
    else
      let part := value / root
      Immittance.ofComplex ⟨part, -part⟩

end Impedance

end ElementKind

/-- The value of an element that has not been given one. -/
def unitValue {α : Type u} [One α] : α := 1

/-- The exponent of a constant-phase element that has not been given one. With it the element
obeys the law of a capacitor. -/
def unitExponent {α : Type u} [One α] : α := 1

/-- An **element** of a circuit: which occurrence it is, its kind, and its parameters. -/
structure Element (α : Type u) where
  literal : String
  kind : ElementKind
  value : α
  exponent : α

/-- The impedance of an element at an angular frequency. -/
def Element.impedance {ζ α : Type u} [Immittance ζ α] [Zero α] [One α] [Add α] [Sub α] [Neg α]
    [Mul α] [Div α] [BEq α] [Elementary α] (element : Element α) (omega : α) : ζ :=
  element.kind.impedance omega element.value element.exponent

end EquivalentCircuit
