import EquivalentCircuit.Arithmetic.Real
import EquivalentCircuit.Proofs.Reciprocal
import EquivalentCircuit.Proofs.Sentences

/-!
# Rearranging a Circuit

The two operands of a connection may be swapped, and neighbouring connections of one kind may be
regrouped. In exact arithmetic neither changes the impedance, also where branches are shorted or
open, and where admittances cancel in one grouping and not in another: a parallel connection is
a sum seen through reciprocals (`Extended.combine_parallel`).

Two sources that are rearranged differ in the literals and the places of their components. What
they have in common is the **network**: which parts are connected how, where a part is the kind of
an element with its value and its exponent.

## Main results

* `Network.Rearranged.value_eq`: rearranged networks have the same impedance.
* `Circuit.evaluateWith_eq_of_rearranged`: so do the circuits of rearranged sources.
-/

universe u v

namespace EquivalentCircuit

/-! ### Networks -/

/-- A **network** of parts. -/
inductive Network (π : Type v) where
  | part (description : π)
  | joined (connection : Connection) (left right : Network π)

namespace Network

variable {π : Type v}

/-- Networks are **rearranged** into each other by swapping and regrouping the operands of
connections, anywhere in them and any number of times. -/
inductive Rearranged : Network π → Network π → Prop
  | swapped (connection : Connection) (left right : Network π) :
      Rearranged (.joined connection left right) (.joined connection right left)
  | regrouped (connection : Connection) (first second third : Network π) :
      Rearranged (.joined connection (.joined connection first second) third)
        (.joined connection first (.joined connection second third))
  | joined (connection : Connection) {left right left' right' : Network π}
      (hLeft : Rearranged left left') (hRight : Rearranged right right') :
      Rearranged (.joined connection left right) (.joined connection left' right')
  | refl (network : Network π) : Rearranged network network
  | symm {network other : Network π} (h : Rearranged network other) : Rearranged other network
  | trans {network between other : Network π} (h : Rearranged network between)
      (h' : Rearranged between other) : Rearranged network other

/-- The **impedance** of a network whose parts have impedances. -/
def value {ζ α : Type u} [Immittance ζ α] [Zero α] (partValue : π → ζ) : Network π → ζ
  | .part description => partValue description
  | .joined connection left right =>
    connection.combine (left.value partValue) (right.value partValue)

/-- **Rearranged networks** have the same impedance. -/
theorem Rearranged.value_eq {K : Type u} [Field K] [LinearOrder K] [IsStrictOrderedRing K]
    {network other : Network π} (h : network.Rearranged other) (partValue : π → Extended K) :
    network.value partValue = other.value partValue := by
  induction h with
  | swapped connection left right => exact Extended.combine_comm connection _ _
  | regrouped connection first second third => exact Extended.combine_assoc connection _ _ _
  | joined connection _ _ ihLeft ihRight => rw [value, value, ihLeft, ihRight]
  | refl network => rfl
  | symm _ ih => exact ih.symm
  | trans _ _ ih ih' => exact ih.trans ih'

end Network

/-- The **network of a tree**, when its operands describe parts. -/
def Expr.network {π : Type v} (describe : Operand → π) : Expr → Network π
  | .leaf component => .part (describe component)
  | .node op left right =>
    .joined op.connection (left.network describe) (right.network describe)

/-- The value of a tree is the impedance of its network. -/
theorem Expr.value_network {ζ α : Type u} {π : Type v} [Immittance ζ α] [Zero α]
    (describe : Operand → π) (partValue : π → ζ) (tree : Expr) :
    (tree.network describe).value partValue =
      tree.value fun operand => partValue (describe operand) := by
  induction tree with
  | leaf operand => rfl
  | node op left right ihl ihr => rw [network, Network.value, value, ihl, ihr]

/-! ### Parts -/

/-- A **part** of a circuit: an element without its literal. -/
structure Part (α : Type u) where
  kind : Option ElementKind
  value : α
  exponent : α

section Parts

variable {ζ α : Type u} [Immittance ζ α] [Zero α] [One α] [Add α] [Sub α] [Neg α] [Mul α]
  [Div α] [BEq α] [Elementary α]

/-- The part that an operand stands for: its kind, with the value and the exponent of its
literal. -/
def Operand.part (exponents : Exponents α) (assignment : String → α) (operand : Operand) :
    Part α :=
  ⟨operand.kind, assignment operand.literal, exponents.lookup operand.literal⟩

/-- The impedance of a part. -/
def Part.impedance (omega : α) (part : Part α) : ζ :=
  match part.kind with
  | some kind => kind.impedance omega part.value part.exponent
  | none => Immittance.openCircuit

end Parts

/-! ### Circuits -/

namespace Circuit

variable {K : Type u} [Field K] [LinearOrder K] [IsStrictOrderedRing K] [Elementary K]

/-- **Rearranged sources** have the same impedance at every admissible frequency. Each of the two
sources is well-formed, with names that have impedance laws, and is read with its own
precedence; their networks, in which every part carries its value and its exponent along, are
equal up to swapping and regrouping. -/
theorem evaluateWith_eq_of_rearranged {precedence precedence' : Precedence}
    {source source' : String} {chain chain' : Chain} (hSpelled : chain.SpelledBy source)
    (hSpelled' : chain'.SpelledBy source')
    (hKinds : ∀ operand ∈ chain.operands, operand.kind.isSome = true)
    (hKinds' : ∀ operand ∈ chain'.operands, operand.kind.isSome = true)
    {circuit circuit' : Circuit K} (hReached : Reached precedence source circuit)
    (hReached' : Reached precedence' source' circuit') {assignment assignment' : String → K}
    (hHolds : circuit.Holds assignment) (hHolds' : circuit'.Holds assignment')
    {exponents exponents' : Exponents K}
    (hExponents : ∀ key ∈ exponents.map Prod.fst, key ∈ circuit.literals)
    (hExponents' : ∀ key ∈ exponents'.map Prod.fst, key ∈ circuit'.literals)
    (hRearranged :
      ((chain.tree precedence).network (Operand.part exponents assignment)).Rearranged
        ((chain'.tree precedence').network (Operand.part exponents' assignment')))
    {frequency : K} (hFrequency : Frequency.admissible frequency = true) :
    ∃ impedance : Extended K, circuit.evaluateWith exponents frequency = .ok impedance ∧
      circuit'.evaluateWith exponents' frequency = .ok impedance := by
  have hValue := hRearranged.value_eq
    (Part.impedance (ζ := Extended K) (Frequency.angular frequency))
  rw [Expr.value_network, Expr.value_network] at hValue
  have hOk := hReached.evaluateWith_eq_ok_value (ζ := Extended K) hSpelled hKinds hHolds
    hExponents hFrequency
  have hOk' := hReached'.evaluateWith_eq_ok_value (ζ := Extended K) hSpelled' hKinds' hHolds'
    hExponents' hFrequency
  refine ⟨_, hOk, ?_⟩
  rw [hOk']
  exact congrArg Except.ok hValue.symm

/-- Three resistors of 1, -1 and 2 ohms in parallel, once with the first two joined and once with
the last two. The first two cancel. -/
theorem evaluateWith_of_cancelling_branches :
    ∃ circuit circuit' : Circuit ℝ, Reached .uniform "(R | R) | R" circuit ∧
      Reached .ranked "R | (R | R)" circuit' ∧
      circuit.components = [("R1", 1), ("R2", -1), ("R3", 2)] ∧
      circuit'.components = [("R1", 2), ("R2", -1), ("R3", 1)] ∧
      ∃ impedance : Extended ℝ, circuit.evaluateWith [("R3", 0)] 0 = .ok impedance ∧
        circuit'.evaluateWith [("R1", 0)] 0 = .ok impedance := by
  have hSpelled : (Chain.link (.group ⟨"(", 0⟩ (.link (.component "R1" ⟨"R", 1⟩)
      ⟨.parallel, ⟨"|", 3⟩⟩ (.last (.component "R2" ⟨"R", 5⟩))) ⟨")", 6⟩) ⟨.parallel, ⟨"|", 8⟩⟩
        (.last (.component "R3" ⟨"R", 10⟩))).SpelledBy "(R | R) | R" := ⟨⟨"", 11⟩, rfl⟩
  have hSpelled' : (Chain.link (.component "R1" ⟨"R", 0⟩) ⟨.parallel, ⟨"|", 2⟩⟩
      (.last (.group ⟨"(", 4⟩ (.link (.component "R2" ⟨"R", 5⟩) ⟨.parallel, ⟨"|", 7⟩⟩
        (.last (.component "R3" ⟨"R", 9⟩))) ⟨")", 10⟩))).SpelledBy "R | (R | R)" :=
    ⟨⟨"", 11⟩, rfl⟩
  have hBuilt : Reached .uniform "(R | R) | R" (ofPostfix (α := ℝ) "(R | R) | R" _) :=
    .built (ofSource_eq_ok_iff.mpr ⟨_, hSpelled.parse_eq .uniform, rfl⟩)
  have hBuilt' : Reached .ranked "R | (R | R)" (ofPostfix (α := ℝ) "R | (R | R)" _) :=
    .built (ofSource_eq_ok_iff.mpr ⟨_, hSpelled'.parse_eq .ranked, rfl⟩)
  have hReached := hBuilt.setAll [("R2", -1), ("R3", 2)]
  have hReached' := hBuilt'.setAll [("R1", 2), ("R2", -1)]
  have hFrequency : Frequency.admissible (0 : ℝ) = true := by
    simp [Frequency.admissible, Elementary.isFinite]
  refine ⟨_, _, hReached, hReached', rfl, rfl, ?_⟩
  refine evaluateWith_eq_of_rearranged hSpelled hSpelled' ?_ ?_ hReached hReached'
    (holds_valueOr _ 0) (holds_valueOr _ 0) ?_ ?_ ?_ hFrequency
  · decide
  · decide
  · decide
  · decide
  · exact .trans (.swapped _ _ _) (.joined _ (.refl _) (.swapped _ _ _))

end Circuit

end EquivalentCircuit
