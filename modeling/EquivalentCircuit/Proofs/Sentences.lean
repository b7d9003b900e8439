import EquivalentCircuit.Proofs.Meaning

/-!
# Circuits of Well-Formed Sources

The circuit of a source that spells a chain has the items of the tree of the chain. When all
names in it have an impedance law, evaluation gives the value of the tree
(`Reached.evaluateWith_eq_ok_value`), and a property of impedances that connections preserve passes
from the elements to the whole circuit (`Expr.value_of_forall_operands`).
-/

universe u

namespace EquivalentCircuit

/-- A source that spells a chain is parsed to the postfix order of the tree of the chain. -/
theorem Chain.SpelledBy.parse_eq {chain : Chain} {source : String} (h : chain.SpelledBy source)
    (precedence : Precedence) :
    Postfix.parse precedence source = .ok (chain.tree precedence).postorder := by
  obtain ⟨lexeme, hScan⟩ := h
  rw [Postfix.parse, hScan]
  exact Postfix.ofTokens_chain_endOfInput precedence chain lexeme []

/-- Where every operand has a kind, none is found that has not. -/
theorem Chain.find?_isNone_eq_none {chain : Chain} {kindOf : Operand → Option ElementKind}
    (h : ∀ operand ∈ chain.operands, (kindOf operand).isSome = true) :
    (chain.operands.find? fun operand => (kindOf operand).isNone) = none := by
  rw [List.find?_eq_none]
  intro operand hMem
  rw [← Option.not_isSome, h operand hMem]
  exact Bool.false_ne_true

/-- What **connections preserve** holds of a tree when it holds of its operands. -/
theorem Expr.value_of_forall_operands {ζ α : Type u} [Immittance ζ α] [Zero α] {P : ζ → Prop}
    (hCombine : ∀ connection left right, P left → P right →
      P (Connection.combine connection left right))
    {leafValue : Operand → ζ} {tree : Expr}
    (hOperands : ∀ operand ∈ tree.postorder.operands, P (leafValue operand)) :
    P (tree.value leafValue) := by
  induction tree with
  | leaf operand => exact hOperands operand (List.mem_singleton_self operand)
  | node op left right ihl ihr =>
      rw [Postfix.operands_postorder_node, List.forall_mem_append] at hOperands
      exact hCombine op.connection _ _ (ihl hOperands.1) (ihr hOperands.2)

namespace Circuit

section Values

variable {α : Type u} (circuit : Circuit α) (missing : α)

/-- The value of a literal as a function of all literals. -/
def valueOr (literal : String) : α :=
  (circuit.value? literal).getD missing

/-- A circuit holds the values that it has. -/
theorem holds_valueOr : circuit.Holds (circuit.valueOr missing) := by
  intro literal hMem
  obtain ⟨place, hPlace, -⟩ := exists_finIdxOf?_eq_some hMem
  have hValue : circuit.value? literal = some (circuit.values.get place) := by
    rw [value?, hPlace, Option.map_some]
  rw [valueOr, hValue, Option.getD_some]

variable {circuit}

/-- What holds of all values that the components list holds of the value of every literal. -/
theorem valueOr_of_forall_components {P : α → Prop}
    (h : ∀ component ∈ circuit.components, P component.2) {literal : String}
    (hMem : literal ∈ circuit.literals) : P (circuit.valueOr missing literal) := by
  obtain ⟨place, hPlace, -⟩ := exists_finIdxOf?_eq_some hMem
  rw [valueOr, value?, hPlace, Option.map_some, Option.getD_some]
  exact h _ (List.mem_of_getElem? (getElem?_components circuit place))

end Values

section Items

variable {α : Type u} [One α] {precedence : Precedence} {source : String} {circuit : Circuit α}
  {chain : Chain}

/-- The items of a circuit whose source spells a chain. -/
theorem Reached.items_eq (h : Reached precedence source circuit)
    (hSpelled : chain.SpelledBy source) :
    circuit.items = (chain.tree precedence).postorder :=
  Except.ok.inj (h.parse_eq.symm.trans (hSpelled.parse_eq precedence))

/-- The literals of a chain are literals of the circuit. -/
theorem Reached.mem_literals_of_mem_operands (h : Reached precedence source circuit)
    (hSpelled : chain.SpelledBy source) {operand : Operand} (hMem : operand ∈ chain.operands) :
    operand.literal ∈ circuit.literals := by
  rw [h.mem_literals_iff, h.items_eq hSpelled, Postfix.literals, chain.operands_postorder_tree]
  exact List.mem_map_of_mem hMem

end Items

variable {ζ α : Type u} [Immittance ζ α] [Zero α] [One α] [Add α] [Sub α] [Neg α] [Mul α]
  [Div α] [BEq α] [Elementary α] [LT α] [DecidableLT α] {precedence : Precedence}
  {source : String} {circuit : Circuit α} {chain : Chain}

/-- A circuit whose source spells a chain **evaluates to the value of the tree** of the chain, when
all names in it have an impedance law. -/
theorem Reached.evaluateWith_eq_ok_value (h : Reached precedence source circuit)
    (hSpelled : chain.SpelledBy source)
    (hKinds : ∀ operand ∈ chain.operands, operand.kind.isSome = true) {assignment : String → α}
    (hHolds : circuit.Holds assignment) {exponents : Exponents α}
    (hExponents : ∀ key ∈ exponents.map Prod.fst, key ∈ circuit.literals) {frequency : α}
    (hFrequency : Frequency.admissible frequency = true) :
    circuit.evaluateWith (ζ := ζ) exponents frequency =
      .ok ((chain.tree precedence).value
        (operandImpedance exponents (Frequency.angular frequency) assignment)) := by
  have hNone : (chain.operands.find? fun operand => operand.kind.isNone) = none :=
    Chain.find?_isNone_eq_none hKinds
  rw [h.evaluateWith_eq_value (h.items_eq hSpelled) hHolds hExponents hFrequency,
    chain.operands_postorder_tree, hNone]

/-- The same without exponents. -/
theorem Reached.evaluate_eq_ok_value (h : Reached precedence source circuit)
    (hSpelled : chain.SpelledBy source)
    (hKinds : ∀ operand ∈ chain.operands, operand.kind.isSome = true) {assignment : String → α}
    (hHolds : circuit.Holds assignment) {frequency : α}
    (hFrequency : Frequency.admissible frequency = true) :
    circuit.evaluate (ζ := ζ) frequency =
      .ok ((chain.tree precedence).value
        (operandImpedance [] (Frequency.angular frequency) assignment)) :=
  h.evaluateWith_eq_ok_value hSpelled hKinds hHolds (by simp) hFrequency

end Circuit

end EquivalentCircuit
