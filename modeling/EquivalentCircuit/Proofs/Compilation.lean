import EquivalentCircuit.Proofs.Meaning
import Mathlib.Data.List.Forall2

/-!
# Steps and Items

The program of a circuit is made once, and an item whose literal has no place would be left out
of it without notice. None is left out: in every state of a circuit the steps stand for the
items one by one, and each operand is found at a place of the components that lists its literal
(`Reached.forall₂_standsFor`). That the places stay right while values change is why running
the program does what interpreting the items by name does.

## Main results

* `Reached.forall₂_standsFor`: the steps of a circuit stand for its items.
* `Reached.program_agrees_with_items`: steps, places and evaluation of a circuit in any state.
-/

universe u

namespace EquivalentCircuit.Circuit

variable {α : Type u}

/-- A step **stands for** an item when it makes the same connection, or finds the operand: it has
the kind of the operand, and its place among the components lists the literal of the operand. -/
def StandsFor (circuit : Circuit α) : Step (Fin circuit.literals.length) → Item → Prop
  | .operand place kind, .operand operand =>
    kind = operand.kind ∧
      ∃ value, circuit.components[place.val]? = some (operand.literal, value)
  | .combine connection, .operator op => connection = op.connection
  | .operand _ _, .operator _ | .combine _, .operand _ => False

/-- An item whose literal is known has a step that stands for it. -/
theorem exists_ofItem?_eq_some {circuit : Circuit α} {item : Item}
    (hItem : ∀ operand, item.operand? = some operand → operand.literal ∈ circuit.literals) :
    ∃ step, Step.ofItem? circuit.literals item = some step ∧ circuit.StandsFor step item := by
  cases item with
  | operand operand =>
      obtain ⟨place, hPlace, hGet⟩ := exists_finIdxOf?_eq_some (hItem operand rfl)
      refine ⟨.operand place operand.kind, ?_, rfl, circuit.values.get place, ?_⟩
      · rw [Step.ofItem?, hPlace, Option.map_some]
      · rw [getElem?_components, hGet]
  | operator op => exact ⟨.combine op.connection, rfl, rfl⟩

/-- **No item is left out**: the steps of items whose literals are known stand for the items, one by
one and in their order. -/
theorem forall₂_filterMap_ofItem? {circuit : Circuit α} {items : Postfix}
    (hItems : ∀ operand ∈ items.operands, operand.literal ∈ circuit.literals) :
    List.Forall₂ circuit.StandsFor (items.filterMap (Step.ofItem? circuit.literals)) items := by
  induction items with
  | nil => exact List.Forall₂.nil
  | cons item rest ih =>
      have hRest : ∀ operand ∈ Postfix.operands rest, operand.literal ∈ circuit.literals := by
        intro operand hMem
        refine hItems operand ?_
        obtain ⟨other, hOther, hOperand⟩ := List.mem_filterMap.mp hMem
        exact List.mem_filterMap.mpr ⟨other, List.mem_cons_of_mem _ hOther, hOperand⟩
      have hItem : ∀ operand, item.operand? = some operand →
          operand.literal ∈ circuit.literals := by
        intro operand hOperand
        exact hItems operand (List.mem_filterMap.mpr ⟨item, List.mem_cons_self, hOperand⟩)
      obtain ⟨step, hStep, hStands⟩ := exists_ofItem?_eq_some hItem
      rw [List.filterMap_cons_some hStep]
      exact List.Forall₂.cons hStands (ih hRest)

section Reached

variable [One α] {precedence : Precedence} {source : String} {circuit : Circuit α}

/-- The **steps** of a reached circuit stand for its items. -/
theorem Reached.forall₂_standsFor (h : Reached precedence source circuit) :
    List.Forall₂ circuit.StandsFor circuit.steps circuit.items := by
  rw [h.steps_eq]
  refine forall₂_filterMap_ofItem? fun operand hMem => ?_
  exact h.mem_literals_iff.mpr (List.mem_map_of_mem hMem)

end Reached

variable {ζ : Type u} [Immittance ζ α] [Zero α] [One α] [Add α] [Sub α] [Neg α] [Mul α] [Div α]
  [BEq α] [Elementary α] [LT α] [DecidableLT α] {precedence : Precedence} {source : String}

/-- **The program agrees with the items.** In every state of a circuit there are as many steps as
items, each step stands for the item at its place, and with any exponents and at any frequency
the circuit evaluates to what interpreting its items by name gives, errors included. -/
theorem Reached.program_agrees_with_items {circuit : Circuit α}
    (h : Reached precedence source circuit) :
    circuit.steps.length = circuit.items.length ∧
      List.Forall₂ circuit.StandsFor circuit.steps circuit.items ∧
      ∀ (exponents : Exponents α) (frequency : α),
        circuit.evaluateWith (ζ := ζ) exponents frequency =
          circuit.interpretWith exponents frequency := by
  have hSteps : List.Forall₂ circuit.StandsFor circuit.steps circuit.items := h.forall₂_standsFor
  refine ⟨hSteps.length_eq, hSteps, ?_⟩
  intro exponents frequency
  exact h.evaluateWith_eq_interpretWith exponents frequency

/-- The circuit of `R R -`, in which the second resistor has become infinite. -/
theorem Reached.program_of_two_resistors :
    ∃ circuit : Circuit Binary64, Reached .uniform "R R -" circuit ∧
      circuit.components = [("R1", 1), ("R2", Binary64.infinity)] ∧
      List.Forall₂ circuit.StandsFor circuit.steps circuit.items ∧
      circuit.evaluateWith (ζ := Complex Binary64) [("R2", 0)] 1 =
        circuit.interpretWith [("R2", 0)] 1 := by
  have hBuilt : Reached .uniform "R R -" (ofPostfix (α := Binary64) "R R -"
      [.operand (.ofComponent "R1" ⟨"R", 0⟩), .operand (.ofComponent "R2" ⟨"R", 2⟩),
        .operator ⟨.series, ⟨"-", 4⟩⟩]) := .built rfl
  have hReached := hBuilt.setAll [("R2", Binary64.infinity)]
  obtain ⟨-, hSteps, hEvaluate⟩ := hReached.program_agrees_with_items (ζ := Complex Binary64)
  exact ⟨_, hReached, by decide, hSteps, hEvaluate _ _⟩

end EquivalentCircuit.Circuit
