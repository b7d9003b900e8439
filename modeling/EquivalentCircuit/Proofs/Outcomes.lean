import EquivalentCircuit.Proofs.Infix

/-!
# Outcomes of Evaluation

Evaluation can fail in four ways, and what is reported is decided in a fixed order: an exponent
for a component that the circuit does not have, a frequency that is not admissible, the first
item that cannot be taken, and in the end a number of impedances other than one.

The last two are a matter of counting. An item cannot be taken when it is an operand whose name
has no impedance law, or an operator before which the operands do not outnumber the operators
by two: as many impedances are on the stack as operands were passed, less the operators that
were passed, and this is what an interpretation preserves (`map_interpret_eq`). The values of the
components are never looked at for it.

## Main results

* `Postfix.outcome`: what happens to a sequence, by counting.
* `Reached.map_evaluateWith_eq_outcome`: evaluation succeeds or fails as counting says.
* `Reached.evaluateWith_outcome`: the outcome of every evaluation in double precision.
-/

universe u

namespace EquivalentCircuit

/-! ### Faults by counting -/

/-- Why an item **cannot be taken** behind the items `before`: it is an operand whose name has no
impedance law, or it is an operator and the operands before it do not outnumber the operators
before it by two. -/
def Item.fault? {α : Type u} (before : Postfix) : Item → Option (CircuitError α)
  | .operand component =>
    if ElementKind.ofName? component.lexeme.text = none then
      some (.unsupportedComponent component.literal)
    else none
  | .operator op =>
    if before.operands.length < before.operators.length + 2 then
      some (.missingOperand op.connection)
    else none

namespace Postfix

variable {α : Type u}

/-- The **fault at a position** of a sequence. -/
def faultAt? (items : Postfix) (position : Nat) : Option (CircuitError α) :=
  items[position]?.bind (Item.fault? (items.take position))

/-- The fault at the **first position** that has one. -/
def firstFault? (items : Postfix) : Option (CircuitError α) :=
  (List.range items.length).findSome? items.faultAt?

/-- The outcome of a sequence without faults: one impedance is left when the operands outnumber
the operators by one. -/
def balance (items : Postfix) : Except (CircuitError α) Unit :=
  if items.operands.length = items.operators.length + 1 then .ok ()
  else .error (.unbalanced (items.operands.length - items.operators.length))

/-- The **outcome** of a sequence: its first fault, or else its balance. -/
def outcome (items : Postfix) : Except (CircuitError α) Unit :=
  match items.firstFault? with
  | some error => .error error
  | none => items.balance

/-- The operators of a sequence in two parts. -/
theorem operators_append (first second : Postfix) :
    operators (first ++ second) = first.operators ++ second.operators :=
  List.filterMap_append

/-! ### The faults that remain -/

/-- The first fault among items that stand **behind others**. -/
def firstFaultBehind? (before items : Postfix) : Option (CircuitError α) :=
  (List.range items.length).findSome? fun i => (before ++ items).faultAt? (before.length + i)

/-- The outcome of items that stand **behind others**, when those have no fault. -/
def outcomeBehind (before items : Postfix) : Except (CircuitError α) Unit :=
  match before.firstFaultBehind? items with
  | some error => .error error
  | none => (before ++ items).balance

/-- Behind nothing stands the whole sequence. -/
theorem outcomeBehind_empty (items : Postfix) :
    outcomeBehind (α := α) [] items = items.outcome := by
  rw [outcomeBehind, firstFaultBehind?, outcome, firstFault?]
  simp

/-- Where nothing remains the balance decides. -/
theorem outcomeBehind_nil (before : Postfix) :
    before.outcomeBehind (α := α) [] = before.balance := by
  rw [outcomeBehind, List.append_nil]
  rfl

/-- The first fault is that of the next item, or else the first one behind it. -/
theorem firstFaultBehind?_cons (before : Postfix) (item : Item) (rest : Postfix) :
    before.firstFaultBehind? (α := α) (item :: rest) =
      (item.fault? before).or ((before ++ [item]).firstFaultBehind? rest) := by
  have hHere : (before ++ item :: rest).faultAt? (α := α) (before.length + 0) =
      item.fault? before := by
    rw [Nat.add_zero, faultAt?, List.take_left' rfl, List.getElem?_append_right (Nat.le_refl _),
      Nat.sub_self, List.getElem?_cons_zero, Option.bind_some]
  have hBehind : ∀ i, (before ++ item :: rest).faultAt? (α := α) (before.length + (i + 1)) =
      ((before ++ [item]) ++ rest).faultAt? ((before ++ [item]).length + i) := by
    intro i
    rw [List.append_assoc, List.singleton_append, List.length_append, List.length_singleton,
      Nat.add_assoc, Nat.add_comm 1 i]
  rw [firstFaultBehind?, List.length_cons, List.range_succ_eq_map, List.findSome?_cons, hHere,
    List.findSome?_map, firstFaultBehind?]
  simp only [Function.comp_def, Nat.succ_eq_add_one, hBehind]
  cases item.fault? (α := α) before <;> rfl

/-- An item with a fault ends the sequence. -/
theorem outcomeBehind_cons_of_fault {before : Postfix} {item : Item} {error : CircuitError α}
    (h : item.fault? before = some error) (rest : Postfix) :
    before.outcomeBehind (item :: rest) = .error error := by
  rw [outcomeBehind, firstFaultBehind?_cons, h]
  rfl

/-- An item without a fault is passed. -/
theorem outcomeBehind_cons_of_none {before : Postfix} {item : Item}
    (h : item.fault? (α := α) before = none) (rest : Postfix) :
    before.outcomeBehind (α := α) (item :: rest) = (before ++ [item]).outcomeBehind rest := by
  rw [outcomeBehind, firstFaultBehind?_cons, h, Option.none_or, outcomeBehind, List.append_assoc,
    List.singleton_append]

/-- Without a fault there are no more operators than operands. -/
theorem length_operators_le_of_firstFaultBehind? {before items : Postfix}
    (hBefore : before.operators.length ≤ before.operands.length)
    (h : before.firstFaultBehind? (α := α) items = none) :
    (before ++ items).operators.length ≤ (before ++ items).operands.length := by
  induction items generalizing before with
  | nil => simpa using hBefore
  | cons item rest ih =>
      rw [firstFaultBehind?_cons, Option.or_eq_none_iff] at h
      obtain ⟨hHere, hRest⟩ := h
      have hItem : (before ++ [item]).operators.length ≤ (before ++ [item]).operands.length := by
        rw [operators_append, operands_append, List.length_append, List.length_append]
        cases item with
        | operand component => exact Nat.le_succ_of_le hBefore
        | operator op =>
            have hTwo : ¬ before.operands.length < before.operators.length + 2 := by
              intro hLt
              rw [Item.fault?, if_pos hLt] at hHere
              exact absurd hHere (by simp)
            change before.operators.length + 1 ≤ before.operands.length + 0
            omega
      have hWhole := ih hItem hRest
      rwa [List.append_assoc, List.singleton_append] at hWhole

end Postfix

/-! ### Interpretation and counting -/

namespace Circuit

variable {ζ α : Type u} [Immittance ζ α] [Zero α] [One α] [Add α] [Sub α] [Neg α] [Mul α]
  [Div α] [BEq α] [Elementary α]

/-- **Interpretation fails as counting says.** As long as no item had a fault, the operands
outnumber the operators by the impedances on the stack. -/
theorem map_interpret_eq {circuit : Circuit α} (exponents : Exponents α) (omega : α)
    {before rest : Postfix} {stack : List ζ}
    (hDepth : before.operands.length = before.operators.length + stack.length)
    (hNamed : ∀ operand ∈ rest.operands, operand.IsNamed)
    (hKnown : ∀ literal ∈ rest.literals, literal ∈ circuit.literals) :
    (circuit.interpret exponents omega stack rest).map (fun _ => ()) =
      before.outcomeBehind rest := by
  induction rest generalizing before stack with
  | nil =>
      rw [Postfix.outcomeBehind_nil, Postfix.balance, hDepth, Nat.add_sub_cancel_left]
      match stack with
      | [] => simp [interpret, Except.map]
      | [_] => simp [interpret, Except.map]
      | _ :: _ :: _ => simp [interpret, Except.map]
  | cons item rest ih =>
      cases item with
      | operand operand =>
          obtain ⟨hName, hNamed⟩ := List.forall_mem_cons.mp hNamed
          obtain ⟨hLiteral, hKnown⟩ := List.forall_mem_cons.mp hKnown
          rw [Operand.IsNamed] at hName
          rcases hKind : operand.kind with - | kind
          · have hFault : (Item.operand operand).fault? before =
                some (.unsupportedComponent (α := α) operand.literal) := by
              rw [Item.fault?, if_pos (hName.symm.trans hKind)]
            rw [interpret_unsupported hKind, Postfix.outcomeBehind_cons_of_fault hFault]
            rfl
          · have hFault : (Item.operand operand).fault? (α := α) before = none := by
              rw [Item.fault?, if_neg (by rw [← hName, hKind]; simp)]
            obtain ⟨place, hPlace, -⟩ := exists_finIdxOf?_eq_some hLiteral
            have hValue : circuit.value? operand.literal = some (circuit.values.get place) := by
              rw [value?, hPlace, Option.map_some]
            rw [interpret_operand hKind hValue, Postfix.outcomeBehind_cons_of_none hFault]
            refine ih ?_ hNamed hKnown
            rw [Postfix.operands_append, Postfix.operators_append, List.length_append,
              List.length_append, hDepth]
            rfl
      | operator op =>
          match stack, hDepth with
          | [], hDepth | [_], hDepth =>
              have hFault : (Item.operator op).fault? before =
                  some (.missingOperand (α := α) op.connection) := by
                rw [Item.fault?, if_pos (by rw [hDepth]; simp)]
              rw [Postfix.outcomeBehind_cons_of_fault hFault]
              rfl
          | right :: left :: below, hDepth =>
              rw [List.length_cons, List.length_cons] at hDepth
              have hFault : (Item.operator op).fault? (α := α) before = none := by
                rw [Item.fault?, if_neg (by omega)]
              rw [Postfix.outcomeBehind_cons_of_none hFault]
              have hStack : (before ++ [Item.operator op]).operands.length =
                  (before ++ [Item.operator op]).operators.length +
                    (op.connection.combine left right :: below).length := by
                rw [Postfix.operands_append, Postfix.operators_append, List.length_append,
                  List.length_append, hDepth]
                change _ + 0 = before.operators.length + 1 + (below.length + 1)
                omega
              exact ih hStack hNamed hKnown

/-! ### Reached circuits -/

variable [LT α] [DecidableLT α] {precedence : Precedence} {source : String}

/-- A reached circuit evaluates at an admissible frequency, with exponents for its own components,
as **counting its items** says. -/
theorem Reached.map_evaluateWith_eq_outcome {circuit : Circuit α}
    (h : Reached precedence source circuit) {exponents : Exponents α}
    (hExponents : ∀ key ∈ exponents.map Prod.fst, key ∈ circuit.literals) {frequency : α}
    (hFrequency : Frequency.admissible frequency = true) :
    (circuit.evaluateWith (ζ := ζ) exponents frequency).map (fun _ => ()) =
      circuit.items.outcome := by
  have hNamed : ∀ operand ∈ circuit.items.operands, operand.IsNamed :=
    (Postfix.isScanned_of_parse_eq_ok h.parse_eq).isNamed
  rw [h.evaluateWith_eq_interpret hExponents hFrequency, ← Postfix.outcomeBehind_empty]
  exact map_interpret_eq _ _ rfl hNamed fun _ hMem => h.mem_literals_iff.mpr hMem

/-- The first exponent for an unknown component is reported, whatever the frequency is. -/
theorem evaluateWith_of_unknown (circuit : Circuit α) {exponents : Exponents α}
    (h : ∃ key ∈ exponents.map Prod.fst, key ∉ circuit.literals) (frequency : α) :
    ∃ key ∈ exponents.map Prod.fst, key ∉ circuit.literals ∧
      circuit.evaluateWith (ζ := ζ) exponents frequency = .error (.unknownComponent key) := by
  rcases hUnknown : exponents.unknown? circuit.literals with - | key
  · obtain ⟨key, hMem, hKey⟩ := h
    have hKnown := List.find?_eq_none.mp hUnknown key hMem
    exact absurd (by simpa using hKnown) hKey
  · have hKey := List.find?_some hUnknown
    refine ⟨key, List.mem_of_find?_eq_some hUnknown, by simpa using hKey, ?_⟩
    rw [evaluateWith, hUnknown]

/-- With exponents for its own components only, a circuit refuses a frequency that is not
admissible. -/
theorem evaluateWith_of_not_admissible (circuit : Circuit α) {exponents : Exponents α}
    (hExponents : ∀ key ∈ exponents.map Prod.fst, key ∈ circuit.literals) {frequency : α}
    (hFrequency : Frequency.admissible frequency = false) :
    circuit.evaluateWith (ζ := ζ) exponents frequency = .error (.invalidFrequency frequency) := by
  have hKnown : exponents.unknown? circuit.literals = none := by
    simpa [Exponents.unknown?] using hExponents
  rw [evaluateWith, hKnown]
  dsimp only
  rw [impedance, hFrequency]
  rfl

end Circuit

/-! ### Double precision -/

/-- A double-precision frequency is **not admissible** when it is NaN, infinite or below zero. -/
theorem Frequency.admissible_eq_false_iff {frequency : Binary64} :
    admissible frequency = false ↔
      frequency.isNaN = true ∨ frequency.isInfinite = true ∨ frequency < 0 := by
  have hFinite : Elementary.isFinite frequency = false ↔
      frequency.isNaN = true ∨ frequency.isInfinite = true := by
    change Binary64.isFinite frequency = false ↔ _
    rw [Binary64.isFinite, Binary64.isNaN, Binary64.isInfinite, decide_eq_false_iff_not,
      decide_eq_true_iff, decide_eq_true_iff]
    omega
  rw [admissible, Bool.and_eq_false_iff, hFinite, Bool.not_eq_false', decide_eq_true_iff, or_assoc]

namespace Circuit

variable {precedence : Precedence} {source : String}

/-- **The outcome of every evaluation**, for circuits of any source and in any state. If there are
exponents for components that the circuit does not have, one of these is reported, whatever the
frequency is. Otherwise a frequency that is NaN, infinite or below zero is refused. Otherwise
the outcome is found by counting the items: the first one that cannot be taken is reported, and
if there is none the operands must outnumber the operators by one. So it depends on the source
and the precedence, and not on values, nor on exponents and frequencies that pass. -/
theorem Reached.evaluateWith_outcome {circuit : Circuit Binary64}
    (h : Reached precedence source circuit) (exponents : Exponents Binary64)
    (frequency : Binary64) :
    ((∃ key ∈ exponents.map Prod.fst, key ∉ circuit.literals) →
      ∃ key ∈ exponents.map Prod.fst, key ∉ circuit.literals ∧
        circuit.evaluateWith (ζ := Complex Binary64) exponents frequency =
          .error (.unknownComponent key)) ∧
    ((∀ key ∈ exponents.map Prod.fst, key ∈ circuit.literals) →
      (frequency.isNaN = true ∨ frequency.isInfinite = true ∨ frequency < 0) →
        circuit.evaluateWith (ζ := Complex Binary64) exponents frequency =
          .error (.invalidFrequency frequency)) ∧
    ((∀ key ∈ exponents.map Prod.fst, key ∈ circuit.literals) →
      ¬ (frequency.isNaN = true ∨ frequency.isInfinite = true ∨ frequency < 0) →
        (circuit.evaluateWith (ζ := Complex Binary64) exponents frequency).map (fun _ => ()) =
          circuit.items.outcome) ∧
    (circuit.items.firstFault? (α := Binary64) = none →
      circuit.items.operators.length ≤ circuit.items.operands.length) ∧
    ∀ other : Circuit Binary64, Reached precedence source other →
      other.items.outcome (α := Binary64) = circuit.items.outcome := by
  refine ⟨fun hUnknown => evaluateWith_of_unknown circuit hUnknown frequency, ?_, ?_, ?_, ?_⟩
  · intro hExponents hFrequency
    exact evaluateWith_of_not_admissible circuit hExponents
      (Frequency.admissible_eq_false_iff.mpr hFrequency)
  · intro hExponents hFrequency
    rw [← Frequency.admissible_eq_false_iff, Bool.not_eq_false] at hFrequency
    exact h.map_evaluateWith_eq_outcome hExponents hFrequency
  · intro hNone
    have hBehind : Postfix.firstFaultBehind? (α := Binary64) [] circuit.items = none := by
      simpa [Postfix.firstFaultBehind?, Postfix.firstFault?] using hNone
    exact Postfix.length_operators_le_of_firstFaultBehind? (Nat.le_refl _) hBehind
  · intro other hOther
    rw [Except.ok.inj (hOther.parse_eq.symm.trans h.parse_eq)]

/-- The items of `- R | X` are `R X | -`. Whatever the value of `R` is, an exponent for `Q` is
refused first, then an infinite frequency, and then `X`, which stands before an operator that
lacks an operand. -/
theorem Reached.outcome_of_two_faults :
    ∃ circuit : Circuit Binary64, Reached .uniform "- R | X" circuit ∧
      circuit.components = [("R1", Binary64.nan), ("X1", 1)] ∧
      circuit.evaluateWith (ζ := Complex Binary64) [("Q1", 1)] Binary64.infinity =
        .error (.unknownComponent "Q1") ∧
      circuit.evaluateWith (ζ := Complex Binary64) [("R1", 0)] Binary64.infinity =
        .error (.invalidFrequency Binary64.infinity) ∧
      (circuit.evaluateWith (ζ := Complex Binary64) [("R1", 0)] 0).map (fun _ => ()) =
        .error (.unsupportedComponent "X1") := by
  have hBuilt : Reached .uniform "- R | X" (ofPostfix (α := Binary64) "- R | X"
      [.operand (.ofComponent "R1" ⟨"R", 2⟩), .operand (.ofComponent "X1" ⟨"X", 6⟩),
        .operator ⟨.parallel, ⟨"|", 4⟩⟩, .operator ⟨.series, ⟨"-", 0⟩⟩]) := .built rfl
  have hReached := hBuilt.setAll [("R1", Binary64.nan)]
  obtain ⟨hUnknown, -, -, -, -⟩ := hReached.evaluateWith_outcome [("Q1", 1)] Binary64.infinity
  obtain ⟨-, hInvalid, -, -, -⟩ := hReached.evaluateWith_outcome [("R1", 0)] Binary64.infinity
  obtain ⟨-, -, hOutcome, -, -⟩ := hReached.evaluateWith_outcome [("R1", 0)] 0
  refine ⟨_, hReached, by decide, ?_, hInvalid (by decide) (by decide), ?_⟩
  · obtain ⟨key, hKey, -, hError⟩ := hUnknown ⟨"Q1", by decide, by decide⟩
    obtain rfl := List.mem_singleton.mp hKey
    exact hError
  · rw [hOutcome (by decide) (by decide)]
    rfl

end Circuit

end EquivalentCircuit
