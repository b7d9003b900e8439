import EquivalentCircuit.Circuit.Interpretation
import EquivalentCircuit.Proofs.Conversion
import EquivalentCircuit.Proofs.States

/-!
# The Meaning of a Source

Evaluating a circuit gives the value of an expression tree. The program of a circuit does what
interpreting its items by name does (`Reached.evaluateWith_eq_interpretWith`), interpreting the
items of a tree puts the value of the tree on the stack (`interpret_postorder_append`), and the
items of a chain are those of its tree.

The converse asks which sources have an impedance at all. Interpretation succeeds only on the
items of some tree (`exists_readBack_of_interpret_eq_ok`), and every tree is the tree of a
chain, the one with parentheses around every operator (`Expr.tree_term`). That chain need not be
spelled by the source, since conversion does not ask whether operators and operands alternate.

## Main results

* `Reached.evaluateWith_eq_value`: a circuit with the items of a tree has the value of the tree.
* `evaluate_error_or_eq_value`: the sources that have an impedance are those that are converted
  like some chain whose names all have an impedance law.
-/

universe u

namespace EquivalentCircuit.Circuit

variable {ζ α : Type u} [Immittance ζ α] [Zero α] [One α] [Add α] [Sub α] [Neg α] [Mul α]
  [Div α] [BEq α] [Elementary α]

/-! ### Program and interpretation -/

/-- Interpreting an operand that has an impedance law and a value. -/
theorem interpret_operand {circuit : Circuit α} {operand : Operand} {kind : ElementKind} {value : α}
    (hKind : operand.kind = some kind) (hValue : circuit.value? operand.literal = some value)
    (exponents : Exponents α) (omega : α) (stack : List ζ) (rest : Postfix) :
    circuit.interpret exponents omega stack (.operand operand :: rest) =
      circuit.interpret exponents omega
        (kind.impedance omega value (exponents.lookup operand.literal) :: stack) rest := by
  rw [interpret, hKind, lookup_components, hValue]

/-- Interpreting an operand whose name has no impedance law. -/
theorem interpret_unsupported {circuit : Circuit α} {operand : Operand}
    (hKind : operand.kind = none) (exponents : Exponents α) (omega : α) (stack : List ζ)
    (rest : Postfix) :
    circuit.interpret exponents omega stack (.operand operand :: rest) =
      .error (.unsupportedComponent operand.literal) := by
  rw [interpret, hKind]

/-- **Compilation is sound**: running the steps of items does what interpreting the items does, on
any stack and in any state of the circuit. -/
theorem run_eq_interpret (circuit : Circuit α) (exponents : Exponents α) (omega : α)
    {items : Postfix} (hItems : ∀ literal ∈ items.literals, literal ∈ circuit.literals)
    (stack : List ζ) :
    circuit.run exponents omega stack (items.filterMap (Step.ofItem? circuit.literals)) =
      circuit.interpret exponents omega stack items := by
  induction items generalizing stack with
  | nil =>
      match stack with
      | [] | [_] | _ :: _ :: _ => rfl
  | cons item rest ih =>
      cases item with
      | operand operand =>
          obtain ⟨hLiteral, hRest⟩ := List.forall_mem_cons.mp hItems
          obtain ⟨place, hPlace, hGet⟩ := exists_finIdxOf?_eq_some hLiteral
          have hStep : Step.ofItem? circuit.literals (.operand operand) =
              some (.operand place operand.kind) := by
            rw [Step.ofItem?, hPlace, Option.map_some]
          rw [List.filterMap_cons_some hStep]
          rcases hKind : operand.kind with - | kind
          · rw [run, interpret_unsupported hKind, hGet]
          · have hValue : circuit.value? operand.literal = some (circuit.values.get place) := by
              rw [value?, hPlace, Option.map_some]
            rw [run, interpret_operand hKind hValue, ih hRest, element, hGet]
            rfl
      | operator op =>
          have hStep : Step.ofItem? circuit.literals (.operator op) =
              some (.combine op.connection) := rfl
          rw [List.filterMap_cons_some hStep]
          match stack with
          | [] | [_] => rfl
          | right :: left :: below => exact ih hItems _

/-! ### The value of a tree -/

/-- The impedance of an **operand** under an assignment of values to literals: the law of its kind,
at the value and the exponent of its literal. An operand without a kind has no impedance; it
counts as open here, and evaluation refuses it. -/
def operandImpedance (exponents : Exponents α) (omega : α) (assignment : String → α)
    (operand : Operand) : ζ :=
  match operand.kind with
  | some kind =>
    kind.impedance omega (assignment operand.literal) (exponents.lookup operand.literal)
  | none => Immittance.openCircuit

/-- **Interpreting a tree** puts its value on the stack, or reports the first operand whose name has
no impedance law. -/
theorem interpret_postorder_append {circuit : Circuit α} {assignment : String → α} {tree : Expr}
    (hHolds : ∀ operand ∈ tree.postorder.operands,
      circuit.value? operand.literal = some (assignment operand.literal))
    (exponents : Exponents α) (omega : α) (stack : List ζ) (rest : Postfix) :
    circuit.interpret exponents omega stack (tree.postorder ++ rest) =
      match tree.postorder.operands.find? fun operand => operand.kind.isNone with
      | some operand => .error (.unsupportedComponent operand.literal)
      | none => circuit.interpret exponents omega
          (tree.value (operandImpedance exponents omega assignment) :: stack) rest := by
  induction tree generalizing stack rest with
  | leaf operand =>
      rw [Expr.postorder, List.singleton_append, Postfix.operands_operand, Expr.value,
        operandImpedance]
      rcases hKind : operand.kind with - | kind
      · rw [interpret_unsupported hKind, List.find?_cons_of_pos (by simp [hKind])]
      · rw [interpret_operand hKind (hHolds operand (by simp [Expr.postorder])),
          List.find?_cons_of_neg (by simp [hKind])]
        rfl
  | node op left right ihl ihr =>
      rw [Postfix.operands_postorder_node, List.forall_mem_append] at hHolds
      rw [Postfix.operands_postorder_node, List.find?_append, Expr.postorder, List.append_assoc,
        List.append_assoc, ihl hHolds.1]
      rcases hLeft : List.find? (fun operand => operand.kind.isNone) left.postorder.operands with
        - | unsupported
      · rw [hLeft, Option.none_or]
        dsimp only
        rw [ihr hHolds.2]
        rfl
      · rw [hLeft]
        rfl

/-- Interpretation **succeeds only on trees**: the items are read back as a tree when trees are put
where the impedances are, and all their names have an impedance law. -/
theorem exists_readBack_of_interpret_eq_ok {circuit : Circuit α} {exponents : Exponents α}
    {omega : α} {stack : List ζ} {items : Postfix} {impedance : ζ}
    (h : circuit.interpret exponents omega stack items = .ok impedance) (trees : List Expr)
    (hTrees : trees.length = stack.length) :
    (∃ tree, Expr.readBack trees items = some tree) ∧
      ∀ operand ∈ items.operands, operand.kind.isNone = false := by
  induction items generalizing stack trees with
  | nil =>
      rcases stack with - | ⟨last, - | ⟨second, below⟩⟩
      · exact absurd h (by simp [interpret])
      · obtain ⟨tree, rfl⟩ := List.length_eq_one_iff.mp hTrees
        exact ⟨⟨tree, rfl⟩, by simp [Postfix.operands]⟩
      · exact absurd h (by simp [interpret])
  | cons item rest ih =>
      cases item with
      | operand operand =>
          rcases hKind : operand.kind with - | kind
          · rw [interpret_unsupported hKind] at h
            exact absurd h (by simp)
          · rcases hValue : circuit.components.lookup operand.literal with - | value
            · rw [interpret, hKind, hValue] at h
              exact absurd h (by simp)
            · rw [lookup_components] at hValue
              rw [interpret_operand hKind hValue] at h
              obtain ⟨hTree, hRest⟩ := ih h (.leaf operand :: trees) (congrArg Nat.succ hTrees)
              refine ⟨by simpa only [Expr.readBack] using hTree,
                List.forall_mem_cons.mpr ⟨?_, hRest⟩⟩
              rw [hKind]
              rfl
      | operator op =>
          rcases stack with - | ⟨last, - | ⟨second, below⟩⟩
          · exact absurd h (by simp [interpret])
          · exact absurd h (by simp [interpret])
          · rcases trees with - | ⟨right, - | ⟨left, trees⟩⟩
            · exact absurd hTrees (by simp)
            · exact absurd hTrees (by simp)
            · exact ih h (.node op left right :: trees) (Nat.succ.inj hTrees)

/-! ### Reached circuits -/

variable [LT α] [DecidableLT α]

/-- A **reached circuit** evaluates to what the interpretation of its items gives. -/
theorem Reached.evaluateWith_eq_interpretWith {precedence : Precedence} {source : String}
    {circuit : Circuit α} (h : Reached precedence source circuit) (exponents : Exponents α)
    (frequency : α) :
    circuit.evaluateWith (ζ := ζ) exponents frequency =
      circuit.interpretWith exponents frequency := by
  have hImpedance : circuit.impedance (ζ := ζ) exponents frequency =
      if Frequency.admissible frequency then
        circuit.interpret exponents (Frequency.angular frequency) [] circuit.items
      else .error (.invalidFrequency frequency) := by
    rw [impedance, h.steps_eq, run_eq_interpret _ _ _ fun _ => h.mem_literals_iff.mpr]
  rw [evaluateWith, hImpedance]
  rfl

/-- With exponents for literals of the circuit only and an admissible frequency, the outcome is that
of interpreting the items. -/
theorem Reached.evaluateWith_eq_interpret {precedence : Precedence} {source : String}
    {circuit : Circuit α} (h : Reached precedence source circuit) {exponents : Exponents α}
    (hExponents : ∀ key ∈ exponents.map Prod.fst, key ∈ circuit.literals) {frequency : α}
    (hFrequency : Frequency.admissible frequency = true) :
    circuit.evaluateWith (ζ := ζ) exponents frequency =
      circuit.interpret exponents (Frequency.angular frequency) [] circuit.items := by
  have hKnown : exponents.unknown? circuit.literals = none := by
    simpa [Exponents.unknown?] using hExponents
  rw [h.evaluateWith_eq_interpretWith, interpretWith, hKnown]
  exact if_pos hFrequency

/-- A reached circuit whose items are those of a tree evaluates to the value of the tree, or reports
the first operand whose name has no impedance law. -/
theorem Reached.evaluateWith_eq_value {precedence : Precedence} {source : String}
    {circuit : Circuit α} (h : Reached precedence source circuit) {tree : Expr}
    (hTree : circuit.items = tree.postorder) {assignment : String → α}
    (hHolds : circuit.Holds assignment) {exponents : Exponents α}
    (hExponents : ∀ key ∈ exponents.map Prod.fst, key ∈ circuit.literals) {frequency : α}
    (hFrequency : Frequency.admissible frequency = true) :
    circuit.evaluateWith (ζ := ζ) exponents frequency =
      match tree.postorder.operands.find? fun operand => operand.kind.isNone with
      | some operand => .error (.unsupportedComponent operand.literal)
      | none => .ok (tree.value
          (operandImpedance exponents (Frequency.angular frequency) assignment)) := by
  have hOperands : ∀ operand ∈ tree.postorder.operands,
      circuit.value? operand.literal = some (assignment operand.literal) := by
    intro operand hMem
    rw [← hTree] at hMem
    exact hHolds _ (h.mem_literals_iff.mpr (List.mem_map_of_mem hMem))
  have hInterpret := interpret_postorder_append (ζ := ζ) hOperands exponents
    (Frequency.angular frequency) [] []
  rw [List.append_nil] at hInterpret
  rw [h.evaluateWith_eq_interpret hExponents hFrequency, hTree, hInterpret]
  rfl

/-! ### Sources that have an impedance -/

/-- A reached circuit **has an impedance** only if its items are converted from a chain, and all
their names have an impedance law. -/
theorem Reached.exists_chain_of_evaluate_eq_ok {precedence : Precedence} {source : String}
    {circuit : Circuit α} (h : Reached precedence source circuit) {frequency : α} {impedance : ζ}
    (hOk : circuit.evaluate frequency = .ok impedance) :
    (∃ chain : Chain, Postfix.ofTokens precedence chain.tokens = .ok circuit.items ∧
      circuit.items = (chain.tree precedence).postorder) ∧
      ∀ operand ∈ circuit.items.operands, operand.kind.isNone = false := by
  have hNoKeys : ∀ key ∈ (([] : Exponents α).map Prod.fst), key ∈ circuit.literals := by simp
  have hFrequency : Frequency.admissible frequency = true := by
    rw [evaluate, h.evaluateWith_eq_interpretWith, interpretWith] at hOk
    cases hAdmissible : Frequency.admissible frequency with
    | true => rfl
    | false => exact absurd hOk (by simp [Exponents.unknown?, hAdmissible])
  rw [evaluate, h.evaluateWith_eq_interpret hNoKeys hFrequency] at hOk
  obtain ⟨⟨tree, hTree⟩, hKinds⟩ := exists_readBack_of_interpret_eq_ok hOk [] rfl
  obtain ⟨tokens, -, hTokens⟩ := Postfix.exists_scan_eq_ok_of_parse_eq_ok h.parse_eq
  obtain ⟨chain, rfl, hChain⟩ := Postfix.exists_chain_of_ofPostfix? hTokens hTree
  exact ⟨⟨chain, hChain, (Expr.postorder_of_ofPostfix? hTree).symm⟩, hKinds⟩

/-- **Which sources have an impedance.** Unless a source builds no circuit, and unless its circuit
fails at every frequency whatever its values are, it is converted to the same items as some
chain, and its impedance is that of the chain. -/
theorem evaluate_error_or_eq_value (precedence : Precedence) (source : String) :
    (∃ error, ofSource (α := α) precedence source = .error error) ∨
      (∀ circuit : Circuit α, Reached precedence source circuit → ∀ frequency : α,
        ∃ error, circuit.evaluate (ζ := ζ) frequency = .error error) ∨
      ∃ chain : Chain, Postfix.ofTokens precedence chain.tokens = Postfix.parse precedence source ∧
        ∀ circuit : Circuit α, Reached precedence source circuit →
          ∀ assignment : String → α, circuit.Holds assignment →
            ∀ frequency : α, Frequency.admissible frequency = true →
              circuit.evaluate (ζ := ζ) frequency = .ok ((chain.tree precedence).value
                (operandImpedance [] (Frequency.angular frequency) assignment)) := by
  by_cases hSome : ∃ (circuit : Circuit α) (frequency : α) (impedance : ζ),
      Reached precedence source circuit ∧ circuit.evaluate frequency = .ok impedance
  · obtain ⟨found, frequency, impedance, hFound, hOk⟩ := hSome
    obtain ⟨⟨chain, hChain, hTree⟩, hKinds⟩ := hFound.exists_chain_of_evaluate_eq_ok hOk
    refine .inr (.inr ⟨chain, hChain.trans hFound.parse_eq.symm, ?_⟩)
    intro circuit hReached assignment hHolds frequency hFrequency
    -- All reached circuits have the items of the one that was found.
    have hItems : circuit.items = found.items :=
      Except.ok.inj (hReached.parse_eq.symm.trans hFound.parse_eq)
    have hNone : ((chain.tree precedence).postorder.operands.find? fun operand =>
        operand.kind.isNone) = none := by
      rw [← hTree, List.find?_eq_none]
      exact fun operand hMem => Bool.eq_false_iff.mp (hKinds operand hMem)
    rw [evaluate, hReached.evaluateWith_eq_value (hItems.trans hTree) hHolds (by simp) hFrequency,
      hNone]
  · refine .inr (.inl fun circuit hReached frequency => ?_)
    rcases hOutcome : circuit.evaluate (ζ := ζ) frequency with error | impedance
    · exact ⟨error, rfl⟩
    · exact absurd ⟨circuit, frequency, impedance, hReached, hOutcome⟩ hSome

/-- A source need not spell the chain that it is converted like: `R R -` spells none, and it is
converted like `R - R` and has the impedance of two resistors in series. -/
theorem evaluate_ungrammatical :
    ¬ Grammatical "R R -" ∧
      ∃ circuit : Circuit Binary64, ofSource .uniform "R R -" = .ok circuit ∧
        circuit.evaluate (ζ := Complex Binary64) 1 = .ok ⟨1 + 1, 0⟩ := by
  refine ⟨?_, ofPostfix "R R -" [.operand (.ofComponent "R1" ⟨"R", 0⟩),
    .operand (.ofComponent "R2" ⟨"R", 2⟩), .operator ⟨.series, ⟨"-", 4⟩⟩], rfl, rfl⟩
  rintro ⟨chain, finalLexeme, hSpelled⟩
  have hScan : Token.scan "R R -" = .ok [.component "R1" ⟨"R", 0⟩, .component "R2" ⟨"R", 2⟩,
      .operator ⟨.series, ⟨"-", 4⟩⟩, .endOfInput ⟨"", 5⟩] := rfl
  have hTokens := Except.ok.inj (hSpelled.symm.trans hScan)
  match chain with
  | .last (.component _ _) => simp [Chain.tokens, Term.tokens] at hTokens
  | .last (.group _ _ _) => simp [Chain.tokens, Term.tokens] at hTokens
  | .link (.component _ _) _ _ => simp [Chain.tokens, Term.tokens] at hTokens
  | .link (.group _ _ _) _ _ => simp [Chain.tokens, Term.tokens] at hTokens

end EquivalentCircuit.Circuit
