import EquivalentCircuit.Arithmetic.Real
import EquivalentCircuit.Proofs.Reciprocal
import EquivalentCircuit.Proofs.Scanning
import EquivalentCircuit.Proofs.Sentences
import Mathlib.Data.List.Find

/-!
# Sources, Letter by Letter

The impedance of a source can be told by somebody who has the text, the values and the exponents,
and the laws of elements and connections, and nothing else. The first letter of a name says which
law the component obeys; of the exponents that are given for a literal the last one counts, and
without any the exponent is one; the angular frequency is a full turn times the frequency; `-`
stands for series and `|` for parallel. The impedances of components are written here in these
terms (`impedanceByLetter`), beside the functions that a circuit computes with, and on the operands
of a source the two agree (`operandImpedance_eq_impedanceByLetter`).

## Main results

* `Exponents.get?_eq_lookup_reverse`: the last exponent for a literal counts.
* `Operator.IsSigned.text_eq`: the signs of the two connections.
* `Circuit.Reached.evaluateWith_eq_value_impedanceByLetter`: evaluation of a reached circuit.
* `Circuit.evaluateWith_of_spelledBy`: the impedance of a source that spells a chain.
-/

universe u

namespace EquivalentCircuit

/-! ### Exponents -/

/-- Of several exponents for a literal the **last one** counts. -/
theorem Exponents.get?_eq_lookup_reverse {α : Type u} (exponents : Exponents α)
    (literal : String) : exponents.get? literal = exponents.reverse.lookup literal := by
  induction exponents with
  | nil => rfl
  | cons entry rest ih =>
      obtain ⟨key, exponent⟩ := entry
      rw [get?, ih, List.reverse_cons, List.lookup_append]
      rcases List.lookup literal rest.reverse with - | later
      · by_cases hKey : key = literal
        · rw [if_pos hKey, hKey, Option.none_or, List.lookup_cons_self]
        · rw [if_neg hKey, Option.none_or, List.lookup_cons, beq_false_of_ne (Ne.symm hKey)]
          rfl
      · rfl

/-! ### Frequencies -/

/-- A frequency is **admissible** when it is finite and not negative. -/
theorem Frequency.admissible_iff {α : Type u} [Elementary α] [Zero α] [LT α] [DecidableLT α]
    {hertz : α} :
    admissible hertz = true ↔ Elementary.isFinite hertz = true ∧ ¬ hertz < 0 := by
  rw [admissible, Bool.and_eq_true, Bool.not_eq_true', decide_eq_false_iff_not]

/-! ### Signs -/

/-- The **signs** that the notation has for the two connections. -/
theorem Operator.IsSigned.text_eq {op : Operator} (h : op.IsSigned) :
    op.connection = .series ∧ op.lexeme.text = "-" ∨
      op.connection = .parallel ∧ op.lexeme.text = "|" := by
  rw [IsSigned] at h
  rw [h]
  cases op.connection with
  | series => exact .inl ⟨rfl, rfl⟩
  | parallel => exact .inr ⟨rfl, rfl⟩

/-- The operators of a chain that a source spells are written with their signs. -/
theorem Chain.SpelledBy.isSigned {chain : Chain} {source : String} (h : chain.SpelledBy source)
    {op : Operator} (hMem : Token.operator op ∈ chain.tokens) : op.IsSigned := by
  obtain ⟨lexeme, hScan⟩ := h
  have hText : Token.operator op ∈ Token.ofText [] false 0 source.toList := by
    rw [← Token.eq_ofText_of_scan_eq_ok hScan]
    exact List.mem_append_left _ hMem
  exact Token.isWritten_of_mem_ofText _ hText

/-! ### Operands of a chain -/

/-- The operands of a chain have the kinds that their names ask for. -/
theorem Chain.isNamed_of_mem_operands {chain : Chain} {operand : Operand}
    (h : operand ∈ chain.operands) : operand.IsNamed := by
  rw [← chain.operands_postorder_tree .uniform] at h
  exact Postfix.isNamed_of_ofTokens_eq_ok (Postfix.ofTokens_chain .uniform chain) operand h

/-- The value of a tree depends on the impedances of **its own operands** only. -/
theorem Expr.value_congr {ζ α : Type u} [Immittance ζ α] [Zero α] {tree : Expr}
    {first second : Operand → ζ}
    (h : ∀ operand ∈ tree.postorder.operands, first operand = second operand) :
    tree.value first = tree.value second := by
  induction tree with
  | leaf operand => exact h operand (List.mem_singleton_self operand)
  | node op left right ihl ihr =>
      rw [Postfix.operands_postorder_node, List.forall_mem_append] at h
      rw [value, value, ihl h.1, ihr h.2]

/-! ### Constant-phase elements -/

/-- The law of a constant-phase element where the power of the frequency does not vanish. -/
theorem ElementKind.impedance_constantPhase {K : Type u} [Field K] [LinearOrder K] [Elementary K]
    {omega exponent : K} {power : Complex K} (hPower : Complex.jOmegaPow omega exponent = power)
    (h : power ≠ 0) (value : K) :
    ElementKind.constantPhase.impedance omega value exponent =
      Extended.finite (⟨value, 0⟩ / power) := by
  subst hPower
  exact if_neg (mt Complex.isZero_iff.mp h)

/-- With exponent one the power of an imaginary frequency is the frequency itself. -/
theorem Complex.jOmegaPow_one (omega : ℝ) : jOmegaPow omega 1 = ⟨0, omega⟩ := by
  change (⟨omega ^ (1 : ℝ) * Real.cos (1 * (Real.pi / 2)),
    omega ^ (1 : ℝ) * Real.sin (1 * (Real.pi / 2))⟩ : Complex ℝ) = ⟨0, omega⟩
  rw [one_mul, Real.cos_pi_div_two, Real.sin_pi_div_two, Real.rpow_one, mul_zero, mul_one]

/-- With exponent two it is minus the square of the frequency. -/
theorem Complex.jOmegaPow_two (omega : ℝ) : jOmegaPow omega 2 = ⟨-omega ^ 2, 0⟩ := by
  have hHalfTurn : 2 * (Real.pi / 2) = Real.pi := mul_div_cancel₀ Real.pi two_ne_zero
  change (⟨omega ^ (2 : ℝ) * Real.cos (2 * (Real.pi / 2)),
    omega ^ (2 : ℝ) * Real.sin (2 * (Real.pi / 2))⟩ : Complex ℝ) = ⟨-omega ^ 2, 0⟩
  rw [hHalfTurn, Real.cos_pi, Real.sin_pi, Real.rpow_two, mul_neg_one, mul_zero]

namespace Circuit

variable {ζ α : Type u} [Immittance ζ α] [Zero α] [One α] [Add α] [Sub α] [Neg α] [Mul α]
  [Div α] [BEq α] [Elementary α]

/-- The impedance of an operand **by the first letter of its name**, at the value of its literal and
the last exponent for it, or one. -/
def impedanceByLetter (exponents : Exponents α) (omega : α) (assignment : String → α)
    (operand : Operand) : ζ :=
  match ElementKind.ofFirstLetter? operand.lexeme.text with
  | some kind =>
    kind.impedance omega (assignment operand.literal)
      ((exponents.reverse.lookup operand.literal).getD 1)
  | none => Immittance.openCircuit

/-- The operands of a source have the impedances of their letters. -/
theorem operandImpedance_eq_impedanceByLetter {operand : Operand} (h : operand.IsNamed)
    (exponents : Exponents α) (omega : α) (assignment : String → α) :
    operandImpedance (ζ := ζ) exponents omega assignment operand =
      impedanceByLetter exponents omega assignment operand := by
  rw [operandImpedance, impedanceByLetter, h, ElementKind.ofName?_eq_ofFirstLetter?,
    Exponents.lookup, Exponents.get?_eq_lookup_reverse]
  rfl

variable [LT α] [DecidableLT α]

/-- A reached circuit whose source spells a chain evaluates to the value of the tree of the chain,
or reports the first name that no law has the letter of. -/
theorem Reached.evaluateWith_eq_value_impedanceByLetter {precedence : Precedence}
    {source : String} {chain : Chain} {circuit : Circuit α}
    (h : Reached precedence source circuit) (hSpelled : chain.SpelledBy source)
    {assignment : String → α} (hHolds : circuit.Holds assignment) {exponents : Exponents α}
    (hExponents : ∀ key ∈ exponents.map Prod.fst, key ∈ circuit.literals) {frequency : α}
    (hFinite : Elementary.isFinite frequency = true) (hNonnegative : ¬ frequency < 0) :
    circuit.evaluateWith (ζ := ζ) exponents frequency =
      match chain.operands.find? fun operand =>
          (ElementKind.ofFirstLetter? operand.lexeme.text).isNone with
      | some operand => .error (.unsupportedComponent operand.literal)
      | none => .ok ((chain.tree precedence).value
          (impedanceByLetter exponents (Elementary.tau * frequency) assignment)) := by
  have hUnsupported : ∀ operand ∈ chain.operands,
      operand.kind.isNone = (ElementKind.ofFirstLetter? operand.lexeme.text).isNone := by
    intro operand hMem
    rw [Chain.isNamed_of_mem_operands hMem, ElementKind.ofName?_eq_ofFirstLetter?]
  have hImpedance : ∀ operand ∈ (chain.tree precedence).postorder.operands,
      operandImpedance (ζ := ζ) exponents (Frequency.angular frequency) assignment operand =
        impedanceByLetter exponents (Elementary.tau * frequency) assignment operand := by
    intro operand hMem
    rw [chain.operands_postorder_tree] at hMem
    exact operandImpedance_eq_impedanceByLetter (Chain.isNamed_of_mem_operands hMem) _ _ _
  have hValue := h.evaluateWith_eq_value (ζ := ζ) (h.items_eq hSpelled) hHolds hExponents
    (Frequency.admissible_iff.mpr ⟨hFinite, hNonnegative⟩)
  rw [chain.operands_postorder_tree, List.find?_congr hUnsupported,
    Expr.value_congr hImpedance] at hValue
  exact hValue

/-- **The impedance of a source.** In a chain that a source spells, `-` stands for series and `|`
for parallel. For every such chain the source has a circuit, with any assignment of values. Its
impedance is the value of the tree of the chain, with the law of its first letter for each
component, unless no law has the first letter of a name in the source; then the first such name is
reported. Faults of structure are never reported. -/
theorem evaluateWith_of_spelledBy (precedence : Precedence) {source : String} {chain : Chain}
    (hSpelled : chain.SpelledBy source) (assignment : String → α) :
    (∀ op, Token.operator op ∈ chain.tokens →
      op.connection = .series ∧ op.lexeme.text = "-" ∨
        op.connection = .parallel ∧ op.lexeme.text = "|") ∧
      (∃ circuit : Circuit α, Reached precedence source circuit ∧ circuit.Holds assignment) ∧
      ∀ circuit : Circuit α, Reached precedence source circuit → circuit.Holds assignment →
        ∀ (exponents : Exponents α) (frequency : α),
          (∀ key ∈ exponents.map Prod.fst, key ∈ circuit.literals) →
          Elementary.isFinite frequency = true → ¬ frequency < 0 →
          circuit.evaluateWith (ζ := ζ) exponents frequency =
            (match chain.operands.find? fun operand =>
                (ElementKind.ofFirstLetter? operand.lexeme.text).isNone with
              | some operand => .error (.unsupportedComponent operand.literal)
              | none => .ok ((chain.tree precedence).value
                  (impedanceByLetter exponents (Elementary.tau * frequency) assignment))) ∧
            ∀ error, circuit.evaluateWith (ζ := ζ) exponents frequency = .error error →
              error.isStructural = false := by
  refine ⟨fun op hMem => (hSpelled.isSigned hMem).text_eq,
    exists_reached_holds (.built (ofSource_eq_ok_iff.mpr ⟨_, hSpelled.parse_eq precedence, rfl⟩))
      assignment, ?_⟩
  intro circuit hReached hHolds exponents frequency hExponents hFinite hNonnegative
  have hValue := hReached.evaluateWith_eq_value_impedanceByLetter (ζ := ζ) hSpelled hHolds
    hExponents hFinite hNonnegative
  refine ⟨hValue, fun error hError => ?_⟩
  rw [hValue] at hError
  split at hError
  · obtain rfl := Except.error.inj hError
    rfl
  · exact absurd hError (by simp)

/-- In the first source the second of two exponents for `Q1` counts, and `Q2` has the exponent one;
the frequency is two radians per second. In the second source no law has the letter `X`. -/
theorem evaluateWith_mixed_elements :
    (∃ circuit : Circuit ℝ, Reached .ranked "Q | R - L - Q" circuit ∧
      circuit.components = [("Q1", 12), ("R1", 6), ("L1", 3), ("Q2", 4)] ∧
      circuit.evaluateWith (ζ := Extended ℝ) [("Q1", 1), ("Q1", 2)] (1 / Real.pi) =
        .ok (.finite ⟨-6, 4⟩)) ∧
    ∃ circuit : Circuit ℝ, Reached .uniform "R | X - Y" circuit ∧
      circuit.evaluateWith (ζ := Extended ℝ) [] 1 = .error (.unsupportedComponent "X1") := by
  constructor
  · have hSpelled : (Chain.link (.component "Q1" ⟨"Q", 0⟩) ⟨.parallel, ⟨"|", 2⟩⟩
        (.link (.component "R1" ⟨"R", 4⟩) ⟨.series, ⟨"-", 6⟩⟩
          (.link (.component "L1" ⟨"L", 8⟩) ⟨.series, ⟨"-", 10⟩⟩
            (.last (.component "Q2" ⟨"Q", 12⟩))))).SpelledBy "Q | R - L - Q" := ⟨⟨"", 13⟩, rfl⟩
    have hBuilt : Reached .ranked "Q | R - L - Q" (ofPostfix (α := ℝ) "Q | R - L - Q" _) :=
      .built (ofSource_eq_ok_iff.mpr ⟨_, hSpelled.parse_eq .ranked, rfl⟩)
    have hReached := hBuilt.setAll [("Q1", 12), ("R1", 6), ("L1", 3), ("Q2", 4)]
    refine ⟨_, hReached, rfl, ?_⟩
    obtain ⟨-, -, hMeaning⟩ :=
      evaluateWith_of_spelledBy (ζ := Extended ℝ) .ranked hSpelled (valueOr _ 0)
    have hOmega : Elementary.tau * (1 / Real.pi) = (2 : ℝ) := by
      change 2 * Real.pi * (1 / Real.pi) = 2
      field_simp
    have hOk := (hMeaning _ hReached (holds_valueOr _ 0) [("Q1", 1), ("Q1", 2)] (1 / Real.pi)
      (by decide) rfl (not_lt.mpr (by positivity))).1
    rw [hOmega] at hOk
    refine hOk.trans (congrArg Except.ok ?_)
    have hFirst : ElementKind.constantPhase.impedance (2 : ℝ) 12 2 =
        Extended.finite (⟨-3, 0⟩ : Complex ℝ) := by
      have hPower : Complex.jOmegaPow (2 : ℝ) 2 = ⟨-4, 0⟩ := by
        rw [Complex.jOmegaPow_two]
        norm_num
      rw [ElementKind.impedance_constantPhase hPower (by simp [Complex.ext_iff]), Complex.div_eq]
      norm_num [Complex.normSq]
    have hSecond : ElementKind.constantPhase.impedance (2 : ℝ) 4 1 =
        Extended.finite (⟨0, -2⟩ : Complex ℝ) := by
      rw [ElementKind.impedance_constantPhase (Complex.jOmegaPow_one 2)
        (by simp [Complex.ext_iff]), Complex.div_eq]
      norm_num [Complex.normSq]
    have hJoined : Connection.combine .parallel (.finite ⟨-3, 0⟩) (.finite ⟨6, 0⟩) =
        Extended.finite (⟨-6, 0⟩ : Complex ℝ) := by
      rw [Extended.combine_parallel_real (by norm_num) (by norm_num) (by norm_num)]
      norm_num
    change Connection.combine .series
      (Connection.combine .parallel (ElementKind.constantPhase.impedance (2 : ℝ) 12 2)
        (.finite ⟨6, 0⟩))
      (Connection.combine .series (.finite ⟨0, 2 * 3⟩)
        (ElementKind.constantPhase.impedance (2 : ℝ) 4 1)) =
          Extended.finite (⟨-6, 4⟩ : Complex ℝ)
    rw [hFirst, hSecond, hJoined]
    refine congrArg Extended.finite (Complex.ext ?_ ?_)
    · change (-6 : ℝ) + (0 + 0) = -6
      norm_num
    · change (0 : ℝ) + (2 * 3 + -2) = 4
      norm_num
  · have hSpelled : (Chain.link (.component "R1" ⟨"R", 0⟩) ⟨.parallel, ⟨"|", 2⟩⟩
        (.link (.component "X1" ⟨"X", 4⟩) ⟨.series, ⟨"-", 6⟩⟩
          (.last (.component "Y1" ⟨"Y", 8⟩)))).SpelledBy "R | X - Y" := ⟨⟨"", 9⟩, rfl⟩
    obtain ⟨-, ⟨circuit, hReached, hHolds⟩, hMeaning⟩ :=
      evaluateWith_of_spelledBy (ζ := Extended ℝ) .uniform hSpelled fun _ => (1 : ℝ)
    have hRefused := (hMeaning circuit hReached hHolds [] 1 (by simp) rfl
      (not_lt.mpr zero_le_one)).1
    exact ⟨circuit, hReached, hRefused⟩

end Circuit

end EquivalentCircuit
