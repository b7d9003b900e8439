import EquivalentCircuit.Proofs.Meaning
import EquivalentCircuit.Proofs.Sweeps

/-!
# Exponents and Constant-Phase Elements

An exponent may be given for every component of a circuit, and evaluation looks one up for every
component that it meets, whatever its kind is. Only the law of the constant-phase element makes use
of it (`ElementKind.impedance_congr`). So two ways of giving exponents that agree on the
constant-phase elements of a circuit cannot be told apart by evaluating it, also where evaluation
fails: the interpretations of the items take the same steps (`Circuit.interpret_congr`).

A component that is not mentioned has the exponent one, so that giving the exponent one to a
constant-phase element is the same as not mentioning it.

## Main results

* `Circuit.interpret_congr`: interpretation with exponents that agree.
* `Circuit.Reached.evaluateWith_congr`: evaluation with exponents that agree.
* `Circuit.Reached.evaluate_indifferent_to_exponents`: which exponents matter to a circuit.
-/

universe u

namespace EquivalentCircuit

/-! ### Laws -/

/-- **Only constant-phase elements** have an impedance that depends on the exponent. -/
theorem ElementKind.impedance_congr {ζ α : Type u} [Immittance ζ α] [Zero α] [One α] [Add α]
    [Sub α] [Neg α] [Mul α] [Div α] [BEq α] [Elementary α] {kind : ElementKind}
    {exponent other : α} (h : kind = .constantPhase → exponent = other) (omega value : α) :
    (kind.impedance omega value exponent : ζ) = kind.impedance omega value other := by
  cases kind with
  | constantPhase => rw [h rfl]
  | resistor | capacitor | inductor | warburg => rfl

/-- The name of an operand with the kind that its name asks for **starts with the letter** of the
kind. -/
theorem Operand.IsNamed.head?_eq {operand : Operand} (h : operand.IsNamed) {kind : ElementKind}
    (hKind : operand.kind = some kind) :
    operand.lexeme.text.toList.head? = some kind.letter := by
  rw [IsNamed, hKind, ElementKind.ofName?, eq_comm, Option.bind_eq_some_iff] at h
  obtain ⟨c, hC, hLetter⟩ := h
  rw [hC, ElementKind.letter_of_ofLetter? hLetter]

/-! ### Exponents that agree -/

/-- Whether two ways of giving exponents **agree on the constant-phase elements** of a sequence: on
the operands whose names start with their letter. An exponent that is not given counts as one. -/
def Exponents.AgreeOn {α : Type u} [One α] (exponents others : Exponents α) (items : Postfix) :
    Prop :=
  ∀ operand ∈ items.operands, operand.lexeme.text.toList.head? = some 'Q' →
    exponents.lookup operand.literal = others.lookup operand.literal

/-- Without exponents every exponent is one. -/
theorem Exponents.lookup_nil {α : Type u} [One α] (literal : String) :
    lookup ([] : Exponents α) literal = 1 := rfl

namespace Circuit

variable {ζ α : Type u} [Immittance ζ α] [Zero α] [One α] [Add α] [Sub α] [Neg α] [Mul α]
  [Div α] [BEq α] [Elementary α] {circuit : Circuit α} {exponents others : Exponents α}

/-- **Interpretation** takes the same steps with exponents that are equal for constant-phase
operands. -/
theorem interpret_congr {items : Postfix}
    (h : ∀ operand ∈ items.operands, operand.kind = some .constantPhase →
      exponents.lookup operand.literal = others.lookup operand.literal) (omega : α)
    (stack : List ζ) :
    circuit.interpret exponents omega stack items =
      circuit.interpret others omega stack items := by
  induction items generalizing stack with
  | nil => rfl
  | cons item rest ih =>
      cases item with
      | operand operand =>
          obtain ⟨hOperand, hRest⟩ := List.forall_mem_cons.mp h
          rcases hKind : operand.kind with - | kind
          · rw [interpret_unsupported hKind, interpret_unsupported hKind]
          · have hImpedance (value : α) :
                (kind.impedance omega value (exponents.lookup operand.literal) : ζ) =
                  kind.impedance omega value (others.lookup operand.literal) :=
              ElementKind.impedance_congr (fun hPhase => hOperand (hPhase ▸ hKind)) omega value
            rcases hValue : circuit.value? operand.literal with - | value
            · rw [interpret, interpret, lookup_components, hKind, hValue]
            · rw [interpret_operand hKind hValue, interpret_operand hKind hValue, hImpedance,
                ih hRest]
      | operator op =>
          rcases stack with - | ⟨right, - | ⟨left, below⟩⟩
          · rfl
          · rfl
          · exact ih h _

variable [LT α] [DecidableLT α] {precedence : Precedence} {source : String}

/-- **Evaluation** gives the same result, or the same error, with exponents for components of the
circuit that agree on its constant-phase elements. -/
theorem Reached.evaluateWith_congr (h : Reached precedence source circuit)
    (hExponents : ∀ key ∈ exponents.map Prod.fst, key ∈ circuit.literals)
    (hOthers : ∀ key ∈ others.map Prod.fst, key ∈ circuit.literals)
    (hAgree : exponents.AgreeOn others circuit.items) (frequency : α) :
    circuit.evaluateWith (ζ := ζ) exponents frequency =
      circuit.evaluateWith others frequency := by
  obtain ⟨tokens, -, hItems⟩ := Postfix.exists_scan_eq_ok_of_parse_eq_ok h.parse_eq
  have hLookup : ∀ operand ∈ circuit.items.operands, operand.kind = some .constantPhase →
      exponents.lookup operand.literal = others.lookup operand.literal := by
    intro operand hMem hKind
    have hNamed := Postfix.isNamed_of_ofTokens_eq_ok hItems operand hMem
    exact hAgree operand hMem (hNamed.head?_eq hKind)
  have hKnown : exponents.unknown? circuit.literals = none := by
    simpa [Exponents.unknown?] using hExponents
  have hOthersKnown : others.unknown? circuit.literals = none := by
    simpa [Exponents.unknown?] using hOthers
  rw [h.evaluateWith_eq_interpretWith, h.evaluateWith_eq_interpretWith, interpretWith,
    interpretWith, hKnown, hOthersKnown, interpret_congr hLookup]

/-- **Sweeps** do so too. -/
theorem Reached.sweepWith_congr (h : Reached precedence source circuit)
    (hExponents : ∀ key ∈ exponents.map Prod.fst, key ∈ circuit.literals)
    (hOthers : ∀ key ∈ others.map Prod.fst, key ∈ circuit.literals)
    (hAgree : exponents.AgreeOn others circuit.items) (frequencies : List α) :
    circuit.sweepWith (ζ := ζ) exponents frequencies =
      circuit.sweepWith others frequencies := by
  rw [sweepWith_eq_mapM hExponents, sweepWith_eq_mapM hOthers,
    funext (h.evaluateWith_congr hExponents hOthers hAgree)]

/-- **Exponents matter only for constant-phase elements.** In every state of the circuit of any
source, two ways of giving exponents to its components that agree on the constant-phase elements
lead to the same results, errors included, at every frequency and in sweeps over any frequencies.
So exponents that are one for every constant-phase element for which they are given, and anything
for other components, lead to the same results as no exponents. -/
theorem Reached.evaluate_indifferent_to_exponents (h : Reached precedence source circuit) :
    (∀ exponents others : Exponents α, (∀ key ∈ exponents.map Prod.fst, key ∈ circuit.literals) →
      (∀ key ∈ others.map Prod.fst, key ∈ circuit.literals) →
      exponents.AgreeOn others circuit.items →
        (∀ frequency, circuit.evaluateWith (ζ := ζ) exponents frequency =
          circuit.evaluateWith others frequency) ∧
        ∀ frequencies, circuit.sweepWith (ζ := ζ) exponents frequencies =
          circuit.sweepWith others frequencies) ∧
    ∀ exponents : Exponents α, (∀ key ∈ exponents.map Prod.fst, key ∈ circuit.literals) →
      (∀ operand ∈ circuit.items.operands, operand.lexeme.text.toList.head? = some 'Q' →
        ∀ exponent ∈ exponents.get? operand.literal, exponent = 1) →
        (∀ frequency, circuit.evaluate (ζ := ζ) frequency =
          circuit.evaluateWith exponents frequency) ∧
        ∀ frequencies, circuit.sweep (ζ := ζ) frequencies =
          circuit.sweepWith exponents frequencies := by
  have hNone : ∀ key ∈ ([] : Exponents α).map Prod.fst, key ∈ circuit.literals := by simp
  refine ⟨fun exponents others hExponents hOthers hAgree => ⟨?_, ?_⟩,
    fun exponents hExponents hOne => ?_⟩
  · exact h.evaluateWith_congr hExponents hOthers hAgree
  · exact h.sweepWith_congr hExponents hOthers hAgree
  · have hAgree : Exponents.AgreeOn [] exponents circuit.items := by
      intro operand hMem hLetter
      rw [Exponents.lookup_nil, Exponents.lookup]
      rcases hGiven : exponents.get? operand.literal with - | exponent
      · rfl
      · exact (hOne operand hMem hLetter exponent hGiven).symm
    exact ⟨h.evaluateWith_congr hNone hExponents hAgree,
      h.sweepWith_congr hNone hExponents hAgree⟩

/-- A constant-phase element beside a resistor: what the exponent of the resistor is does not
matter, and the exponent one for the constant-phase element is that which it has anyway. -/
theorem evaluate_indifferent_to_exponent_of_resistor :
    ∃ circuit : Circuit Binary64, Reached .ranked "Q | R" circuit ∧
      (∀ frequency, circuit.evaluateWith (ζ := Complex Binary64)
          [("Q1", 0), ("R1", Binary64.nan)] frequency =
        circuit.evaluateWith [("Q1", 0)] frequency) ∧
      ∀ frequencies, circuit.sweep (ζ := Complex Binary64) frequencies =
        circuit.sweepWith [("R1", Binary64.infinity), ("Q1", 1)] frequencies := by
  have hReached : Reached .ranked "Q | R" (ofPostfix (α := Binary64) "Q | R"
      [.operand (.ofComponent "Q1" ⟨"Q", 0⟩), .operand (.ofComponent "R1" ⟨"R", 4⟩),
        .operator ⟨.parallel, ⟨"|", 2⟩⟩]) := .built rfl
  obtain ⟨hSame, hOne⟩ :=
    hReached.evaluate_indifferent_to_exponents (ζ := Complex Binary64)
  refine ⟨_, hReached, ?_, ?_⟩
  · refine (hSame [("Q1", 0), ("R1", Binary64.nan)] [("Q1", 0)] (by decide) (by decide) ?_).1
    intro operand hMem hLetter
    rcases List.mem_pair.mp hMem with rfl | rfl
    · rfl
    · exact absurd hLetter (by decide)
  · refine (hOne [("R1", Binary64.infinity), ("Q1", 1)] (by decide) ?_).2
    intro operand hMem hLetter exponent hGiven
    rcases List.mem_pair.mp hMem with rfl | rfl
    · exact (Option.some.inj hGiven).symm
    · exact absurd hLetter (by decide)

end Circuit

end EquivalentCircuit
