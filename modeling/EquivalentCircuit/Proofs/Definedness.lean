import EquivalentCircuit.Proofs.Admittances
import EquivalentCircuit.Proofs.Sentences

/-!
# Definedness of Impedances

In double precision an impedance may be NaN although every value is finite. This module says where,
for circuits without constant-phase elements, whose power law is not part of the arithmetic that is
followed here. There are three causes:

* a capacitor or an inductor of value zero at a frequency so high that the angular frequency
  overflows;
* two impedances in series that have opposite infinities in a part;
* two impedances in parallel, neither shorted nor open, where squares vanish: those of one of the
  two impedances, whose admittance then divides by zero, or those of an admittance on an axis,
  whose impedance then divides zero by zero.

Being shorted is tested exactly, while squares may vanish for any number whose parts are below
`2 ^ (-537)` (`Complex.squaresVanish_eq_false`). In between lie impedances that are treated as
ordinary numbers and cannot be inverted.

## Main results

* `Connection.isDefined_combine`: where the impedance of two connected networks is defined.
* `Circuit.isDefined_evaluate`: where the impedance of a circuit is defined.
-/

namespace EquivalentCircuit

open Unpacked

/-! ### Connections -/

namespace Connection

/-- Whether two **connected networks are determined**, given whether each of them is. A short
circuit hides what is in parallel with it, and so does what is in parallel with an open branch. -/
def isDetermined (connection : Connection) (left right : Complex Binary64)
    (leftDetermined rightDetermined : Bool) : Bool :=
  match connection with
  | .series => leftDetermined && rightDetermined && !left.opposes right
  | .parallel =>
    if left.isZero || right.isZero then true
    else if left.hasInfinitePart then rightDetermined
    else if right.hasInfinitePart then leftDetermined
    else
      let admittance := left.inv + right.inv
      leftDetermined && rightDetermined && !left.squaresVanish && !right.squaresVanish &&
        !(admittance.squaresVanish && admittance.onAxis)

theorem combineParallel_eq (left right : Complex Binary64) :
    combineParallel left right =
      if left.isZero || right.isZero then 0
      else if left.hasInfinitePart then right
      else if right.hasInfinitePart then left
      else (left.inv + right.inv).ofAdmittance := rfl

/-- **Connected networks** have a defined impedance exactly when they are determined. -/
theorem isDefined_combine (connection : Connection) (left right : Complex Binary64) :
    (connection.combine left right).isDefined =
      connection.isDetermined left right left.isDefined right.isDefined := by
  cases connection with
  | series => exact Complex.isDefined_add left right
  | parallel =>
      rw [combine, combineParallel_eq, isDetermined]
      by_cases hShort : (left.isZero || right.isZero) = true
      · rw [if_pos hShort, if_pos hShort]
        rfl
      rw [if_neg hShort, if_neg hShort]
      by_cases hLeft : left.hasInfinitePart = true
      · rw [if_pos hLeft, if_pos hLeft]
      rw [if_neg hLeft, if_neg hLeft]
      by_cases hRight : right.hasInfinitePart = true
      · rw [if_pos hRight, if_pos hRight]
      rw [if_neg hRight, if_neg hRight]
      -- What is left is the ordinary case, in which both admittances are computed.
      rw [Bool.or_eq_true, not_or, Bool.not_eq_true, Bool.not_eq_true] at hShort
      rw [Bool.not_eq_true] at hLeft hRight
      rw [Complex.isDefined_ofAdmittance, Complex.isFinite_inv_add_inv,
        Complex.isFinite_inv_of_not_limit hShort.1 hLeft,
        Complex.isFinite_inv_of_not_limit hShort.2 hRight]
      ac_rfl

end Connection

/-! ### Elements -/

namespace ElementKind

/-- Whether an **element is determined**: an infinite angular frequency leaves the reactance of a
capacitor or an inductor of value zero open. -/
def isDetermined (kind : ElementKind) (omega value : Binary64) : Bool :=
  match kind with
  | .capacitor | .inductor => !(omega.isInfinite && value == 0)
  | _ => true

/-- **Elements** with a finite value have a defined impedance exactly when they are determined. -/
theorem isDefined_impedance {kind : ElementKind} (hKind : kind ≠ .constantPhase)
    {omega value : Binary64} (exponent : Binary64) (hOmega : omega.isNaN = false)
    (hRoot : (Elementary.sqrt omega).isNaN = false) (hValue : value.isFinite = true) :
    (kind.impedance omega value exponent : Complex Binary64).isDefined =
      kind.isDetermined omega value := by
  rw [Binary64.isFinite_eq_not, Bool.and_eq_true, Bool.not_eq_true', Bool.not_eq_true'] at hValue
  obtain ⟨hNaN, hInfinite⟩ := hValue
  have hProduct : (omega * value).isNaN = (omega.isInfinite && value == 0) := by
    rw [Binary64.isNaN_mul, hOmega, hNaN, hInfinite, Bool.and_false, Bool.or_false,
      Bool.or_false, Bool.false_or]
  cases kind with
  | resistor =>
      change (!value.isNaN && !false) = true
      rw [hNaN]
      rfl
  | inductor =>
      change (!false && !(omega * value).isNaN) = _
      rw [hProduct]
      rfl
  | capacitor =>
      have hLaw : (impedance .capacitor omega value exponent : Complex Binary64) =
        if omega * value == 0 then ⟨Binary64.infinity, 0⟩ else ⟨0, -1 / (omega * value)⟩ := rfl
      rw [hLaw, isDetermined, ← hProduct]
      split
      · rename_i hZero
        rw [Binary64.isNaN_of_isFinite (Binary64.isFinite_of_beq_zero hZero)]
        rfl
      · change (!false && !(-1 / (omega * value)).isNaN) = _
        have hOne : (-1 : Binary64).isNaN = false ∧ (-1 : Binary64).isInfinite = false ∧
            (-1 == (0 : Binary64)) = false := by decide
        rw [Binary64.isNaN_div, hOne.1, hOne.2.1, hOne.2.2]
        simp
  | constantPhase => exact absurd rfl hKind
  | warburg =>
      have hLaw : (impedance .warburg omega value exponent : Complex Binary64) =
        if Elementary.sqrt omega == 0 then ⟨Binary64.infinity, 0⟩
        else ⟨value / Elementary.sqrt omega, -(value / Elementary.sqrt omega)⟩ := rfl
      rw [hLaw]
      split
      · rfl
      · rename_i hNonzero
        rw [Bool.not_eq_true] at hNonzero
        have hPart : (value / Elementary.sqrt omega).isNaN = false := by
          rw [Binary64.isNaN_div, hNaN, hRoot, hInfinite, hNonzero, Bool.and_false]
          rfl
        rw [Complex.isDefined, Binary64.isNaN_neg, hPart]
        rfl

end ElementKind

/-! ### Frequencies -/

namespace Frequency

theorem exists_unpacked_tau : ∃ mantissa exponent, ∃ hPos : 0 < mantissa,
    (Elementary.tau : Binary64).unpacked = .finite .positive mantissa exponent hPos :=
  ⟨_, _, _, rfl⟩

/-- The angular frequency of an **admissible frequency** and its root are defined. The angular
frequency may be infinite. -/
theorem isNaN_angular {frequency : Binary64} (h : admissible frequency = true) :
    (angular frequency).isNaN = false ∧ (Elementary.sqrt (angular frequency)).isNaN = false := by
  rw [admissible, Bool.and_eq_true, Bool.not_eq_true', decide_eq_false_iff_not] at h
  obtain ⟨hFinite, hSign⟩ := h
  change frequency.isFinite = true at hFinite
  rw [Binary64.isFinite_eq] at hFinite
  rw [Binary64.lt_iff] at hSign
  rw [Binary64.isNaN_eq, Binary64.isNaN_eq, Binary64.unpacked_sqrt, isNaN_overflowed, angular,
    Binary64.unpacked_mul]
  obtain ⟨turnMantissa, turnExponent, hTurnPos, hTurn⟩ := exists_unpacked_tau
  have hTurnRounded := (Elementary.tau : Binary64).isRounded_unpacked
  have hRounded := frequency.isRounded_unpacked
  rw [hTurn] at hTurnRounded ⊢
  generalize frequency.unpacked = number at *
  rcases number with _ | _ | _ | ⟨_ | _, mantissa, exponent, hPos⟩
  case infinity | notANumber => cases hFinite
  case zero => exact ⟨rfl, rfl⟩
  case finite.negative => exact absurd rfl hSign
  case finite.positive =>
    have hRounds := mul_rounds hTurnPos hPos .positive .positive hTurnRounded hRounded
    have hOmega := hRounds.isNonnegative.overflowed
    exact ⟨hOmega.isNaN_eq_false, hOmega.isNaN_sqrt⟩

end Frequency

/-! ### Circuits -/

/-- Whether a **tree is determined**: its elements are, and every connection in it that its
impedance depends on. -/
def Expr.isDetermined (omega : Binary64) (assignment : String → Binary64) : Expr → Bool
  | .leaf operand =>
    match operand.kind with
    | some kind => kind.isDetermined omega (assignment operand.literal)
    | none => true
  | .node op left right =>
    op.connection.isDetermined (left.value (Circuit.operandImpedance [] omega assignment))
      (right.value (Circuit.operandImpedance [] omega assignment))
      (left.isDetermined omega assignment) (right.isDetermined omega assignment)

namespace Circuit

/-- **Trees** have a defined value exactly when they are determined. -/
theorem isDefined_value {omega : Binary64} (hOmega : omega.isNaN = false)
    (hRoot : (Elementary.sqrt omega).isNaN = false) {assignment : String → Binary64} {tree : Expr}
    (hOperands : ∀ operand ∈ tree.postorder.operands,
      operand.kind ∈ [some .resistor, some .capacitor, some .inductor, some .warburg] ∧
        (assignment operand.literal).isFinite = true) :
    (tree.value (operandImpedance [] omega assignment) : Complex Binary64).isDefined =
      tree.isDetermined omega assignment := by
  induction tree with
  | leaf operand =>
      obtain ⟨hKind, hValue⟩ := hOperands operand (List.mem_singleton_self operand)
      rw [Expr.value, operandImpedance, Expr.isDetermined]
      rcases hSome : operand.kind with - | kind
      · rfl
      · rw [hSome] at hKind
        refine ElementKind.isDefined_impedance ?_ _ hOmega hRoot hValue
        rintro rfl
        simp at hKind
  | node op left right ihl ihr =>
      rw [Postfix.operands_postorder_node, List.forall_mem_append] at hOperands
      rw [Expr.value, Connection.isDefined_combine, ihl hOperands.1, ihr hOperands.2,
        Expr.isDetermined]

/-- **Where the impedance of a circuit is defined.** A circuit of resistors, capacitors, inductors
and Warburg elements, in any state in which its values are finite, has an impedance at every
admissible frequency, and this has no NaN in it exactly when the tree of the circuit is determined
with these values. -/
theorem isDefined_evaluate {precedence : Precedence} {source : String} {chain : Chain}
    (hSpelled : chain.SpelledBy source)
    (hKinds : ∀ operand ∈ chain.operands,
      operand.kind ∈ [some .resistor, some .capacitor, some .inductor, some .warburg])
    {circuit : Circuit Binary64} (hReached : Reached precedence source circuit)
    (hValues : ∀ component ∈ circuit.components, component.2.isFinite = true)
    {frequency : Binary64} (hFrequency : Frequency.admissible frequency = true) :
    ∃ impedance : Complex Binary64, circuit.evaluate frequency = .ok impedance ∧
      impedance.isDefined =
        (chain.tree precedence).isDetermined (Frequency.angular frequency)
          (circuit.valueOr 0) := by
  have hSome : ∀ operand ∈ chain.operands, operand.kind.isSome = true := by
    intro operand hMem
    have hKind := hKinds operand hMem
    generalize operand.kind = kind at hKind ⊢
    revert kind
    decide
  obtain ⟨hOmega, hRoot⟩ := Frequency.isNaN_angular hFrequency
  refine ⟨_, hReached.evaluate_eq_ok_value hSpelled hSome (circuit.holds_valueOr 0) hFrequency,
    isDefined_value hOmega hRoot ?_⟩
  rw [chain.operands_postorder_tree]
  intro operand hMem
  exact ⟨hKinds operand hMem, valueOr_of_forall_components
    (P := fun value => value.isFinite = true) 0 hValues
    (hReached.mem_literals_of_mem_operands hSpelled hMem)⟩

/-- A resistor before a capacitor and a resistor in parallel, with their initial values. -/
theorem isDefined_evaluate_of_unit_values :
    ∃ circuit : Circuit Binary64, Reached .uniform "R - (C | R)" circuit ∧
      circuit.components = [("R1", 1), ("C1", 1), ("R2", 1)] ∧
      ∃ impedance : Complex Binary64, circuit.evaluate 1 = .ok impedance ∧
        impedance.isDefined = true := by
  have hSpelled : (Chain.link (.component "R1" ⟨"R", 0⟩) ⟨.series, ⟨"-", 2⟩⟩
      (.last (.group ⟨"(", 4⟩ (.link (.component "C1" ⟨"C", 5⟩) ⟨.parallel, ⟨"|", 7⟩⟩
        (.last (.component "R2" ⟨"R", 9⟩))) ⟨")", 10⟩))).SpelledBy "R - (C | R)" :=
    ⟨⟨"", 11⟩, rfl⟩
  have hReached : Reached .uniform "R - (C | R)" (ofPostfix (α := Binary64) "R - (C | R)" _) :=
    .built (ofSource_eq_ok_iff.mpr ⟨_, hSpelled.parse_eq .uniform, rfl⟩)
  have hAdmissible : Frequency.admissible (1 : Binary64) = true := by decide
  obtain ⟨impedance, hOk, hDefined⟩ :=
    isDefined_evaluate hSpelled (by decide) hReached (by decide) hAdmissible
  refine ⟨_, hReached, rfl, impedance, hOk, hDefined.trans ?_⟩
  decide +kernel

/-- Two resistors of `1e-200` and `-1e-200` ohms in parallel: their admittances cancel, but their
squares vanish, and the impedance is NaN. -/
theorem evaluate_of_tiny_resistors :
    ∃ circuit : Circuit Binary64, Reached .uniform "R | R" circuit ∧
      circuit.components = [("R1", ⟨0x16687e92154ef7ac⟩), ("R2", ⟨0x96687e92154ef7ac⟩)] ∧
      ∃ impedance : Complex Binary64, circuit.evaluate 1 = .ok impedance ∧
        impedance.re.isNaN = true ∧ impedance.im.isNaN = true := by
  have hSpelled : (Chain.link (.component "R1" ⟨"R", 0⟩) ⟨.parallel, ⟨"|", 2⟩⟩
      (.last (.component "R2" ⟨"R", 4⟩))).SpelledBy "R | R" := ⟨⟨"", 5⟩, rfl⟩
  have hBuilt : Reached .uniform "R | R" (ofPostfix (α := Binary64) "R | R" _) :=
    .built (ofSource_eq_ok_iff.mpr ⟨_, hSpelled.parse_eq .uniform, rfl⟩)
  have hReached := hBuilt.setAll [("R1", ⟨0x16687e92154ef7ac⟩), ("R2", ⟨0x96687e92154ef7ac⟩)]
  have hOk := hReached.evaluate_eq_ok_value (ζ := Complex Binary64) hSpelled (by decide)
    (holds_valueOr _ 0) (show Frequency.admissible 1 = true by decide)
  exact ⟨_, hReached, rfl, _, hOk, by decide +kernel, by decide +kernel⟩

end Circuit

end EquivalentCircuit
