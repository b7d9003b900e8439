import EquivalentCircuit.Arithmetic.Binary64
import EquivalentCircuit.Proofs.States
import Mathlib.Data.List.Forall2

/-!
# Equality of Circuits

Circuits are compared in all that they keep, and that includes the literals and the program. Neither
is ever written after the circuit was built, and both were computed from its items, so circuits with
the same items agree in them (`Reached.literals_program_eq`), whatever sources they come from and
whatever values they were given. What is left to compare are the source, the items with their places
in it, and the values.

Values are compared as numbers and not as patterns. In floating-point arithmetic a circuit with a
zero is equal to the circuit with the negative zero in its place, and a circuit with an undefined
value is not even equal to itself.

## Main results

* `Reached.literals_program_eq`: the items determine the literals and the program.
* `Reached.beq_iff_visible`: what the equality of two circuits means.
-/

universe u

namespace EquivalentCircuit.Circuit

variable {α : Type u}

/-- Lists are compared **position by position**. -/
theorem beq_iff_forall₂ [BEq α] (values others : List α) :
    (values == others) = true ↔ List.Forall₂ (fun x y => (x == y) = true) values others := by
  induction values generalizing others with
  | nil => cases others <;> simp
  | cons value values ih =>
      rcases others with - | ⟨other, others⟩
      · simp
      · rw [List.cons_beq_cons, Bool.and_eq_true, List.forall₂_cons, ih]

/-- Circuits are equal when their sources, items, literals and programs are, and their values are
equal as numbers. -/
theorem beq_iff [BEq α] {first second : Circuit α} :
    (first == second) = true ↔
      first.source = second.source ∧ first.items = second.items ∧
        first.literals = second.literals ∧ first.program = second.program ∧
        List.Forall₂ (fun x y => (x == y) = true) first.values.toList second.values.toList := by
  have hUnfold : (first == second) =
      (first.source == second.source && first.items == second.items &&
        first.literals == second.literals && first.values.toList == second.values.toList &&
        first.program == second.program) := rfl
  rw [hUnfold, Bool.and_eq_true, Bool.and_eq_true, Bool.and_eq_true, Bool.and_eq_true,
    beq_iff_forall₂ first.values.toList, beq_iff_eq, beq_iff_eq, beq_iff_eq, beq_iff_eq]
  constructor
  · rintro ⟨⟨⟨⟨hSource, hItems⟩, hLiterals⟩, hValues⟩, hProgram⟩
    exact ⟨hSource, hItems, hLiterals, hProgram, hValues⟩
  · rintro ⟨hSource, hItems, hLiterals, hProgram, hValues⟩
    exact ⟨⟨⟨⟨hSource, hItems⟩, hLiterals⟩, hValues⟩, hProgram⟩

variable [One α] {precedence reading : Precedence} {source text : String}
  {first second : Circuit α}

/-- The items **determine** the literals and the program of a reached circuit. -/
theorem Reached.literals_program_eq (hFirst : Reached precedence source first)
    (hSecond : Reached reading text second) (hItems : first.items = second.items) :
    first.literals = second.literals ∧ first.program = second.program := by
  obtain ⟨items, -, values, rfl⟩ := hFirst.exists_eq_withValues
  obtain ⟨others, -, replaced, rfl⟩ := hSecond.exists_eq_withValues
  obtain rfl : items = others := hItems
  refine ⟨rfl, List.map_congr_left fun step _ => ?_⟩
  -- The places of one circuit are those of the other, which shows in each step alone.
  cases step with
  | operand place kind => rfl
  | combine connection => rfl

/-- **Equality of circuits is equality of what is seen of them.** Circuits that were built from any
sources under any precedences, and then given any values, are equal exactly when their sources are
the same, their items are the same with their places, and their values are equal as numbers at each
position. The literals and the program are determined by the items and make no difference. -/
theorem Reached.beq_iff_visible [BEq α] (hFirst : Reached precedence source first)
    (hSecond : Reached reading text second) :
    ((first == second) = true ↔
      first.source = second.source ∧ first.items = second.items ∧
        List.Forall₂ (fun x y => (x == y) = true) first.values.toList second.values.toList) ∧
      (first.items = second.items →
        first.literals = second.literals ∧ first.program = second.program) := by
  have hHidden := hFirst.literals_program_eq hSecond
  refine ⟨?_, hHidden⟩
  rw [beq_iff]
  constructor
  · rintro ⟨hSource, hItems, -, -, hValues⟩
    exact ⟨hSource, hItems, hValues⟩
  · rintro ⟨hSource, hItems, hValues⟩
    obtain ⟨hLiterals, hProgram⟩ := hHidden hItems
    exact ⟨hSource, hItems, hLiterals, hProgram, hValues⟩

/-- `R - C` is read alike under both precedences. Its circuit with a zero is equal to that with a
negative zero, and not equal to itself with an undefined value. -/
theorem beq_iff_visible_of_zeros :
    ∃ zero negative undefined : Circuit Binary64, Reached .ranked "R - C" zero ∧
      Reached .uniform "R - C" negative ∧ Reached .ranked "R - C" undefined ∧
      zero.components = [("R1", 0), ("C1", 1)] ∧ negative.components = [("R1", -0), ("C1", 1)] ∧
      undefined.components = [("R1", 0), ("C1", Binary64.nan)] ∧
      (zero == negative) = true ∧ ¬(undefined == undefined) = true := by
  have hRanked : Reached .ranked "R - C" (ofPostfix (α := Binary64) "R - C"
      [.operand (.ofComponent "R1" ⟨"R", 0⟩), .operand (.ofComponent "C1" ⟨"C", 4⟩),
        .operator ⟨.series, ⟨"-", 2⟩⟩]) := .built rfl
  have hUniform : Reached .uniform "R - C" (ofPostfix (α := Binary64) "R - C"
      [.operand (.ofComponent "R1" ⟨"R", 0⟩), .operand (.ofComponent "C1" ⟨"C", 4⟩),
        .operator ⟨.series, ⟨"-", 2⟩⟩]) := .built rfl
  have hZero := hRanked.setAll [("R1", 0)]
  have hNegative := hUniform.setAll [("R1", -0)]
  have hUndefined := hZero.setAll [("C1", Binary64.nan)]
  refine ⟨_, _, _, hZero, hNegative, hUndefined, rfl, rfl, rfl, ?_, ?_⟩
  · refine (hZero.beq_iff_visible hNegative).1.mpr ⟨rfl, rfl, ?_⟩
    exact .cons (by decide) (.cons (by decide) .nil)
  · rw [(hUndefined.beq_iff_visible hUndefined).1]
    rintro ⟨-, -, hValues⟩
    exact absurd (List.forall₂_same.mp hValues Binary64.nan (.tail _ (.head _))) (by decide)

end EquivalentCircuit.Circuit
