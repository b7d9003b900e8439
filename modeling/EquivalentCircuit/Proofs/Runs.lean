import EquivalentCircuit.Proofs.Numbering

/-!
# Runs of Calls

A circuit is given values by **calls**, which name one component or several. A call can fail,
and a circuit lives on after a call that failed, so what counts is a whole run of calls.

One call gives values to the components it names up to the first unknown one: these assignments
are **applied**. A run leaves what its applied assignments leave when they are given at once
(`performAll_eq_setAll`), so that everything about runs is read off a single list of assignments
of which all are known. In such a list the last assignment to a literal wins
(`value?_setAll_of_known`).

## Main results

* `reached_iff_exists_performAll`: the reached circuits are those behind the runs.
* `performAll_eq_setAll`: a run as one list of assignments.
* `performAll_outcome`: what a run keeps, which values it leaves, and what the next call answers.
-/

universe u

namespace EquivalentCircuit.Circuit

variable {α : Type u}

/-! ### Calls -/

/-- A **call** that gives values to components of a circuit. -/
inductive Call (α : Type u) where
  | set (literal : String) (value : α)
  | setAll (assignments : List (String × α))

/-- The assignments that a call asks for, in order. -/
def Call.assignments : Call α → List (String × α)
  | .set literal value => [(literal, value)]
  | .setAll assignments => assignments

/-- What a call **leaves and answers**. A call of `set` that fails leaves the circuit that was
there. -/
def perform (circuit : Circuit α) : Call α → Circuit α × Except (CircuitError α) Unit
  | .set literal value =>
    match circuit.set literal value with
    | .ok changed => (changed, .ok ())
    | .error error => (circuit, .error error)
  | .setAll assignments => circuit.setAll assignments

/-- The circuit behind a **run** of calls, of which each may succeed or fail. -/
def performAll (circuit : Circuit α) (calls : List (Call α)) : Circuit α :=
  calls.foldl (fun state call => (state.perform call).1) circuit

/-- The assignments of a call that are **applied**: those before the first unknown literal. -/
def applied (circuit : Circuit α) (call : Call α) : List (String × α) :=
  call.assignments.takeWhile fun assignment => circuit.contains assignment.1

/-- The value that is **given last** to a literal. -/
def lastGiven? (assignments : List (String × α)) (literal : String) : Option α :=
  assignments.reverse.lookup literal

theorem performAll_cons (circuit : Circuit α) (call : Call α) (calls : List (Call α)) :
    circuit.performAll (call :: calls) = (circuit.perform call).1.performAll calls := rfl

theorem performAll_append (circuit : Circuit α) (front back : List (Call α)) :
    circuit.performAll (front ++ back) = (circuit.performAll front).performAll back :=
  List.foldl_append

theorem contains_iff {circuit : Circuit α} {literal : String} :
    circuit.contains literal = true ↔ literal ∈ circuit.literals :=
  List.contains_iff_mem

/-- A call is a call for all its assignments. -/
theorem perform_eq_setAll (circuit : Circuit α) (call : Call α) :
    circuit.perform call = circuit.setAll call.assignments := by
  cases call with
  | set literal value =>
      rw [perform, Call.assignments, setAll]
      cases circuit.set literal value <;> rfl
  | setAll assignments => rfl

/-! ### Known and unknown literals -/

/-- The literals stay the same. -/
@[simp] theorem literals_setAll (circuit : Circuit α) (assignments : List (String × α)) :
    (circuit.setAll assignments).1.literals = circuit.literals := by
  obtain ⟨values, hValues⟩ := exists_setAll_eq_withValues circuit assignments
  rw [hValues]
  rfl

/-- Giving a value to an unknown literal fails. -/
theorem set_of_unknown {circuit : Circuit α} {literal : String}
    (h : literal ∉ circuit.literals) (value : α) :
    circuit.set literal value = .error (.unknownComponent literal) := by
  rw [set, List.finIdxOf?_eq_none_iff.mpr h]

/-- An **unknown literal** ends the list: nothing is given, and it is reported. -/
theorem setAll_cons_of_unknown {circuit : Circuit α} {literal : String}
    (h : literal ∉ circuit.literals) (value : α) (rest : List (String × α)) :
    circuit.setAll ((literal, value) :: rest) =
      (circuit, .error (.unknownComponent literal)) := by
  rw [setAll, set_of_unknown h]

/-- **Known literals** are given their values, and the list goes on behind them. -/
theorem setAll_append_of_known {circuit : Circuit α} {known : List (String × α)}
    (hKnown : ∀ assignment ∈ known, assignment.1 ∈ circuit.literals)
    (rest : List (String × α)) :
    circuit.setAll (known ++ rest) = (circuit.setAll known).1.setAll rest := by
  induction known generalizing circuit with
  | nil => rfl
  | cons assignment known ih =>
      obtain ⟨literal, value⟩ := assignment
      rw [List.forall_mem_cons] at hKnown
      obtain ⟨changed, hSet⟩ := exists_set_eq_ok hKnown.1 value
      obtain ⟨values, rfl⟩ := exists_eq_withValues_of_set hSet
      rw [List.cons_append, setAll, setAll, hSet]
      exact ih hKnown.2

/-- Giving values to known literals succeeds. -/
theorem setAll_of_known {circuit : Circuit α} {known : List (String × α)}
    (hKnown : ∀ assignment ∈ known, assignment.1 ∈ circuit.literals) :
    circuit.setAll known = ((circuit.setAll known).1, .ok ()) := by
  have h := setAll_append_of_known hKnown []
  rwa [List.append_nil] at h

/-- Applied assignments are known. -/
theorem mem_literals_of_mem_applied {circuit : Circuit α} {call : Call α} :
    ∀ assignment ∈ circuit.applied call, assignment.1 ∈ circuit.literals := by
  intro assignment hMem
  exact contains_iff.mp (List.all_eq_true.mp List.all_takeWhile assignment hMem)

/-- A call for known literals applies all its assignments. -/
theorem applied_of_known {circuit : Circuit α} {call : Call α}
    (hKnown : ∀ assignment ∈ call.assignments, assignment.1 ∈ circuit.literals) :
    circuit.applied call = call.assignments := by
  have hAll : ∀ assignment ∈ call.assignments, circuit.contains assignment.1 = true :=
    fun assignment hMem => contains_iff.mpr (hKnown assignment hMem)
  rw [applied, ← List.append_nil call.assignments, List.takeWhile_append_of_pos hAll,
    List.takeWhile_nil]

/-- What is applied depends on the literals only. -/
theorem applied_congr {first second : Circuit α} (h : first.literals = second.literals) :
    first.applied = second.applied := by
  funext call
  rw [applied, applied]
  simp only [contains, h]

/-- A call leaves what its applied assignments leave. -/
theorem fst_perform_eq_setAll (circuit : Circuit α) (call : Call α) :
    (circuit.perform call).1 = (circuit.setAll (circuit.applied call)).1 := by
  have hSplit : circuit.applied call ++
      call.assignments.dropWhile (fun assignment => circuit.contains assignment.1) =
        call.assignments := List.takeWhile_append_dropWhile
  rw [perform_eq_setAll, ← hSplit, setAll_append_of_known mem_literals_of_mem_applied]
  rcases hRest : call.assignments.dropWhile (fun assignment => circuit.contains assignment.1) with
    - | ⟨⟨literal, value⟩, rest⟩
  · rw [hRest, setAll]
  · have hUnknown : literal ∉ circuit.literals := by
      have hHead := List.head?_dropWhile_not (fun assignment => circuit.contains assignment.1)
        call.assignments
      rw [hRest] at hHead
      exact fun hMem => by simp [contains_iff.mpr hMem] at hHead
    rw [hRest, setAll_cons_of_unknown (by simpa using hUnknown)]

/-- A **run** leaves what its applied assignments leave when they are given at once. -/
theorem performAll_eq_setAll (circuit : Circuit α) (calls : List (Call α)) :
    circuit.performAll calls = (circuit.setAll (calls.flatMap circuit.applied)).1 := by
  induction calls generalizing circuit with
  | nil => rfl
  | cons call calls ih =>
      have hLiterals : (circuit.perform call).1.literals = circuit.literals := by
        rw [perform_eq_setAll, literals_setAll]
      rw [performAll_cons, ih, applied_congr hLiterals, fst_perform_eq_setAll, List.flatMap_cons,
        setAll_append_of_known mem_literals_of_mem_applied]

/-- Known literals that are given values **one by one** get them as they do at once. -/
theorem performAll_map_set {circuit : Circuit α} {known : List (String × α)}
    (hKnown : ∀ assignment ∈ known, assignment.1 ∈ circuit.literals) :
    circuit.performAll (known.map fun assignment => .set assignment.1 assignment.2) =
      (circuit.setAll known).1 := by
  have hApplied : (known.map fun assignment => Call.set assignment.1 assignment.2).flatMap
      circuit.applied = known := by
    rw [List.flatMap_map]
    induction known with
    | nil => rfl
    | cons assignment known ih =>
        rw [List.forall_mem_cons] at hKnown
        have hOne : circuit.applied (.set assignment.1 assignment.2) = [assignment] :=
          applied_of_known (by simpa [Call.assignments] using hKnown.1)
        rw [List.flatMap_cons, ih hKnown.2, hOne, List.singleton_append]
  rw [performAll_eq_setAll, hApplied]

/-! ### The last assignment wins -/

theorem lastGiven?_cons (literal : String) (value : α) (rest : List (String × α))
    (other : String) :
    lastGiven? ((literal, value) :: rest) other =
      (lastGiven? rest other).or (if other = literal then some value else none) := by
  rw [lastGiven?, List.reverse_cons, List.lookup_append, lastGiven?, List.lookup_cons,
    List.lookup_nil]
  by_cases h : other = literal
  · rw [beq_iff_eq.mpr h, if_pos h]
  · rw [beq_false_of_ne h, if_neg h]

/-- After known literals were given values, a component has the value that it was **given last**, or
else the one that it had. -/
theorem value?_setAll_of_known {circuit : Circuit α} {known : List (String × α)}
    (hKnown : ∀ assignment ∈ known, assignment.1 ∈ circuit.literals) (literal : String) :
    (circuit.setAll known).1.value? literal =
      (circuit.value? literal).map fun value => (lastGiven? known literal).getD value := by
  induction known generalizing circuit with
  | nil =>
      rw [setAll]
      cases circuit.value? literal <;> rfl
  | cons assignment known ih =>
      obtain ⟨given, value⟩ := assignment
      rw [List.forall_mem_cons] at hKnown
      obtain ⟨changed, hSet⟩ := exists_set_eq_ok hKnown.1 value
      have hLiterals : changed.literals = circuit.literals := by
        obtain ⟨values, rfl⟩ := exists_eq_withValues_of_set hSet
        rfl
      rw [setAll, hSet]
      dsimp only
      rw [ih (hLiterals ▸ hKnown.2), value?_of_set hSet, lastGiven?_cons]
      by_cases hGiven : literal = given
      · obtain ⟨place, hPlace, -⟩ := exists_finIdxOf?_eq_some hKnown.1
        rw [hGiven, if_pos rfl, if_pos rfl, value?, hPlace]
        cases lastGiven? known given <;> rfl
      · rw [if_neg hGiven, if_neg hGiven, Option.or_none]

/-! ### Runs from a source -/

variable [One α] {precedence : Precedence} {source : String}

/-- A call leads from a reached circuit to a reached circuit. -/
theorem Reached.perform {circuit : Circuit α} (h : Reached precedence source circuit)
    (call : Call α) : Reached precedence source (circuit.perform call).1 := by
  rw [perform_eq_setAll]
  exact h.setAll call.assignments

/-- The reached circuits are those behind the **runs** from the circuit of the source. -/
theorem reached_iff_exists_performAll {circuit : Circuit α} :
    Reached precedence source circuit ↔
      ∃ built, ofSource precedence source = .ok built ∧
        ∃ calls, built.performAll calls = circuit := by
  constructor
  · intro h
    induction h with
    | @built circuit h => exact ⟨circuit, h, [], rfl⟩
    | @set circuit changed literal value _ hSet ih =>
        obtain ⟨built, hBuilt, calls, rfl⟩ := ih
        refine ⟨built, hBuilt, calls ++ [.set literal value], ?_⟩
        rw [performAll_append, performAll_cons, Circuit.perform, hSet]
        rfl
    | @setAll circuit _ assignments ih =>
        obtain ⟨built, hBuilt, calls, rfl⟩ := ih
        exact ⟨built, hBuilt, calls ++ [.setAll assignments], performAll_append _ _ _⟩
  · rintro ⟨built, hBuilt, calls, rfl⟩
    have hRun : ∀ {circuit : Circuit α}, Reached precedence source circuit →
        Reached precedence source (circuit.performAll calls) := by
      induction calls with
      | nil => exact fun h => h
      | cons call calls ih => exact fun h => ih (h.perform call)
    exact hRun (.built hBuilt)

/-- Behind a run from a new circuit each literal has the value that was applied to it last, or the
value one. -/
theorem holds_performAll {circuit : Circuit α} (h : ofSource precedence source = .ok circuit)
    (calls : List (Call α)) :
    (circuit.performAll calls).Holds fun literal =>
      (lastGiven? (calls.flatMap circuit.applied) literal).getD 1 := by
  have hKnown : ∀ assignment ∈ calls.flatMap circuit.applied,
      assignment.1 ∈ circuit.literals := by
    intro assignment hMem
    obtain ⟨call, -, hApplied⟩ := List.mem_flatMap.mp hMem
    exact mem_literals_of_mem_applied assignment hApplied
  intro literal hMem
  rw [performAll_eq_setAll, literals_setAll] at hMem
  obtain ⟨items, -, rfl⟩ := ofSource_eq_ok_iff.mp h
  rw [performAll_eq_setAll, value?_setAll_of_known hKnown, holds_ofPostfix source items _ hMem]
  rfl

/-- **Runs of calls.** Behind any run from the circuit of a source the circuit is the same up to its
values, no literal stands twice among its components, and each has the value that was applied
to it last, or one if none was. Then a call of `set` for an unknown literal reports the literal
and changes nothing, and one for a known literal succeeds. A call of `setAll` whose literals
are known succeeds, and leaves what calls of `set` one by one leave; otherwise it reports the
first unknown literal, and leaves what they leave for the assignments before it. -/
theorem performAll_outcome {circuit : Circuit α} (h : ofSource precedence source = .ok circuit)
    (calls : List (Call α)) :
    (∃ values, circuit.performAll calls = { circuit with values := values }) ∧
    circuit.literals.Nodup ∧
    ((circuit.performAll calls).components = circuit.literals.map fun literal =>
      (literal, (lastGiven? (calls.flatMap circuit.applied) literal).getD 1)) ∧
    (∀ literal value, literal ∉ circuit.literals →
      (circuit.performAll calls).perform (.set literal value) =
        (circuit.performAll calls, .error (.unknownComponent literal))) ∧
    (∀ literal value, literal ∈ circuit.literals →
      ((circuit.performAll calls).perform (.set literal value)).2 = .ok ()) ∧
    (∀ assignments, (∀ assignment ∈ assignments, assignment.1 ∈ circuit.literals) →
      (circuit.performAll calls).perform (.setAll assignments) =
        ((circuit.performAll calls).performAll
          (assignments.map fun assignment => .set assignment.1 assignment.2), .ok ())) ∧
    ∀ before literal value after,
      (∀ assignment ∈ before, assignment.1 ∈ circuit.literals) → literal ∉ circuit.literals →
        (circuit.performAll calls).perform (.setAll (before ++ (literal, value) :: after)) =
          ((circuit.performAll calls).performAll
            (before.map fun assignment => .set assignment.1 assignment.2),
            .error (.unknownComponent literal)) := by
  have hNodup : circuit.literals.Nodup := (Reached.built h).nodup_literals
  obtain ⟨values, hValues⟩ : ∃ values, circuit.performAll calls = circuit.withValues values := by
    rw [performAll_eq_setAll]
    exact exists_setAll_eq_withValues circuit _
  have hLiterals : (circuit.performAll calls).literals = circuit.literals := by
    rw [hValues]
    rfl
  have hComponents := (holds_performAll h calls).components_eq (hLiterals ▸ hNodup)
  rw [hLiterals] at hComponents
  -- The next call is made in a circuit of which only the literals matter.
  generalize circuit.performAll calls = state at hValues hLiterals hComponents ⊢
  refine ⟨⟨values, hValues⟩, hNodup, hComponents, ?_⟩
  rw [← hLiterals]
  refine ⟨?_, ?_, ?_, ?_⟩
  · intro literal value hUnknown
    rw [perform_eq_setAll]
    exact setAll_cons_of_unknown hUnknown value []
  · intro literal value hKnown
    rw [perform_eq_setAll, setAll_of_known (by simpa [Call.assignments] using hKnown)]
  · intro assignments hKnown
    rw [performAll_map_set hKnown, perform_eq_setAll]
    exact setAll_of_known hKnown
  · intro before literal value after hKnown hUnknown
    rw [performAll_map_set hKnown, perform_eq_setAll, Call.assignments,
      setAll_append_of_known hKnown, setAll_cons_of_unknown (by simpa using hUnknown)]

/-- In `R - C` a run that meets an unknown literal in the middle of a call: what stands before it is
applied, what stands behind it is not. -/
theorem performAll_outcome_of_partial_call :
    ∃ circuit : Circuit Binary64, ofSource .uniform "R - C" = .ok circuit ∧
      (circuit.performAll [.setAll [("R1", 0), ("L1", 0), ("C1", 0)], .set "L1" 0]).components =
        [("R1", 0), ("C1", 1)] ∧
      (circuit.performAll [.setAll [("R1", 0)]]).perform (.set "L1" 0) =
        (circuit.performAll [.setAll [("R1", 0)]], .error (.unknownComponent "L1")) := by
  have hSource : ofSource (α := Binary64) .uniform "R - C" =
      .ok (ofPostfix "R - C" [.operand (.ofComponent "R1" ⟨"R", 0⟩),
        .operand (.ofComponent "C1" ⟨"C", 4⟩), .operator ⟨.series, ⟨"-", 2⟩⟩]) := rfl
  obtain ⟨-, -, hComponents, -⟩ :=
    performAll_outcome hSource [.setAll [("R1", 0), ("L1", 0), ("C1", 0)], .set "L1" 0]
  obtain ⟨-, -, -, hUnknown, -⟩ := performAll_outcome hSource [.setAll [("R1", 0)]]
  refine ⟨_, hSource, ?_, hUnknown "L1" 0 (by decide)⟩
  rw [hComponents]
  decide

end EquivalentCircuit.Circuit
