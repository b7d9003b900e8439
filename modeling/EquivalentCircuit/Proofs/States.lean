import EquivalentCircuit.Circuit.Basic

/-!
# The States of a Circuit

A circuit is built from a source once, and after that only its values change, by literal. The
circuits that can be **reached** from a source this way share everything but their values with
the circuit of the postfix order of the source (`Reached.exists_eq_withValues`), and a value is
read where it was written (`value?_of_set`), so that every assignment of values to the literals
is reached (`exists_reached_holds`).
-/

universe u

namespace EquivalentCircuit.Circuit

variable {α : Type u}

/-! ### Places -/

/-- A literal of a list has a place in it. -/
theorem exists_finIdxOf?_eq_some {literals : List String} {literal : String}
    (h : literal ∈ literals) :
    ∃ place, literals.finIdxOf? literal = some place ∧ literals.get place = literal := by
  rcases hPlace : literals.finIdxOf? literal with - | place
  · exact absurd h (List.finIdxOf?_eq_none_iff.mp hPlace)
  · exact ⟨place, rfl, (List.finIdxOf?_eq_some_iff.mp hPlace).1⟩

/-- Looking a key up among pairs is reading the value at the place of the key. -/
theorem lookup_zip (keys : List String) (values : List α) (key : String)
    (hLength : keys.length = values.length) :
    (keys.zip values).lookup key = (keys.finIdxOf? key).bind fun place => values[place.val]? := by
  induction keys generalizing values with
  | nil => rfl
  | cons first keys ih =>
      rcases values with - | ⟨value, values⟩
      · simp at hLength
      · rw [List.length_cons, List.length_cons, Nat.add_right_cancel_iff] at hLength
        rw [List.zip_cons_cons, List.lookup_cons, List.finIdxOf?_cons, ih values hLength]
        by_cases hKey : key = first
        · subst hKey
          simp
        · have hBeq : (key == first) = false := beq_false_of_ne hKey
          rw [hBeq, if_neg (by simpa using Ne.symm hKey), Option.bind_map]
          rfl

/-- The value of a literal is what the components list for it. -/
theorem lookup_components (circuit : Circuit α) (literal : String) :
    circuit.components.lookup literal = circuit.value? literal := by
  rw [components, lookup_zip _ _ _ (by simp), value?]
  rcases circuit.literals.finIdxOf? literal with - | place
  · rfl
  · simp
    rfl

/-- At each place the components list the literal and the value of that place. -/
theorem getElem?_components (circuit : Circuit α) (place : Fin circuit.literals.length) :
    circuit.components[place.val]? =
      some (circuit.literals.get place, circuit.values.get place) := by
  rw [components, List.getElem?_zip_eq_some]
  constructor
  · exact List.getElem?_eq_getElem place.isLt
  · rw [Vector.getElem?_toList]
    exact Vector.getElem?_eq_getElem place.isLt

/-- The value of the literal at a place is the value at that place, if the literal stands nowhere
else. -/
theorem value?_get_of_nodup {circuit : Circuit α} (hNodup : circuit.literals.Nodup)
    (place : Fin circuit.literals.length) :
    circuit.value? (circuit.literals.get place) = some (circuit.values.get place) := by
  obtain ⟨found, hFound, hGet⟩ := exists_finIdxOf?_eq_some (circuit.literals.get_mem place)
  obtain rfl : found = place := Fin.ext ((List.getElem_inj hNodup).mp hGet)
  rw [value?, hFound, Option.map_some]

/-! ### Giving values -/

/-- A circuit with all its values **replaced**. -/
def withValues (circuit : Circuit α) (values : Vector α circuit.literals.length) : Circuit α :=
  { circuit with values := values }

/-- Giving a value to one component replaces values and nothing else. -/
theorem exists_eq_withValues_of_set {circuit changed : Circuit α} {literal : String} {value : α}
    (h : circuit.set literal value = .ok changed) :
    ∃ values, changed = circuit.withValues values := by
  rw [set] at h
  split at h
  · exact ⟨_, (Except.ok.inj h).symm⟩
  · exact absurd h (by simp)

/-- Giving several values replaces values and nothing else, also when it fails. -/
theorem exists_setAll_eq_withValues (circuit : Circuit α) (assignments : List (String × α)) :
    ∃ values, (circuit.setAll assignments).1 = circuit.withValues values := by
  induction assignments generalizing circuit with
  | nil => exact ⟨circuit.values, rfl⟩
  | cons assignment rest ih =>
      obtain ⟨literal, value⟩ := assignment
      rw [setAll]
      split
      · next changed hSet =>
          obtain ⟨first, rfl⟩ := exists_eq_withValues_of_set hSet
          exact ih (circuit.withValues first)
      · exact ⟨circuit.values, rfl⟩

/-- After a value was given to a component, that component has the new value and every other one
the value that it had. -/
theorem value?_of_set {circuit changed : Circuit α} {literal : String} {value : α}
    (h : circuit.set literal value = .ok changed) (other : String) :
    changed.value? other = if other = literal then some value else circuit.value? other := by
  rw [set] at h
  split at h
  · next place hPlace =>
      obtain rfl := Except.ok.inj h
      have hLiteral : circuit.literals[place] = literal := (List.finIdxOf?_eq_some_iff.mp hPlace).1
      rw [value?, value?]
      by_cases hOther : other = literal
      · rw [if_pos hOther, hOther, hPlace]
        exact congrArg some (Vector.getElem_set_self _)
      · rw [if_neg hOther]
        rcases hIdx : circuit.literals.finIdxOf? other with - | otherPlace
        · rfl
        · have hNe : place.val ≠ otherPlace.val := by
            intro hEq
            refine hOther ?_
            rw [← (List.finIdxOf?_eq_some_iff.mp hIdx).1, ← hLiteral, Fin.ext hEq]
          exact congrArg some (Vector.getElem_set_ne place.isLt otherPlace.isLt hNe)
  · exact absurd h (by simp)

/-- A component can be given a value. -/
theorem exists_set_eq_ok {circuit : Circuit α} {literal : String}
    (h : literal ∈ circuit.literals) (value : α) :
    ∃ changed, circuit.set literal value = .ok changed := by
  obtain ⟨place, hPlace, -⟩ := exists_finIdxOf?_eq_some h
  rw [set, hPlace]
  exact ⟨_, rfl⟩

/-! ### Reached circuits -/

variable [One α] {precedence : Precedence} {source : String}

/-- The circuits that are **reached** from a source: the circuit of the source, and what becomes of
a reached circuit when it is given values, by calls that succeed or fail. A call of `set` that
fails leaves no new circuit. -/
inductive Reached (precedence : Precedence) (source : String) : Circuit α → Prop
  | built {circuit : Circuit α} (h : ofSource precedence source = .ok circuit) :
      Reached precedence source circuit
  | set {circuit changed : Circuit α} {literal : String} {value : α}
      (h : Reached precedence source circuit) (hSet : circuit.set literal value = .ok changed) :
      Reached precedence source changed
  | setAll {circuit : Circuit α} (h : Reached precedence source circuit)
      (assignments : List (String × α)) : Reached precedence source (circuit.setAll assignments).1

/-- Building a circuit is bringing its source into postfix order. -/
theorem ofSource_eq_ok_iff {circuit : Circuit α} :
    ofSource precedence source = .ok circuit ↔
      ∃ items, Postfix.parse precedence source = .ok items ∧ ofPostfix source items = circuit := by
  rw [ofSource]
  cases Postfix.parse precedence source <;> simp

/-- A reached circuit is the circuit of its source **up to values**. -/
theorem Reached.exists_eq_withValues {circuit : Circuit α}
    (h : Reached precedence source circuit) :
    ∃ items, Postfix.parse precedence source = .ok items ∧
      ∃ values, circuit = (ofPostfix source items).withValues values := by
  induction h with
  | built h =>
      obtain ⟨items, hParse, rfl⟩ := ofSource_eq_ok_iff.mp h
      exact ⟨items, hParse, _, rfl⟩
  | set _ hSet ih =>
      obtain ⟨items, hParse, values, rfl⟩ := ih
      obtain ⟨values, rfl⟩ := exists_eq_withValues_of_set hSet
      exact ⟨items, hParse, values, rfl⟩
  | @setAll circuit _ assignments ih =>
      obtain ⟨items, hParse, values, hCircuit⟩ := ih
      obtain ⟨replaced, hAll⟩ := exists_setAll_eq_withValues circuit assignments
      subst hCircuit
      exact ⟨items, hParse, replaced, hAll⟩

/-- The items of a reached circuit are the postfix order of its source. -/
theorem Reached.parse_eq {circuit : Circuit α} (h : Reached precedence source circuit) :
    Postfix.parse precedence source = .ok circuit.items := by
  obtain ⟨items, hParse, values, rfl⟩ := h.exists_eq_withValues
  exact hParse

/-- The steps of a reached circuit are those of its items. -/
theorem Reached.steps_eq {circuit : Circuit α} (h : Reached precedence source circuit) :
    circuit.steps = circuit.items.filterMap (Step.ofItem? circuit.literals) := by
  obtain ⟨items, -, values, rfl⟩ := h.exists_eq_withValues
  rfl

/-- The literals of a reached circuit are those of its items. -/
theorem Reached.mem_literals_iff {circuit : Circuit α} (h : Reached precedence source circuit)
    {literal : String} : literal ∈ circuit.literals ↔ literal ∈ circuit.items.literals := by
  obtain ⟨items, -, values, rfl⟩ := h.exists_eq_withValues
  exact List.mem_eraseDups

/-- A circuit **holds** an assignment when each of its literals has the value that is assigned to
it. -/
def Holds (circuit : Circuit α) (assignment : String → α) : Prop :=
  ∀ literal ∈ circuit.literals, circuit.value? literal = some (assignment literal)

omit [One α] in
/-- A circuit that holds an assignment **lists** the literals with the values that are assigned to
them. -/
theorem Holds.components_eq {circuit : Circuit α} {assignment : String → α}
    (h : circuit.Holds assignment) (hNodup : circuit.literals.Nodup) :
    circuit.components = circuit.literals.map fun literal => (literal, assignment literal) := by
  apply List.ext_getElem?
  intro i
  by_cases hLt : i < circuit.literals.length
  · have hValue := h _ (circuit.literals.get_mem ⟨i, hLt⟩)
    rw [value?_get_of_nodup hNodup] at hValue
    rw [getElem?_components circuit ⟨i, hLt⟩, Option.some.inj hValue, List.getElem?_map,
      List.getElem?_eq_getElem hLt]
    rfl
  · have hLength : circuit.components.length = circuit.literals.length := by simp [components]
    rw [List.getElem?_eq_none (by omega), List.getElem?_eq_none (by simpa using hLt)]

/-- In a new circuit every value is one. -/
theorem holds_ofPostfix (source : String) (items : Postfix) :
    (ofPostfix (α := α) source items).Holds fun _ => 1 := by
  intro literal hMem
  obtain ⟨place, hPlace, -⟩ := exists_finIdxOf?_eq_some hMem
  rw [value?, hPlace, Option.map_some]
  exact congrArg some (Vector.getElem_replicate place.isLt)

/-- **Every assignment is reached** from a source that builds a circuit. -/
theorem exists_reached_holds {circuit : Circuit α} (h : Reached precedence source circuit)
    (assignment : String → α) :
    ∃ changed : Circuit α, Reached precedence source changed ∧ changed.Holds assignment := by
  -- Literals are given their values one by one; a value that is right stays right.
  suffices hPart : ∀ given : List String, (∀ literal ∈ given, literal ∈ circuit.literals) →
      ∃ changed : Circuit α, Reached precedence source changed ∧
        changed.literals = circuit.literals ∧
        ∀ literal ∈ given, changed.value? literal = some (assignment literal) by
    obtain ⟨changed, hReached, hLiterals, hHolds⟩ := hPart circuit.literals fun _ hMem => hMem
    exact ⟨changed, hReached, fun literal hMem => hHolds literal (hLiterals ▸ hMem)⟩
  intro given
  induction given with
  | nil => exact fun _ => ⟨circuit, h, rfl, by simp⟩
  | cons literal given ih =>
      intro hGiven
      rw [List.forall_mem_cons] at hGiven
      obtain ⟨before, hReached, hLiterals, hHolds⟩ := ih hGiven.2
      obtain ⟨changed, hSet⟩ := exists_set_eq_ok (hLiterals ▸ hGiven.1) (assignment literal)
      obtain ⟨values, hValues⟩ := exists_eq_withValues_of_set hSet
      refine ⟨changed, hReached.set hSet, by rw [hValues, ← hLiterals]; rfl, ?_⟩
      intro other hMem
      rw [value?_of_set hSet]
      by_cases hOther : other = literal
      · rw [if_pos hOther, hOther]
      · rw [if_neg hOther]
        exact hHolds other ((List.mem_cons.mp hMem).resolve_left hOther)

end EquivalentCircuit.Circuit
