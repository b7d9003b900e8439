import EquivalentCircuit.Proofs.Conversion

/-!
# Groups as Operands

A group in parentheses does in a sequence of tokens what a component does: the conversion puts out
its items in one piece, and nothing else in the result changes. This holds in any surroundings,
also where operators and operands do not alternate and where parentheses are not balanced.

Two facts about the conversion carry this. What is read inside a group never touches what waits
outside of it (`convert_group_append`): an operator completes operators of its own group only, and
the group ends with nothing left in it. And tokens that come first act on the tokens behind them
through what waits and which groups are open, and through nothing else
(`convert_append_error_or_prepend`).

## Main results

* `Postfix.convert_group_append`: the frame of a group.
* `Postfix.ofTokens_replace_component_by_group`: a group in place of a component.
-/

namespace EquivalentCircuit.Postfix

variable {precedence : Precedence}

/-! ### The frame of a group -/

/-- **The frame of a group.** When tokens are converted on their own, and a group ends behind them,
they put out the same items above anything that waits outside of the group. Then the conversion
goes on with what was put aside when the group was opened. -/
theorem convert_group_append {waiting : List Operator} {inner : List (Nat × List Operator)}
    {group : List Token} {items : Postfix} (hGroup : ∀ token ∈ group, token.isEnd = false)
    (h : convert precedence waiting inner group = .ok items) (offset : Nat)
    (suspended : List Operator) (outer : List (Nat × List Operator)) (rightParen : Lexeme)
    (rest : List Token) :
    convert precedence waiting (inner ++ (offset, suspended) :: outer)
        (group ++ .rightParen rightParen :: rest) =
      prepend items (convert precedence suspended outer rest) := by
  induction group generalizing waiting inner items with
  | nil =>
      -- The tokens are used up, so that every group opened among them has been closed.
      rcases inner with - | ⟨opened, inner⟩
      · obtain rfl := Except.ok.inj h
        exact convert_rightParen _ _ _ _ _ _
      · exact absurd h (by simp [convert, finish])
  | cons token group ih =>
      obtain ⟨hToken, hFollow⟩ := List.forall_mem_cons.mp hGroup
      rw [List.cons_append]
      cases token with
      | component literal lexeme =>
          rw [convert_component, prepend_eq_ok_iff] at h
          obtain ⟨following, hFollowing, rfl⟩ := h
          rw [convert_component, ih hFollow hFollowing, prepend_prepend]
      | operator op =>
          rw [convert_operator, prepend_eq_ok_iff] at h
          obtain ⟨following, hFollowing, rfl⟩ := h
          rw [convert_operator, ih hFollow hFollowing, prepend_prepend]
      | leftParen lexeme =>
          rw [convert_leftParen] at h
          rw [convert_leftParen, ← List.cons_append]
          exact ih hFollow h
      | rightParen lexeme =>
          rcases inner with - | ⟨⟨opened, resumed⟩, inner⟩
          · exact absurd h (by simp [convert])
          · rw [convert_rightParen, prepend_eq_ok_iff] at h
            obtain ⟨following, hFollowing, rfl⟩ := h
            rw [List.cons_append, convert_rightParen, ih hFollow hFollowing, prepend_prepend]
      | endOfInput lexeme => exact absurd hToken (by simp [Token.isEnd])

/-- A group of tokens that are converted on their own is put out as their items, whatever waits
around it. -/
theorem convert_group {group : List Token} {items : Postfix}
    (hGroup : ∀ token ∈ group, token.isEnd = false)
    (h : ofTokens precedence group = .ok items) (waiting : List Operator)
    (outer : List (Nat × List Operator)) (leftParen rightParen : Lexeme) (rest : List Token) :
    convert precedence waiting outer
        (.leftParen leftParen :: (group ++ .rightParen rightParen :: rest)) =
      prepend items (convert precedence waiting outer rest) := by
  rw [convert_leftParen]
  exact convert_group_append hGroup h leftParen.offset waiting outer rightParen rest

/-! ### What comes first -/

/-- **One token** is at fault whatever follows it, or it puts out items and leaves operators waiting
and groups open, from where the rest is converted. It puts out an operand only if it is one. -/
theorem convert_cons_error_or_prepend (precedence : Precedence) {token : Token}
    (hToken : token.isEnd = false) (waiting : List Operator)
    (outer : List (Nat × List Operator)) :
    (∃ fault, ∀ rest, convert precedence waiting outer (token :: rest) = .error fault) ∨
      ∃ front waiting' outer', operands front = token.operand?.toList ∧
        ∀ rest, convert precedence waiting outer (token :: rest) =
          prepend front (convert precedence waiting' outer' rest) := by
  cases token with
  | component literal lexeme =>
      exact .inr ⟨_, waiting, outer, operands_operand _,
        convert_component waiting outer literal lexeme⟩
  | operator op =>
      exact .inr ⟨_, _, outer, operands_map_operator _, convert_operator waiting outer op⟩
  | leftParen lexeme =>
      refine .inr ⟨[], [], (lexeme.offset, waiting) :: outer, rfl, fun rest => ?_⟩
      rw [convert_leftParen, prepend_nil]
  | rightParen lexeme =>
      rcases outer with - | ⟨⟨offset, suspended⟩, outer⟩
      · exact .inl ⟨.unmatchedClose lexeme.offset, fun _ => rfl⟩
      · exact .inr ⟨_, suspended, outer, operands_map_operator _,
          convert_rightParen waiting suspended offset outer lexeme⟩
  | endOfInput lexeme => exact absurd hToken (by simp [Token.isEnd])

/-- **Tokens that come first** are at fault whatever follows them, or they put out items and leave
operators waiting and groups open, from where the rest is converted. The operands among those
items are the components that were read. -/
theorem convert_append_error_or_prepend (precedence : Precedence) {before : List Token}
    (hBefore : ∀ token ∈ before, token.isEnd = false) (waiting : List Operator)
    (outer : List (Nat × List Operator)) :
    (∃ fault, ∀ rest, convert precedence waiting outer (before ++ rest) = .error fault) ∨
      ∃ front waiting' outer', operands front = before.filterMap Token.operand? ∧
        ∀ rest, convert precedence waiting outer (before ++ rest) =
          prepend front (convert precedence waiting' outer' rest) := by
  induction before generalizing waiting outer with
  | nil => exact .inr ⟨[], waiting, outer, rfl, fun rest => (prepend_nil _).symm⟩
  | cons token before ih =>
      obtain ⟨hToken, hFollow⟩ := List.forall_mem_cons.mp hBefore
      rcases convert_cons_error_or_prepend precedence hToken waiting outer with
        ⟨fault, hFault⟩ | ⟨first, waiting', outer', hFirst, hStep⟩
      · exact .inl ⟨fault, fun rest => hFault (before ++ rest)⟩
      rcases ih hFollow waiting' outer' with
        ⟨fault, hFault⟩ | ⟨front, waiting'', outer'', hFront, hRest⟩
      · refine .inl ⟨fault, fun rest => ?_⟩
        rw [List.cons_append, hStep, hFault, prepend_error]
      · refine .inr ⟨first ++ front, waiting'', outer'', ?_, fun rest => ?_⟩
        · rw [operands_append, hFirst, hFront, List.filterMap_cons]
          cases token.operand? <;> rfl
        · rw [List.cons_append, hStep, hRest, prepend_prepend]

/-! ### A group in place of a component -/

/-- **A group acts as a component.** Take any tokens with a component among them, and put in its
place a group of tokens that are converted on their own. If the conversion failed it fails with
the same fault. If it succeeded it succeeds, and the items of the group stand where the component
stood: behind the operands of the tokens before it. In particular parentheses around tokens that
are converted change nothing. -/
theorem ofTokens_replace_component_by_group (precedence : Precedence) {before group : List Token}
    (hBefore : ∀ token ∈ before, token.isEnd = false)
    (hGroup : ∀ token ∈ group, token.isEnd = false) {items : Postfix}
    (hItems : ofTokens precedence group = .ok items) (literal : String)
    (lexeme leftParen rightParen : Lexeme) (after : List Token) :
    (∀ fault,
      ofTokens precedence (before ++ [.component literal lexeme] ++ after) = .error fault →
        ofTokens precedence
          (before ++ [.leftParen leftParen] ++ group ++ [.rightParen rightParen] ++ after) =
            .error fault) ∧
    (∀ result,
      ofTokens precedence (before ++ [.component literal lexeme] ++ after) = .ok result →
        ∃ front back, result = front ++ [.operand (.ofComponent literal lexeme)] ++ back ∧
          operands front = before.filterMap Token.operand? ∧
          ofTokens precedence
            (before ++ [.leftParen leftParen] ++ group ++ [.rightParen rightParen] ++ after) =
              .ok (front ++ items ++ back)) ∧
    ofTokens precedence ([.leftParen leftParen] ++ group ++ [.rightParen rightParen]) =
      .ok items := by
  have hAlone := convert_group hGroup hItems [] [] leftParen rightParen []
  rw [convert, finish, prepend_ok, List.map_nil, List.append_nil] at hAlone
  simp only [List.append_assoc, List.cons_append, List.nil_append, ofTokens]
  rcases convert_append_error_or_prepend precedence hBefore [] [] with
    ⟨fault, hFault⟩ | ⟨front, waiting, outer, hFront, hRest⟩
  · simp only [hFault]
    exact ⟨fun _ h => h, fun _ h => absurd h (by simp), hAlone⟩
  · rw [hRest, hRest, convert_component, convert_group hGroup hItems]
    refine ⟨fun fault h => ?_, fun result h => ?_, hAlone⟩
    · rcases hAfter : convert precedence waiting outer after with other | back
      · rw [hAfter] at h
        exact h
      · rw [hAfter] at h
        exact absurd h (by simp)
    · rw [prepend_prepend, prepend_eq_ok_iff] at h
      obtain ⟨back, hAfter, rfl⟩ := h
      refine ⟨front, back, List.append_assoc _ _ _, hFront, ?_⟩
      rw [hAfter, prepend_ok, prepend_ok]

/-- In `R | X - C` with ranked precedence the group `(L - W)` takes the place of `X`. -/
theorem ofTokens_group_between_parallel_and_series :
    ofTokens .ranked [.component "L1" ⟨"L", 5⟩, .operator ⟨.series, ⟨"-", 7⟩⟩,
        .component "W1" ⟨"W", 9⟩] =
      .ok [.operand (.ofComponent "L1" ⟨"L", 5⟩), .operand (.ofComponent "W1" ⟨"W", 9⟩),
        .operator ⟨.series, ⟨"-", 7⟩⟩] ∧
    ∃ front back,
      [Item.operand (.ofComponent "R1" ⟨"R", 0⟩), .operand (.ofComponent "X1" ⟨"X", 4⟩),
        .operator ⟨.parallel, ⟨"|", 2⟩⟩, .operand (.ofComponent "C1" ⟨"C", 14⟩),
        .operator ⟨.series, ⟨"-", 12⟩⟩] =
          front ++ [Item.operand (.ofComponent "X1" ⟨"X", 4⟩)] ++ back ∧
      operands front = [.ofComponent "R1" ⟨"R", 0⟩] ∧
      ofTokens .ranked [.component "R1" ⟨"R", 0⟩, .operator ⟨.parallel, ⟨"|", 2⟩⟩,
          .leftParen ⟨"(", 4⟩, .component "L1" ⟨"L", 5⟩, .operator ⟨.series, ⟨"-", 7⟩⟩,
          .component "W1" ⟨"W", 9⟩, .rightParen ⟨")", 10⟩, .operator ⟨.series, ⟨"-", 12⟩⟩,
          .component "C1" ⟨"C", 14⟩] =
        .ok (front ++ [.operand (.ofComponent "L1" ⟨"L", 5⟩),
          .operand (.ofComponent "W1" ⟨"W", 9⟩), .operator ⟨.series, ⟨"-", 7⟩⟩] ++ back) := by
  have hItems : ofTokens .ranked [.component "L1" ⟨"L", 5⟩, .operator ⟨.series, ⟨"-", 7⟩⟩,
      .component "W1" ⟨"W", 9⟩] =
        .ok [.operand (.ofComponent "L1" ⟨"L", 5⟩), .operand (.ofComponent "W1" ⟨"W", 9⟩),
          .operator ⟨.series, ⟨"-", 7⟩⟩] := rfl
  have hBefore : ∀ token ∈ [Token.component "R1" ⟨"R", 0⟩, .operator ⟨.parallel, ⟨"|", 2⟩⟩],
      token.isEnd = false := by decide
  obtain ⟨-, hOk, -⟩ := ofTokens_replace_component_by_group .ranked hBefore (by decide) hItems
    "X1" ⟨"X", 4⟩ ⟨"(", 4⟩ ⟨")", 10⟩ [.operator ⟨.series, ⟨"-", 12⟩⟩, .component "C1" ⟨"C", 14⟩]
  exact ⟨hItems, hOk _ rfl⟩

end EquivalentCircuit.Postfix
