import EquivalentCircuit.Proofs.Meaning
import EquivalentCircuit.Proofs.Numbering

/-!
# Places in the Source

Every lexeme carries the place where it starts in its source. The places serve to report faults
and nothing else: a text that starts at another place has the same tokens at other places
(`Token.map_moved_ofText`); when the places of the tokens are **moved** by any function, the
conversion gives the same result with its places moved (`ofTokens_map_moved`); and items with other
places mean the same circuit (`interpret_map_moved`). So two sources whose items agree up to their
places cannot be told apart by evaluation (`Reached.evaluateWith_eq_of_map_unplaced`), and not by
their circuits at all (`indistinguishable_of_map_unplaced`).
-/

universe u

namespace EquivalentCircuit

/-! ### Moving places -/

section Moved

variable (move : Nat → Nat)

/-- A lexeme at **another place**. -/
def Lexeme.moved (lexeme : Lexeme) : Lexeme :=
  { lexeme with offset := move lexeme.offset }

/-- An operand at another place. -/
def Operand.moved (operand : Operand) : Operand :=
  { operand with lexeme := operand.lexeme.moved move }

/-- An operator at another place. -/
def Operator.moved (op : Operator) : Operator :=
  { op with lexeme := op.lexeme.moved move }

/-- An item at another place. -/
def Item.moved : Item → Item
  | .operand component => .operand (component.moved move)
  | .operator op => .operator (op.moved move)

/-- A token at another place. -/
def Token.moved : Token → Token
  | .component literal lexeme => .component literal (lexeme.moved move)
  | .operator op => .operator (op.moved move)
  | .leftParen lexeme => .leftParen (lexeme.moved move)
  | .rightParen lexeme => .rightParen (lexeme.moved move)
  | .endOfInput lexeme => .endOfInput (lexeme.moved move)

/-- A fault at another place. -/
def SyntaxError.moved : SyntaxError → SyntaxError
  | .unknownCharacter character offset => .unknownCharacter character (move offset)
  | .unmatchedClose offset => .unmatchedClose (move offset)
  | .unclosedOpen offset => .unclosedOpen (move offset)

end Moved

namespace Token

/-- Where no place moves, tokens are what they were. -/
theorem moved_id : moved id = id := by
  funext token
  cases token <;> rfl

/-- A token that starts at a character starts where the character does. -/
theorem starting_map_moved (move : Nat → Nat) (earlier : List String) (inName : Bool)
    (offset : Nat) (c : Char) (word : List Char) :
    (starting earlier inName offset c word).map (moved move) =
      starting earlier inName (move offset) c word := by
  rw [starting, starting]
  split
  · rfl
  · rfl
  · rfl
  · cases inName <;> rfl
  · rfl
  · rfl

/-- **Tokens of a text** that starts somewhere else: they are the same up to places, and where the
places are moved together they are the same. -/
theorem map_moved_ofText {move other : Nat → Nat} {offset start : Nat}
    (hPlaces : ∀ k, move (offset + k) = other (start + k)) (earlier : List String)
    (inName : Bool) (text : List Char) :
    (ofText earlier inName offset text).map (moved move) =
      (ofText earlier inName start text).map (moved other) := by
  induction text generalizing earlier inName offset start with
  | nil =>
      have hPlace : move offset = other start := hPlaces 0
      rw [ofText, ofText, List.map_singleton, List.map_singleton, moved, moved, Lexeme.moved,
        Lexeme.moved, hPlace]
  | cons c rest ih =>
      have hPlace : move offset = other start := hPlaces 0
      have hRest : ∀ k, move (offset + c.utf8Size + k) = other (start + c.utf8Size + k) := by
        intro k
        rw [Nat.add_assoc, Nat.add_assoc]
        exact hPlaces _
      rw [ofText_cons, ofText_cons, List.map_append, List.map_append, starting_map_moved,
        starting_map_moved, hPlace, names_starting earlier inName offset start, ih hRest]

end Token

namespace Postfix

variable {precedence : Precedence} {move : Nat → Nat}

/-- A result of the conversion with its **places moved**. -/
def movedResult (move : Nat → Nat) : Except SyntaxError Postfix → Except SyntaxError Postfix
  | .ok items => .ok (items.map (Item.moved move))
  | .error fault => .error (fault.moved move)

/-- A result that is moved to items was a result. -/
theorem exists_eq_ok_of_movedResult_eq_ok {result : Except SyntaxError Postfix} {items : Postfix}
    (h : movedResult move result = .ok items) :
    ∃ before, result = .ok before ∧ before.map (Item.moved move) = items := by
  cases result with
  | error fault => exact absurd h (by simp [movedResult])
  | ok before => exact ⟨before, rfl, Except.ok.inj h⟩

theorem movedResult_prepend (items : Postfix) (result : Except SyntaxError Postfix) :
    movedResult move (prepend items result) =
      prepend (items.map (Item.moved move)) (movedResult move result) := by
  cases result with
  | error fault => rfl
  | ok rest => simp [movedResult]

theorem movedResult_finish (waiting : List Operator) (outer : List (Nat × List Operator)) :
    finish (waiting.map (Operator.moved move))
        (outer.map fun group => (move group.1, group.2.map (Operator.moved move))) =
      movedResult move (finish waiting outer) := by
  rcases outer with - | ⟨⟨offset, suspended⟩, outer⟩
  · simp [finish, movedResult, Item.moved]
  · rfl

/-- The conversion takes places as they come: it **commutes with moving** them, also those of what
waits and of the groups that are open. -/
theorem convert_map_moved (waiting : List Operator) (outer : List (Nat × List Operator))
    (tokens : List Token) :
    convert precedence (waiting.map (Operator.moved move))
        (outer.map fun group => (move group.1, group.2.map (Operator.moved move)))
        (tokens.map (Token.moved move)) =
      movedResult move (convert precedence waiting outer tokens) := by
  induction tokens generalizing waiting outer with
  | nil => exact movedResult_finish waiting outer
  | cons token rest ih =>
      rw [List.map_cons]
      cases token with
      | component literal lexeme =>
          rw [Token.moved, convert_component, convert_component, ih, movedResult_prepend]
          rfl
      | operator op =>
          have hTake : (waiting.map (Operator.moved move)).takeWhile
              (fun o => precedence.completes o.connection (op.moved move).connection) =
              (waiting.takeWhile fun o =>
                precedence.completes o.connection op.connection).map (Operator.moved move) :=
            List.takeWhile_map
          have hDrop : (waiting.map (Operator.moved move)).dropWhile
              (fun o => precedence.completes o.connection (op.moved move).connection) =
              (waiting.dropWhile fun o =>
                precedence.completes o.connection op.connection).map (Operator.moved move) :=
            List.dropWhile_map
          rw [Token.moved, convert_operator, convert_operator, hTake, hDrop, ← List.map_cons, ih,
            movedResult_prepend, List.map_map, List.map_map]
          rfl
      | leftParen lexeme =>
          rw [Token.moved, convert_leftParen, convert_leftParen]
          exact ih [] ((lexeme.offset, waiting) :: outer)
      | rightParen lexeme =>
          rcases outer with - | ⟨⟨offset, suspended⟩, outer⟩
          · rfl
          · rw [Token.moved, List.map_cons, convert_rightParen, convert_rightParen, ih,
              movedResult_prepend, List.map_map, List.map_map]
            rfl
      | endOfInput lexeme => exact movedResult_finish waiting outer

/-- Tokens at other places are converted to **items at other places**, or to the same fault at
another place. -/
theorem ofTokens_map_moved (tokens : List Token) :
    ofTokens precedence (tokens.map (Token.moved move)) =
      movedResult move (ofTokens precedence tokens) :=
  convert_map_moved [] [] tokens

end Postfix

/-! ### Items without their places -/

/-- An item **without its place**: moved to the beginning. -/
def Item.unplaced : Item → Item :=
  Item.moved fun _ => 0

/-- Without its place an item is the same wherever it was moved. -/
theorem Item.unplaced_moved (move : Nat → Nat) (item : Item) :
    (item.moved move).unplaced = item.unplaced := by
  cases item <;> rfl

/-- A token without its place. -/
def Token.unplaced : Token → Token :=
  Token.moved fun _ => 0

/-- Literals do not depend on places. -/
theorem Postfix.literals_map_moved (move : Nat → Nat) (items : Postfix) :
    literals (items.map (Item.moved move)) = items.literals := by
  have hLiteral : (fun item : Item => (item.moved move).operand?.map Operand.literal) =
      fun item => item.operand?.map Operand.literal := by
    funext item
    cases item <;> rfl
  rw [literals, operands, List.map_filterMap, List.filterMap_map, literals, operands,
    List.map_filterMap]
  exact congrArg (fun literal => List.filterMap literal items) hLiteral

/-- Items that agree up to places have the same literals. -/
theorem Postfix.literals_eq_of_map_unplaced {first second : Postfix}
    (h : first.map Item.unplaced = second.map Item.unplaced) :
    first.literals = second.literals := by
  rw [← literals_map_moved (fun _ => 0) first, ← literals_map_moved (fun _ => 0) second]
  exact congrArg literals h

/-! ### Evaluation -/

namespace Circuit

variable {ζ α : Type u} [Immittance ζ α] [Zero α] [One α] [Add α] [Sub α] [Neg α] [Mul α]
  [Div α] [BEq α] [Elementary α]

/-- Interpretation does not depend on places. -/
theorem interpret_map_moved (move : Nat → Nat) (circuit : Circuit α) (exponents : Exponents α)
    (omega : α) (stack : List ζ) (items : Postfix) :
    circuit.interpret exponents omega stack (items.map (Item.moved move)) =
      circuit.interpret exponents omega stack items := by
  induction items generalizing stack with
  | nil => rfl
  | cons item rest ih =>
      rw [List.map_cons]
      cases item with
      | operand operand =>
          rw [Item.moved, interpret, interpret]
          simp only [ih]
          rfl
      | operator op =>
          rcases stack with - | ⟨right, - | ⟨left, below⟩⟩
          · rfl
          · rfl
          · exact ih _

/-- Interpretation depends on a circuit through its **components** only. -/
theorem interpret_eq_of_components_eq {first second : Circuit α}
    (h : first.components = second.components) (exponents : Exponents α) (omega : α)
    (stack : List ζ) (items : Postfix) :
    first.interpret exponents omega stack items =
      second.interpret exponents omega stack items := by
  induction items generalizing stack with
  | nil => rfl
  | cons item rest ih =>
      cases item with
      | operand operand =>
          rw [interpret, interpret, h]
          simp only [ih]
      | operator op =>
          rcases stack with - | ⟨right, - | ⟨left, below⟩⟩
          · rfl
          · rfl
          · exact ih _

section Components

variable {α : Type u} [One α] {precedence reading : Precedence} {source text : String}
  {first second : Circuit α}

/-- Circuits of two sources whose items **agree up to places** have the same literals. -/
theorem Reached.literals_eq_of_map_unplaced (hFirst : Reached precedence source first)
    (hSecond : Reached reading text second)
    (hItems : first.items.map Item.unplaced = second.items.map Item.unplaced) :
    first.literals = second.literals := by
  rw [hFirst.literals_eq, hSecond.literals_eq]
  exact Postfix.literals_eq_of_map_unplaced hItems

/-- When such circuits have the same values, they list the same components. -/
theorem Reached.components_eq_of_map_unplaced (hFirst : Reached precedence source first)
    (hSecond : Reached reading text second)
    (hItems : first.items.map Item.unplaced = second.items.map Item.unplaced)
    {assignment : String → α} (hFirstHolds : first.Holds assignment)
    (hSecondHolds : second.Holds assignment) : first.components = second.components := by
  rw [hFirstHolds.components_eq hFirst.nodup_literals,
    hSecondHolds.components_eq hSecond.nodup_literals,
    hFirst.literals_eq_of_map_unplaced hSecond hItems]

end Components

variable [LT α] [DecidableLT α]

/-- Circuits of two sources whose items agree up to places **evaluate to the same result** when
their components have the same values. -/
theorem Reached.evaluateWith_eq_of_map_unplaced {precedence reading : Precedence}
    {source text : String} {first second : Circuit α} (hFirst : Reached precedence source first)
    (hSecond : Reached reading text second)
    (hItems : first.items.map Item.unplaced = second.items.map Item.unplaced)
    {assignment : String → α} (hFirstHolds : first.Holds assignment)
    (hSecondHolds : second.Holds assignment) (exponents : Exponents α) (frequency : α) :
    first.evaluateWith (ζ := ζ) exponents frequency =
      second.evaluateWith exponents frequency := by
  have hLiterals : first.literals = second.literals :=
    hFirst.literals_eq_of_map_unplaced hSecond hItems
  have hComponents : first.components = second.components :=
    hFirst.components_eq_of_map_unplaced hSecond hItems hFirstHolds hSecondHolds
  have hInterpret : ∀ omega : α,
      first.interpret (ζ := ζ) exponents omega [] first.items =
        second.interpret exponents omega [] second.items := by
    intro omega
    rw [interpret_eq_of_components_eq hComponents,
      ← interpret_map_moved (fun _ => 0) second exponents omega [] first.items,
      ← interpret_map_moved (fun _ => 0) second exponents omega [] second.items]
    exact congrArg _ hItems
  rw [hFirst.evaluateWith_eq_interpretWith, hSecond.evaluateWith_eq_interpretWith, interpretWith,
    interpretWith, hLiterals, hInterpret]

/-- Sources whose items agree up to places **cannot be told apart** by their circuits: both have a
new circuit, with the same components; every assignment is reached from both; and circuits that
hold the same assignment list the same components and evaluate to the same result. -/
theorem indistinguishable_of_map_unplaced {precedence reading : Precedence} {source text : String}
    {items again : Postfix} (hSource : Postfix.parse precedence source = .ok items)
    (hText : Postfix.parse reading text = .ok again)
    (hUnplaced : again.map Item.unplaced = items.map Item.unplaced) :
    (∃ original other : Circuit α, ofSource precedence source = .ok original ∧
      ofSource reading text = .ok other ∧ other.components = original.components) ∧
    ∀ assignment : String → α,
      (∃ original : Circuit α, Reached precedence source original ∧ original.Holds assignment) ∧
      (∃ other : Circuit α, Reached reading text other ∧ other.Holds assignment) ∧
      ∀ original other : Circuit α, Reached precedence source original →
        Reached reading text other → original.Holds assignment → other.Holds assignment →
          other.components = original.components ∧
          ∀ (exponents : Exponents α) (frequency : α),
            other.evaluateWith (ζ := ζ) exponents frequency =
              original.evaluateWith exponents frequency := by
  have hOriginal : ofSource (α := α) precedence source = .ok (ofPostfix source items) :=
    ofSource_eq_ok_iff.mpr ⟨items, hSource, rfl⟩
  have hOther : ofSource (α := α) reading text = .ok (ofPostfix text again) :=
    ofSource_eq_ok_iff.mpr ⟨again, hText, rfl⟩
  refine ⟨⟨_, _, hOriginal, hOther, ?_⟩, fun assignment => ?_⟩
  · exact (Reached.built hOther).components_eq_of_map_unplaced (.built hOriginal) hUnplaced
      (holds_ofPostfix text again) (holds_ofPostfix source items)
  · refine ⟨exists_reached_holds (.built hOriginal) assignment,
      exists_reached_holds (.built hOther) assignment, ?_⟩
    intro original other hFirst hSecond hFirstHolds hSecondHolds
    have hAgree : other.items.map Item.unplaced = original.items.map Item.unplaced := by
      rw [Except.ok.inj (hSecond.parse_eq.symm.trans hText),
        Except.ok.inj (hFirst.parse_eq.symm.trans hSource), hUnplaced]
    constructor
    · exact hSecond.components_eq_of_map_unplaced hFirst hAgree hSecondHolds hFirstHolds
    · intro exponents frequency
      exact hSecond.evaluateWith_eq_of_map_unplaced hFirst hAgree hSecondHolds hFirstHolds exponents
        frequency

end Circuit

end EquivalentCircuit
