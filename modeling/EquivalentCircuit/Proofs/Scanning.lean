import EquivalentCircuit.Proofs.Parentheses

/-!
# The Steps of the Scan

Each character of a text is passed over, is a mark of its own, or opens a name
(`Token.ofText_cons_cases`). Everything else that is said here of all tokens of a text follows
by induction on the text with these three cases. A name is also met as a whole, with the text
behind it ending it, and where two scans are compared the character is met through the tokens that
start at it (`Token.ofText_cons`).

## Main results

* `Token.ofText_name_append`: a name that is ended by what follows it is one token.
* `Token.isWritten_of_mem_ofText`: components have names, and everything else its own sign.
* `Token.exists_ofText_eq_append`: the end mark stands last and nowhere else.
* `Token.pairwise_offset_ofText`: the tokens stand in the order of their places in the source.
-/

namespace EquivalentCircuit

/-- The characters that connect. -/
theorem Glyph.ofChar?_eq_operator_iff {c : Char} {connection : Connection} :
    ofChar? c = some (.operator connection) ↔ c = connection.symbol := by
  cases connection <;> grind [ofChar?, Connection.symbol]

/-- The characters that separate. -/
theorem Glyph.ofChar?_eq_blank_iff {c : Char} : ofChar? c = some .blank ↔ isBlank c = true := by
  grind [ofChar?, isBlank, Connection.symbol]

/-- A blank is no letter. -/
theorem Glyph.isAlphabetic_eq_false_of_isBlank {c : Char} (h : isBlank c = true) :
    Unicode.isAlphabetic c = false := by
  rw [← Bool.not_eq_true, ← ofChar?_eq_letter_iff, ofChar?_eq_blank_iff.mpr h]
  decide

/-- The sign of a connection is not foreign. -/
theorem Glyph.not_isForeign_symbol (connection : Connection) : ¬ IsForeign connection.symbol := by
  cases connection <;> decide

/-- The length in bytes of a text in two parts. -/
theorem Text.utf8ByteSize_append (front back : List Char) :
    (String.ofList (front ++ back)).utf8ByteSize =
      (String.ofList front).utf8ByteSize + (String.ofList back).utf8ByteSize := by
  rw [String.ofList_append, String.utf8ByteSize_append]

/-- Where the first character has not a property no part of the text has it. -/
theorem Text.takeWhile_eq_nil {p : Char → Bool} {rest : List Char}
    (hRest : ∀ c ∈ rest.head?, p c = false) : rest.takeWhile p = [] := by
  rcases rest with - | ⟨c, rest⟩
  · rfl
  · rw [List.takeWhile_cons_of_neg (by simp [hRest c rfl])]

/-- The part of a text that has a property reaches up to the first character that has it not. -/
theorem Text.takeWhile_append {p : Char → Bool} {front rest : List Char}
    (hFront : ∀ c ∈ front, p c = true) (hRest : ∀ c ∈ rest.head?, p c = false) :
    (front ++ rest).takeWhile p = front := by
  rw [List.takeWhile_append_of_pos hFront, takeWhile_eq_nil hRest, List.append_nil]

/-- Whether an operator is written with the **sign** of its connection. -/
def Operator.IsSigned (op : Operator) : Prop :=
  op.lexeme.text = op.connection.symbol.toString

namespace Token

/-- A **name** is a text of letters that is not empty. -/
def IsName (name : String) : Prop :=
  name ≠ "" ∧ ∀ c ∈ name.toList, Unicode.isAlphabetic c = true

/-- No character of a name is foreign. -/
theorem IsName.not_isForeign {name : String} (h : IsName name) :
    ∀ c ∈ name.toList, ¬ Glyph.IsForeign c := by
  intro c hMem hForeign
  have hLetter := h.2 c hMem
  rw [hForeign.2] at hLetter
  exact Bool.false_ne_true hLetter

/-- A **mark** is a parenthesis or an operator that is written with its own sign. -/
def IsMark : Token → Prop
  | .operator op => op.IsSigned
  | .leftParen lexeme => lexeme.text = "("
  | .rightParen lexeme => lexeme.text = ")"
  | .component _ _ | .endOfInput _ => False

/-- The **name of a token**, if the token is a component. -/
def name? : Token → Option String
  | .component _ lexeme => some lexeme.text
  | .operator _ | .leftParen _ | .rightParen _ | .endOfInput _ => none

@[simp] theorem name?_component (literal : String) (lexeme : Lexeme) :
    (component literal lexeme).name? = some lexeme.text := rfl

@[simp] theorem literal?_component (literal : String) (lexeme : Lexeme) :
    (component literal lexeme).literal? = some literal := rfl

theorem IsMark.name?_eq_none {mark : Token} (h : mark.IsMark) : mark.name? = none := by
  cases mark with
  | operator | leftParen | rightParen => rfl
  | component | endOfInput => exact h.elim

theorem IsMark.literal?_eq_none {mark : Token} (h : mark.IsMark) : mark.literal? = none := by
  cases mark with
  | operator | leftParen | rightParen => rfl
  | component | endOfInput => exact h.elim

theorem IsMark.isEnd_eq_false {mark : Token} (h : mark.IsMark) : mark.isEnd = false := by
  cases mark with
  | operator | leftParen | rightParen => rfl
  | component | endOfInput => exact h.elim

/-- Whether a token is **written** as the notation writes it: a component with a name, an operator
and a parenthesis with their signs, and the end mark with nothing. -/
def IsWritten : Token → Prop
  | .component _ lexeme => IsName lexeme.text
  | .operator op => op.IsSigned
  | .leftParen lexeme => lexeme.text = "("
  | .rightParen lexeme => lexeme.text = ")"
  | .endOfInput lexeme => lexeme.text = ""

theorem IsMark.isWritten {mark : Token} (h : mark.IsMark) : mark.IsWritten := by
  cases mark with
  | operator | leftParen | rightParen => exact h
  | component | endOfInput => exact h.elim

/-- A letter and the letters behind it are a name. -/
theorem isName_ofList_cons {c : Char} {rest : List Char} (hC : Unicode.isAlphabetic c = true) :
    IsName (String.ofList (c :: rest.takeWhile Unicode.isAlphabetic)) := by
  refine ⟨by simp, ?_⟩
  rw [String.toList_ofList, List.forall_mem_cons]
  exact ⟨hC, List.all_eq_true.mp List.all_takeWhile⟩

section Steps

variable (earlier : List String) (inName : Bool) (offset : Nat) (rest : List Char)

/-- An opening parenthesis is a token. -/
theorem ofText_leftParen :
    ofText earlier inName offset ('(' :: rest) =
      .leftParen ⟨"(", offset⟩ :: ofText earlier false (offset + '('.utf8Size) rest := by
  rw [ofText, Glyph.ofChar?_eq_leftParen_iff.mpr rfl]
  rfl

/-- A closing parenthesis is a token. -/
theorem ofText_rightParen :
    ofText earlier inName offset (')' :: rest) =
      .rightParen ⟨")", offset⟩ :: ofText earlier false (offset + ')'.utf8Size) rest := by
  rw [ofText, Glyph.ofChar?_eq_rightParen_iff.mpr rfl]
  rfl

/-- The sign of a connection is a token. -/
theorem ofText_symbol (connection : Connection) :
    ofText earlier inName offset (connection.symbol :: rest) =
      .operator ⟨connection, ⟨connection.symbol.toString, offset⟩⟩ ::
        ofText earlier false (offset + connection.symbol.utf8Size) rest := by
  rw [ofText, Glyph.ofChar?_eq_operator_iff.mpr rfl]

end Steps

/-! ### Names as a whole -/

/-- Whether a text **ends a name** that stands right before it: it does not go on with a letter. -/
def EndsName (text : List Char) : Prop :=
  ∀ c ∈ text.head?, Unicode.isAlphabetic c = false

/-- Where the text is over a name ends. -/
theorem endsName_nil : EndsName [] :=
  fun c hC => absurd hC (by simp)

/-- A character that is no letter ends a name. -/
theorem endsName_cons {c : Char} (h : Unicode.isAlphabetic c = false) (rest : List Char) :
    EndsName (c :: rest) := by
  intro d hD
  obtain rfl := Option.some.inj hD
  exact h

/-- Whether a **name may start** behind a text: no letter stands at its end. -/
def StartsName (text : List Char) : Prop :=
  ∀ c ∈ text.getLast?, Unicode.isAlphabetic c = false

/-- Letters go on with a name. -/
theorem ofText_true_append {letters : List Char}
    (h : ∀ c ∈ letters, Unicode.isAlphabetic c = true) (earlier : List String) (offset : Nat)
    (rest : List Char) :
    ofText earlier true offset (letters ++ rest) =
      ofText earlier true (offset + (String.ofList letters).utf8ByteSize) rest := by
  induction letters generalizing offset with
  | nil => rfl
  | cons c letters ih =>
      rw [List.forall_mem_cons] at h
      rw [List.cons_append, ofText, Glyph.ofChar?_eq_letter_iff.mpr h.1, Text.utf8ByteSize_cons,
        ← Nat.add_assoc]
      exact ih h.2 _

/-- Where a name ends it does not matter that there was one. -/
theorem ofText_true_of_endsName {rest : List Char} (hRest : EndsName rest)
    (earlier : List String) (offset : Nat) :
    ofText earlier true offset rest = ofText earlier false offset rest := by
  rcases rest with - | ⟨c, rest⟩
  · rfl
  · have hLetter : Glyph.ofChar? c ≠ some .letter := by
      rw [Ne, Glyph.ofChar?_eq_letter_iff, hRest c rfl]
      exact Bool.false_ne_true
    rw [ofText, ofText]
    split
    · rfl
    · rfl
    · rfl
    · next h => exact absurd h hLetter
    · rfl
    · rfl

/-- A **name** is a token when the text behind it ends it. -/
theorem ofText_name_append {name : String} (hName : IsName name) {rest : List Char}
    (hRest : EndsName rest) (earlier : List String) (offset : Nat) :
    ofText earlier false offset (name.toList ++ rest) =
      .component (numbered name earlier) ⟨name, offset⟩ ::
        ofText (name :: earlier) false (offset + name.utf8ByteSize) rest := by
  obtain ⟨hNonempty, hLetters⟩ := hName
  have hSize : name.utf8ByteSize = (String.ofList name.toList).utf8ByteSize := by
    rw [String.ofList_toList]
  rw [hSize]
  rcases hList : name.toList with - | ⟨c, letters⟩
  · exact absurd (String.toList_eq_nil_iff.mp hList) hNonempty
  · rw [hList, List.forall_mem_cons] at hLetters
    have hWhole : String.ofList (c :: (letters ++ rest).takeWhile Unicode.isAlphabetic) = name := by
      rw [Text.takeWhile_append hLetters.2 hRest, ← hList, String.ofList_toList]
    rw [List.cons_append, ofText, Glyph.ofChar?_eq_letter_iff.mpr hLetters.1,
      Text.utf8ByteSize_cons, ← Nat.add_assoc]
    dsimp only
    rw [if_neg Bool.false_ne_true, hWhole, ofText_true_append hLetters.2,
      ofText_true_of_endsName hRest]

/-! ### One step -/

/-- **One step of the scan.** A character is passed over, is a mark, or opens a name. -/
theorem ofText_cons_cases (earlier : List String) (inName : Bool) (offset : Nat) (c : Char)
    (rest : List Char) :
    (∃ inside, ofText earlier inName offset (c :: rest) =
      ofText earlier inside (offset + c.utf8Size) rest) ∨
    (∃ mark, IsMark mark ∧ mark.lexeme = ⟨c.toString, offset⟩ ∧
      ofText earlier inName offset (c :: rest) =
        mark :: ofText earlier false (offset + c.utf8Size) rest) ∨
    ∃ name, IsName name ∧
      ofText earlier inName offset (c :: rest) =
        .component (numbered name earlier) ⟨name, offset⟩ ::
          ofText (name :: earlier) true (offset + c.utf8Size) rest := by
  rw [ofText]
  split
  · next h =>
      obtain rfl := Glyph.ofChar?_eq_leftParen_iff.mp h
      exact Or.inr (Or.inl ⟨.leftParen ⟨"(", offset⟩, rfl, rfl, rfl⟩)
  · next h =>
      obtain rfl := Glyph.ofChar?_eq_rightParen_iff.mp h
      exact Or.inr (Or.inl ⟨.rightParen ⟨")", offset⟩, rfl, rfl, rfl⟩)
  · next connection h =>
      obtain rfl := Glyph.ofChar?_eq_operator_iff.mp h
      refine Or.inr (Or.inl ⟨.operator ⟨connection, ⟨connection.symbol.toString, offset⟩⟩, ?_⟩)
      exact ⟨rfl, rfl, rfl⟩
  · next h =>
      cases inName with
      | true => exact Or.inl ⟨true, rfl⟩
      | false =>
          have hC : Unicode.isAlphabetic c = true := Glyph.ofChar?_eq_letter_iff.mp h
          exact Or.inr (Or.inr ⟨_, isName_ofList_cons hC, rfl⟩)
  · exact Or.inl ⟨false, rfl⟩
  · exact Or.inl ⟨false, rfl⟩

/-- The tokens that **start at a character**, given the word that is read from there: a mark, the
word if the character opens it, or none. -/
def starting (earlier : List String) (inName : Bool) (offset : Nat) (c : Char)
    (word : List Char) : List Token :=
  match Glyph.ofChar? c with
  | some .leftParen => [.leftParen ⟨c.toString, offset⟩]
  | some .rightParen => [.rightParen ⟨c.toString, offset⟩]
  | some (.operator connection) => [.operator ⟨connection, ⟨c.toString, offset⟩⟩]
  | some .letter =>
    if inName then []
    else
      let name := String.ofList word
      [.component (numbered name earlier) ⟨name, offset⟩]
  | some .blank | none => []

/-- **A character in front of a text**: the tokens that start at it, and then those of the text. -/
theorem ofText_cons (earlier : List String) (inName : Bool) (offset : Nat) (c : Char)
    (rest : List Char) :
    ofText earlier inName offset (c :: rest) =
      starting earlier inName offset c ((c :: rest).takeWhile Unicode.isAlphabetic) ++
        ofText ((starting earlier inName offset c
            ((c :: rest).takeWhile Unicode.isAlphabetic)).filterMap name? ++ earlier)
          (Unicode.isAlphabetic c) (offset + c.utf8Size) rest := by
  have hLetter : Unicode.isAlphabetic c = decide (Glyph.ofChar? c = some .letter) := by
    rw [Bool.eq_iff_iff, decide_eq_true_iff, Glyph.ofChar?_eq_letter_iff]
  rw [ofText, starting, hLetter]
  rcases hGlyph : Glyph.ofChar? c with - | glyph
  · rfl
  · cases glyph with
    | leftParen => rfl
    | rightParen => rfl
    | operator connection => rfl
    | blank => rfl
    | letter =>
        rw [List.takeWhile_cons_of_pos (Glyph.ofChar?_eq_letter_iff.mp hGlyph)]
        cases inName <;> rfl

/-- The names that start at a character do not depend on where the character stands. -/
theorem names_starting (earlier : List String) (inName : Bool) (offset other : Nat) (c : Char)
    (word : List Char) :
    (starting earlier inName offset c word).filterMap name? =
      (starting earlier inName other c word).filterMap name? := by
  rw [starting, starting]
  split
  · rfl
  · rfl
  · rfl
  · cases inName <;> rfl
  · rfl
  · rfl

/-- A character that is no mark is passed over or opens a name. -/
theorem ofText_cons_of_not_mark {c : Char} (hMark : c ∉ ['(', ')', '-', '|'])
    (earlier : List String) (inName : Bool) (offset : Nat) (rest : List Char) :
    (∃ inside, ofText earlier inName offset (c :: rest) =
      ofText earlier inside (offset + c.utf8Size) rest) ∨
    ∃ name, ofText earlier inName offset (c :: rest) =
      .component (numbered name earlier) ⟨name, offset⟩ ::
        ofText (name :: earlier) true (offset + c.utf8Size) rest := by
  rw [ofText]
  split
  · next h =>
      obtain rfl := Glyph.ofChar?_eq_leftParen_iff.mp h
      exact absurd hMark (by decide)
  · next h =>
      obtain rfl := Glyph.ofChar?_eq_rightParen_iff.mp h
      exact absurd hMark (by decide)
  · next connection h =>
      obtain rfl := Glyph.ofChar?_eq_operator_iff.mp h
      exact absurd hMark (by cases connection <;> decide)
  · cases inName with
    | true => exact .inl ⟨true, rfl⟩
    | false => exact .inr ⟨_, rfl⟩
  · exact .inl ⟨false, rfl⟩
  · exact .inl ⟨false, rfl⟩

/-- The **end mark** stands last and nowhere else, at the length of the text. -/
theorem exists_ofText_eq_append (earlier : List String) (inName : Bool) (offset : Nat)
    (text : List Char) :
    ∃ tokens, ofText earlier inName offset text =
        tokens ++ [.endOfInput ⟨"", offset + (String.ofList text).utf8ByteSize⟩] ∧
      ∀ token ∈ tokens, token.isEnd = false := by
  induction text generalizing earlier inName offset with
  | nil => exact ⟨[], rfl, by simp⟩
  | cons c rest ih =>
      rw [Text.utf8ByteSize_cons, ← Nat.add_assoc]
      rcases ofText_cons_cases earlier inName offset c rest with
        ⟨inside, hStep⟩ | ⟨mark, hMark, -, hStep⟩ | ⟨name, hName, hStep⟩
      · rw [hStep]
        exact ih earlier inside _
      · obtain ⟨tokens, hTokens, hEnd⟩ := ih earlier false (offset + c.utf8Size)
        refine ⟨mark :: tokens, by rw [hStep, hTokens, List.cons_append], ?_⟩
        exact List.forall_mem_cons.mpr ⟨hMark.isEnd_eq_false, hEnd⟩
      · obtain ⟨tokens, hTokens, hEnd⟩ := ih (name :: earlier) true (offset + c.utf8Size)
        refine ⟨_ :: tokens, by rw [hStep, hTokens, List.cons_append], ?_⟩
        exact List.forall_mem_cons.mpr ⟨rfl, hEnd⟩

/-- The tokens of a text are written as the notation writes them. -/
theorem isWritten_of_mem_ofText {earlier : List String} {inName : Bool} {offset : Nat}
    {text : List Char} : ∀ token ∈ ofText earlier inName offset text, token.IsWritten := by
  induction text generalizing earlier inName offset with
  | nil => exact List.forall_mem_singleton.mpr rfl
  | cons c rest ih =>
      rcases ofText_cons_cases earlier inName offset c rest with
        ⟨inside, hStep⟩ | ⟨mark, hMark, -, hStep⟩ | ⟨name, hName, hStep⟩
      · rw [hStep]
        exact ih
      · rw [hStep]
        exact List.forall_mem_cons.mpr ⟨hMark.isWritten, ih⟩
      · rw [hStep]
        exact List.forall_mem_cons.mpr ⟨hName, ih⟩

/-- No token stands before the text. -/
theorem offset_le_of_mem_ofText {earlier : List String} {inName : Bool} {offset : Nat}
    {text : List Char} {token : Token} (h : token ∈ ofText earlier inName offset text) :
    offset ≤ token.lexeme.offset := by
  induction text generalizing earlier inName offset with
  | nil =>
      obtain rfl := List.mem_singleton.mp h
      exact Nat.le_refl _
  | cons c rest ih =>
      rcases ofText_cons_cases earlier inName offset c rest with
        ⟨inside, hStep⟩ | ⟨mark, -, hPlace, hStep⟩ | ⟨name, -, hStep⟩
      · rw [hStep] at h
        exact Nat.le_trans (Nat.le_add_right _ _) (ih h)
      · rw [hStep] at h
        rcases List.mem_cons.mp h with rfl | hRest
        · exact Nat.le_of_eq (congrArg Lexeme.offset hPlace).symm
        · exact Nat.le_trans (Nat.le_add_right _ _) (ih hRest)
      · rw [hStep] at h
        rcases List.mem_cons.mp h with rfl | hRest
        · exact Nat.le_refl _
        · exact Nat.le_trans (Nat.le_add_right _ _) (ih hRest)

/-- Tokens stand in the **order of the source**. -/
theorem pairwise_offset_ofText (earlier : List String) (inName : Bool) (offset : Nat)
    (text : List Char) :
    (ofText earlier inName offset text).Pairwise fun first second =>
      first.lexeme.offset < second.lexeme.offset := by
  induction text generalizing earlier inName offset with
  | nil => exact List.pairwise_singleton _ _
  | cons c rest ih =>
      have hLater : ∀ {names : List String} {inside : Bool} {token : Token},
          token ∈ ofText names inside (offset + c.utf8Size) rest →
            offset < token.lexeme.offset := by
        intro names inside token hMem
        have hLe := offset_le_of_mem_ofText hMem
        have hPos := c.utf8Size_pos
        omega
      rcases ofText_cons_cases earlier inName offset c rest with
        ⟨inside, hStep⟩ | ⟨mark, -, hPlace, hStep⟩ | ⟨name, -, hStep⟩
      · rw [hStep]
        exact ih _ _ _
      · rw [hStep]
        refine List.pairwise_cons.mpr ⟨fun token hMem => ?_, ih _ _ _⟩
        rw [hPlace]
        exact hLater hMem
      · rw [hStep]
        exact List.pairwise_cons.mpr ⟨fun token hMem => hLater hMem, ih _ _ _⟩

/-- The tokens of a source that scans are those of its text. -/
theorem eq_ofText_of_scan_eq_ok {source : String} {tokens : List Token}
    (h : scan source = .ok tokens) : tokens = ofText [] false 0 source.toList := by
  rw [scan] at h
  split at h
  · exact absurd h (by simp)
  · exact (Except.ok.inj h).symm

end Token

end EquivalentCircuit
