import EquivalentCircuit.Proofs.Scanning
import EquivalentCircuit.Proofs.States

/-!
# Component Literals

The literal of a component is its name with its number among the components of that name. A
literal can be taken apart again, since names consist of letters and numbers of digits
(`append_repr_inj`), and the numbers of one name only grow from left to right, so no two
components of a source share a literal (`nodup_numberedAll`).

The scan is followed step by step: each character is passed over, is a mark of its own, or
opens a name (`ofText_cons_cases`). What the scan yields is then proved by induction on the
text. Conversion keeps the components in their order, so the literals of a circuit are those of
its source, and removing duplicates from them removes nothing.

## Main results

* `literals_ofText`: the literals of a text are its names, numbered.
* `Reached.literals_eq` and `Reached.nodup_literals`: the literals of a circuit are those of its
  items, and they are distinct.
* `Circuit.literals_identify_occurrences`: what a literal is, and what a new circuit lists.
-/

universe u

namespace EquivalentCircuit

/-! ### Taking a literal apart -/

namespace Token

/-- Digits are not alphabetic. It is all that literals need to know of the letters. -/
theorem isDigit_eq_false_of_isAlphabetic {c : Char} (h : Unicode.isAlphabetic c = true) :
    c.isDigit = false := by
  refine Bool.eq_false_iff.mpr fun hDigit => ?_
  have hRange : 48 ≤ c.toNat ∧ c.toNat ≤ 57 := by
    simpa [Char.isDigit, UInt32.le_iff_toNat_le] using hDigit
  have hLetters : ∀ code : Fin 58, 48 ≤ code.val → (Char.ofNat code).isAlpha = false := by
    decide
  have hLetter := hLetters ⟨c.toNat, by omega⟩ hRange.1
  rw [Char.ofNat_toNat] at hLetter
  rw [Unicode.isAlphabetic_of_lt (by omega), hLetter] at h
  exact Bool.false_ne_true h

/-- The part of a literal before its first digit is its name. -/
theorem takeWhile_append_repr {name : String} (hName : IsName name) (n : Nat) :
    (name ++ Nat.repr n).toList.takeWhile (fun c => !c.isDigit) = name.toList := by
  have hLetters : ∀ c ∈ name.toList, (!c.isDigit) = true := by
    intro c hMem
    rw [isDigit_eq_false_of_isAlphabetic (hName.2 c hMem)]
    rfl
  have hDigits : ∀ c ∈ (Nat.toDigits 10 n).head?, (!c.isDigit) = false := by
    intro c hMem
    rw [Nat.isDigit_of_mem_toDigits (by decide) (by decide) (List.mem_of_mem_head? hMem)]
    rfl
  rw [String.toList_append, Nat.toList_repr, Text.takeWhile_append hLetters hDigits]

/-- A name with a number **determines** the name and the number: `R` with 11 is not `RR` with 1. -/
theorem append_repr_inj {name other : String} {n m : Nat} (hName : IsName name)
    (hOther : IsName other) (h : name ++ Nat.repr n = other ++ Nat.repr m) :
    name = other ∧ n = m := by
  have hNames : name = other := by
    apply String.toList_inj.mp
    rw [← takeWhile_append_repr hName n, ← takeWhile_append_repr hOther m, h]
  subst hNames
  have hDigits : Nat.toDigits 10 n = Nat.toDigits 10 m := by
    have hLists := congrArg String.toList h
    rw [String.toList_append, String.toList_append, Nat.toList_repr, Nat.toList_repr] at hLists
    exact List.append_cancel_left hLists
  have hNumbers := congrArg (fun digits => Nat.ofDigitChars 10 digits 0) hDigits
  exact ⟨rfl, by simpa using hNumbers⟩

/-! ### Numbering names -/

/-- The **literals of names** that follow each other, behind the names `earlier`. -/
def numberedAll (earlier : List String) : List String → List String
  | [] => []
  | name :: rest => numbered name earlier :: numberedAll (name :: earlier) rest

@[simp] theorem length_numberedAll (earlier names : List String) :
    (numberedAll earlier names).length = names.length := by
  induction names generalizing earlier with
  | nil => rfl
  | cons name rest ih => rw [numberedAll, List.length_cons, List.length_cons, ih]

/-- Names in two parts are numbered one part after the other. -/
theorem numberedAll_append (earlier front back : List String) :
    numberedAll earlier (front ++ back) =
      numberedAll earlier front ++ numberedAll (front.reverse ++ earlier) back := by
  induction front generalizing earlier with
  | nil => rfl
  | cons name rest ih =>
      rw [List.cons_append, numberedAll, numberedAll, ih, List.reverse_cons, List.append_assoc]
      rfl

/-- A literal is some name with a number that is larger than that of every earlier component of the
name. -/
theorem exists_of_mem_numberedAll {earlier names : List String} {literal : String}
    (h : literal ∈ numberedAll earlier names) :
    ∃ name ∈ names, ∃ n, earlier.count name < n ∧ literal = name ++ Nat.repr n := by
  induction names generalizing earlier with
  | nil => exact absurd h List.not_mem_nil
  | cons name rest ih =>
      rcases List.mem_cons.mp h with rfl | hRest
      · exact ⟨name, List.mem_cons_self, _, Nat.lt_succ_self _, rfl⟩
      · obtain ⟨other, hMem, n, hCount, rfl⟩ := ih hRest
        have hLe : earlier.count other ≤ (name :: earlier).count other := List.count_le_count_cons
        exact ⟨other, List.mem_cons_of_mem _ hMem, n, by omega, rfl⟩

/-- **Numbered names are distinct.** -/
theorem nodup_numberedAll {earlier names : List String} (hNames : ∀ name ∈ names, IsName name) :
    (numberedAll earlier names).Nodup := by
  induction names generalizing earlier with
  | nil => exact List.nodup_nil
  | cons name rest ih =>
      rw [List.forall_mem_cons] at hNames
      refine List.nodup_cons.mpr ⟨?_, ih hNames.2⟩
      intro hMem
      obtain ⟨other, hOther, n, hCount, hEq⟩ := exists_of_mem_numberedAll hMem
      obtain ⟨rfl, rfl⟩ := append_repr_inj hNames.1 (hNames.2 other hOther) hEq
      rw [List.count_cons_self] at hCount
      exact absurd hCount (Nat.lt_irrefl _)

/-- The literals of a text are its names, numbered from left to right. -/
theorem literals_ofText (earlier : List String) (inName : Bool) (offset : Nat) (text : List Char) :
    (ofText earlier inName offset text).filterMap literal? =
      numberedAll earlier ((ofText earlier inName offset text).filterMap name?) := by
  induction text generalizing earlier inName offset with
  | nil => rfl
  | cons c rest ih =>
      rcases ofText_cons_cases earlier inName offset c rest with
        ⟨inside, hStep⟩ | ⟨mark, hMark, -, hStep⟩ | ⟨name, -, hStep⟩
      · rw [hStep]
        exact ih _ _ _
      · rw [hStep, List.filterMap_cons_none hMark.literal?_eq_none,
          List.filterMap_cons_none hMark.name?_eq_none]
        exact ih _ _ _
      · rw [hStep, List.filterMap_cons_some (literal?_component _ _),
          List.filterMap_cons_some (name?_component _ _), numberedAll, ih]

/-- The names in a text are names. -/
theorem isName_of_mem_ofText {earlier : List String} {inName : Bool} {offset : Nat}
    {text : List Char} :
    ∀ name ∈ (ofText earlier inName offset text).filterMap name?, IsName name := by
  intro name hMem
  obtain ⟨token, hToken, hName⟩ := List.mem_filterMap.mp hMem
  have hWritten : token.IsWritten := isWritten_of_mem_ofText token hToken
  cases token with
  | component literal lexeme =>
      obtain rfl := Option.some.inj hName
      exact hWritten
  | operator | leftParen | rightParen | endOfInput => exact absurd hName (by simp [name?])

/-- There are as many literals as names. -/
theorem length_filterMap_literal? (tokens : List Token) :
    (tokens.filterMap literal?).length = (tokens.filterMap name?).length := by
  induction tokens with
  | nil => rfl
  | cons token rest ih =>
      cases token with
      | component literal lexeme => exact congrArg Nat.succ ih
      | operator | leftParen | rightParen | endOfInput => exact ih

/-- Among tokens that are numbered from one, a component has the number of the components of its
name up to itself. -/
theorem literal_eq_of_numbered {before after : List Token} {literal : String} {lexeme : Lexeme}
    (h : (before ++ .component literal lexeme :: after).filterMap literal? =
      numberedAll [] ((before ++ .component literal lexeme :: after).filterMap name?)) :
    literal =
      lexeme.text ++ Nat.repr ((before.filterMap name?).count lexeme.text + 1) := by
  rw [List.filterMap_append, List.filterMap_append, numberedAll_append, List.append_nil,
    List.filterMap_cons_some (literal?_component _ _),
    List.filterMap_cons_some (name?_component _ _), numberedAll] at h
  have hBehind := List.append_inj_right h (by simp [length_filterMap_literal?])
  rw [(List.cons.inj hBehind).1, numbered, List.count_reverse]

end Token

/-! ### The operands of a source -/

namespace Postfix

variable {precedence : Precedence} {source : String} {items : Postfix}

/-- The operands of a source are its components, from left to right. -/
theorem operands_of_scan_eq_ok {tokens : List Token} (hScan : Token.scan source = .ok tokens)
    (hItems : ofTokens precedence tokens = .ok items) :
    items.operands = tokens.filterMap Token.operand? := by
  obtain ⟨body, hBody, hEnd⟩ := Token.exists_ofText_eq_append [] false 0 source.toList
  rw [operands_of_convert_eq_ok hItems, Token.eq_ofText_of_scan_eq_ok hScan, hBody,
    List.takeWhile_append_of_pos (by simpa using hEnd),
    List.takeWhile_cons_of_neg (by simp [Token.isEnd]), List.append_nil, List.filterMap_append]
  exact (List.append_nil _).symm

/-- The literals of the items of a source are those of its tokens. -/
theorem literals_of_scan_eq_ok {tokens : List Token} (hScan : Token.scan source = .ok tokens)
    (hItems : ofTokens precedence tokens = .ok items) :
    items.literals = tokens.filterMap Token.literal? := by
  have hLiteral : (fun token : Token => token.operand?.map Operand.literal) = Token.literal? := by
    funext token
    cases token <;> rfl
  rw [literals, operands_of_scan_eq_ok hScan hItems, List.map_filterMap, hLiteral]

/-- The **names** of the operands, in order. -/
def names (items : Postfix) : List String :=
  items.operands.map fun operand => operand.lexeme.text

/-- The names of the items of a source are those of its tokens. -/
theorem names_of_scan_eq_ok {tokens : List Token} (hScan : Token.scan source = .ok tokens)
    (hItems : ofTokens precedence tokens = .ok items) :
    items.names = tokens.filterMap Token.name? := by
  have hName : (fun token : Token => token.operand?.map fun operand => operand.lexeme.text) =
      Token.name? := by
    funext token
    cases token <;> rfl
  rw [names, operands_of_scan_eq_ok hScan hItems, List.map_filterMap, hName]

end Postfix

/-! ### The tokens of a source -/

namespace Token

variable {source : String} {tokens : List Token}

/-- The literals of a source are its names, numbered. -/
theorem literals_of_scan_eq_ok (h : scan source = .ok tokens) :
    tokens.filterMap literal? = numberedAll [] (tokens.filterMap name?) := by
  rw [eq_ofText_of_scan_eq_ok h]
  exact literals_ofText [] false 0 source.toList

/-- The literals of a source are distinct. -/
theorem nodup_literals_of_scan_eq_ok (h : scan source = .ok tokens) :
    (tokens.filterMap literal?).Nodup := by
  rw [literals_of_scan_eq_ok h]
  refine nodup_numberedAll ?_
  rw [eq_ofText_of_scan_eq_ok h]
  exact isName_of_mem_ofText

end Token

/-! ### The literals of a circuit -/

/-- Without duplicates there is nothing to erase. -/
theorem eraseDups_eq_self_of_nodup {literals : List String} (h : literals.Nodup) :
    literals.eraseDups = literals := by
  induction literals with
  | nil => rfl
  | cons literal rest ih =>
      obtain ⟨hNew, hRest⟩ := List.nodup_cons.mp h
      have hKept : rest.filter (fun other => !other == literal) = rest := by
        refine List.filter_eq_self.mpr fun other hMem => ?_
        have hNe : other ≠ literal := fun hEq => hNew (hEq ▸ hMem)
        simp [hNe]
      rw [List.eraseDups_cons, hKept, ih hRest]

namespace Circuit

variable {α : Type u} [One α] {precedence : Precedence} {source : String} {circuit : Circuit α}

/-- The literals of the items of a reached circuit are distinct. -/
theorem Reached.nodup_items_literals (h : Reached precedence source circuit) :
    circuit.items.literals.Nodup := by
  obtain ⟨tokens, hScan, hItems⟩ := Postfix.exists_scan_eq_ok_of_parse_eq_ok h.parse_eq
  rw [Postfix.literals_of_scan_eq_ok hScan hItems]
  exact Token.nodup_literals_of_scan_eq_ok hScan

/-- **No component is merged** with another one: the literals of a reached circuit are those of its
items, one for each operand. -/
theorem Reached.literals_eq (h : Reached precedence source circuit) :
    circuit.literals = circuit.items.literals := by
  have hNodup := h.nodup_items_literals
  obtain ⟨items, -, values, rfl⟩ := h.exists_eq_withValues
  exact eraseDups_eq_self_of_nodup hNodup

/-- The literals of a reached circuit are distinct. -/
theorem Reached.nodup_literals (h : Reached precedence source circuit) :
    circuit.literals.Nodup := by
  rw [h.literals_eq]
  exact h.nodup_items_literals

/-- **Literals identify occurrences.** In a source that scans, the literal of a component is its
name with the number of components of exactly that name up to itself, and no two components
have the same literal. A circuit of the source lists the literals of all its components, in the
order of their places in the source, each once and with the value one. -/
theorem literals_identify_occurrences (source : String) :
    (∀ tokens, Token.scan source = .ok tokens →
      (∀ before literal lexeme after, tokens = before ++ .component literal lexeme :: after →
        literal = lexeme.text ++
          Nat.repr ((before.filterMap Token.name?).count lexeme.text + 1)) ∧
      (tokens.Pairwise fun first second => first.lexeme.offset < second.lexeme.offset) ∧
      (tokens.filterMap Token.literal?).Nodup) ∧
    ∀ (precedence : Precedence) (circuit : Circuit α), ofSource precedence source = .ok circuit →
      ∃ tokens, Token.scan source = .ok tokens ∧
        circuit.items.literals = tokens.filterMap Token.literal? ∧
        circuit.components = circuit.items.literals.map (fun literal => (literal, 1)) ∧
        circuit.components.length = tokens.countP fun token => token.literal?.isSome := by
  constructor
  · intro tokens hScan
    refine ⟨?_, ?_, Token.nodup_literals_of_scan_eq_ok hScan⟩
    · rintro before literal lexeme after rfl
      exact Token.literal_eq_of_numbered (Token.literals_of_scan_eq_ok hScan)
    · rw [Token.eq_ofText_of_scan_eq_ok hScan]
      exact Token.pairwise_offset_ofText [] false 0 source.toList
  · intro precedence circuit hSource
    have hReached : Reached precedence source circuit := .built hSource
    obtain ⟨items, hParse, rfl⟩ := ofSource_eq_ok_iff.mp hSource
    obtain ⟨tokens, hScan, hItems⟩ := Postfix.exists_scan_eq_ok_of_parse_eq_ok hParse
    have hLiterals : items.literals = tokens.filterMap Token.literal? :=
      Postfix.literals_of_scan_eq_ok hScan hItems
    have hComponents := (holds_ofPostfix source items).components_eq hReached.nodup_literals
    rw [hReached.literals_eq] at hComponents
    refine ⟨tokens, hScan, hLiterals, hComponents, ?_⟩
    rw [hComponents, List.length_map, ← List.length_filterMap_eq_countP]
    exact congrArg List.length hLiterals

/-- In `R Rr R` the second `R` is number two of its name, and a circuit lists three components. -/
theorem literals_identify_three_occurrences :
    Token.scan "R Rr R" = .ok [.component "R1" ⟨"R", 0⟩, .component "Rr1" ⟨"Rr", 2⟩,
        .component "R2" ⟨"R", 5⟩, .endOfInput ⟨"", 6⟩] ∧
      "R2" = "R" ++ Nat.repr (["R", "Rr"].count "R" + 1) ∧
      ∃ circuit : Circuit Binary64, ofSource .uniform "R Rr R" = .ok circuit ∧
        circuit.components = [("R1", 1), ("Rr1", 1), ("R2", 1)] := by
  have hScan : Token.scan "R Rr R" = .ok [.component "R1" ⟨"R", 0⟩, .component "Rr1" ⟨"Rr", 2⟩,
      .component "R2" ⟨"R", 5⟩, .endOfInput ⟨"", 6⟩] := rfl
  have hSource : ofSource (α := Binary64) .uniform "R Rr R" =
      .ok (ofPostfix "R Rr R" [.operand (.ofComponent "R1" ⟨"R", 0⟩),
        .operand (.ofComponent "Rr1" ⟨"Rr", 2⟩), .operand (.ofComponent "R2" ⟨"R", 5⟩)]) := rfl
  obtain ⟨hTokens, hCircuits⟩ := literals_identify_occurrences (α := Binary64) "R Rr R"
  obtain ⟨hLiteral, -, -⟩ := hTokens _ hScan
  obtain ⟨tokens, -, -, hComponents, -⟩ := hCircuits .uniform _ hSource
  refine ⟨hScan, ?_, _, hSource, hComponents⟩
  exact hLiteral [.component "R1" ⟨"R", 0⟩, .component "Rr1" ⟨"Rr", 2⟩] "R2" ⟨"R", 5⟩ _ rfl

end Circuit

end EquivalentCircuit
