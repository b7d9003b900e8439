import EquivalentCircuit.Proofs.Infix

/-!
# The Written Form of a Sequence

A sequence in postfix order is written as the texts of its items with a space between neighbours.
Nothing is lost in writing: when the items of a source are written and the text is scanned, each
item comes back as a token of its sort, with its text and its literal, at the place where it is
written (`Postfix.ofText_text`). A name cannot run into its neighbour, because the space ends it.
The numbers of the components come out as they were assigned before the conversion, because the
conversion keeps the names in the order of the source; what that needs of a sequence is
`Postfix.IsScanned`, which is taken apart item by item here.

## Main results

* `Postfix.ofText_text`: the tokens of a written sequence.
* `Postfix.map_unplaced_eq_of_writtenTokens_eq`: items can be told from their tokens.
* `Postfix.scan_text`: the written form of a source is scanned to its items, and determines them.
-/

namespace EquivalentCircuit

/-! ### Tokens of items -/

/-- The **token of an item**: what it was put out for. -/
def Item.token : Item → Token
  | .operand component => .component component.literal component.lexeme
  | .operator op => .operator op

/-- An item is found again from its token, up to its place, if its kind is the one that its name
asks for. -/
theorem Item.item?_unplaced_token {item : Item}
    (h : ∀ operand, item.operand? = some operand → operand.IsNamed) :
    item.token.unplaced.item? = some item.unplaced := by
  cases item with
  | operand component =>
      have hKind : component.kind = ElementKind.ofName? component.lexeme.text := h component rfl
      have hSame : Operand.ofComponent component.literal (component.lexeme.moved fun _ => 0) =
          component.moved fun _ => 0 := by
        rw [Operand.ofComponent, Operand.moved, hKind]
        rfl
      exact congrArg (fun operand => some (Item.operand operand)) hSame
  | operator op => rfl

/-- The text of an operator that is written with its sign is that one character. -/
theorem Operator.IsSigned.toList_text {op : Operator} (h : op.IsSigned) :
    op.lexeme.text.toList = [op.connection.symbol] := by
  rw [h, Char.toString_eq_singleton, String.toList_singleton]

namespace Postfix

/-- The **tokens of the written form** that starts at a given byte: each item is written behind the
items before it, with one space after each of them. -/
def writtenTokens (offset : Nat) : Postfix → List Token
  | [] => []
  | item :: rest =>
    item.token.moved (fun _ => offset) ::
      writtenTokens (offset + item.lexeme.text.utf8ByteSize + 1) rest

/-- Up to their places the tokens of the written form are those of the items. -/
theorem map_unplaced_writtenTokens (offset : Nat) (items : Postfix) :
    (items.writtenTokens offset).map Token.unplaced =
      items.map fun item => item.token.unplaced := by
  induction items generalizing offset with
  | nil => rfl
  | cons item rest ih =>
      have hItem : (item.token.moved fun _ => offset).unplaced = item.token.unplaced := by
        cases item <;> rfl
      rw [writtenTokens, List.map_cons, List.map_cons, ih, hItem]

/-- **Items can be told from their tokens**, up to places, if their kinds are those that their names
ask for. -/
theorem map_unplaced_eq_of_writtenTokens_eq {first second : Postfix}
    (hFirst : ∀ operand ∈ first.operands, operand.IsNamed)
    (hSecond : ∀ operand ∈ second.operands, operand.IsNamed)
    (h : first.writtenTokens 0 = second.writtenTokens 0) :
    first.map Item.unplaced = second.map Item.unplaced := by
  have hFound : ∀ {items : Postfix}, (∀ operand ∈ items.operands, operand.IsNamed) →
      (items.writtenTokens 0).map (fun token => token.unplaced.item?) =
        (items.map Item.unplaced).map some := by
    intro items hNamed
    have hItems : ∀ item ∈ items, item.token.unplaced.item? = some item.unplaced :=
      fun item hItem => Item.item?_unplaced_token fun operand hOperand =>
        hNamed operand (List.mem_filterMap.mpr ⟨item, hItem, hOperand⟩)
    calc (items.writtenTokens 0).map (fun token => token.unplaced.item?)
        = ((items.writtenTokens 0).map Token.unplaced).map Token.item? := by
          rw [List.map_map]
          rfl
      _ = items.map fun item => item.token.unplaced.item? := by
          rw [map_unplaced_writtenTokens, List.map_map]
          rfl
      _ = (items.map Item.unplaced).map some := by
          rw [List.map_map]
          exact List.map_congr_left hItems
  have hSome := (hFound hFirst).symm.trans ((congrArg _ h).trans (hFound hSecond))
  exact (List.map_inj_right fun _ _ => Option.some.inj).mp hSome

/-! ### Scanned sequences item by item -/

variable {earlier : List String} {item : Item} {rest : Postfix}

/-- Behind the first item a sequence is as a scan leaves it, behind the name of that item if it is
an operand. -/
theorem IsScanned.tail (h : IsScanned earlier (item :: rest)) :
    rest.IsScanned (names [item] ++ earlier) := by
  obtain ⟨hName, hNamed, hSigned, hLiterals⟩ := h
  cases item with
  | operand component =>
      exact ⟨(List.forall_mem_cons.mp hName).2, (List.forall_mem_cons.mp hNamed).2, hSigned,
        (List.cons.inj hLiterals).2⟩
  | operator op => exact ⟨hName, hNamed, (List.forall_mem_cons.mp hSigned).2, hLiterals⟩

/-- The text of an item is **one token** when the text behind it ends a name. -/
theorem IsScanned.ofText_append (h : IsScanned earlier (item :: rest)) {text : List Char}
    (hText : Token.EndsName text) (offset : Nat) :
    Token.ofText earlier false offset (item.lexeme.text.toList ++ text) =
      item.token.moved (fun _ => offset) ::
        Token.ofText (names [item] ++ earlier) false
          (offset + item.lexeme.text.utf8ByteSize) text := by
  cases item with
  | operand component =>
      have hName : Token.IsName component.lexeme.text := h.isName _ List.mem_cons_self
      have hLiteral : component.literal = Token.numbered component.lexeme.text earlier :=
        (List.cons.inj h.literals_eq).1
      rw [Item.lexeme, Token.ofText_name_append hName hText, ← hLiteral]
      rfl
  | operator op =>
      have hSigned : op.IsSigned := h.isSigned op List.mem_cons_self
      have hSize : op.lexeme.text.utf8ByteSize = op.connection.symbol.utf8Size := by
        rw [hSigned, Char.toString_eq_singleton, String.utf8ByteSize_singleton]
      rw [Item.lexeme, hSigned.toList_text, List.singleton_append, Token.ofText_symbol, hSize,
        ← hSigned]
      rfl

/-- The text of an item has no foreign characters. -/
theorem IsScanned.not_isForeign (h : IsScanned earlier (item :: rest)) :
    ∀ c ∈ item.lexeme.text.toList, ¬ Glyph.IsForeign c := by
  cases item with
  | operand component => exact (h.isName _ List.mem_cons_self).not_isForeign
  | operator op =>
      have hSigned : op.IsSigned := h.isSigned op List.mem_cons_self
      rw [Item.lexeme, hSigned.toList_text]
      exact List.forall_mem_singleton.mpr (Glyph.not_isForeign_symbol op.connection)

/-! ### The text of a sequence -/

/-- The text of several items: that of the first one, a space, and that of the others. -/
theorem text_cons_cons (item next : Item) (rest : Postfix) :
    text (item :: next :: rest) = item.lexeme.text ++ " " ++ text (next :: rest) := by
  rw [text, List.map_cons, List.map_cons, String.intercalate_cons_cons]
  rfl

/-- The characters of the text of several items. -/
theorem toList_text_cons_cons (item next : Item) (rest : Postfix) :
    (text (item :: next :: rest)).toList =
      item.lexeme.text.toList ++ ' ' :: (text (next :: rest)).toList := by
  rw [text_cons_cons]
  simp

/-- The text of a sequence has no foreign characters. -/
theorem not_isForeign_of_mem_text {items : Postfix} (h : items.IsScanned earlier) :
    ∀ c ∈ items.text.toList, ¬ Glyph.IsForeign c := by
  induction items generalizing earlier with
  | nil => exact fun c hMem => absurd hMem List.not_mem_nil
  | cons item rest ih =>
      rcases rest with - | ⟨next, rest⟩
      · rw [text, List.map_singleton, String.intercalate_singleton]
        exact h.not_isForeign
      · rw [toList_text_cons_cons, List.forall_mem_append, List.forall_mem_cons]
        exact ⟨h.not_isForeign, by decide, ih h.tail⟩

/-- **Scanning the text of a sequence** gives its tokens. -/
theorem ofText_text {items : Postfix} (h : items.IsScanned earlier) (offset : Nat) :
    Token.ofText earlier false offset items.text.toList =
      items.writtenTokens offset ++ [.endOfInput ⟨"", offset + items.text.utf8ByteSize⟩] := by
  induction items generalizing earlier offset with
  | nil => rfl
  | cons item rest ih =>
      rcases rest with - | ⟨next, rest⟩
      · have hItem := h.ofText_append Token.endsName_nil offset
        rw [List.append_nil] at hItem
        rw [text, List.map_singleton, String.intercalate_singleton, hItem]
        rfl
      · have hSize : (text (item :: next :: rest)).utf8ByteSize =
            item.lexeme.text.utf8ByteSize + 1 + (text (next :: rest)).utf8ByteSize := by
          rw [text_cons_cons, String.utf8ByteSize_append, String.utf8ByteSize_append]
          rfl
        have hSpace : ∀ names place text, Token.ofText names false place (' ' :: text) =
            Token.ofText names false (place + 1) text := fun _ _ _ => rfl
        rw [toList_text_cons_cons, h.ofText_append (Token.endsName_cons rfl _), hSpace, ih h.tail,
          hSize, ← Nat.add_assoc, ← Nat.add_assoc]
        rfl

/-- **Scanning the written form.** -/
theorem scan_text_of_isScanned {items : Postfix} (h : items.IsScanned []) :
    Token.scan items.text =
      .ok (items.writtenTokens 0 ++ [.endOfInput ⟨"", items.text.utf8ByteSize⟩]) := by
  have hTokens := ofText_text h 0
  rw [Nat.zero_add] at hTokens
  rw [Token.scan, Token.firstForeign?_eq_none (not_isForeign_of_mem_text h), ← hTokens]

/-- **The written form is faithful.** When the items of a source are written and the text is
scanned, the tokens before the end mark are those of the items, at their places in the text: they
are of the same sorts, and have the same texts and the same literals. So the items of another source
with the same written form, under any precedence, agree with them position by position in
everything but their places: in their sorts, texts, literals and kinds. -/
theorem scan_text {precedence : Precedence} {source : String} {items : Postfix}
    (h : parse precedence source = .ok items) :
    Token.scan items.text =
        .ok (items.writtenTokens 0 ++ [.endOfInput ⟨"", items.text.utf8ByteSize⟩]) ∧
      (items.writtenTokens 0).map Token.unplaced = items.map (fun item => item.token.unplaced) ∧
      ∀ (reading : Precedence) (other : String) (again : Postfix),
        parse reading other = .ok again → again.text = items.text →
          again.map Item.unplaced = items.map Item.unplaced := by
  have hScanned : items.IsScanned [] := isScanned_of_parse_eq_ok h
  have hScan := scan_text_of_isScanned hScanned
  refine ⟨hScan, map_unplaced_writtenTokens 0 items, ?_⟩
  intro reading other again hAgain hText
  have hOther : again.IsScanned [] := isScanned_of_parse_eq_ok hAgain
  have hSame := scan_text_of_isScanned hOther
  rw [hText, hScan] at hSame
  refine map_unplaced_eq_of_writtenTokens_eq hOther.isNamed hScanned.isNamed ?_
  exact (List.append_cancel_right (Except.ok.inj hSame)).symm

/-- `(R | é) - R` is written as `R é | R -`, in which the second byte of `é` moves what follows, and
so is `R | é - R` when precedence is ranked. -/
theorem scan_text_of_two_sources :
    ∃ items again, parse .uniform "(R | é) - R" = .ok items ∧
      parse .ranked "R | é - R" = .ok again ∧ items.text = "R é | R -" ∧
      again.text = items.text ∧
      Token.scan items.text = .ok [.component "R1" ⟨"R", 0⟩, .component "é1" ⟨"é", 2⟩,
        .operator ⟨.parallel, ⟨"|", 5⟩⟩, .component "R2" ⟨"R", 7⟩,
        .operator ⟨.series, ⟨"-", 9⟩⟩, .endOfInput ⟨"", 10⟩] ∧
      again.map Item.unplaced = items.map Item.unplaced := by
  have hParse : parse .uniform "(R | é) - R" = .ok [.operand (.ofComponent "R1" ⟨"R", 1⟩),
      .operand (.ofComponent "é1" ⟨"é", 5⟩), .operator ⟨.parallel, ⟨"|", 3⟩⟩,
      .operand (.ofComponent "R2" ⟨"R", 11⟩), .operator ⟨.series, ⟨"-", 9⟩⟩] := rfl
  have hAgain : parse .ranked "R | é - R" = .ok [.operand (.ofComponent "R1" ⟨"R", 0⟩),
      .operand (.ofComponent "é1" ⟨"é", 4⟩), .operator ⟨.parallel, ⟨"|", 2⟩⟩,
      .operand (.ofComponent "R2" ⟨"R", 9⟩), .operator ⟨.series, ⟨"-", 7⟩⟩] := rfl
  obtain ⟨hScan, -, hSame⟩ := scan_text hParse
  exact ⟨_, _, hParse, hAgain, rfl, rfl, hScan, hSame _ _ _ hAgain rfl⟩

end Postfix

end EquivalentCircuit
