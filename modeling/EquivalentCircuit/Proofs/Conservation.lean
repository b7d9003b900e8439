import EquivalentCircuit.Proofs.Places

/-!
# Conservation of Tokens

The conversion puts out every component and every operator before the end mark once, and nothing
else. Operators may be held back, components never are: no operator overtakes a component that
stood before it, and the components keep their order.

With equal tokens in the input, values alone do not tell which token an item comes from. So the
items are traced to **positions**, by an order in which the positions of the tokens are put out
(`Postfix.IsArrangedBy`). The conversion never looks at places, so the positions can travel through
it in their stead: the tokens are placed at their positions, and the places of the items that come
out are the order (`Postfix.exists_isArrangedBy`). For tokens at increasing places the statement
about overtaking is an induction over the conversion
(`Postfix.overtakesNoOperand_of_convert_eq_ok`).

## Main results

* `Postfix.convert_beforeEnd`: nothing behind the end mark is read.
* `Postfix.overtakesNoOperand_of_convert_eq_ok`: what is in front of a component comes from before
  it.
* `Postfix.ofTokens_conserves`: what a converted sequence consists of, and in which order.
-/

namespace EquivalentCircuit

/-! ### Tokens and their items -/

namespace Token

/-- The tokens **before the end mark**, or all of them if there is none. -/
def beforeEnd (tokens : List Token) : List Token :=
  tokens.takeWhile fun token => !token.isEnd

/-- No end mark stands before the end mark. -/
theorem isEnd_of_mem_beforeEnd {tokens : List Token} :
    ∀ token ∈ beforeEnd tokens, token.isEnd = false := by
  intro token hMem
  have hNot : (!token.isEnd) = true := List.all_eq_true.mp List.all_takeWhile token hMem
  simpa using hNot

/-- Without an end mark all tokens count. -/
theorem beforeEnd_eq_self {tokens : List Token} (h : ∀ token ∈ tokens, token.isEnd = false) :
    beforeEnd tokens = tokens := by
  have hAll : ∀ token ∈ tokens, (!token.isEnd) = true := by simpa using h
  calc beforeEnd tokens
      = (tokens ++ []).takeWhile fun token => !token.isEnd := by rw [beforeEnd, List.append_nil]
    _ = tokens ++ [].takeWhile fun token => !token.isEnd := List.takeWhile_append_of_pos hAll
    _ = tokens := by rw [List.takeWhile_nil, List.append_nil]

/-- An item is **copied** from its token: it has the lexeme and the literal of the token, and the
kind that belongs to the first character of the lexeme. -/
theorem copied_of_item? {token : Token} {item : Item} (h : token.item? = some item) :
    item.lexeme = token.lexeme ∧ item.operand?.map Operand.literal = token.literal? ∧
      ∀ operand, item.operand? = some operand →
        operand.kind = operand.lexeme.text.toList.head?.bind ElementKind.ofLetter? := by
  cases token with
  | component literal lexeme =>
      obtain rfl := Option.some.inj h
      refine ⟨rfl, rfl, ?_⟩
      intro operand hOperand
      obtain rfl := Option.some.inj hOperand
      rfl
  | operator op =>
      obtain rfl := Option.some.inj h
      exact ⟨rfl, rfl, fun operand hOperand => absurd hOperand (by simp [Item.operand?])⟩
  | leftParen | rightParen | endOfInput => exact absurd h (by simp [item?])

/-- A token at another place has its item at that place. -/
theorem item?_moved (move : Nat → Nat) (token : Token) :
    (token.moved move).item? = token.item?.map (Item.moved move) := by
  cases token <;> rfl

/-- The end mark at another place is the end mark. -/
theorem isEnd_moved (move : Nat → Nat) (token : Token) :
    (token.moved move).isEnd = token.isEnd := by
  cases token <;> rfl

end Token

namespace Postfix

variable {precedence : Precedence} {items : Postfix}

/-- **Nothing behind the end mark is read.** -/
theorem convert_beforeEnd (precedence : Precedence) (waiting : List Operator)
    (outer : List (Nat × List Operator)) (tokens : List Token) :
    convert precedence waiting outer (Token.beforeEnd tokens) =
      convert precedence waiting outer tokens := by
  induction tokens generalizing waiting outer with
  | nil => rfl
  | cons token rest ih =>
      by_cases hEnd : token.isEnd = true
      · cases token with
        | endOfInput lexeme => rfl
        | component | operator | leftParen | rightParen => exact absurd hEnd (by simp [Token.isEnd])
      · have hBefore : Token.beforeEnd (token :: rest) = token :: Token.beforeEnd rest :=
          List.takeWhile_cons_of_pos (by simpa using hEnd)
        rw [hBefore]
        cases token with
        | component literal lexeme => rw [convert_component, convert_component, ih]
        | operator op => rw [convert_operator, convert_operator, ih]
        | leftParen lexeme => rw [convert_leftParen, convert_leftParen, ih]
        | rightParen lexeme =>
            rcases outer with - | ⟨⟨offset, suspended⟩, outer⟩
            · rfl
            · rw [convert_rightParen, convert_rightParen, ih]
        | endOfInput lexeme => exact absurd rfl hEnd

/-! ### No operator overtakes a component -/

/-- Whether **no item overtakes an operand**: what is in front of an operand stands before it in the
source. -/
def OvertakesNoOperand (items : Postfix) : Prop :=
  items.Pairwise fun first second =>
    second.operand?.isSome = true → first.lexeme.offset < second.lexeme.offset

/-- An operand has the lexeme of its item. -/
theorem lexeme_eq_of_operand? {item : Item} {operand : Operand}
    (h : item.operand? = some operand) : operand.lexeme = item.lexeme := by
  cases item with
  | operand component =>
      obtain rfl := Option.some.inj h
      rfl
  | operator op => exact absurd h (by simp [Item.operand?])

/-- Operators that stand before all operands of a sequence may be put in front of it. -/
theorem overtakesNoOperand_map_operator_append {completed : List Operator}
    (hItems : items.OvertakesNoOperand)
    (hBefore : ∀ op ∈ completed, ∀ operand ∈ items.operands,
      op.lexeme.offset < operand.lexeme.offset) :
    OvertakesNoOperand (completed.map .operator ++ items) := by
  refine List.pairwise_append.mpr ⟨?_, hItems, ?_⟩
  · refine List.pairwise_map.mpr (List.pairwise_of_forall fun first second hOperand => ?_)
    exact absurd hOperand (by simp [Item.operand?])
  · intro first hFirst second hSecond hOperand
    obtain ⟨op, hOp, rfl⟩ := List.mem_map.mp hFirst
    obtain ⟨operand, hOperand⟩ := Option.isSome_iff_exists.mp hOperand
    have hMem : operand ∈ items.operands := List.mem_filterMap.mpr ⟨second, hSecond, hOperand⟩
    rw [← lexeme_eq_of_operand? hOperand]
    exact hBefore op hOp operand hMem

/-- An operand of a converted sequence has the lexeme of one of the tokens. -/
theorem exists_token_of_mem_operands {waiting : List Operator}
    {outer : List (Nat × List Operator)} {tokens : List Token}
    (h : convert precedence waiting outer tokens = .ok items) {operand : Operand}
    (hMem : operand ∈ items.operands) : ∃ token ∈ tokens, token.lexeme = operand.lexeme := by
  rw [operands_of_convert_eq_ok h] at hMem
  obtain ⟨token, hToken, hOperand⟩ := List.mem_filterMap.mp hMem
  refine ⟨token, List.takeWhile_subset _ hToken, ?_⟩
  cases token with
  | component literal lexeme =>
      obtain rfl := Option.some.inj hOperand
      rfl
  | operator | leftParen | rightParen | endOfInput =>
      exact absurd hOperand (by simp [Token.operand?])

/-- What stands before all tokens stands before the operands that they are converted to. -/
theorem offset_lt_of_mem_operands {waiting completed : List Operator}
    {outer : List (Nat × List Operator)} {tokens : List Token}
    (h : convert precedence waiting outer tokens = .ok items)
    (hBefore : ∀ op ∈ completed, ∀ token ∈ tokens, op.lexeme.offset < token.lexeme.offset) :
    ∀ op ∈ completed, ∀ operand ∈ items.operands,
      op.lexeme.offset < operand.lexeme.offset := by
  intro op hOp operand hOperand
  obtain ⟨token, hToken, hLexeme⟩ := exists_token_of_mem_operands h hOperand
  rw [← hLexeme]
  exact hBefore op hOp token hToken

/-- What waits at the end is put out without operands. -/
theorem overtakesNoOperand_of_finish_eq_ok {waiting : List Operator}
    {outer : List (Nat × List Operator)} (h : finish waiting outer = .ok items) :
    items.OvertakesNoOperand := by
  rw [eq_of_finish_eq_ok h, ← List.append_nil (List.map _ _)]
  exact overtakesNoOperand_map_operator_append List.Pairwise.nil (by simp [operands])

/-- **No operator overtakes a component.** When the tokens stand in the order of the source, behind
all operators that wait, every item in front of an operand stands before it in the source. -/
theorem overtakesNoOperand_of_convert_eq_ok {waiting : List Operator}
    {outer : List (Nat × List Operator)} {tokens : List Token}
    (hTokens : tokens.Pairwise fun first second => first.lexeme.offset < second.lexeme.offset)
    (hWaiting : ∀ op ∈ waiting ++ outer.flatMap Prod.snd, ∀ token ∈ tokens,
      op.lexeme.offset < token.lexeme.offset)
    (h : convert precedence waiting outer tokens = .ok items) : items.OvertakesNoOperand := by
  induction tokens generalizing waiting outer items with
  | nil => exact overtakesNoOperand_of_finish_eq_ok h
  | cons token rest ih =>
      obtain ⟨hFirst, hOrder⟩ := List.pairwise_cons.mp hTokens
      have hWaitingRest : ∀ op ∈ waiting ++ outer.flatMap Prod.snd, ∀ other ∈ rest,
          op.lexeme.offset < other.lexeme.offset :=
        fun op hOp other hOther => hWaiting op hOp other (List.mem_cons_of_mem _ hOther)
      cases token with
      | component literal lexeme =>
          rw [convert_component, prepend_eq_ok_iff] at h
          obtain ⟨after, hAfter, rfl⟩ := h
          refine List.pairwise_cons.mpr ⟨?_, ih hOrder hWaitingRest hAfter⟩
          intro item hItem hOperand
          obtain ⟨operand, hOperand⟩ := Option.isSome_iff_exists.mp hOperand
          have hPlace := lexeme_eq_of_operand? hOperand
          obtain ⟨other, hOther, hLexeme⟩ := exists_token_of_mem_operands hAfter
            (List.mem_filterMap.mpr ⟨item, hItem, hOperand⟩)
          rw [← hPlace, ← hLexeme]
          exact hFirst other hOther
      | operator op =>
          rw [convert_operator, prepend_eq_ok_iff] at h
          obtain ⟨after, hAfter, rfl⟩ := h
          refine overtakesNoOperand_map_operator_append (ih hOrder ?_ hAfter) ?_
          · rw [List.cons_append, List.forall_mem_cons]
            refine ⟨hFirst, fun other hOther => ?_⟩
            rcases List.mem_append.mp hOther with hKept | hOuter
            · exact hWaitingRest other
                (List.mem_append_left _ ((List.dropWhile_suffix _).subset hKept))
            · exact hWaitingRest other (List.mem_append_right _ hOuter)
          · exact offset_lt_of_mem_operands hAfter fun other hOther =>
              hWaitingRest other (List.mem_append_left _ (List.takeWhile_subset _ hOther))
      | leftParen lexeme =>
          rw [convert_leftParen] at h
          refine ih hOrder ?_ h
          rwa [List.nil_append, List.flatMap_cons]
      | rightParen lexeme =>
          rcases outer with - | ⟨⟨offset, suspended⟩, outer⟩
          · exact absurd h (by simp [convert])
          · rw [convert_rightParen, prepend_eq_ok_iff] at h
            obtain ⟨after, hAfter, rfl⟩ := h
            rw [List.flatMap_cons] at hWaitingRest
            refine overtakesNoOperand_map_operator_append (ih hOrder ?_ hAfter) ?_
            · exact fun op hOp => hWaitingRest op (List.mem_append_right _ hOp)
            · exact offset_lt_of_mem_operands hAfter fun op hOp =>
                hWaitingRest op (List.mem_append_left _ hOp)
      | endOfInput lexeme => exact overtakesNoOperand_of_finish_eq_ok h

/-! ### Tracing items to positions -/

end Postfix

namespace Token

/-- The item that the token at a **position** is put out as, if any. -/
def itemAt? (tokens : List Token) (position : Nat) : Option Item :=
  tokens[position]?.bind item?

/-- Tokens with their positions for places. -/
def placed (tokens : List Token) : List Token :=
  tokens.mapIdx fun position token => token.moved fun _ => position

/-- The place in the source of the token at a position. -/
def placeAt (tokens : List Token) (position : Nat) : Nat :=
  (tokens[position]?.map fun token => token.lexeme.offset).getD 0

/-- The tokens are back where they were when their positions are turned into places again. -/
theorem map_moved_placed (tokens : List Token) :
    (placed tokens).map (Token.moved (placeAt tokens)) = tokens := by
  apply List.ext_getElem?
  intro position
  rw [placed, List.getElem?_map, List.getElem?_mapIdx, Option.map_map]
  rcases hToken : tokens[position]? with - | token
  · rfl
  · have hPlace : placeAt tokens position = token.lexeme.offset := by simp [placeAt, hToken]
    simp only [Option.map_some, Function.comp_apply, Option.some.injEq]
    cases token <;> simp [Token.moved, Lexeme.moved, Operator.moved, hPlace, lexeme]

/-- Positions increase. -/
theorem pairwise_offset_placed (tokens : List Token) :
    (placed tokens).Pairwise fun first second => first.lexeme.offset < second.lexeme.offset := by
  rw [List.pairwise_iff_getElem]
  intro i j hi hj hLt
  have hOffset : ∀ (token : Token) (position : Nat),
      (token.moved fun _ => position).lexeme.offset = position := by
    intro token position
    cases token <;> rfl
  simpa [placed, hOffset] using hLt

end Token

namespace Postfix

/-- An **order of positions** in which tokens are put out as items: every position that has an item
occurs once, and a component is not put out before anything that stands in front of it. -/
structure IsArrangedBy (tokens : List Token) (items : Postfix) (order : List Nat) : Prop where
  nodup : order.Nodup
  mem_iff : ∀ position, position ∈ order ↔ (Token.itemAt? tokens position).isSome = true
  items_eq : items.map some = order.map (Token.itemAt? tokens)
  notOvertaken : order.Pairwise fun first second =>
    ((Token.itemAt? tokens second).bind Item.operand?).isSome = true → first < second

/-- An item of placed tokens stands at the **position of its token**, and at the place of the token
it is the item of the token. -/
theorem itemAt?_of_mem_filterMap_placed {tokens : List Token} {item : Item}
    (h : item ∈ (Token.placed tokens).filterMap Token.item?) :
    Token.itemAt? tokens item.lexeme.offset = some (item.moved (Token.placeAt tokens)) := by
  obtain ⟨atPosition, hMem, hItem⟩ := List.mem_filterMap.mp h
  obtain ⟨position, hPosition⟩ := List.mem_iff_getElem?.mp hMem
  rw [Token.placed, List.getElem?_mapIdx, Option.map_eq_some_iff] at hPosition
  obtain ⟨token, hToken, rfl⟩ := hPosition
  rw [Token.item?_moved, Option.map_eq_some_iff] at hItem
  obtain ⟨original, hOriginal, rfl⟩ := hItem
  have hPlace : Token.placeAt tokens position = original.lexeme.offset := by
    rw [Token.placeAt, hToken, (Token.copied_of_item? hOriginal).1]
    rfl
  have hOffset : (original.moved fun _ => position).lexeme.offset = position := by
    cases original <;> rfl
  rw [hOffset, Token.itemAt?, hToken, Option.bind_some, hOriginal]
  cases original with
  | operand component => simp [Item.moved, Operand.moved, Lexeme.moved, hPlace, Item.lexeme]
  | operator op => simp [Item.moved, Operator.moved, Lexeme.moved, hPlace, Item.lexeme]

/-- The token at every position that has an item is put out at that position. -/
theorem exists_mem_filterMap_placed {tokens : List Token} {position : Nat}
    (h : (Token.itemAt? tokens position).isSome = true) :
    ∃ item ∈ (Token.placed tokens).filterMap Token.item?, item.lexeme.offset = position := by
  obtain ⟨item, hItem⟩ := Option.isSome_iff_exists.mp h
  obtain ⟨token, hToken, hTokenItem⟩ := Option.bind_eq_some_iff.mp hItem
  have hPlaced : (Token.placed tokens)[position]? = some (token.moved fun _ => position) := by
    rw [Token.placed, List.getElem?_mapIdx, hToken]
    rfl
  refine ⟨item.moved fun _ => position, List.mem_filterMap.mpr ⟨_,
    List.mem_iff_getElem?.mpr ⟨position, hPlaced⟩, ?_⟩, ?_⟩
  · rw [Token.item?_moved, hTokenItem, Option.map_some]
  · cases item <;> rfl

/-- The items of placed tokens stand at different places. -/
theorem nodup_offset_filterMap_placed (tokens : List Token) :
    (((Token.placed tokens).filterMap Token.item?).map fun item => item.lexeme.offset).Nodup := by
  refine List.pairwise_map.mpr (List.pairwise_filterMap.mpr ?_)
  refine (Token.pairwise_offset_placed tokens).imp ?_
  intro first second hLt firstItem hFirst secondItem hSecond
  rw [(Token.copied_of_item? hFirst).1, (Token.copied_of_item? hSecond).1]
  exact Nat.ne_of_lt hLt

/-- **Items are traced to positions**, in an order that overtakes no component. -/
theorem exists_isArrangedBy {precedence : Precedence} {tokens : List Token} {items : Postfix}
    (hEnd : ∀ token ∈ tokens, token.isEnd = false)
    (h : ofTokens precedence tokens = .ok items) :
    ∃ order, IsArrangedBy tokens items order := by
  -- The same tokens at their positions are converted to the same items at their positions.
  rw [← Token.map_moved_placed tokens, ofTokens_map_moved] at h
  obtain ⟨placed, hPlaced, rfl⟩ := exists_eq_ok_of_movedResult_eq_ok h
  have hPerm : placed.Perm ((Token.placed tokens).filterMap Token.item?) := by
    have hNoEnd : ∀ token ∈ Token.placed tokens, token.isEnd = false := by
      intro token hMem
      obtain ⟨position, hLt, rfl⟩ := List.mem_mapIdx.mp hMem
      rw [Token.isEnd_moved]
      exact hEnd _ (List.getElem_mem hLt)
    have hWhole := perm_of_convert_eq_ok hPlaced
    rwa [List.flatMap_nil, List.append_nil, List.map_nil, List.nil_append,
      ← Token.beforeEnd, Token.beforeEnd_eq_self hNoEnd] at hWhole
  have hTrace : ∀ item ∈ placed,
      Token.itemAt? tokens item.lexeme.offset = some (item.moved (Token.placeAt tokens)) :=
    fun item hItem => itemAt?_of_mem_filterMap_placed (hPerm.subset hItem)
  refine ⟨placed.map fun item => item.lexeme.offset, ?_, ?_, ?_, ?_⟩
  · exact (hPerm.map _).nodup_iff.mpr (nodup_offset_filterMap_placed tokens)
  · intro position
    constructor
    · intro hMem
      obtain ⟨item, hItem, rfl⟩ := List.mem_map.mp hMem
      rw [hTrace item hItem]
      rfl
    · intro hSome
      obtain ⟨item, hItem, hOffset⟩ := exists_mem_filterMap_placed hSome
      exact List.mem_map.mpr ⟨item, hPerm.symm.subset hItem, hOffset⟩
  · rw [List.map_map, List.map_map]
    exact (List.map_congr_left hTrace).symm
  · refine List.pairwise_map.mpr ?_
    have hOvertakes := overtakesNoOperand_of_convert_eq_ok (Token.pairwise_offset_placed tokens)
      (by simp) hPlaced
    refine hOvertakes.imp_of_mem ?_
    intro first second _ hSecond hLt hOperand
    refine hLt ?_
    rw [hTrace second hSecond, Option.bind_some] at hOperand
    cases second with
    | operand component => rfl
    | operator op => exact hOperand

/-! ### What a converted sequence consists of -/

/-- **Conservation.** The result of the conversion depends on the tokens before the end mark only.
If there is one, it consists of the components and the operators among these tokens, each copied
once: as a whole it is a rearrangement of their items, in which the components keep their order.
More precisely the items come from the positions of the tokens in some order, in which no
operator is put out before a component that stood in front of it. -/
theorem ofTokens_conserves (precedence : Precedence) (tokens : List Token) :
    ofTokens precedence (Token.beforeEnd tokens) = ofTokens precedence tokens ∧
    ∀ items, ofTokens precedence tokens = .ok items →
      items.Perm ((Token.beforeEnd tokens).filterMap Token.item?) ∧
      items.operands = (Token.beforeEnd tokens).filterMap Token.operand? ∧
      (∀ item ∈ items, ∃ token ∈ Token.beforeEnd tokens, token.item? = some item ∧
        item.lexeme = token.lexeme ∧ item.operand?.map Operand.literal = token.literal? ∧
        ∀ operand, item.operand? = some operand →
          operand.kind = operand.lexeme.text.toList.head?.bind ElementKind.ofLetter?) ∧
      ∃ order, IsArrangedBy (Token.beforeEnd tokens) items order := by
  constructor
  · exact convert_beforeEnd precedence [] [] tokens
  · intro items hItems
    have hPerm : items.Perm ((Token.beforeEnd tokens).filterMap Token.item?) :=
      perm_of_convert_eq_ok hItems
    refine ⟨hPerm, operands_of_convert_eq_ok hItems, ?_, ?_⟩
    · intro item hItem
      obtain ⟨token, hToken, hTokenItem⟩ := List.mem_filterMap.mp (hPerm.subset hItem)
      exact ⟨token, hToken, hTokenItem, Token.copied_of_item? hTokenItem⟩
    · have hBefore : ofTokens precedence (Token.beforeEnd tokens) = .ok items :=
        (convert_beforeEnd precedence [] [] tokens).trans hItems
      exact exists_isArrangedBy Token.isEnd_of_mem_beforeEnd hBefore

/-- Two components with equal tokens around `|`, and a stray parenthesis behind the end mark, which
is not read. -/
theorem ofTokens_conserves_equal_tokens :
    ofTokens .ranked [.component "R1" ⟨"R", 0⟩, .operator ⟨.parallel, ⟨"|", 0⟩⟩,
        .component "R1" ⟨"R", 0⟩, .operator ⟨.series, ⟨"-", 0⟩⟩, .component "X1" ⟨"X", 0⟩,
        .endOfInput ⟨"", 0⟩, .rightParen ⟨")", 0⟩] =
      .ok [.operand ⟨"R1", some .resistor, ⟨"R", 0⟩⟩, .operand ⟨"R1", some .resistor, ⟨"R", 0⟩⟩,
        .operator ⟨.parallel, ⟨"|", 0⟩⟩, .operand ⟨"X1", none, ⟨"X", 0⟩⟩,
        .operator ⟨.series, ⟨"-", 0⟩⟩] ∧
    ∃ order, IsArrangedBy [.component "R1" ⟨"R", 0⟩, .operator ⟨.parallel, ⟨"|", 0⟩⟩,
        .component "R1" ⟨"R", 0⟩, .operator ⟨.series, ⟨"-", 0⟩⟩, .component "X1" ⟨"X", 0⟩]
      [.operand ⟨"R1", some .resistor, ⟨"R", 0⟩⟩, .operand ⟨"R1", some .resistor, ⟨"R", 0⟩⟩,
        .operator ⟨.parallel, ⟨"|", 0⟩⟩, .operand ⟨"X1", none, ⟨"X", 0⟩⟩,
        .operator ⟨.series, ⟨"-", 0⟩⟩] order := by
  have hItems : ofTokens .ranked [.component "R1" ⟨"R", 0⟩, .operator ⟨.parallel, ⟨"|", 0⟩⟩,
      .component "R1" ⟨"R", 0⟩, .operator ⟨.series, ⟨"-", 0⟩⟩, .component "X1" ⟨"X", 0⟩,
      .endOfInput ⟨"", 0⟩, .rightParen ⟨")", 0⟩] =
        .ok [.operand ⟨"R1", some .resistor, ⟨"R", 0⟩⟩, .operand ⟨"R1", some .resistor, ⟨"R", 0⟩⟩,
          .operator ⟨.parallel, ⟨"|", 0⟩⟩, .operand ⟨"X1", none, ⟨"X", 0⟩⟩,
          .operator ⟨.series, ⟨"-", 0⟩⟩] := rfl
  obtain ⟨-, hResult⟩ := ofTokens_conserves .ranked _
  obtain ⟨-, -, -, hOrder⟩ := hResult _ hItems
  exact ⟨hItems, hOrder⟩

end Postfix

end EquivalentCircuit
