import EquivalentCircuit.Proofs.Places

/-!
# From Postfix Order Back to Infix

A sequence in postfix order that leaves one value can be read back as a tree, and the text of
the tree, with parentheses around every operator and its operands, can be parsed again. Both
precedences give the same sequence back, up to the places in the text, whether or not the
first source was grammatical.

Which sequences leave one value is a matter of counting: `depth?` follows how many values are on
the stack, and reading back succeeds on the same sequences (`Expr.exists_ofPostfix?_iff`). The text
of a tree is scanned piece by piece. A name must be followed by something that is not a letter,
which is why the pieces are read with the rest of the text behind them (`Token.words_text_append`).
The numbers of the components come out as before, since the text has the names in the order in
which the sequence has them; what that needs of the sequence is gathered in `Postfix.IsScanned`.

## Main results

* `Expr.exists_ofPostfix?_iff`: reading back succeeds on the sequences that leave one value.
* `Postfix.isScanned_of_parse_eq_ok`: what the items of a source are like.
* `Expr.exists_parse_text`: the text of a tree is parsed to the items of the tree.
* `Circuit.reparse_text`: a source and the text of its tree have the same circuits.
-/

universe u

namespace EquivalentCircuit

/-! ### Sequences that leave one value -/

/-- The **depth of the stack** behind a sequence that begins with `depth` values on the stack: an
operand adds one, and an operator takes two and puts one back, if there are two. -/
def Postfix.depth? : Nat → Postfix → Option Nat
  | depth, [] => some depth
  | depth, .operand _ :: rest => depth? (depth + 1) rest
  | below + 2, .operator _ :: rest => depth? (below + 1) rest
  | 0, .operator _ :: _ | 1, .operator _ :: _ => none

/-- Whether a sequence **leaves one value**: no operator lacks operands, and one value is left. -/
def Postfix.LeavesOne (items : Postfix) : Prop :=
  depth? 0 items = some 1

instance (items : Postfix) : Decidable items.LeavesOne :=
  inferInstanceAs (Decidable (Postfix.depth? 0 items = some 1))

/-- Reading items onto trees gives one tree when they leave one value in the place of the trees. -/
theorem Expr.exists_readBack_iff {stack : List Expr} {items : Postfix} :
    (∃ tree, readBack stack items = some tree) ↔ Postfix.depth? stack.length items = some 1 := by
  induction items generalizing stack with
  | nil =>
      match stack with
      | [] => simp [readBack, Postfix.depth?]
      | [tree] => simp [readBack, Postfix.depth?]
      | _ :: _ :: _ => simp [readBack, Postfix.depth?]
  | cons item rest ih =>
      cases item with
      | operand component =>
          rw [readBack, Postfix.depth?]
          exact ih
      | operator op =>
          match stack with
          | [] => simp [readBack, Postfix.depth?]
          | [_] => simp [readBack, Postfix.depth?]
          | right :: left :: below =>
              rw [readBack, List.length_cons, List.length_cons, Postfix.depth?]
              exact ih

/-- **Reading back succeeds** exactly on the sequences that leave one value. -/
theorem Expr.exists_ofPostfix?_iff {items : Postfix} :
    (∃ tree, ofPostfix? items = some tree) ↔ items.LeavesOne :=
  exists_readBack_iff

/-! ### Items of a source -/

/-- What the items of a source are like when `earlier` holds the names before them: operands have
names, the kinds that the names ask for and the names numbered for literals, and operators are
written with their signs. -/
structure Postfix.IsScanned (earlier : List String) (items : Postfix) : Prop where
  isName : ∀ name ∈ items.names, Token.IsName name
  isNamed : ∀ operand ∈ items.operands, operand.IsNamed
  isSigned : ∀ op ∈ items.operators, op.IsSigned
  literals_eq : items.literals = Token.numberedAll earlier items.names

namespace Postfix

variable {precedence : Precedence} {source : String} {items : Postfix} {earlier : List String}

/-- The operators of a converted sequence are among its tokens. -/
theorem mem_of_mem_operators {tokens : List Token} (h : ofTokens precedence tokens = .ok items)
    {op : Operator} (hMem : op ∈ items.operators) : Token.operator op ∈ tokens := by
  obtain ⟨item, hItem, hOp⟩ := List.mem_filterMap.mp hMem
  have hPerm := (perm_of_convert_eq_ok h).subset hItem
  rw [List.flatMap_nil, List.append_nil, List.map_nil, List.nil_append, List.mem_filterMap] at hPerm
  obtain ⟨token, hToken, hTokenItem⟩ := hPerm
  have hTokens := List.takeWhile_subset _ hToken
  cases token with
  | operator other =>
      obtain rfl := Option.some.inj hTokenItem
      obtain rfl := Option.some.inj hOp
      exact hTokens
  | component literal lexeme =>
      obtain rfl := Option.some.inj hTokenItem
      exact absurd hOp (by simp [Item.operator?])
  | leftParen | rightParen | endOfInput => exact absurd hTokenItem (by simp [Token.item?])

/-- **The items of a source** are as a scan leaves them. -/
theorem isScanned_of_parse_eq_ok (h : parse precedence source = .ok items) :
    items.IsScanned [] := by
  obtain ⟨tokens, hScan, hItems⟩ := exists_scan_eq_ok_of_parse_eq_ok h
  have hTokens : tokens = Token.ofText [] false 0 source.toList :=
    Token.eq_ofText_of_scan_eq_ok hScan
  have hNames : items.names = tokens.filterMap Token.name? := names_of_scan_eq_ok hScan hItems
  constructor
  · rw [hNames, hTokens]
    exact Token.isName_of_mem_ofText
  · exact isNamed_of_ofTokens_eq_ok hItems
  · intro op hMem
    have hToken : Token.operator op ∈ tokens := mem_of_mem_operators hItems hMem
    rw [hTokens] at hToken
    exact Token.isWritten_of_mem_ofText _ hToken
  · rw [literals_of_scan_eq_ok hScan hItems, Token.literals_of_scan_eq_ok hScan, hNames]

/-- The names in a tree are those of its left part and then those of its right part. -/
theorem names_postorder_node (op : Operator) (left right : Expr) :
    (Expr.node op left right).postorder.names = left.postorder.names ++ right.postorder.names := by
  rw [names, operands_postorder_node, List.map_append]
  rfl

/-- The operators of a tree are those of its parts and the one at its root. -/
theorem operators_postorder_node (op : Operator) (left right : Expr) :
    (Expr.node op left right).postorder.operators =
      left.postorder.operators ++ right.postorder.operators ++ [op] := by
  rw [operators, Expr.postorder, List.filterMap_append, List.filterMap_append]
  rfl

/-- Both **parts of a tree** are as a scan leaves them if the tree is, the right part behind the
names of the left one. -/
theorem IsScanned.of_node {op : Operator} {left right : Expr}
    (h : (Expr.node op left right).postorder.IsScanned earlier) :
    left.postorder.IsScanned earlier ∧ op.IsSigned ∧
      right.postorder.IsScanned (left.postorder.names.reverse ++ earlier) := by
  obtain ⟨hName, hNamed, hSigned, hLiterals⟩ := h
  rw [names_postorder_node, List.forall_mem_append] at hName
  rw [operands_postorder_node, List.forall_mem_append] at hNamed
  rw [operators_postorder_node, List.forall_mem_append, List.forall_mem_append] at hSigned
  rw [literals, operands_postorder_node, List.map_append, names_postorder_node,
    Token.numberedAll_append] at hLiterals
  have hLength : (left.postorder.operands.map Operand.literal).length =
      (Token.numberedAll earlier left.postorder.names).length := by
    rw [Token.length_numberedAll, names, List.length_map, List.length_map]
  obtain ⟨hLeft, hRight⟩ := List.append_inj hLiterals hLength
  refine ⟨⟨hName.1, hNamed.1, hSigned.1.1, hLeft⟩, hSigned.2 op (List.mem_singleton_self op), ?_⟩
  exact ⟨hName.2, hNamed.2, hSigned.1.2, hRight⟩

end Postfix

/-! ### Scanning a text piece by piece -/

namespace Token

/-- The **words of a text**: its tokens without their places. -/
def words (earlier : List String) (inName : Bool) (text : List Char) : List Token :=
  (ofText earlier inName 0 text).map unplaced

/-- The words of a text do not depend on the place where the text starts. -/
theorem map_unplaced_ofText (earlier : List String) (inName : Bool) (offset : Nat)
    (text : List Char) : (ofText earlier inName offset text).map unplaced =
      words earlier inName text := by
  have hPlaces : ∀ k, (fun _ : Nat => 0) (offset + k) = (fun _ : Nat => 0) (0 + k) := by
    intro k
    rfl
  exact map_moved_ofText hPlaces earlier inName text

variable (earlier : List String) (inName : Bool) (rest : List Char)

/-- The end of a text is a word. -/
theorem words_nil : words earlier inName [] = [.endOfInput ⟨"", 0⟩] := rfl

/-- An opening parenthesis is a word. -/
theorem words_leftParen :
    words earlier inName ('(' :: rest) = .leftParen ⟨"(", 0⟩ :: words earlier false rest := by
  rw [words, ofText_leftParen, List.map_cons, map_unplaced_ofText]
  rfl

/-- A closing parenthesis is a word. -/
theorem words_rightParen :
    words earlier inName (')' :: rest) = .rightParen ⟨")", 0⟩ :: words earlier false rest := by
  rw [words, ofText_rightParen, List.map_cons, map_unplaced_ofText]
  rfl

/-- The sign of a connection is a word. -/
theorem words_symbol (connection : Connection) :
    words earlier inName (connection.symbol :: rest) =
      .operator ⟨connection, ⟨connection.symbol.toString, 0⟩⟩ :: words earlier false rest := by
  rw [words, ofText_symbol, List.map_cons, map_unplaced_ofText]
  rfl

/-- A space ends a name and is no word. -/
theorem words_space : words earlier inName (' ' :: rest) = words earlier false rest :=
  map_unplaced_ofText earlier false _ rest

variable {rest}

/-- A **name** is a word when the text behind it ends it. -/
theorem words_name_append {name : String} (hName : IsName name) (hRest : EndsName rest) :
    words earlier false (name.toList ++ rest) =
      .component (numbered name earlier) ⟨name, 0⟩ :: words (name :: earlier) false rest := by
  rw [words, ofText_name_append hName hRest, List.map_cons, map_unplaced_ofText]
  rfl

end Token

/-! ### The text of a tree -/

namespace Expr

variable {earlier : List String}

/-- The characters of the text of an operator and its operands, with a text behind it. -/
theorem toList_text_node_append (op : Operator) (left right : Expr) (rest : List Char) :
    (node op left right).text.toList ++ rest =
      '(' :: (left.text.toList ++ ' ' :: op.connection.symbol :: ' ' ::
        (right.text.toList ++ ')' :: rest)) := by
  simp [text]

/-- **Scanning the text of a tree** gives the tokens of its term, and the text behind it is scanned
behind the names of the tree. -/
theorem words_text_append {tree : Expr} (h : tree.postorder.IsScanned earlier)
    {rest : List Char} (hRest : Token.EndsName rest) :
    Token.words earlier false (tree.text.toList ++ rest) =
      tree.term.tokens.map Token.unplaced ++
        Token.words (tree.postorder.names.reverse ++ earlier) false rest := by
  induction tree generalizing earlier rest with
  | leaf operand =>
      have hName : Token.IsName operand.lexeme.text := h.isName _ (List.mem_singleton_self _)
      have hLiteral : operand.literal = Token.numbered operand.lexeme.text earlier :=
        (List.cons.inj h.literals_eq).1
      rw [text, Token.words_name_append _ hName hRest, ← hLiteral]
      rfl
  | node op left right ihl ihr =>
      obtain ⟨hLeft, hSigned, hRight⟩ := h.of_node
      rw [toList_text_node_append, Token.words_leftParen, ihl hLeft (Token.endsName_cons rfl _),
        Token.words_space, Token.words_symbol, Token.words_space,
        ihr hRight (Token.endsName_cons rfl _), Token.words_rightParen,
        Postfix.names_postorder_node, List.reverse_append, List.append_assoc, ← hSigned]
      simp [term, Term.tokens, Chain.tokens, Token.unplaced, Token.moved, Operator.moved,
        Lexeme.moved]

/-- The text of a tree has no foreign characters. -/
theorem not_isForeign_of_mem_text {tree : Expr}
    (h : ∀ name ∈ tree.postorder.names, Token.IsName name) :
    ∀ c ∈ tree.text.toList, ¬ Glyph.IsForeign c := by
  induction tree with
  | leaf operand =>
      exact (h operand.lexeme.text (List.mem_singleton_self _)).not_isForeign
  | node op left right ihl ihr =>
      rw [Postfix.names_postorder_node, List.forall_mem_append] at h
      rw [← List.append_nil (node op left right).text.toList, toList_text_node_append]
      simp only [List.forall_mem_cons, List.forall_mem_append]
      exact ⟨by decide, ihl h.1, by decide, Glyph.not_isForeign_symbol _, by decide, ihr h.2,
        by decide, by simp⟩

/-- **The text of a tree is parsed** to the items of the tree, up to places, whatever the precedence
is. -/
theorem exists_parse_text {tree : Expr} (h : tree.postorder.IsScanned []) (reading : Precedence) :
    ∃ again, Postfix.parse reading tree.text = .ok again ∧
      again.map Item.unplaced = tree.postorder.map Item.unplaced := by
  have hWords := words_text_append h Token.endsName_nil
  rw [List.append_nil, Token.words_nil] at hWords
  -- The tokens of the text and those of the term differ in their places only.
  have hTokens : (Token.ofText [] false 0 tree.text.toList).map Token.unplaced =
      (tree.term.tokens ++ [Token.endOfInput ⟨"", 0⟩]).map Token.unplaced := by
    rw [List.map_append]
    exact hWords
  have hTerm : Postfix.ofTokens reading (tree.term.tokens ++ [Token.endOfInput ⟨"", 0⟩]) =
      .ok tree.postorder := by
    have hChain := Postfix.ofTokens_chain_endOfInput reading (.last tree.term) ⟨"", 0⟩ []
    rw [Chain.tree_last, tree_term reading h.isNamed] at hChain
    exact hChain
  have hParse : Postfix.parse reading tree.text =
      Postfix.ofTokens reading (Token.ofText [] false 0 tree.text.toList) := by
    rw [Postfix.parse, Token.scan,
      Token.firstForeign?_eq_none (not_isForeign_of_mem_text h.isName)]
    rfl
  rw [hParse]
  refine Postfix.exists_eq_ok_of_movedResult_eq_ok ?_
  calc Postfix.movedResult (fun _ => 0)
        (Postfix.ofTokens reading (Token.ofText [] false 0 tree.text.toList))
      = Postfix.ofTokens reading
          ((Token.ofText [] false 0 tree.text.toList).map Token.unplaced) :=
        (Postfix.ofTokens_map_moved _).symm
    _ = Postfix.ofTokens reading
          ((tree.term.tokens ++ [Token.endOfInput ⟨"", 0⟩]).map Token.unplaced) := by rw [hTokens]
    _ = Postfix.movedResult (fun _ => 0)
          (Postfix.ofTokens reading (tree.term.tokens ++ [Token.endOfInput ⟨"", 0⟩])) :=
        Postfix.ofTokens_map_moved _
    _ = .ok (tree.postorder.map Item.unplaced) := by
        rw [hTerm]
        rfl

end Expr

/-! ### The circuit of the text -/

namespace Circuit

variable {ζ α : Type u} [Immittance ζ α] [Zero α] [One α] [Add α] [Sub α] [Neg α] [Mul α]
  [Div α] [BEq α] [Elementary α] [LT α] [DecidableLT α]

/-- **From postfix order to infix and back.** When the items of a source leave one value, they are
the postfix order of a tree, and the text of the tree is parsed, with either precedence, to items
that agree with them in everything but their places. The circuits of the source and of the
text list the same components, and with the same values they evaluate to the same result, with
any exponents and at any frequency. The source need not be grammatical. -/
theorem reparse_text {precedence : Precedence} {source : String} {items : Postfix}
    (hParse : Postfix.parse precedence source = .ok items) (hOne : items.LeavesOne) :
    ∃ tree, Expr.ofPostfix? items = some tree ∧ tree.postorder = items ∧
      ∀ reading : Precedence,
        (∃ again, Postfix.parse reading tree.text = .ok again ∧
          again.map Item.unplaced = items.map Item.unplaced) ∧
        (∃ original reparsed : Circuit α, ofSource precedence source = .ok original ∧
          ofSource reading tree.text = .ok reparsed ∧
          reparsed.components = original.components) ∧
        ∀ assignment : String → α,
          (∃ original : Circuit α, Reached precedence source original ∧
            original.Holds assignment) ∧
          (∃ reparsed : Circuit α, Reached reading tree.text reparsed ∧
            reparsed.Holds assignment) ∧
          ∀ original reparsed : Circuit α, Reached precedence source original →
            Reached reading tree.text reparsed → original.Holds assignment →
            reparsed.Holds assignment →
              reparsed.components = original.components ∧
              ∀ (exponents : Exponents α) (frequency : α),
                reparsed.evaluateWith (ζ := ζ) exponents frequency =
                  original.evaluateWith exponents frequency := by
  obtain ⟨tree, hTree⟩ := Expr.exists_ofPostfix?_iff.mpr hOne
  have hItems : tree.postorder = items := Expr.postorder_of_ofPostfix? hTree
  have hScanned : tree.postorder.IsScanned [] := hItems ▸ Postfix.isScanned_of_parse_eq_ok hParse
  refine ⟨tree, hTree, hItems, fun reading => ?_⟩
  obtain ⟨again, hAgain, hUnplaced⟩ := Expr.exists_parse_text hScanned reading
  rw [hItems] at hUnplaced
  exact ⟨⟨again, hAgain, hUnplaced⟩, indistinguishable_of_map_unplaced hParse hAgain hUnplaced⟩

/-- The items of `R C -` leave one value, and the text of their tree is `(R - C)`. -/
theorem reparse_text_of_ungrammatical :
    Postfix.parse .ranked "R C -" = .ok [.operand (.ofComponent "R1" ⟨"R", 0⟩),
        .operand (.ofComponent "C1" ⟨"C", 2⟩), .operator ⟨.series, ⟨"-", 4⟩⟩] ∧
      Postfix.LeavesOne [.operand (.ofComponent "R1" ⟨"R", 0⟩),
        .operand (.ofComponent "C1" ⟨"C", 2⟩), .operator ⟨.series, ⟨"-", 4⟩⟩] ∧
      ∃ original reparsed : Circuit Binary64,
        ofSource .ranked "R C -" = .ok original ∧ ofSource .uniform "(R - C)" = .ok reparsed ∧
          reparsed.components = original.components ∧
          reparsed.evaluate (ζ := Complex Binary64) 1 = original.evaluate 1 := by
  have hParse : Postfix.parse .ranked "R C -" = .ok [.operand (.ofComponent "R1" ⟨"R", 0⟩),
      .operand (.ofComponent "C1" ⟨"C", 2⟩), .operator ⟨.series, ⟨"-", 4⟩⟩] := rfl
  have hOne : Postfix.LeavesOne [.operand (.ofComponent "R1" ⟨"R", 0⟩),
      .operand (.ofComponent "C1" ⟨"C", 2⟩), .operator ⟨.series, ⟨"-", 4⟩⟩] := by decide
  obtain ⟨tree, hTree, -, hText⟩ :=
    reparse_text (ζ := Complex Binary64) (α := Binary64) hParse hOne
  obtain rfl : tree = .node ⟨.series, ⟨"-", 4⟩⟩ (.leaf (.ofComponent "R1" ⟨"R", 0⟩))
      (.leaf (.ofComponent "C1" ⟨"C", 2⟩)) := (Option.some.inj hTree).symm
  obtain ⟨-, ⟨original, reparsed, hOriginal, hReparsed, hComponents⟩, hSame⟩ := hText .uniform
  obtain ⟨-, -, hEvaluate⟩ := hSame fun _ => 1
  refine ⟨hParse, hOne, original, reparsed, hOriginal, hReparsed, hComponents, ?_⟩
  obtain ⟨items, -, rfl⟩ := ofSource_eq_ok_iff.mp hOriginal
  obtain ⟨again, -, rfl⟩ := ofSource_eq_ok_iff.mp hReparsed
  exact (hEvaluate _ _ (.built hOriginal) (.built hReparsed) (holds_ofPostfix _ _)
    (holds_ofPostfix _ _)).2 [] 1

end Circuit

end EquivalentCircuit
