import EquivalentCircuit.Notation.Grammar

/-!
# The Conversion of Chains

The tokens of a chain, followed by whatever ends the chain, are converted to the postfix order
of the tree of the chain. The proof goes through the grammar: a term is put out as a whole and
leaves the waiting operators as they are, and a chain takes in what waits in its group.

What waits when a chain is read is, last one first, a run of operators that do not cut chains
followed by a run of operators that do. An operator that cuts completes the first run and joins
the second one; any other operator joins the first one. Under uniform precedence no operator
cuts, so the second run stays empty.

## Main results

* `Postfix.convert_term_tokens` and `Postfix.convert_chain_tokens`: what the tokens of a term
  and of a chain contribute to the postfix order, whatever surrounds them.
* `Chain.tree_link_of_uncut` and `Chain.tree_append_of_cutsAt`: the tree of a chain in terms of
  the trees of its parts.
* `Postfix.operands_of_convert_eq_ok` and `Postfix.perm_of_convert_eq_ok`: the operands keep their
  order, and nothing is lost.
* `Postfix.ofTokens_eq_postorder_tree`: the conversion finds the tree of a chain, with the kinds of
  the components by their first letters.
* `Postfix.exists_chain_of_ofPostfix?`: what is read back as a tree is converted from a chain.
-/

namespace EquivalentCircuit

/-! ### First letters -/

namespace ElementKind

/-- The kind of a component as the notation has it, with the **letters written out**. -/
def ofFirstLetter? (name : String) : Option ElementKind :=
  match name.toList with
  | 'R' :: _ => some .resistor
  | 'C' :: _ => some .capacitor
  | 'L' :: _ => some .inductor
  | 'Q' :: _ => some .constantPhase
  | 'W' :: _ => some .warburg
  | _ => none

/-- A character without a kind is the letter of no kind. -/
theorem ne_letter_of_ofLetter?_eq_none {c : Char} (h : ofLetter? c = none) (kind : ElementKind) :
    c ≠ kind.letter := by
  rintro rfl
  exact absurd (h.symm.trans (ofLetter?_letter kind)) (by simp)

/-- The kind of a name is that of the **first letter**. -/
theorem ofName?_eq_ofFirstLetter? (name : String) : ofName? name = ofFirstLetter? name := by
  rw [ofName?, ofFirstLetter?]
  rcases name.toList with - | ⟨c, rest⟩
  · rfl
  · rw [List.head?_cons, Option.bind_some]
    rcases hKind : ofLetter? c with - | kind
    · have hOther := ne_letter_of_ofLetter?_eq_none hKind
      split
      · next h => exact absurd (List.cons.inj h).1 (hOther .resistor)
      · next h => exact absurd (List.cons.inj h).1 (hOther .capacitor)
      · next h => exact absurd (List.cons.inj h).1 (hOther .inductor)
      · next h => exact absurd (List.cons.inj h).1 (hOther .constantPhase)
      · next h => exact absurd (List.cons.inj h).1 (hOther .warburg)
      · rfl
    · obtain rfl := letter_of_ofLetter? hKind
      cases kind <;> rfl

end ElementKind

/-! ### Operators that cut -/

/-- An operator completes a waiting one exactly when it cuts chains and the other one does not. -/
theorem Precedence.completes_eq (precedence : Precedence) (waiting incoming : Connection) :
    precedence.completes waiting incoming =
      (precedence.cutsAt incoming && !precedence.cutsAt waiting) := by
  cases precedence <;> cases waiting <;> cases incoming <;> rfl

/-! ### Operands among the tokens -/

/-- Whether a token is the **end mark**. -/
def Token.isEnd : Token → Bool
  | .endOfInput _ => true
  | .component _ _ | .operator _ | .leftParen _ | .rightParen _ => false

/-- The **operand of a token**, if the token is a component. -/
def Token.operand? : Token → Option Operand
  | .component literal lexeme => some (.ofComponent literal lexeme)
  | .operator _ | .leftParen _ | .rightParen _ | .endOfInput _ => none

/-- The **item of a token**, if the token is put out. -/
def Token.item? : Token → Option Item
  | .component literal lexeme => some (.operand (.ofComponent literal lexeme))
  | .operator op => some (.operator op)
  | .leftParen _ | .rightParen _ | .endOfInput _ => none

/-- The **operands of a chain**, from left to right. -/
def Chain.operands (chain : Chain) : List Operand :=
  chain.tokens.filterMap Token.operand?

mutual

/-- A term holds no end mark. -/
theorem Term.isEnd_of_mem_tokens (term : Term) :
    ∀ token ∈ term.tokens, token.isEnd = false := by
  match term with
  | .component literal lexeme => simp [Term.tokens, Token.isEnd]
  | .group leftParen chain rightParen =>
      have h := Chain.isEnd_of_mem_tokens chain
      simpa [Term.tokens, Token.isEnd, or_imp, forall_and] using h

/-- A chain holds no end mark. -/
theorem Chain.isEnd_of_mem_tokens (chain : Chain) :
    ∀ token ∈ chain.tokens, token.isEnd = false := by
  match chain with
  | .last term =>
      rw [Chain.tokens]
      exact Term.isEnd_of_mem_tokens term
  | .link term op rest =>
      have hTerm := Term.isEnd_of_mem_tokens term
      have hRest := Chain.isEnd_of_mem_tokens rest
      rw [Chain.tokens, List.forall_mem_append, List.forall_mem_cons]
      exact ⟨hTerm, rfl, hRest⟩

end

/-! ### Trees that are joined -/

/-- The items behind the first segment of a chain. -/
def Expr.tailItems : Option (Operator × Expr) → Postfix
  | none => []
  | some (op, rest) => rest.postorder ++ [.operator op]

/-- The postfix order of a first segment that is joined to what follows it. -/
theorem Expr.postorder_join (segment : Expr) (tail : Option (Operator × Expr)) :
    (segment.join tail).postorder = segment.postorder ++ Expr.tailItems tail := by
  rcases tail with - | ⟨op, rest⟩
  · rw [join, tailItems, List.append_nil]
  · rw [join, tailItems, postorder, List.append_assoc]

/-- A chain of one term has the tree of the term. -/
theorem Chain.tree_last (precedence : Precedence) (term : Term) :
    (Chain.last term).tree precedence = term.tree precedence := by
  rw [tree, parts, Expr.join]

/-- A chain of two terms joins their trees, whatever the precedence is. -/
theorem Chain.tree_pair (precedence : Precedence) (first second : Term) (op : Operator) :
    (Chain.link first op (.last second)).tree precedence =
      .node op (first.tree precedence) (second.tree precedence) := by
  rw [tree, parts, parts]
  by_cases hCuts : precedence.cutsAt op.connection = true <;> simp [hCuts, Expr.join]

/-- A chain in parentheses has the tree of the chain. -/
theorem Term.tree_group (precedence : Precedence) (leftParen : Lexeme) (chain : Chain)
    (rightParen : Lexeme) :
    (Term.group leftParen chain rightParen).tree precedence = chain.tree precedence := by
  rw [Term.tree, Chain.tree]

/-! ### The steps of the conversion -/

namespace Postfix

variable {precedence : Precedence}

/-- A result with items put **in front** of it. -/
def prepend (items : Postfix) (result : Except SyntaxError Postfix) :
    Except SyntaxError Postfix :=
  result.map (items ++ ·)

@[simp] theorem prepend_ok (items rest : Postfix) :
    prepend items (.ok rest) = .ok (items ++ rest) := rfl

@[simp] theorem prepend_error (items : Postfix) (fault : SyntaxError) :
    prepend items (.error fault) = .error fault := rfl

@[simp] theorem prepend_nil (result : Except SyntaxError Postfix) :
    prepend [] result = result := by
  cases result <;> rfl

@[simp] theorem prepend_prepend (first second : Postfix) (result : Except SyntaxError Postfix) :
    prepend first (prepend second result) = prepend (first ++ second) result := by
  cases result with
  | error fault => rfl
  | ok items => simp

/-- Items in front do not change whether there is a result, and which fault there is. -/
@[simp] theorem map_prepend_unit (items : Postfix) (result : Except SyntaxError Postfix) :
    (prepend items result).map (fun _ => ()) = result.map fun _ => () := by
  cases result <;> rfl

/-- A component is put out at once. -/
theorem convert_component (waiting : List Operator) (outer : List (Nat × List Operator))
    (literal : String) (lexeme : Lexeme) (rest : List Token) :
    convert precedence waiting outer (.component literal lexeme :: rest) =
      prepend [.operand (.ofComponent literal lexeme)] (convert precedence waiting outer rest) :=
  rfl

/-- An opened group puts what waits aside. -/
theorem convert_leftParen (waiting : List Operator) (outer : List (Nat × List Operator))
    (lexeme : Lexeme) (rest : List Token) :
    convert precedence waiting outer (.leftParen lexeme :: rest) =
      convert precedence [] ((lexeme.offset, waiting) :: outer) rest := rfl

/-- A closed group puts out what waits in it, and what was put aside waits again. -/
theorem convert_rightParen (waiting suspended : List Operator) (offset : Nat)
    (outer : List (Nat × List Operator)) (lexeme : Lexeme) (rest : List Token) :
    convert precedence waiting ((offset, suspended) :: outer) (.rightParen lexeme :: rest) =
      prepend (waiting.map .operator) (convert precedence suspended outer rest) := rfl

/-- An operator puts out what it completes and waits itself. -/
theorem convert_operator (waiting : List Operator) (outer : List (Nat × List Operator))
    (op : Operator) (rest : List Token) :
    convert precedence waiting outer (.operator op :: rest) =
      prepend ((waiting.takeWhile fun o =>
          precedence.completes o.connection op.connection).map .operator)
        (convert precedence (op :: waiting.dropWhile fun o =>
          precedence.completes o.connection op.connection) outer rest) := rfl

/-- An operator that cuts completes the operators on top that do not cut. -/
theorem convert_operator_of_cutsAt {op : Operator} (hCuts : precedence.cutsAt op.connection = true)
    {loose tight : List Operator} (hLoose : ∀ o ∈ loose, precedence.cutsAt o.connection = false)
    (hTight : ∀ o ∈ tight, precedence.cutsAt o.connection = true)
    (outer : List (Nat × List Operator)) (rest : List Token) :
    convert precedence (loose ++ tight) outer (.operator op :: rest) =
      prepend (loose.map .operator) (convert precedence (op :: tight) outer rest) := by
  have hAll : ∀ o ∈ loose, precedence.completes o.connection op.connection = true := by
    intro o ho
    rw [Precedence.completes_eq, hCuts, hLoose o ho]
    rfl
  rw [convert_operator, List.takeWhile_append_of_pos hAll, List.dropWhile_append_of_pos hAll]
  rcases tight with - | ⟨o, tight⟩
  · simp
  · have hStay : ¬ precedence.completes o.connection op.connection = true := by
      rw [Precedence.completes_eq, hTight o List.mem_cons_self]
      simp
    simp [hStay]

/-- An operator that does not cut waits on top of the others. -/
theorem convert_operator_of_not_cutsAt {op : Operator}
    (hCuts : precedence.cutsAt op.connection = false) (waiting : List Operator)
    (outer : List (Nat × List Operator)) (rest : List Token) :
    convert precedence waiting outer (.operator op :: rest) =
      convert precedence (op :: waiting) outer rest := by
  have hNone : (fun o : Operator => precedence.completes o.connection op.connection) =
      fun _ => false := by
    funext o
    rw [Precedence.completes_eq, hCuts]
    rfl
  rw [convert_operator, hNone]
  cases waiting <;> simp

/-- Whether tokens **end a group**: nothing follows in it, since it is closed, the end mark stands
there, or the tokens are used up. -/
def EndsGroup : List Token → Prop
  | [] | .endOfInput _ :: _ | .rightParen _ :: _ => True
  | .component _ _ :: _ | .operator _ :: _ | .leftParen _ :: _ => False

/-- Where a group ends, the waiting operators are put out, the last one first. -/
theorem convert_of_endsGroup {rest : List Token} (hRest : EndsGroup rest)
    (waiting : List Operator) (outer : List (Nat × List Operator)) :
    convert precedence waiting outer rest =
      prepend (waiting.map .operator) (convert precedence [] outer rest) := by
  have hFinish : finish waiting outer = prepend (waiting.map .operator) (finish [] outer) := by
    rcases outer with - | ⟨⟨offset, suspended⟩, outer⟩
    · simp [finish]
    · rfl
  match rest, hRest with
  | [], _ => exact hFinish
  | .endOfInput _ :: _, _ => exact hFinish
  | .rightParen lexeme :: rest, _ =>
      rcases outer with - | ⟨⟨offset, suspended⟩, outer⟩
      · rfl
      · rw [convert_rightParen, convert_rightParen, List.map_nil, prepend_nil]

/-! ### Terms and chains -/

mutual

/-- A term is put out as a whole, in the postfix order of its tree, whatever surrounds it. -/
theorem convert_term_tokens (precedence : Precedence) (term : Term) (waiting : List Operator)
    (outer : List (Nat × List Operator)) (rest : List Token) :
    convert precedence waiting outer (term.tokens ++ rest) =
      prepend (term.tree precedence).postorder (convert precedence waiting outer rest) := by
  match term with
  | .component literal lexeme =>
      rw [Term.tokens, Term.tree, Expr.postorder, List.singleton_append, convert_component]
  | .group leftParen chain rightParen =>
      have hInside := convert_chain_tokens precedence chain [] [] (by simp) (by simp)
        ((leftParen.offset, waiting) :: outer) (.rightParen rightParen :: rest) trivial
      rw [Term.tokens, Term.tree_group, Chain.tree, Expr.postorder_join, List.cons_append,
        List.append_assoc, List.singleton_append, convert_leftParen]
      simpa [convert_rightParen] using hInside

/-- A chain at the end of its group takes in what waits there: its first segment is put out before
the operators that do not cut, and the rest of it before those that do. -/
theorem convert_chain_tokens (precedence : Precedence) (chain : Chain)
    (loose tight : List Operator) (hLoose : ∀ o ∈ loose, precedence.cutsAt o.connection = false)
    (hTight : ∀ o ∈ tight, precedence.cutsAt o.connection = true)
    (outer : List (Nat × List Operator)) (rest : List Token) (hRest : EndsGroup rest) :
    convert precedence (loose ++ tight) outer (chain.tokens ++ rest) =
      prepend ((chain.parts precedence).1.postorder ++ loose.map .operator ++
          Expr.tailItems (chain.parts precedence).2 ++ tight.map .operator)
        (convert precedence [] outer rest) := by
  match chain with
  | .last term =>
      rw [Chain.tokens, Chain.parts, convert_term_tokens, convert_of_endsGroup hRest,
        prepend_prepend]
      simp [Expr.tailItems]
  | .link term op following =>
      rw [Chain.tokens, List.append_assoc, List.cons_append, convert_term_tokens]
      by_cases hCuts : precedence.cutsAt op.connection = true
      · have hTight' : ∀ o ∈ op :: tight, precedence.cutsAt o.connection = true := by
          simpa [hCuts] using hTight
        have ih := convert_chain_tokens precedence following [] (op :: tight) (by simp) hTight'
          outer rest hRest
        rw [List.nil_append] at ih
        rw [convert_operator_of_cutsAt hCuts hLoose hTight, ih, prepend_prepend, prepend_prepend]
        simp [Chain.parts, hCuts, Expr.postorder_join, Expr.tailItems]
      · have hLoose' : ∀ o ∈ op :: loose, precedence.cutsAt o.connection = false := by
          simpa [hCuts] using hLoose
        have ih := convert_chain_tokens precedence following (op :: loose) tight hLoose' hTight
          outer rest hRest
        rw [List.cons_append] at ih
        rw [convert_operator_of_not_cutsAt (by simpa using hCuts), ih, prepend_prepend]
        simp [Chain.parts, hCuts, Expr.postorder]

end

/-- A chain is put out in the postfix order of its tree. -/
theorem ofTokens_chain_append (precedence : Precedence) (chain : Chain) (rest : List Token)
    (hRest : EndsGroup rest) :
    ofTokens precedence (chain.tokens ++ rest) =
      prepend (chain.tree precedence).postorder (ofTokens precedence rest) := by
  have h := convert_chain_tokens precedence chain [] [] (by simp) (by simp) [] rest hRest
  rw [ofTokens, ofTokens, Chain.tree, Expr.postorder_join]
  simpa using h

/-- A chain is converted to the postfix order of its tree. -/
theorem ofTokens_chain (precedence : Precedence) (chain : Chain) :
    ofTokens precedence chain.tokens = .ok (chain.tree precedence).postorder := by
  have h := ofTokens_chain_append precedence chain [] trivial
  rw [List.append_nil] at h
  rw [h, ofTokens, convert, finish]
  simp

/-- A chain with an end mark is converted to the postfix order of its tree. -/
theorem ofTokens_chain_endOfInput (precedence : Precedence) (chain : Chain) (lexeme : Lexeme)
    (after : List Token) :
    ofTokens precedence (chain.tokens ++ .endOfInput lexeme :: after) =
      .ok (chain.tree precedence).postorder := by
  rw [ofTokens_chain_append precedence chain (.endOfInput lexeme :: after) trivial, ofTokens,
    convert, finish]
  simp

/-! ### The order of the operands -/

/-- A result with items in front is a result behind them. -/
theorem prepend_eq_ok_iff {first items : Postfix} {result : Except SyntaxError Postfix} :
    prepend first result = .ok items ↔ ∃ rest, result = .ok rest ∧ first ++ rest = items := by
  cases result <;> simp

@[simp] theorem operands_append (first second : Postfix) :
    operands (first ++ second) = operands first ++ operands second := by
  simp [operands]

@[simp] theorem operands_operand (component : Operand) :
    operands [.operand component] = [component] := rfl

@[simp] theorem operands_map_operator (waiting : List Operator) :
    operands (waiting.map .operator) = [] := by
  simp [operands, Item.operand?]

/-- The leaves of a tree, from left to right, are those of its two parts. -/
theorem operands_postorder_node (op : Operator) (left right : Expr) :
    (Expr.node op left right).postorder.operands =
      left.postorder.operands ++ right.postorder.operands := by
  simp [Expr.postorder, operands, Item.operand?]

/-- The operands of what waits at the end: there are none. -/
theorem operands_of_finish_eq_ok {waiting : List Operator} {outer : List (Nat × List Operator)}
    {items : Postfix} (h : finish waiting outer = .ok items) : items.operands = [] := by
  rcases outer with - | ⟨⟨offset, suspended⟩, outer⟩
  · obtain rfl := Except.ok.inj h
    exact operands_map_operator waiting
  · exact absurd h (by simp [finish])

/-- **Operands keep their order**: those of a converted sequence are the components before the end
mark, from left to right. -/
theorem operands_of_convert_eq_ok {waiting : List Operator} {outer : List (Nat × List Operator)}
    {tokens : List Token} {items : Postfix}
    (h : convert precedence waiting outer tokens = .ok items) :
    items.operands = (tokens.takeWhile fun token => !token.isEnd).filterMap Token.operand? := by
  induction tokens generalizing waiting outer items with
  | nil => exact operands_of_finish_eq_ok h
  | cons token rest ih =>
      cases token with
      | component literal lexeme =>
          rw [convert_component, prepend_eq_ok_iff] at h
          obtain ⟨after, hAfter, rfl⟩ := h
          rw [operands_append, operands_operand, ih hAfter]
          rfl
      | operator op =>
          rw [convert_operator, prepend_eq_ok_iff] at h
          obtain ⟨after, hAfter, rfl⟩ := h
          rw [operands_append, operands_map_operator, List.nil_append, ih hAfter]
          rfl
      | leftParen lexeme =>
          rw [convert_leftParen] at h
          rw [ih h]
          rfl
      | rightParen lexeme =>
          rcases outer with - | ⟨⟨offset, suspended⟩, outer⟩
          · exact absurd h (by simp [convert])
          · rw [convert_rightParen, prepend_eq_ok_iff] at h
            obtain ⟨after, hAfter, rfl⟩ := h
            rw [operands_append, operands_map_operator, List.nil_append, ih hAfter]
            rfl
      | endOfInput lexeme => exact operands_of_finish_eq_ok h

/-- What waits at the end is put out. -/
theorem eq_of_finish_eq_ok {waiting : List Operator} {outer : List (Nat × List Operator)}
    {items : Postfix} (h : finish waiting outer = .ok items) :
    items = (waiting ++ outer.flatMap Prod.snd).map .operator := by
  rcases outer with - | ⟨⟨offset, suspended⟩, outer⟩
  · rw [List.flatMap_nil, List.append_nil]
    exact (Except.ok.inj h).symm
  · exact absurd h (by simp [finish])

/-- **Nothing is lost** and nothing invented: a converted sequence holds the operators that wait or
were put aside, and the items of the tokens before the end mark. -/
theorem perm_of_convert_eq_ok {waiting : List Operator} {outer : List (Nat × List Operator)}
    {tokens : List Token} {items : Postfix}
    (h : convert precedence waiting outer tokens = .ok items) :
    items.Perm ((waiting ++ outer.flatMap Prod.snd).map .operator ++
      (tokens.takeWhile fun token => !token.isEnd).filterMap Token.item?) := by
  induction tokens generalizing waiting outer items with
  | nil => exact List.Perm.of_eq (by rw [eq_of_finish_eq_ok h]; simp)
  | cons token rest ih =>
      cases token with
      | component literal lexeme =>
          rw [convert_component, prepend_eq_ok_iff] at h
          obtain ⟨after, hAfter, rfl⟩ := h
          exact ((ih hAfter).cons _).trans List.perm_middle.symm
      | operator op =>
          rw [convert_operator, prepend_eq_ok_iff] at h
          obtain ⟨after, hAfter, rfl⟩ := h
          -- What was completed and what goes on waiting is together what was waiting.
          let completed (o : Operator) : Bool := precedence.completes o.connection op.connection
          have hWaiting : (waiting.takeWhile completed).map Item.operator ++
              (waiting.dropWhile completed ++ outer.flatMap Prod.snd).map Item.operator =
                (waiting ++ outer.flatMap Prod.snd).map Item.operator := by
            rw [← List.map_append, ← List.append_assoc, List.takeWhile_append_dropWhile]
          have hFront : ((waiting.takeWhile completed).map Item.operator ++ after).Perm
              (.operator op :: ((waiting.takeWhile completed).map Item.operator ++
                ((waiting.dropWhile completed ++ outer.flatMap Prod.snd).map Item.operator ++
                  (rest.takeWhile fun token => !token.isEnd).filterMap Token.item?))) :=
            ((ih hAfter).append_left _).trans List.perm_middle
          rw [← List.append_assoc, hWaiting] at hFront
          exact hFront.trans List.perm_middle.symm
      | leftParen lexeme =>
          rw [convert_leftParen] at h
          have hInside := ih h
          rwa [List.nil_append, List.flatMap_cons] at hInside
      | rightParen lexeme =>
          rcases outer with - | ⟨⟨offset, suspended⟩, outer⟩
          · exact absurd h (by simp [convert])
          · rw [convert_rightParen, prepend_eq_ok_iff] at h
            obtain ⟨after, hAfter, rfl⟩ := h
            refine ((ih hAfter).append_left _).trans (List.Perm.of_eq ?_)
            rw [← List.append_assoc, ← List.map_append, List.flatMap_cons]
            rfl
      | endOfInput lexeme =>
          exact List.Perm.of_eq (by rw [eq_of_finish_eq_ok h]; simp [Token.isEnd])

end Postfix

/-! ### The tree of a chain -/

namespace Chain

/-- The leaves of the tree of a chain are its operands, in their order. -/
theorem operands_postorder_tree (precedence : Precedence) (chain : Chain) :
    (chain.tree precedence).postorder.operands = chain.operands := by
  have h := Postfix.ofTokens_chain_endOfInput precedence chain ⟨"", 0⟩ []
  rw [Postfix.operands_of_convert_eq_ok h, List.takeWhile_append_of_pos, List.takeWhile_cons_of_neg,
    List.append_nil, operands]
  · simp [Token.isEnd]
  · simpa using Chain.isEnd_of_mem_tokens chain

/-- The **connections of a chain**: those of its own operators, not of the groups in it. -/
def connections : Chain → List Connection
  | .last _ => []
  | .link _ op rest => op.connection :: rest.connections

/-- A chain **continued** by an operator and a further chain. -/
def append : Chain → Operator → Chain → Chain
  | .last term, op, rest => .link term op rest
  | .link term first following, op, rest => .link term first (following.append op rest)

variable {precedence : Precedence}

/-- A chain that is nowhere cut is one segment. -/
theorem parts_snd_of_uncut {chain : Chain}
    (h : ∀ connection ∈ chain.connections, precedence.cutsAt connection = false) :
    (chain.parts precedence).2 = none := by
  match chain with
  | .last term => rw [parts]
  | .link term op rest =>
      rw [connections, List.forall_mem_cons] at h
      rw [parts]
      simpa [h.1] using parts_snd_of_uncut h.2

/-- The first segment of a chain reaches up to the first cut. -/
theorem parts_append {segment : Chain}
    (h : ∀ connection ∈ segment.connections, precedence.cutsAt connection = false)
    {op : Operator} (hCuts : precedence.cutsAt op.connection = true) (rest : Chain) :
    (segment.append op rest).parts precedence =
      ((segment.parts precedence).1, some (op, rest.tree precedence)) := by
  match segment with
  | .last term =>
      rw [append, parts]
      simp [hCuts, parts, tree]
  | .link term first following =>
      rw [connections, List.forall_mem_cons] at h
      rw [append, parts, parts, parts_append h.2 hCuts rest]
      simp [h.1]

/-- In a chain that is nowhere cut the first operator joins its term to all the rest. -/
theorem tree_link_of_uncut {term : Term} {op : Operator} {rest : Chain}
    (h : ∀ connection ∈ (link term op rest).connections, precedence.cutsAt connection = false) :
    (link term op rest).tree precedence =
      .node op (term.tree precedence) (rest.tree precedence) := by
  rw [connections, List.forall_mem_cons] at h
  rw [tree, tree, parts]
  simp [h.1, parts_snd_of_uncut h.2, Expr.join]

/-- An operator that cuts joins the segment before it to all the rest. -/
theorem tree_append_of_cutsAt {segment : Chain}
    (h : ∀ connection ∈ segment.connections, precedence.cutsAt connection = false)
    {op : Operator} (hCuts : precedence.cutsAt op.connection = true) (rest : Chain) :
    (segment.append op rest).tree precedence =
      .node op (segment.tree precedence) (rest.tree precedence) := by
  have hSegment : segment.tree precedence = (segment.parts precedence).1 := by
    rw [tree, parts_snd_of_uncut h, Expr.join]
  rw [tree, parts_append h hCuts, Expr.join, hSegment]

end Chain

/-! ### Trees as chains -/

/-- The **term of a tree**, with parentheses around every operator and its operands. -/
def Expr.term : Expr → Term
  | .leaf operand => .component operand.literal operand.lexeme
  | .node op left right =>
    .group ⟨"(", 0⟩ (.link left.term op (.last right.term)) ⟨")", 0⟩

/-- Whether an operand has the kind that its name asks for, as the operands of tokens do. -/
def Operand.IsNamed (operand : Operand) : Prop :=
  operand.kind = ElementKind.ofName? operand.lexeme.text

/-- The term of a tree is read as that tree. -/
theorem Expr.tree_term (precedence : Precedence) {tree : Expr}
    (h : ∀ operand ∈ tree.postorder.operands, operand.IsNamed) :
    tree.term.tree precedence = tree := by
  induction tree with
  | leaf operand =>
      have hNamed : operand.IsNamed := h operand (by simp [postorder])
      rw [term, Term.tree, Operand.ofComponent, ← hNamed]
  | node op left right ihl ihr =>
      rw [Postfix.operands_postorder_node, List.forall_mem_append] at h
      rw [term, Term.tree_group, Chain.tree_pair, ihl h.1, ihr h.2]

namespace Postfix

variable {precedence : Precedence} {items : Postfix}

/-- A source that is parsed has been scanned, and its tokens have been converted. -/
theorem exists_scan_eq_ok_of_parse_eq_ok {source : String}
    (h : parse precedence source = .ok items) :
    ∃ tokens, Token.scan source = .ok tokens ∧ ofTokens precedence tokens = .ok items := by
  rw [parse] at h
  rcases hScan : Token.scan source with fault | tokens
  · rw [hScan] at h
    exact absurd h (by simp [Except.bind])
  · rw [hScan] at h
    exact ⟨tokens, rfl, h⟩

/-- The operands of a converted sequence have the kinds that their names ask for. -/
theorem isNamed_of_ofTokens_eq_ok {tokens : List Token}
    (h : ofTokens precedence tokens = .ok items) :
    ∀ operand ∈ items.operands, operand.IsNamed := by
  intro operand hMem
  rw [operands_of_convert_eq_ok h, List.mem_filterMap] at hMem
  obtain ⟨token, -, hToken⟩ := hMem
  cases token with
  | component literal lexeme =>
      obtain rfl := Option.some.inj hToken
      rfl
  | operator op => exact absurd hToken (by simp [Token.operand?])
  | leftParen lexeme => exact absurd hToken (by simp [Token.operand?])
  | rightParen lexeme => exact absurd hToken (by simp [Token.operand?])
  | endOfInput lexeme => exact absurd hToken (by simp [Token.operand?])

/-- A converted sequence that is the postfix order of a tree is the conversion of some chain with
that tree. -/
theorem exists_chain_of_ofPostfix? {tokens : List Token} {tree : Expr}
    (h : ofTokens precedence tokens = .ok items) (hTree : Expr.ofPostfix? items = some tree) :
    ∃ chain : Chain, chain.tree precedence = tree ∧
      ofTokens precedence chain.tokens = .ok items := by
  have hItems : tree.postorder = items := Expr.postorder_of_ofPostfix? hTree
  have hTerm : tree.term.tree precedence = tree :=
    Expr.tree_term precedence (hItems ▸ isNamed_of_ofTokens_eq_ok h)
  refine ⟨.last tree.term, ?_, ?_⟩
  · rw [Chain.tree_last, hTerm]
  · rw [ofTokens_chain, Chain.tree_last, hTerm, hItems]

end Postfix

/-- **Conversion of the notation.** The tokens of a chain, with or without an end mark and whatever
stands behind it, are converted to the postfix order of the tree of the chain. A component is a
leaf of that tree, with the kind that the first letter of its name asks for, and parentheses
leave no trace. With uniform precedence the tree is joined to the right whatever the operators
are. With ranked precedence a chain with parallel operators only is joined to the right, and any
other chain is its first segment of that kind joined to what follows the first series
operator. -/
theorem Postfix.ofTokens_eq_postorder_tree :
    (∀ (precedence : Precedence) (chain : Chain),
      ofTokens precedence chain.tokens = .ok (chain.tree precedence).postorder ∧
        ∀ (lexeme : Lexeme) (after : List Token),
          ofTokens precedence (chain.tokens ++ .endOfInput lexeme :: after) =
            .ok (chain.tree precedence).postorder) ∧
    (∀ (precedence : Precedence) (literal : String) (lexeme : Lexeme),
      (Term.component literal lexeme).tree precedence =
        .leaf ⟨literal, ElementKind.ofFirstLetter? lexeme.text, lexeme⟩) ∧
    (∀ (precedence : Precedence) (leftParen : Lexeme) (chain : Chain) (rightParen : Lexeme),
      (Term.group leftParen chain rightParen).tree precedence = chain.tree precedence) ∧
    (∀ (precedence : Precedence) (term : Term),
      (Chain.last term).tree precedence = term.tree precedence) ∧
    (∀ (term : Term) (op : Operator) (rest : Chain),
      (Chain.link term op rest).tree .uniform =
        .node op (term.tree .uniform) (rest.tree .uniform)) ∧
    (∀ (term : Term) (op : Operator) (rest : Chain),
      (∀ connection ∈ (Chain.link term op rest).connections, connection = .parallel) →
        (Chain.link term op rest).tree .ranked =
          .node op (term.tree .ranked) (rest.tree .ranked)) ∧
    (∀ (segment : Chain) (op : Operator) (rest : Chain),
      (∀ connection ∈ segment.connections, connection = .parallel) → op.connection = .series →
        (segment.append op rest).tree .ranked =
          .node op (segment.tree .ranked) (rest.tree .ranked)) := by
  have hUncut : ∀ {chain : Chain}, (∀ connection ∈ chain.connections, connection = .parallel) →
      ∀ connection ∈ chain.connections, Precedence.ranked.cutsAt connection = false := by
    intro chain h connection hMem
    rw [h connection hMem]
    rfl
  refine ⟨fun precedence chain => ⟨ofTokens_chain precedence chain,
    ofTokens_chain_endOfInput precedence chain⟩, fun precedence literal lexeme => ?_,
    Term.tree_group, Chain.tree_last, fun term op rest => ?_,
    fun term op rest h => ?_, fun segment op rest h hSeries => ?_⟩
  · rw [Term.tree, Operand.ofComponent, ElementKind.ofName?_eq_ofFirstLetter?]
  · exact Chain.tree_link_of_uncut fun connection _ => by cases connection <;> rfl
  · exact Chain.tree_link_of_uncut (hUncut h)
  · exact Chain.tree_append_of_cutsAt (hUncut h) (by rw [hSeries]; rfl) rest

/-- In `Rct | (X) - C` with ranked precedence the first segment is `Rct | (X)`. The name of a
resistor may be long, and `X` is the letter of no kind. -/
theorem Postfix.ofTokens_parallel_series :
    (∀ connection ∈ (Chain.link (.component "Rct1" ⟨"Rct", 0⟩) ⟨.parallel, ⟨"|", 4⟩⟩
        (.last (.group ⟨"(", 6⟩ (.last (.component "X1" ⟨"X", 7⟩)) ⟨")", 8⟩))).connections,
      connection = .parallel) ∧
      ofTokens .ranked
          [.component "Rct1" ⟨"Rct", 0⟩, .operator ⟨.parallel, ⟨"|", 4⟩⟩, .leftParen ⟨"(", 6⟩,
            .component "X1" ⟨"X", 7⟩, .rightParen ⟨")", 8⟩, .operator ⟨.series, ⟨"-", 10⟩⟩,
            .component "C1" ⟨"C", 12⟩] =
        .ok [.operand ⟨"Rct1", some .resistor, ⟨"Rct", 0⟩⟩, .operand ⟨"X1", none, ⟨"X", 7⟩⟩,
          .operator ⟨.parallel, ⟨"|", 4⟩⟩, .operand ⟨"C1", some .capacitor, ⟨"C", 12⟩⟩,
          .operator ⟨.series, ⟨"-", 10⟩⟩] := by
  obtain ⟨hTokens, hLeaf, hGroup, hLast, -, hPair, hCut⟩ := ofTokens_eq_postorder_tree
  have hParallel : ∀ connection ∈ (Chain.link (.component "Rct1" ⟨"Rct", 0⟩)
      ⟨.parallel, ⟨"|", 4⟩⟩ (.last (.group ⟨"(", 6⟩ (.last (.component "X1" ⟨"X", 7⟩))
        ⟨")", 8⟩))).connections, connection = .parallel := by decide
  refine ⟨hParallel, ?_⟩
  have hTree := hCut _ ⟨.series, ⟨"-", 10⟩⟩ (.last (.component "C1" ⟨"C", 12⟩)) hParallel rfl
  have h := (hTokens .ranked (.link (.component "Rct1" ⟨"Rct", 0⟩) ⟨.parallel, ⟨"|", 4⟩⟩
    (.link (.group ⟨"(", 6⟩ (.last (.component "X1" ⟨"X", 7⟩)) ⟨")", 8⟩) ⟨.series, ⟨"-", 10⟩⟩
      (.last (.component "C1" ⟨"C", 12⟩))))).1
  rw [Chain.append, Chain.append, hPair _ _ _ hParallel, hLast, hLast, hGroup, hLast, hLeaf,
    hLeaf, hLeaf] at hTree
  rw [hTree] at h
  exact h

end EquivalentCircuit
