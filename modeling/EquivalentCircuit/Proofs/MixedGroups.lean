import EquivalentCircuit.Proofs.Numbering

/-!
# Groups with Both Kinds of Operators

The two precedences differ in one thing only: with ranked precedence a series operator completes
the parallel operators that wait on top of its group. So they give the same result until a series
operator meets a parallel one that waits, and from then on they never agree again. Ranked
precedence puts the parallel operator out at once, while with uniform precedence it now lies below
another operator, and what is put out next is something else (`head?_ne_of_convert_uniform`).

Whether that happens is seen in the text: some group, the whole source counting as one, has a `|`
and later, between the same parentheses, a `-` (`Text.IsMixed`). What lies between two such signs
is balanced. While a text is read from the left, signs of groups that are still open have to be
kept in mind, one mark for each group (`Text.IsMixedBehind`).

## Main results

* `Postfix.convert_uniform_eq_ranked_iff`: when the two conversions agree from one state on.
* `Circuit.ofSource_uniform_ranked`: what the precedences have in common, and when they agree.
-/

universe u

namespace EquivalentCircuit

/-! ### Texts that leave groups -/

namespace Text

/-- A text is **balanced** when it closes exactly what it opens. -/
def IsBalanced (text : List Char) : Prop :=
  ¬ Overdrawn text ∧ text.count ')' = text.count '('

/-- A text is **mixed** when some group in it has a parallel sign and, later and at its own level, a
series sign. -/
def IsMixed (text : List Char) : Prop :=
  ∃ before between after,
    text = before ++ '|' :: (between ++ '-' :: after) ∧ IsBalanced between

/-- Whether a text **leaves** exactly `n` of the groups that are open before it: it closes `n` more
than it opens, and no front part of it closes more than that. -/
def Leaves (n : Nat) (text : List Char) : Prop :=
  (∀ front, front <+: text → front.count ')' ≤ front.count '(' + n) ∧
    text.count ')' = text.count '(' + n

/-- A text is balanced when it leaves no group. -/
theorem leaves_zero_iff {text : List Char} : Leaves 0 text ↔ IsBalanced text := by
  constructor
  · rintro ⟨hFront, hCount⟩
    refine ⟨?_, hCount⟩
    rintro ⟨front, hPrefix, hOver⟩
    exact absurd (hFront front hPrefix) (Nat.not_le_of_lt hOver)
  · rintro ⟨hOver, hCount⟩
    exact ⟨fun front hPrefix => count_le_of_not_overdrawn hOver hPrefix, hCount⟩

/-- What holds of the front parts of a text, one character at a time. -/
theorem forall_prefix_cons_iff {P : List Char → Prop} {c : Char} {text : List Char} :
    (∀ front, front <+: c :: text → P front) ↔ P [] ∧ ∀ front, front <+: text → P (c :: front) := by
  constructor
  · intro h
    exact ⟨h [] List.nil_prefix, fun front hFront => h _ (List.cons_prefix_cons.mpr ⟨rfl, hFront⟩)⟩
  · rintro ⟨hNil, hCons⟩ front hFront
    rcases List.prefix_cons_iff.mp hFront with rfl | ⟨front, rfl, hInner⟩
    · exact hNil
    · exact hCons front hInner

theorem leaves_nil_iff {n : Nat} : Leaves n [] ↔ n = 0 := by
  constructor
  · rintro ⟨-, hCount⟩
    simpa using hCount.symm
  · rintro rfl
    exact ⟨fun front hFront => by rw [List.prefix_nil.mp hFront]; exact Nat.le_refl _, rfl⟩

/-- Behind an opening parenthesis there is one group more to leave. -/
theorem leaves_leftParen_iff {n : Nat} {text : List Char} :
    Leaves n ('(' :: text) ↔ Leaves (n + 1) text := by
  rw [Leaves, forall_prefix_cons_iff, Leaves]
  simp [Nat.add_assoc, Nat.add_comm 1]

/-- A closing parenthesis leaves a group. -/
theorem leaves_rightParen_iff {n : Nat} {text : List Char} :
    Leaves n (')' :: text) ↔ ∃ m, n = m + 1 ∧ Leaves m text := by
  rw [Leaves, forall_prefix_cons_iff]
  rcases n with - | n
  · constructor
    · rintro ⟨⟨-, hFront⟩, -⟩
      exact absurd (hFront [] List.nil_prefix) (by simp)
    · rintro ⟨m, hEq, -⟩
      exact absurd hEq (by simp)
  · simp [Leaves, ← Nat.add_assoc]

/-- Other characters leave no group. -/
theorem leaves_cons_iff {n : Nat} {c : Char} {text : List Char} (hOpen : c ≠ '(')
    (hClose : c ≠ ')') : Leaves n (c :: text) ↔ Leaves n text := by
  rw [Leaves, forall_prefix_cons_iff, Leaves]
  simp [hOpen, hClose]

/-! ### Signs of groups that are still open -/

/-- Whether a series sign stands in the group that is reached when `n` groups are left. -/
def ReachesSeries (n : Nat) (text : List Char) : Prop :=
  ∃ between after, text = between ++ '-' :: after ∧ Leaves n between

/-- Whether a text is **mixed behind** open groups. The marks say, innermost first, which of the
groups have a parallel sign already, so that a series sign in them would be the second one. -/
def IsMixedBehind (marks : List Bool) (text : List Char) : Prop :=
  IsMixed text ∨ ∃ n : Nat, marks[n]? = some true ∧ ReachesSeries n text

theorem reachesSeries_cons_iff {n : Nat} {c : Char} {text : List Char} :
    ReachesSeries n (c :: text) ↔
      c = '-' ∧ n = 0 ∨ ∃ between after, text = between ++ '-' :: after ∧
        Leaves n (c :: between) := by
  constructor
  · rintro ⟨between, after, hText, hLeaves⟩
    rcases between with - | ⟨d, between⟩
    · exact .inl ⟨(List.cons.inj hText).1, leaves_nil_iff.mp hLeaves⟩
    · obtain ⟨rfl, rfl⟩ := List.cons.inj hText
      exact .inr ⟨between, after, rfl, hLeaves⟩
  · rintro (⟨rfl, rfl⟩ | ⟨between, after, rfl, hLeaves⟩)
    · exact ⟨[], text, rfl, leaves_nil_iff.mpr rfl⟩
    · exact ⟨c :: between, after, rfl, hLeaves⟩

theorem reachesSeries_leftParen_iff {n : Nat} {text : List Char} :
    ReachesSeries n ('(' :: text) ↔ ReachesSeries (n + 1) text := by
  rw [reachesSeries_cons_iff]
  simp [leaves_leftParen_iff, ReachesSeries]

theorem reachesSeries_rightParen_iff {n : Nat} {text : List Char} :
    ReachesSeries n (')' :: text) ↔ ∃ m, n = m + 1 ∧ ReachesSeries m text := by
  rw [reachesSeries_cons_iff]
  simp only [leaves_rightParen_iff, ReachesSeries]
  constructor
  · rintro (⟨hSign, -⟩ | ⟨between, after, hText, m, hN, hLeaves⟩)
    · exact absurd hSign (by decide)
    · exact ⟨m, hN, between, after, hText, hLeaves⟩
  · rintro ⟨m, hN, between, after, hText, hLeaves⟩
    exact .inr ⟨between, after, hText, m, hN, hLeaves⟩

theorem reachesSeries_of_ne {n : Nat} {c : Char} {text : List Char} (hOpen : c ≠ '(')
    (hClose : c ≠ ')') :
    ReachesSeries n (c :: text) ↔ c = '-' ∧ n = 0 ∨ ReachesSeries n text := by
  rw [reachesSeries_cons_iff]
  simp [leaves_cons_iff hOpen hClose, ReachesSeries]

theorem isMixed_cons_iff {c : Char} {text : List Char} :
    IsMixed (c :: text) ↔ c = '|' ∧ ReachesSeries 0 text ∨ IsMixed text := by
  constructor
  · rintro ⟨before, between, after, hText, hBalanced⟩
    rcases before with - | ⟨d, before⟩
    · obtain ⟨rfl, rfl⟩ := List.cons.inj hText
      exact .inl ⟨rfl, between, after, rfl, leaves_zero_iff.mpr hBalanced⟩
    · exact .inr ⟨before, between, after, (List.cons.inj hText).2, hBalanced⟩
  · rintro (⟨rfl, between, after, rfl, hLeaves⟩ | ⟨before, between, after, rfl, hBalanced⟩)
    · exact ⟨[], between, after, rfl, leaves_zero_iff.mp hLeaves⟩
    · exact ⟨c :: before, between, after, rfl, hBalanced⟩

theorem not_isMixedBehind_nil (marks : List Bool) : ¬ IsMixedBehind marks [] := by
  rintro (⟨before, between, after, hText, -⟩ | ⟨n, -, between, after, hText, -⟩)
  · exact absurd hText (by simp)
  · exact absurd hText (by simp)

/-- Behind a group without a mark a text has to be mixed itself. -/
theorem isMixedBehind_unmarked_iff {text : List Char} :
    IsMixedBehind [false] text ↔ IsMixed text := by
  constructor
  · rintro (hMixed | ⟨n, hMark, -⟩)
    · exact hMixed
    · rcases n with - | n <;> exact absurd hMark (by simp)
  · exact .inl

/-- An opening parenthesis opens a group that has no sign. -/
theorem isMixedBehind_leftParen_iff {marks : List Bool} {text : List Char} :
    IsMixedBehind marks ('(' :: text) ↔ IsMixedBehind (false :: marks) text := by
  simp only [IsMixedBehind, isMixed_cons_iff, reachesSeries_leftParen_iff]
  constructor
  · rintro ((⟨hSign, -⟩ | hMixed) | ⟨n, hMark, hReaches⟩)
    · exact absurd hSign (by decide)
    · exact .inl hMixed
    · exact .inr ⟨n + 1, hMark, hReaches⟩
  · rintro (hMixed | ⟨n, hMark, hReaches⟩)
    · exact .inl (.inr hMixed)
    · rcases n with - | n
      · exact absurd hMark (by simp)
      · exact .inr ⟨n, hMark, hReaches⟩

/-- A closing parenthesis closes the innermost group. -/
theorem isMixedBehind_rightParen_iff {mark : Bool} {marks : List Bool} {text : List Char} :
    IsMixedBehind (mark :: marks) (')' :: text) ↔ IsMixedBehind marks text := by
  simp only [IsMixedBehind, isMixed_cons_iff, reachesSeries_rightParen_iff]
  constructor
  · rintro ((⟨hSign, -⟩ | hMixed) | ⟨_, hMark, n, rfl, hReaches⟩)
    · exact absurd hSign (by decide)
    · exact .inl hMixed
    · exact .inr ⟨n, hMark, hReaches⟩
  · rintro (hMixed | ⟨n, hMark, hReaches⟩)
    · exact .inl (.inr hMixed)
    · exact .inr ⟨n + 1, hMark, n, rfl, hReaches⟩

/-- A parallel sign marks the innermost group. -/
theorem isMixedBehind_parallel_iff {mark : Bool} {marks : List Bool} {text : List Char} :
    IsMixedBehind (mark :: marks) ('|' :: text) ↔ IsMixedBehind (true :: marks) text := by
  have hReach : ∀ n, ReachesSeries n ('|' :: text) ↔ ReachesSeries n text := by
    intro n
    simp [reachesSeries_of_ne]
  simp only [IsMixedBehind, isMixed_cons_iff, hReach, true_and]
  constructor
  · rintro ((hReaches | hMixed) | ⟨n, hMark, hReaches⟩)
    · exact .inr ⟨0, rfl, hReaches⟩
    · exact .inl hMixed
    · rcases n with - | n
      · exact .inr ⟨0, rfl, hReaches⟩
      · exact .inr ⟨n + 1, hMark, hReaches⟩
  · rintro (hMixed | ⟨n, hMark, hReaches⟩)
    · exact .inl (.inr hMixed)
    · rcases n with - | n
      · exact .inl (.inl hReaches)
      · exact .inr ⟨n + 1, hMark, hReaches⟩

/-- A series sign makes a marked group mixed. -/
theorem isMixedBehind_series (marks : List Bool) (text : List Char) :
    IsMixedBehind (true :: marks) ('-' :: text) :=
  .inr ⟨0, rfl, [], text, rfl, leaves_nil_iff.mpr rfl⟩

/-- In a group without a mark a series sign changes nothing, and neither do the characters that are
no signs, whatever the marks are. -/
theorem isMixedBehind_cons_iff {marks : List Bool} {c : Char} {text : List Char}
    (hOpen : c ≠ '(') (hClose : c ≠ ')') (hParallel : c ≠ '|')
    (hSeries : c = '-' → marks[0]? ≠ some true) :
    IsMixedBehind marks (c :: text) ↔ IsMixedBehind marks text := by
  simp only [IsMixedBehind, isMixed_cons_iff, reachesSeries_of_ne hOpen hClose, hParallel,
    false_and, false_or]
  refine or_congr_right (exists_congr fun n => and_congr_right fun hMark => ?_)
  constructor
  · rintro (⟨hSign, rfl⟩ | hReaches)
    · exact absurd hMark (hSeries hSign)
    · exact hReaches
  · exact .inr

end Text

/-! ### Where the precedences part -/

/-- Whether the operator that waits **on top** is a parallel one. -/
def parallelOnTop (waiting : List Operator) : Bool :=
  waiting.head?.any fun op => decide (op.connection = .parallel)

namespace Postfix

/-- With uniform precedence an operator waits on top of the others. -/
theorem convert_uniform_operator (op : Operator) (waiting : List Operator)
    (outer : List (Nat × List Operator)) (rest : List Token) :
    convert .uniform waiting outer (.operator op :: rest) =
      convert .uniform (op :: waiting) outer rest :=
  convert_operator_of_not_cutsAt (by cases op.connection <;> rfl) waiting outer rest

/-- With ranked precedence an operator waits on top of the others as well, unless it is a series
operator and a parallel one is there. -/
theorem convert_ranked_operator {op : Operator} {waiting : List Operator}
    (h : op.connection = .parallel ∨ parallelOnTop waiting = false)
    (outer : List (Nat × List Operator)) (rest : List Token) :
    convert .ranked waiting outer (.operator op :: rest) =
      convert .ranked (op :: waiting) outer rest := by
  rcases h with hParallel | hTop
  · exact convert_operator_of_not_cutsAt (by rw [hParallel]; rfl) waiting outer rest
  · have hStays : ∀ top ∈ waiting.head?,
        Precedence.ranked.completes top.connection op.connection = false := by
      intro top hMem
      have hSeries : top.connection = .series := by
        rw [parallelOnTop, Option.mem_def.mp hMem] at hTop
        cases hConnection : top.connection with
        | series => rfl
        | parallel => simp [hConnection] at hTop
      rw [Precedence.completes_eq, hSeries]
      simp [Precedence.cutsAt]
    rw [convert_operator]
    rcases waiting with - | ⟨top, below⟩
    · simp
    · simp [hStays top rfl]

/-- With ranked precedence a parallel operator on top is **put out** as soon as a series operator
comes. -/
theorem head?_of_convert_ranked {op top : Operator} (hSeries : op.connection = .series)
    (hTop : top.connection = .parallel) {below : List Operator}
    {outer : List (Nat × List Operator)} {rest : List Token} {items : Postfix}
    (h : convert .ranked (top :: below) outer (.operator op :: rest) = .ok items) :
    items.head? = some (.operator top) := by
  have hCompletes : Precedence.ranked.completes top.connection op.connection = true := by
    rw [hTop, hSeries]
    rfl
  rw [convert_operator, prepend_eq_ok_iff] at h
  obtain ⟨after, -, rfl⟩ := h
  simp [hCompletes]

/-- What waits at the end is put out from the top. -/
theorem head?_ne_of_finish {op : Operator} {waiting : List Operator}
    {outer : List (Nat × List Operator)} {items : Postfix}
    (hTop : (waiting ++ outer.flatMap Prod.snd).head? ≠ some op)
    (h : finish waiting outer = .ok items) : items.head? ≠ some (.operator op) := by
  rw [eq_of_finish_eq_ok h, List.head?_map]
  simpa using hTop

/-- With uniform precedence an operator that is **not on top** of what waits, in this group or
around it, and does not come again, is not what is put out next. -/
theorem head?_ne_of_convert_uniform {op : Operator} {waiting : List Operator}
    {outer : List (Nat × List Operator)} {tokens : List Token} {items : Postfix}
    (hTop : (waiting ++ outer.flatMap Prod.snd).head? ≠ some op)
    (hNew : .operator op ∉ tokens)
    (h : convert .uniform waiting outer tokens = .ok items) :
    items.head? ≠ some (.operator op) := by
  induction tokens generalizing waiting outer items with
  | nil => exact head?_ne_of_finish hTop h
  | cons token rest ih =>
      rw [List.mem_cons, not_or] at hNew
      obtain ⟨hToken, hRest⟩ := hNew
      cases token with
      | component literal lexeme =>
          rw [convert_component, prepend_eq_ok_iff] at h
          obtain ⟨after, -, rfl⟩ := h
          simp
      | operator incoming =>
          rw [convert_uniform_operator] at h
          refine ih ?_ hRest h
          intro hSame
          exact hToken (congrArg Token.operator (Option.some.inj hSame).symm)
      | leftParen lexeme =>
          rw [convert_leftParen] at h
          refine ih ?_ hRest h
          rwa [List.nil_append, List.flatMap_cons]
      | rightParen lexeme =>
          rcases outer with - | ⟨⟨offset, suspended⟩, outer⟩
          · exact absurd h (by simp [convert])
          · rw [convert_rightParen, prepend_eq_ok_iff] at h
            obtain ⟨after, hAfter, rfl⟩ := h
            rcases waiting with - | ⟨top, below⟩
            · rw [List.nil_append, List.flatMap_cons] at hTop
              exact ih hTop hRest hAfter
            · simpa using hTop
      | endOfInput lexeme => exact head?_ne_of_finish hTop h

/-- **The precedences part** where a series operator comes and a parallel one is on top. -/
theorem uniform_ne_ranked_of_parallelOnTop {op : Operator} (hSeries : op.connection = .series)
    {waiting : List Operator} (hTop : parallelOnTop waiting = true)
    {outer : List (Nat × List Operator)} {rest : List Token}
    (hNew : ∀ top ∈ waiting, .operator top ∉ rest) {uniform ranked : Postfix}
    (hUniform : convert .uniform (op :: waiting) outer rest = .ok uniform)
    (hRanked : convert .ranked waiting outer (.operator op :: rest) = .ok ranked) :
    uniform ≠ ranked := by
  rcases waiting with - | ⟨top, below⟩
  · exact absurd hTop (by simp [parallelOnTop])
  · have hParallel : top.connection = .parallel := by simpa [parallelOnTop] using hTop
    have hOther : op ≠ top := by
      rintro rfl
      rw [hSeries] at hParallel
      exact absurd hParallel (by decide)
    have hRankedHead := head?_of_convert_ranked hSeries hParallel hRanked
    have hUniformHead : uniform.head? ≠ some (.operator top) :=
      head?_ne_of_convert_uniform (by simpa using hOther) (hNew top List.mem_cons_self) hUniform
    rintro rfl
    exact hUniformHead hRankedHead

/-- The **marks** of the groups that are open: whether a parallel operator waits on top. -/
def marks (waiting : List Operator) (outer : List (Nat × List Operator)) : List Bool :=
  parallelOnTop waiting :: outer.map fun group => parallelOnTop group.2

/-- Whether all operators that wait, in the group or around it, **stand before** a place. -/
def StandBefore (place : Nat) (waiting : List Operator) (outer : List (Nat × List Operator)) :
    Prop :=
  ∀ op ∈ waiting ++ outer.flatMap Prod.snd, op.lexeme.offset < place

theorem StandBefore.push {place : Nat} {waiting : List Operator}
    {outer : List (Nat × List Operator)} (h : StandBefore place waiting outer) {op : Operator}
    (hOp : op.lexeme.offset < place) : StandBefore place (op :: waiting) outer := by
  rw [StandBefore, List.cons_append, List.forall_mem_cons]
  exact ⟨hOp, h⟩

/-- **When the two conversions agree.** From one state on, the precedences give the same items
exactly when the text is not mixed behind the groups that are open. The operators that wait must
not come again in the text, which is so because they stand before it. -/
theorem convert_uniform_eq_ranked_iff (text : List Char) (waiting : List Operator)
    (outer : List (Nat × List Operator)) (earlier : List String) (inName : Bool) (offset : Nat)
    (hWaiting : StandBefore offset waiting outer) {uniform ranked : Postfix}
    (hUniform : convert .uniform waiting outer (Token.ofText earlier inName offset text) =
      .ok uniform)
    (hRanked : convert .ranked waiting outer (Token.ofText earlier inName offset text) =
      .ok ranked) :
    uniform = ranked ↔ ¬ Text.IsMixedBehind (marks waiting outer) text := by
  induction text generalizing waiting outer earlier inName offset uniform ranked with
  | nil =>
      have hSame : uniform = ranked := Except.ok.inj (hUniform.symm.trans hRanked)
      exact iff_of_true hSame (Text.not_isMixedBehind_nil _)
  | cons c rest ih =>
      have hLater : StandBefore (offset + c.utf8Size) waiting outer :=
        fun op hOp => Nat.lt_add_right _ (hWaiting op hOp)
      have hNext : offset < offset + c.utf8Size := Nat.lt_add_of_pos_right c.utf8Size_pos
      by_cases hOpen : c = '('
      · subst hOpen
        rw [Token.ofText_leftParen, convert_leftParen] at hUniform hRanked
        rw [Text.isMixedBehind_leftParen_iff]
        exact ih [] ((offset, waiting) :: outer) _ _ _ hLater hUniform hRanked
      by_cases hClose : c = ')'
      · subst hClose
        rw [Token.ofText_rightParen] at hUniform hRanked
        rcases outer with - | ⟨⟨opened, suspended⟩, outer⟩
        · exact absurd hUniform (by simp [convert])
        · rw [convert_rightParen, prepend_eq_ok_iff] at hUniform hRanked
          obtain ⟨afterUniform, hUniform, rfl⟩ := hUniform
          obtain ⟨afterRanked, hRanked, rfl⟩ := hRanked
          rw [List.append_cancel_left_eq, marks, List.map_cons, Text.isMixedBehind_rightParen_iff]
          refine ih suspended outer _ _ _ ?_ hUniform hRanked
          exact fun op hOp => hLater op (List.mem_append_right _ hOp)
      by_cases hParallel : c = Connection.parallel.symbol
      · subst hParallel
        rw [Token.ofText_symbol, convert_uniform_operator] at hUniform
        rw [Token.ofText_symbol, convert_ranked_operator (.inl rfl)] at hRanked
        rw [marks, Connection.symbol, Text.isMixedBehind_parallel_iff]
        exact ih _ outer _ _ _ (hLater.push hNext) hUniform hRanked
      by_cases hSeries : c = Connection.series.symbol
      · subst hSeries
        rw [Token.ofText_symbol] at hUniform hRanked
        rw [convert_uniform_operator] at hUniform
        rcases hTop : parallelOnTop waiting with - | -
        · rw [convert_ranked_operator (.inr hTop)] at hRanked
          have hUnmarked : (marks waiting outer)[0]? ≠ some true := by simp [marks, hTop]
          rw [Text.isMixedBehind_cons_iff hOpen hClose hParallel fun _ => hUnmarked, marks, hTop]
          exact ih _ outer _ _ _ (hLater.push hNext) hUniform hRanked
        · -- A parallel operator is completed: the results part here.
          rw [marks, hTop]
          refine iff_of_false ?_ (not_not_intro (Text.isMixedBehind_series _ rest))
          refine uniform_ne_ranked_of_parallelOnTop rfl hTop ?_ hUniform hRanked
          intro top hMem hAgain
          have hLt := hWaiting top (List.mem_append_left _ hMem)
          have hLe := Token.offset_le_of_mem_ofText hAgain
          rw [Token.lexeme] at hLe
          omega
      have hMark : c ∉ ['(', ')', '-', '|'] := by
        simp only [List.mem_cons, List.not_mem_nil, or_false, not_or]
        exact ⟨hOpen, hClose, hSeries, hParallel⟩
      rw [Text.isMixedBehind_cons_iff hOpen hClose hParallel (fun hSign => absurd hSign hSeries)]
      rcases Token.ofText_cons_of_not_mark hMark earlier inName offset rest with
        ⟨inside, hStep⟩ | ⟨name, hStep⟩
      · rw [hStep] at hUniform hRanked
        exact ih _ outer _ _ _ hLater hUniform hRanked
      · rw [hStep, convert_component, prepend_eq_ok_iff] at hUniform hRanked
        obtain ⟨afterUniform, hUniform, rfl⟩ := hUniform
        obtain ⟨afterRanked, hRanked, rfl⟩ := hRanked
        rw [List.append_cancel_left_eq]
        exact ih _ outer _ _ _ hLater hUniform hRanked

/-- A source is accepted with both precedences or with none, and then for the same fault. -/
theorem parse_uniform_ranked_error_or_ok (source : String) :
    (∃ fault, parse .uniform source = .error fault ∧ parse .ranked source = .error fault) ∨
    ∃ uniform ranked, parse .uniform source = .ok uniform ∧ parse .ranked source = .ok ranked := by
  rcases hScan : Token.scan source with fault | tokens
  · exact .inl ⟨fault, by rw [parse, hScan]; rfl, by rw [parse, hScan]; rfl⟩
  · obtain rfl := Token.eq_ofText_of_scan_eq_ok hScan
    have hUniform := map_convert_ofText .uniform [] [] [] false 0 source.toList
    have hRanked := map_convert_ofText .ranked [] [] [] false 0 source.toList
    simp only [parse, hScan, Except.bind, ofTokens]
    rcases hOutcome : (openParens [] 0 source.toList).bind closeParens with fault | ⟨⟩
    · rw [List.map_nil, hOutcome] at hUniform hRanked
      exact .inl ⟨fault, eq_error_of_map_eq_error hUniform, eq_error_of_map_eq_error hRanked⟩
    · rw [List.map_nil, hOutcome] at hUniform hRanked
      obtain ⟨uniform, hUniform⟩ := exists_eq_ok_of_map_eq_ok hUniform
      obtain ⟨ranked, hRanked⟩ := exists_eq_ok_of_map_eq_ok hRanked
      exact .inr ⟨uniform, ranked, hUniform, hRanked⟩

/-- A source has the same **operands** with both precedences. -/
theorem operands_eq_of_parse_eq_ok {precedence reading : Precedence} {source : String}
    {items others : Postfix} (hItems : parse precedence source = .ok items)
    (hOthers : parse reading source = .ok others) : items.operands = others.operands := by
  obtain ⟨tokens, hScan, hConverted⟩ := exists_scan_eq_ok_of_parse_eq_ok hItems
  obtain ⟨sameTokens, hSameScan, hOthersConverted⟩ := exists_scan_eq_ok_of_parse_eq_ok hOthers
  obtain rfl : tokens = sameTokens := Except.ok.inj (hScan.symm.trans hSameScan)
  rw [operands_of_scan_eq_ok hScan hConverted, operands_of_scan_eq_ok hScan hOthersConverted]

end Postfix

/-! ### The precedences compared -/

namespace Circuit

variable {α : Type u} [One α]

/-- A new circuit lists the literals of its items, each with the value one. -/
theorem components_of_ofSource_eq_ok {precedence : Precedence} {source : String}
    {circuit : Circuit α} (h : ofSource precedence source = .ok circuit) :
    circuit.components = circuit.items.literals.map fun literal => (literal, 1) := by
  have hReached : Reached precedence source circuit := .built h
  obtain ⟨items, -, rfl⟩ := ofSource_eq_ok_iff.mp h
  rw [(holds_ofPostfix source items).components_eq hReached.nodup_literals, hReached.literals_eq]

/-- **The two precedences compared.** A source has the same fault with both, or it is accepted with
both. Then it has the same operands in the same order, so that its two circuits list the same
components, and the items are equal, places included, exactly when no group has a `|` and later,
at its own level, a `-`. -/
theorem ofSource_uniform_ranked (source : String) :
    (∃ fault, Postfix.parse .uniform source = .error fault ∧
      Postfix.parse .ranked source = .error fault) ∨
    ∃ uniform ranked, Postfix.parse .uniform source = .ok uniform ∧
      Postfix.parse .ranked source = .ok ranked ∧
      uniform.operands = ranked.operands ∧
      (∃ first second : Circuit α, ofSource .uniform source = .ok first ∧
        ofSource .ranked source = .ok second ∧ first.components = second.components) ∧
      (uniform = ranked ↔ ¬ Text.IsMixed source.toList) := by
  rcases Postfix.parse_uniform_ranked_error_or_ok source with
    hFault | ⟨uniform, ranked, hUniform, hRanked⟩
  · exact .inl hFault
  · have hOperands := Postfix.operands_eq_of_parse_eq_ok hUniform hRanked
    refine .inr ⟨uniform, ranked, hUniform, hRanked, hOperands, ?_, ?_⟩
    · have hFirst : ofSource (α := α) .uniform source = .ok (ofPostfix source uniform) :=
        ofSource_eq_ok_iff.mpr ⟨uniform, hUniform, rfl⟩
      have hSecond : ofSource (α := α) .ranked source = .ok (ofPostfix source ranked) :=
        ofSource_eq_ok_iff.mpr ⟨ranked, hRanked, rfl⟩
      refine ⟨_, _, hFirst, hSecond, ?_⟩
      rw [components_of_ofSource_eq_ok hFirst, components_of_ofSource_eq_ok hSecond]
      exact congrArg (fun operands => (operands.map Operand.literal).map fun literal =>
        (literal, (1 : α))) hOperands
    · obtain ⟨tokens, hScan, hUniform⟩ := Postfix.exists_scan_eq_ok_of_parse_eq_ok hUniform
      obtain ⟨sameTokens, hSameScan, hRanked⟩ := Postfix.exists_scan_eq_ok_of_parse_eq_ok hRanked
      obtain rfl := Token.eq_ofText_of_scan_eq_ok hScan
      obtain rfl := Token.eq_ofText_of_scan_eq_ok hSameScan
      have hNone : Postfix.StandBefore 0 [] [] := fun op hOp => absurd hOp List.not_mem_nil
      rw [Postfix.convert_uniform_eq_ranked_iff source.toList [] [] [] false 0 hNone hUniform
        hRanked]
      exact not_congr Text.isMixedBehind_unmarked_iff

/-- A `-` behind a `|` does not matter where parentheses give it a level of its own. -/
example : Postfix.parse .uniform "R | (C - L)" = Postfix.parse .ranked "R | (C - L)" := rfl

end Circuit

end EquivalentCircuit
