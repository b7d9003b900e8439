import EquivalentCircuit.Proofs.Conversion
import Mathlib.Data.List.Induction

/-!
# Faults of a Source

Which sources are refused, and for which fault. A foreign character is reported before any
fault of the parentheses, since a source is scanned as a whole before it is converted. In a
source without foreign characters the conversion reports parentheses only: operators and
operands may stand anywhere, and precedence plays no part.

The parentheses are followed by a small machine, `openParens`, that keeps the byte offsets of
the parentheses that are open. It does what the conversion does with its groups, whatever waits
in them (`map_convert_ofText`). What the machine does is then read off the counts of
parentheses: while a text closes no more than it opens, what was open before it stays open
(`exists_openParens_eq_ok`).

## Main results

* `Glyph.ofChar?_eq_none_iff`: the characters that the notation does not have.
* `Postfix.map_parse`: the outcome of parsing as the outcome of the machine.
* `Postfix.parse_outcome`: exactly which sources are accepted, and the fault and the offset that
  are reported for every other source.
-/

namespace EquivalentCircuit

/-! ### Foreign characters -/

namespace Glyph

/-- A character is **foreign** when it is none of the signs and blanks of the notation and not
alphabetic. -/
def IsForeign (c : Char) : Prop :=
  c ∉ ['(', ')', '-', '|', ' ', '\t', '\n', '\x0c', '\r'] ∧ Unicode.isAlphabetic c = false

instance : DecidablePred IsForeign :=
  fun c => inferInstanceAs (Decidable (c ∉ _ ∧ Unicode.isAlphabetic c = false))

/-- The notation has exactly the characters that are not foreign. -/
theorem ofChar?_eq_none_iff {c : Char} : ofChar? c = none ↔ IsForeign c := by
  have hBlank : isBlank c = true ↔ c ∈ [' ', '\t', '\n', '\x0c', '\r'] := by
    simp [isBlank, or_assoc]
  simp only [ofChar?, Connection.symbol, IsForeign]
  grind

/-- A character that opens a group. -/
theorem ofChar?_eq_leftParen_iff {c : Char} : ofChar? c = some .leftParen ↔ c = '(' := by
  grind [ofChar?]

/-- A character that closes a group. -/
theorem ofChar?_eq_rightParen_iff {c : Char} : ofChar? c = some .rightParen ↔ c = ')' := by
  grind [ofChar?]

/-- Among foreign characters there is a first one. -/
theorem exists_first_foreign {text : List Char} (h : ∃ c ∈ text, IsForeign c) :
    ∃ before c after, text = before ++ c :: after ∧ (∀ d ∈ before, ¬ IsForeign d) ∧
      IsForeign c := by
  induction text with
  | nil => simp at h
  | cons c rest ih =>
      by_cases hC : IsForeign c
      · exact ⟨[], c, rest, rfl, by simp, hC⟩
      · obtain ⟨d, hMem, hD⟩ := h
        have hRest : d ∈ rest := (List.mem_cons.mp hMem).resolve_left fun hEq => hC (hEq ▸ hD)
        obtain ⟨before, d, after, rfl, hBefore, hD⟩ := ih ⟨d, hRest, hD⟩
        exact ⟨c :: before, d, after, rfl, List.forall_mem_cons.mpr ⟨hC, hBefore⟩, hD⟩

end Glyph

/-! ### Lengths in bytes -/

/-- The length in bytes of a text, one character at a time. -/
theorem Text.utf8ByteSize_cons (c : Char) (rest : List Char) :
    (String.ofList (c :: rest)).utf8ByteSize =
      c.utf8Size + (String.ofList rest).utf8ByteSize := by
  rw [String.ofList_cons, String.utf8ByteSize_append, String.utf8ByteSize_singleton]

namespace Token

/-- A text without foreign characters has no first one. -/
theorem firstForeign?_eq_none {text : List Char} (h : ∀ c ∈ text, ¬ Glyph.IsForeign c)
    (offset : Nat) : firstForeign? offset text = none := by
  induction text generalizing offset with
  | nil => rfl
  | cons c rest ih =>
      rw [List.forall_mem_cons] at h
      obtain ⟨glyph, hGlyph⟩ := Option.ne_none_iff_exists'.mp (mt Glyph.ofChar?_eq_none_iff.mp h.1)
      rw [firstForeign?, hGlyph]
      exact ih h.2 _

/-- The first foreign character is found where it stands. -/
theorem firstForeign?_append {before : List Char} (hBefore : ∀ d ∈ before, ¬ Glyph.IsForeign d)
    {c : Char} (hForeign : Glyph.IsForeign c) (after : List Char) (offset : Nat) :
    firstForeign? offset (before ++ c :: after) =
      some (c, offset + (String.ofList before).utf8ByteSize) := by
  induction before generalizing offset with
  | nil => simp [firstForeign?, Glyph.ofChar?_eq_none_iff.mpr hForeign]
  | cons d rest ih =>
      rw [List.forall_mem_cons] at hBefore
      obtain ⟨glyph, hGlyph⟩ :=
        Option.ne_none_iff_exists'.mp (mt Glyph.ofChar?_eq_none_iff.mp hBefore.1)
      rw [List.cons_append, firstForeign?, hGlyph, Text.utf8ByteSize_cons, ← Nat.add_assoc]
      exact ih hBefore.2 _

end Token

/-! ### The parentheses that are open -/

/-- What a **character** at a byte offset does to the offsets of the parentheses that are open, the
innermost one first. -/
def openParen (opened : List Nat) (offset : Nat) (c : Char) : Except SyntaxError (List Nat) :=
  if c = '(' then .ok (offset :: opened)
  else if c = ')' then
    match opened with
    | [] => .error (.unmatchedClose offset)
    | _ :: outer => .ok outer
  else .ok opened

/-- The byte offsets of the parentheses that are **open** behind a text, the innermost one first.
The text starts at byte `offset`, and `opened` holds those that are open before it. -/
def openParens (opened : List Nat) (offset : Nat) : List Char → Except SyntaxError (List Nat)
  | [] => .ok opened
  | c :: rest =>
    (openParen opened offset c).bind fun left => openParens left (offset + c.utf8Size) rest

/-- A parenthesis that is **open at the end** of a source is a fault. -/
def closeParens : List Nat → Except SyntaxError Unit
  | [] => .ok ()
  | offset :: _ => .error (.unclosedOpen offset)

theorem openParen_open (opened : List Nat) (offset : Nat) :
    openParen opened offset '(' = .ok (offset :: opened) := rfl

theorem openParen_close_nil (offset : Nat) :
    openParen [] offset ')' = .error (.unmatchedClose offset) := rfl

theorem openParen_of_ne {c : Char} (hOpen : c ≠ '(') (hClose : c ≠ ')') (opened : List Nat)
    (offset : Nat) : openParen opened offset c = .ok opened := by
  simp [openParen, hOpen, hClose]

/-- A text in two parts is read one after the other. -/
theorem openParens_append (opened : List Nat) (offset : Nat) (front back : List Char) :
    openParens opened offset (front ++ back) =
      (openParens opened offset front).bind fun left =>
        openParens left (offset + (String.ofList front).utf8ByteSize) back := by
  induction front generalizing opened offset with
  | nil => rfl
  | cons c rest ih =>
      rw [List.cons_append, openParens, openParens, Text.utf8ByteSize_cons, ← Nat.add_assoc]
      cases openParen opened offset c with
      | error fault => rfl
      | ok left => exact ih left _

namespace Postfix

/-- The conversion of a scanned text fails exactly as the parentheses of the text do, whatever the
precedence and the waiting operators are. -/
theorem map_convert_ofText (precedence : Precedence) (waiting : List Operator)
    (outer : List (Nat × List Operator)) (earlier : List String) (inName : Bool) (offset : Nat)
    (text : List Char) :
    (convert precedence waiting outer (Token.ofText earlier inName offset text)).map
        (fun _ => ()) =
      (openParens (outer.map Prod.fst) offset text).bind closeParens := by
  induction text generalizing waiting outer earlier inName offset with
  | nil =>
      cases outer <;> rfl
  | cons c rest ih =>
      rw [Token.ofText, openParens]
      by_cases hOpen : c = '('
      · subst hOpen
        exact ih [] ((offset, waiting) :: outer) earlier false _
      by_cases hClose : c = ')'
      · subst hClose
        rcases outer with - | ⟨⟨innermost, suspended⟩, outer⟩
        · rfl
        · rw [Glyph.ofChar?_eq_rightParen_iff.mpr rfl]
          dsimp only
          rw [convert_rightParen, map_prepend_unit]
          exact ih suspended outer earlier false _
      rw [openParen_of_ne hOpen hClose]
      split
      · next h => exact absurd (Glyph.ofChar?_eq_leftParen_iff.mp h) hOpen
      · next h => exact absurd (Glyph.ofChar?_eq_rightParen_iff.mp h) hClose
      · rw [convert_operator, map_prepend_unit]
        exact ih _ outer earlier false _
      · split
        · exact ih waiting outer earlier true _
        · rw [convert_component, map_prepend_unit]
          exact ih waiting outer _ true _
      · exact ih waiting outer earlier false _
      · exact ih waiting outer earlier false _

/-- The **outcome of parsing** a source without foreign characters. -/
theorem map_parse {source : String} (h : ∀ c ∈ source.toList, ¬ Glyph.IsForeign c)
    (precedence : Precedence) :
    (parse precedence source).map (fun _ => ()) =
      (openParens [] 0 source.toList).bind closeParens := by
  rw [parse, Token.scan, Token.firstForeign?_eq_none h]
  exact map_convert_ofText precedence [] [] [] false 0 source.toList

end Postfix

/-! ### Counting parentheses -/

namespace Text

/-- A text is **overdrawn** when some front part of it closes more parentheses than it opens. -/
def Overdrawn (text : List Char) : Prop :=
  ∃ front, front <+: text ∧ front.count '(' < front.count ')'

/-- A text is **settled** when every parenthesis that it opens is closed again: what follows the
parenthesis closes, at some place, one more than it opens. -/
def Settled (text : List Char) : Prop :=
  ∀ between later, text = between ++ '(' :: later → Overdrawn later

theorem count_le_of_not_overdrawn {text : List Char} (h : ¬ Overdrawn text) {front : List Char}
    (hFront : front <+: text) : front.count ')' ≤ front.count '(' :=
  Nat.le_of_not_lt fun hLt => h ⟨front, hFront, hLt⟩

/-- An overdrawn text has a first parenthesis that closes too much. -/
theorem exists_first_overdraft {text : List Char} (h : Overdrawn text) :
    ∃ before after, text = before ++ ')' :: after ∧ ¬ Overdrawn before ∧
      Overdrawn (before ++ [')']) := by
  induction text using List.reverseRecOn with
  | nil =>
      obtain ⟨front, hFront, hCount⟩ := h
      rw [List.prefix_nil.mp hFront] at hCount
      exact absurd hCount (Nat.lt_irrefl 0)
  | append_singleton init c ih =>
      by_cases hInit : Overdrawn init
      · obtain ⟨before, after, rfl, hBefore, hAfter⟩ := ih hInit
        exact ⟨before, after ++ [c], by simp, hBefore, hAfter⟩
      · obtain ⟨front, hFront, hCount⟩ := h
        rcases List.prefix_concat_iff.mp hFront with rfl | hShort
        · have hLe := count_le_of_not_overdrawn hInit List.prefix_rfl
          have hClose : c = ')' := by
            by_contra hNe
            simp only [List.count_append, List.count_singleton, beq_iff_eq, hNe] at hCount
            simp at hCount
            omega
          subst hClose
          exact ⟨init, [], rfl, hInit, _, List.prefix_rfl, hCount⟩
        · exact absurd ⟨front, hShort, hCount⟩ hInit

/-- A settled text closes, behind any front part of it, at least as much as it opens. -/
theorem Settled.count_add_count_le {text : List Char} (h : Settled text) {front : List Char}
    (hFront : front <+: text) :
    front.count ')' + text.count '(' ≤ front.count '(' + text.count ')' := by
  induction text generalizing front with
  | nil =>
      rw [List.prefix_nil.mp hFront]
      exact Nat.le_refl _
  | cons c rest ih =>
      have hRest : Settled rest := by
        intro between later hSplit
        exact h (c :: between) later (by rw [hSplit, List.cons_append])
      rcases List.prefix_cons_iff.mp hFront with rfl | ⟨front, rfl, hInner⟩
      · by_cases hOpen : c = '('
        · subst hOpen
          obtain ⟨front, hFront, hCount⟩ := h [] rest rfl
          have hLe := ih hRest hFront
          simp only [List.count_nil, List.count_cons]
          simp
          omega
        · have hLe := ih hRest (List.nil_prefix (l := rest))
          simp [List.count_cons, hOpen] at hLe ⊢
          omega
      · have hLe := ih hRest hInner
        simp only [List.count_cons]
        omega

/-- A text is settled or has a last parenthesis that is never closed. -/
theorem settled_or_exists_last_unclosed (text : List Char) :
    Settled text ∨ ∃ before after, text = before ++ '(' :: after ∧ ¬ Overdrawn after ∧
      Settled after := by
  induction text with
  | nil =>
      left
      intro between later hSplit
      simp at hSplit
  | cons c rest ih =>
      rcases ih with hRest | ⟨before, after, rfl, hAfter, hSettled⟩
      · by_cases hLast : c = '(' ∧ ¬ Overdrawn rest
        · obtain ⟨rfl, hAfter⟩ := hLast
          exact Or.inr ⟨[], rest, rfl, hAfter, hRest⟩
        · left
          intro between later hSplit
          rcases between with - | ⟨d, between⟩
          · obtain ⟨hOpen, rfl⟩ := List.cons.inj hSplit
            exact Classical.not_not.mp fun hNot => hLast ⟨hOpen, hNot⟩
          · exact hRest between later (List.cons.inj hSplit).2
      · exact Or.inr ⟨c :: before, after, rfl, hAfter, hSettled⟩

end Text

/-! ### What the counts say about the machine -/

/-- **Frame.** While a text closes no more than it opens and `inner` holds, what was open around
`inner` stays open, and the number of parentheses that are open is that of the counts. -/
theorem exists_openParens_eq_ok (text : List Char) (inner : List Nat)
    (h : ∀ front, front <+: text → front.count ')' ≤ front.count '(' + inner.length)
    (outer : List Nat) (offset : Nat) :
    ∃ left : List Nat, openParens (inner ++ outer) offset text = .ok (left ++ outer) ∧
      left.length + text.count ')' = inner.length + text.count '(' := by
  induction text generalizing inner offset with
  | nil => exact ⟨inner, rfl, rfl⟩
  | cons c rest ih =>
      have hRest : ∀ front, front <+: rest →
          (c :: front).count ')' ≤ (c :: front).count '(' + inner.length := by
        intro front hFront
        exact h (c :: front) (List.cons_prefix_cons.mpr ⟨rfl, hFront⟩)
      rw [openParens]
      by_cases hOpen : c = '('
      · subst hOpen
        obtain ⟨left, hLeft, hLength⟩ := ih (offset :: inner) (fun front hFront => by
          have := hRest front hFront
          simp at this ⊢
          omega) (offset + '('.utf8Size)
        refine ⟨left, hLeft, ?_⟩
        simp at hLength ⊢
        omega
      by_cases hClose : c = ')'
      · subst hClose
        rcases inner with - | ⟨innermost, inner⟩
        · have := hRest [] List.nil_prefix
          simp at this
        · obtain ⟨left, hLeft, hLength⟩ := ih inner (fun front hFront => by
            have := hRest front hFront
            simp at this ⊢
            omega) (offset + ')'.utf8Size)
          refine ⟨left, hLeft, ?_⟩
          simp at hLength ⊢
          omega
      · obtain ⟨left, hLeft, hLength⟩ := ih inner (fun front hFront => by
          simpa [hOpen, hClose] using hRest front hFront) (offset + c.utf8Size)
        rw [openParen_of_ne hOpen hClose]
        refine ⟨left, hLeft, ?_⟩
        simpa [hOpen, hClose] using hLength

/-- What is open behind a text that is not overdrawn. -/
theorem exists_openParens_nil_eq_ok {text : List Char} (h : ¬ Text.Overdrawn text) :
    ∃ left : List Nat, openParens [] 0 text = .ok left ∧
      left.length + text.count ')' = text.count '(' := by
  obtain ⟨left, hLeft, hLength⟩ := exists_openParens_eq_ok text []
    (fun front hFront => Text.count_le_of_not_overdrawn h hFront) [] 0
  rw [List.append_nil, List.append_nil] at hLeft
  rw [List.length_nil, Nat.zero_add] at hLength
  exact ⟨left, hLeft, hLength⟩

/-- The parenthesis that first closes too much is reported. -/
theorem openParens_of_overdraft {before : List Char} (hBefore : ¬ Text.Overdrawn before)
    (hOver : Text.Overdrawn (before ++ [')'])) (after : List Char) :
    openParens [] 0 (before ++ ')' :: after) =
      .error (.unmatchedClose (String.ofList before).utf8ByteSize) := by
  obtain ⟨left, hLeft, hLength⟩ := exists_openParens_nil_eq_ok hBefore
  obtain rfl : left = [] := by
    obtain ⟨front, hFront, hCount⟩ := hOver
    rcases List.prefix_concat_iff.mp hFront with rfl | hShort
    · simp at hCount hLength
      exact List.length_eq_zero_iff.mp (by omega)
    · exact absurd ⟨front, hShort, hCount⟩ hBefore
  rw [openParens_append, hLeft]
  simp [Except.bind, openParens, openParen_close_nil]

/-- The last parenthesis that is never closed is open at the end, inside of all others. -/
theorem openParens_of_unclosed {before after : List Char}
    (hText : ¬ Text.Overdrawn (before ++ '(' :: after)) (hAfter : ¬ Text.Overdrawn after)
    (hSettled : Text.Settled after) :
    ∃ opened, openParens [] 0 (before ++ '(' :: after) =
      .ok ((String.ofList before).utf8ByteSize :: opened) := by
  have hFront : ¬ Text.Overdrawn before := by
    rintro ⟨front, hFront, hCount⟩
    exact hText ⟨front, hFront.trans (List.prefix_append _ _), hCount⟩
  obtain ⟨opened, hBefore, -⟩ := exists_openParens_nil_eq_ok hFront
  obtain ⟨left, hLeft, hLength⟩ := exists_openParens_eq_ok after []
    (fun front hFront => Text.count_le_of_not_overdrawn hAfter hFront)
    ((String.ofList before).utf8ByteSize :: opened)
    ((String.ofList before).utf8ByteSize + '('.utf8Size)
  obtain rfl : left = [] := by
    have hLe := hSettled.count_add_count_le (List.nil_prefix (l := after))
    simp at hLe hLength
    exact List.length_eq_zero_iff.mp (by omega)
  refine ⟨opened, ?_⟩
  rw [openParens_append, hBefore]
  simpa [Except.bind, openParens, openParen_open] using hLeft

/-! ### The outcome of parsing -/

/-- A result without its value keeps the fault. -/
theorem eq_error_of_map_eq_error {α : Type} {result : Except SyntaxError α} {fault : SyntaxError}
    (h : result.map (fun _ => ()) = .error fault) : result = .error fault := by
  cases result with
  | error other => simpa [Except.map] using h
  | ok value => simp [Except.map] at h

/-- A result without its value tells whether there was one. -/
theorem exists_eq_ok_of_map_eq_ok {α : Type} {result : Except SyntaxError α}
    (h : result.map (fun _ => ()) = .ok ()) : ∃ value, result = .ok value := by
  cases result with
  | error other => simp [Except.map] at h
  | ok value => exact ⟨value, rfl⟩

/-- **Acceptance and faults of a source.** The first foreign character is reported, whatever the
parentheses are. Without foreign characters, an overdrawn source is refused at the first `)`
that closes too much; a source that is not overdrawn but opens more than it closes is refused
at the last `(` that is never closed; and every other source is accepted. The offset is the
length in bytes of the text before the fault, and precedence makes no difference. -/
theorem Postfix.parse_outcome (source : String) :
    ((∃ c ∈ source.toList, Glyph.IsForeign c) →
      ∃ before c after, source.toList = before ++ c :: after ∧ Glyph.IsForeign c ∧
        (∀ d ∈ before, ¬ Glyph.IsForeign d) ∧
        ∀ precedence, parse precedence source =
          .error (.unknownCharacter c (String.ofList before).utf8ByteSize)) ∧
    ((∀ c ∈ source.toList, ¬ Glyph.IsForeign c) →
      (Text.Overdrawn source.toList →
        ∃ before after, source.toList = before ++ ')' :: after ∧ ¬ Text.Overdrawn before ∧
          Text.Overdrawn (before ++ [')']) ∧
          ∀ precedence, parse precedence source =
            .error (.unmatchedClose (String.ofList before).utf8ByteSize)) ∧
      (¬ Text.Overdrawn source.toList →
        (source.toList.count ')' < source.toList.count '(' →
          ∃ before after, source.toList = before ++ '(' :: after ∧ ¬ Text.Overdrawn after ∧
            Text.Settled after ∧
            ∀ precedence, parse precedence source =
              .error (.unclosedOpen (String.ofList before).utf8ByteSize)) ∧
        (¬ source.toList.count ')' < source.toList.count '(' →
          ∀ precedence, ∃ items, parse precedence source = .ok items))) := by
  refine ⟨fun hForeign => ?_, fun hClean => ⟨fun hOver => ?_, fun hOver => ⟨fun hMore => ?_,
    fun hMore precedence => ?_⟩⟩⟩
  · obtain ⟨before, c, after, hText, hBefore, hC⟩ := Glyph.exists_first_foreign hForeign
    refine ⟨before, c, after, hText, hC, hBefore, fun precedence => ?_⟩
    rw [parse, Token.scan, hText, Token.firstForeign?_append hBefore hC, Nat.zero_add]
    rfl
  · obtain ⟨before, after, hText, hBefore, hClose⟩ := Text.exists_first_overdraft hOver
    refine ⟨before, after, hText, hBefore, hClose, fun precedence => eq_error_of_map_eq_error ?_⟩
    rw [map_parse hClean, hText, openParens_of_overdraft hBefore hClose]
    rfl
  · rcases Text.settled_or_exists_last_unclosed source.toList with hSettled | hLast
    · have hLe := hSettled.count_add_count_le (List.nil_prefix (l := source.toList))
      rw [List.count_nil, List.count_nil] at hLe
      omega
    · obtain ⟨before, after, hText, hAfter, hSettled⟩ := hLast
      refine ⟨before, after, hText, hAfter, hSettled, fun precedence =>
        eq_error_of_map_eq_error ?_⟩
      rw [hText] at hOver
      obtain ⟨opened, hOpened⟩ := openParens_of_unclosed hOver hAfter hSettled
      rw [map_parse hClean, hText, hOpened]
      rfl
  · obtain ⟨left, hLeft, hLength⟩ := exists_openParens_nil_eq_ok hOver
    obtain rfl : left = [] := List.length_eq_zero_iff.mp (by omega)
    refine exists_eq_ok_of_map_eq_ok ?_
    rw [map_parse hClean, hLeft]
    rfl

/-- In `é ) (` the closing parenthesis is reported, which stands behind three bytes. -/
theorem Postfix.parse_close_behind_letter :
    (∀ c ∈ "é ) (".toList, ¬ Glyph.IsForeign c) ∧ Text.Overdrawn "é ) (".toList ∧
      ∀ precedence, parse precedence "é ) (" = .error (.unmatchedClose 3) := by
  have hAll : ("é ) (".toList.all fun c => !decide (Glyph.IsForeign c)) = true := by decide
  have hClean : ∀ c ∈ "é ) (".toList, ¬ Glyph.IsForeign c := by simpa using hAll
  have hOver : Text.Overdrawn "é ) (".toList := ⟨['é', ' ', ')'], by decide, by decide⟩
  obtain ⟨before, after, hText, -, -, hParse⟩ := ((parse_outcome "é ) (").2 hClean).1 hOver
  obtain rfl : before = ['é', ' '] := by
    rcases before with - | ⟨first, - | ⟨second, - | ⟨third, - | ⟨fourth, - | ⟨fifth, before⟩⟩⟩⟩⟩ <;>
      simp at hText
    obtain ⟨rfl, rfl, -⟩ := hText
    rfl
  exact ⟨hClean, hOver, hParse⟩

end EquivalentCircuit
