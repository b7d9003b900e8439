import EquivalentCircuit.Proofs.Scanning
import Mathlib.Data.String.Basic

/-!
# The Tiling of a Source

The tokens of a source stand in it side by side, and nothing but blanks lies between them. Every
lexeme is the piece of text that starts at its place; a parenthesis and the sign of a connection are
one character, and a name reaches as far as there are letters on both sides.

The scan is a recursion over characters that passes over the letters of a name that it has read
already. Here it is seen as a recursion over pieces (`Token.Tiles`): a blank, a mark, or a whole
name together with the fact that the text behind it ends it. What is said of the tokens is proved
by induction over the pieces, with one case for each.

## Main results

* `Token.tiles_ofText`: the tokens of a text without foreign characters tile it.
* `Token.standsIn_of_mem_tiles`, `Token.pairwise_stop_le_of_tiles` and
  `Token.isBlank_or_covers_of_tiles`: lexemes are pieces of the text, they do not overlap, and
  they cover everything but blanks.
* `Token.scan_tiles`: the tokens of a source are a tiling of it (`Token.IsTiling`).
-/

namespace EquivalentCircuit

/-! ### Lexemes in a text -/

namespace Lexeme

/-- The byte offset **behind** a lexeme. -/
def stop (lexeme : Lexeme) : Nat :=
  lexeme.offset + lexeme.text.utf8ByteSize

/-- Whether a lexeme **stands between** two parts of a text that starts at byte `start`. -/
def StandsBetween (lexeme : Lexeme) (start : Nat) (text before after : List Char) : Prop :=
  text = before ++ lexeme.text.toList ++ after ∧
    lexeme.offset = start + (String.ofList before).utf8ByteSize

/-- A text with a piece put in front of it has the lexeme behind the piece. -/
theorem StandsBetween.behind (piece : List Char) {lexeme : Lexeme} {start : Nat}
    {text before after : List Char}
    (h : lexeme.StandsBetween (start + (String.ofList piece).utf8ByteSize) text before after) :
    lexeme.StandsBetween start (piece ++ text) (piece ++ before) after := by
  obtain ⟨rfl, hOffset⟩ := h
  refine ⟨by simp, ?_⟩
  rw [hOffset, Text.utf8ByteSize_append, Nat.add_assoc]

/-- A lexeme that stands in a source begins and ends at **boundaries of characters**. -/
theorem StandsBetween.isValid {lexeme : Lexeme} {source : String} {before after : List Char}
    (h : lexeme.StandsBetween 0 source.toList before after) :
    String.Pos.Raw.IsValid source ⟨lexeme.offset⟩ ∧
      String.Pos.Raw.IsValid source ⟨lexeme.stop⟩ := by
  obtain ⟨hText, hOffset⟩ := h
  have hSource : source = String.ofList before ++ lexeme.text ++ String.ofList after := by
    rw [← String.toList_inj, hText]
    simp
  rw [Nat.zero_add] at hOffset
  constructor
  · refine String.Pos.Raw.isValid_iff_exists_append.mpr ⟨String.ofList before,
      lexeme.text ++ String.ofList after, by rw [hSource, String.append_assoc], ?_⟩
    rw [hOffset]
    rfl
  · refine String.Pos.Raw.isValid_iff_exists_append.mpr ⟨String.ofList before ++ lexeme.text,
      String.ofList after, hSource, ?_⟩
    rw [stop, hOffset, ← String.utf8ByteSize_append]
    rfl

/-- A lexeme that stands in a source is what is **cut out** of the source between its two ends. -/
theorem StandsBetween.extract_eq {lexeme : Lexeme} {source : String} {before after : List Char}
    (h : lexeme.StandsBetween 0 source.toList before after) :
    String.Pos.Raw.extract source ⟨lexeme.offset⟩ ⟨lexeme.stop⟩ = lexeme.text := by
  obtain ⟨hText, hOffset⟩ := h
  have hSource : source = String.ofList (before ++ lexeme.text.toList ++ after) := by
    rw [← String.toList_inj, hText, String.toList_ofList]
  have hBefore : lexeme.offset = String.utf8Len before := by
    rw [hOffset, Nat.zero_add, String.utf8ByteSize_ofList]
  have hSize : lexeme.text.utf8ByteSize = String.utf8Len lexeme.text.toList := by
    rw [← String.utf8ByteSize_ofList, String.ofList_toList]
  rw [stop, hBefore, hSize, hSource, String.extract_of_valid, String.ofList_toList]

/-- Whether a lexeme **covers** the bytes from `first` up to `last`. -/
def Covers (lexeme : Lexeme) (first last : Nat) : Prop :=
  lexeme.offset ≤ first ∧ last ≤ lexeme.stop

end Lexeme

/-- A character of a text in two parts stands in the first part or behind it. -/
theorem Text.behind_or_inside_of_append_eq {front rest before after : List Char} {c : Char}
    (h : front ++ rest = before ++ c :: after) :
    (∃ behind, before = front ++ behind ∧ rest = behind ++ c :: after) ∨
      ∃ inside, front = before ++ c :: inside := by
  rcases List.append_eq_append_iff.mp h with hBehind | ⟨_ | ⟨d, inside⟩, hFront, hAfter⟩
  · exact .inl hBehind
  · exact .inl ⟨[], by simpa using hFront.symm, by simpa using hAfter.symm⟩
  · obtain ⟨rfl, -⟩ := List.cons.inj hAfter
    exact .inr ⟨inside, hFront⟩

namespace Token

/-! ### Pieces -/

/-- A text from byte `offset` on is **tiled** by tokens, piece by piece. -/
inductive Tiles : Nat → List Char → List Token → Prop
  | done (offset : Nat) : Tiles offset [] [.endOfInput ⟨"", offset⟩]
  | blank {offset : Nat} {c : Char} {rest : List Char} {tokens : List Token}
      (hBlank : Glyph.isBlank c = true) (h : Tiles (offset + c.utf8Size) rest tokens) :
      Tiles offset (c :: rest) tokens
  | mark {offset : Nat} {c : Char} {rest : List Char} {mark : Token} {tokens : List Token}
      (hMark : mark.IsMark) (hLexeme : mark.lexeme = ⟨c.toString, offset⟩)
      (h : Tiles (offset + c.utf8Size) rest tokens) : Tiles offset (c :: rest) (mark :: tokens)
  | name {offset : Nat} {literal name : String} {rest : List Char} {tokens : List Token}
      (hName : IsName name) (hEnds : EndsName rest)
      (h : Tiles (offset + name.utf8ByteSize) rest tokens) :
      Tiles offset (name.toList ++ rest) (.component literal ⟨name, offset⟩ :: tokens)

/-- A text that begins with a letter begins with a name and something that ends the name. -/
theorem exists_name_append {c : Char} (hC : Unicode.isAlphabetic c = true) (rest : List Char) :
    ∃ name behind, IsName name ∧ EndsName behind ∧ c :: rest = name.toList ++ behind ∧
      behind.length ≤ rest.length := by
  refine ⟨String.ofList (c :: rest.takeWhile Unicode.isAlphabetic),
    rest.dropWhile Unicode.isAlphabetic, isName_ofList_cons hC, ?_, ?_,
    (List.dropWhile_suffix _).length_le⟩
  · intro d hD
    have hFirst := List.head?_dropWhile_not Unicode.isAlphabetic rest
    rw [Option.mem_def.mp hD] at hFirst
    exact hFirst
  · rw [String.toList_ofList, List.cons_append, List.takeWhile_append_dropWhile]

/-- **The tokens of a text** without foreign characters tile it. -/
theorem tiles_ofText (text : List Char) (hClean : ∀ c ∈ text, ¬ Glyph.IsForeign c)
    (earlier : List String) (offset : Nat) :
    Tiles offset text (ofText earlier false offset text) := by
  match text with
  | [] => exact .done offset
  | c :: rest =>
      obtain ⟨hC, hRest⟩ := List.forall_mem_cons.mp hClean
      rcases hGlyph : Glyph.ofChar? c with - | glyph
      · exact absurd (Glyph.ofChar?_eq_none_iff.mp hGlyph) hC
      cases glyph with
      | leftParen =>
          obtain rfl := Glyph.ofChar?_eq_leftParen_iff.mp hGlyph
          rw [ofText_leftParen]
          exact .mark rfl rfl (tiles_ofText rest hRest earlier _)
      | rightParen =>
          obtain rfl := Glyph.ofChar?_eq_rightParen_iff.mp hGlyph
          rw [ofText_rightParen]
          exact .mark rfl rfl (tiles_ofText rest hRest earlier _)
      | operator connection =>
          obtain rfl := Glyph.ofChar?_eq_operator_iff.mp hGlyph
          rw [ofText_symbol]
          exact .mark rfl rfl (tiles_ofText rest hRest earlier _)
      | blank =>
          rw [ofText, hGlyph]
          exact .blank (Glyph.ofChar?_eq_blank_iff.mp hGlyph) (tiles_ofText rest hRest earlier _)
      | letter =>
          obtain ⟨name, behind, hName, hEnds, hText, hLength⟩ :=
            exists_name_append (Glyph.ofChar?_eq_letter_iff.mp hGlyph) rest
          have hBehind : ∀ d ∈ behind, ¬ Glyph.IsForeign d := by
            intro d hD
            exact hClean d (hText ▸ List.mem_append_right _ hD)
          rw [hText, ofText_name_append hName hEnds]
          exact .name hName hEnds (tiles_ofText behind hBehind (name :: earlier) _)
termination_by text.length
decreasing_by
  all_goals simp only [List.length_cons]
  all_goals omega

/-! ### Where the tokens stand -/

/-- Behind a piece a name may start if it may start behind what follows the piece, or, where nothing
follows it, behind the piece itself. -/
theorem StartsName.behind {piece before : List Char} (hBefore : StartsName before)
    (hPiece : before = [] → StartsName piece) : StartsName (piece ++ before) := by
  rcases List.eq_nil_or_concat before with hNil | ⟨front, last, rfl⟩
  · rw [hNil, List.append_nil]
    exact hPiece hNil
  · intro c hC
    apply hBefore c
    rw [List.getLast?_append_of_ne_nil _ (by simp)] at hC
    exact hC

/-- A name may start behind a character that is no letter. -/
theorem startsName_singleton {c : Char} (h : Unicode.isAlphabetic c = false) : StartsName [c] := by
  intro d hD
  obtain rfl : c = d := by simpa using hD
  exact h

/-- The sign of a mark is no letter. -/
theorem IsMark.isAlphabetic_eq_false {mark : Token} {c : Char} (h : mark.IsMark)
    (hText : mark.lexeme.text = c.toString) : Unicode.isAlphabetic c = false := by
  have hSign : ∀ d : Char, mark.lexeme.text = d.toString → c = d := by
    intro d hD
    exact String.singleton_inj.mp (hText.symm.trans hD)
  cases mark with
  | operator op =>
      obtain rfl := hSign _ h
      cases op.connection <;> decide
  | leftParen lexeme =>
      obtain rfl := hSign '(' h
      decide
  | rightParen lexeme =>
      obtain rfl := hSign ')' h
      decide
  | component | endOfInput => exact h.elim

/-- Whether a token **stands in** a text that starts at byte `offset`: its lexeme is a piece of the
text, and if the token is a component the piece is a name with no letter on either side. -/
def StandsIn (token : Token) (offset : Nat) (text : List Char) : Prop :=
  ∃ before after, token.lexeme.StandsBetween offset text before after ∧
    ∀ name ∈ token.name?, IsName name ∧ StartsName before ∧ EndsName after

/-- The name of a token is its lexeme. -/
theorem eq_text_of_mem_name? {token : Token} {name : String} (h : name ∈ token.name?) :
    token.lexeme.text = name := by
  cases token with
  | component literal lexeme => exact Option.some.inj h
  | operator | leftParen | rightParen | endOfInput => cases h

/-- A name does not end a name. -/
theorem not_endsName_name_append {name : String} (hName : IsName name) (after : List Char) :
    ¬ EndsName (name.toList ++ after) := by
  intro hEnds
  obtain ⟨hNonempty, hLetters⟩ := hName
  rcases hList : name.toList with - | ⟨c, letters⟩
  · exact hNonempty (String.toList_eq_nil_iff.mp hList)
  · rw [hList] at hEnds hLetters
    exact absurd (hLetters c List.mem_cons_self) (by simp [hEnds c rfl])

/-- A token stands in a text also when a piece is put in front of the text, unless letters of the
piece meet letters of the text. -/
theorem StandsIn.behind (piece : List Char) {token : Token} {offset : Nat} {text : List Char}
    (h : token.StandsIn (offset + (String.ofList piece).utf8ByteSize) text)
    (hPiece : StartsName piece ∨ EndsName text) : token.StandsIn offset (piece ++ text) := by
  obtain ⟨before, after, hStands, hName⟩ := h
  refine ⟨piece ++ before, after, hStands.behind piece, fun name hMem => ?_⟩
  obtain ⟨hIsName, hBefore, hAfter⟩ := hName name hMem
  refine ⟨hIsName, hBefore.behind fun hNil => ?_, hAfter⟩
  rcases hPiece with hStarts | hEnds
  · exact hStarts
  -- Without a text before it the name stands where the text ends a name.
  · exfalso
    obtain ⟨hText, -⟩ := hStands
    rw [hNil, List.nil_append, eq_text_of_mem_name? hMem] at hText
    exact not_endsName_name_append hIsName after (hText ▸ hEnds)

/-- **Every token stands** in the text that it tiles. -/
theorem standsIn_of_mem_tiles {offset : Nat} {text : List Char} {tokens : List Token}
    (h : Tiles offset text tokens) {token : Token} (hMem : token ∈ tokens) :
    token.StandsIn offset text := by
  induction h with
  | done offset =>
      obtain rfl := List.mem_singleton.mp hMem
      exact ⟨[], [], ⟨rfl, rfl⟩, by simp [name?]⟩
  | @blank offset c rest tokens hBlank _ ih =>
      refine StandsIn.behind [c] ?_ (.inl (startsName_singleton ?_))
      · rw [← String.singleton_eq_ofList, String.utf8ByteSize_singleton]
        exact ih hMem
      · exact Glyph.isAlphabetic_eq_false_of_isBlank hBlank
  | @mark offset c rest mark tokens hMark hLexeme _ ih =>
      rcases List.mem_cons.mp hMem with rfl | hRest
      · refine ⟨[], rest, ⟨by simp [hLexeme], by simp [hLexeme]⟩, ?_⟩
        rw [hMark.name?_eq_none]
        simp
      · refine StandsIn.behind [c] ?_ (.inl (startsName_singleton ?_))
        · rw [← String.singleton_eq_ofList, String.utf8ByteSize_singleton]
          exact ih hRest
        · exact hMark.isAlphabetic_eq_false (congrArg Lexeme.text hLexeme)
  | @name offset literal name rest tokens hName hEnds _ ih =>
      rcases List.mem_cons.mp hMem with rfl | hRest
      · refine ⟨[], rest, ⟨rfl, rfl⟩, fun other hOther => ?_⟩
        obtain rfl : name = other := Option.some.inj hOther
        exact ⟨hName, by simp [StartsName], hEnds⟩
      · refine StandsIn.behind name.toList ?_ (.inr hEnds)
        rw [String.ofList_toList]
        exact ih hRest

/-- No token stands before the text. -/
theorem StandsIn.offset_le {token : Token} {offset : Nat} {text : List Char}
    (h : token.StandsIn offset text) : offset ≤ token.lexeme.offset := by
  obtain ⟨before, after, ⟨-, hOffset⟩, -⟩ := h
  rw [hOffset]
  exact Nat.le_add_right _ _

/-- **Tokens do not overlap.** -/
theorem pairwise_stop_le_of_tiles {offset : Nat} {text : List Char} {tokens : List Token}
    (h : Tiles offset text tokens) :
    tokens.Pairwise fun first second => first.lexeme.stop ≤ second.lexeme.offset := by
  induction h with
  | done => exact List.pairwise_singleton _ _
  | blank _ _ ih => exact ih
  | @mark offset c rest mark tokens _ hLexeme h ih =>
      refine List.pairwise_cons.mpr ⟨fun later hMem => ?_, ih⟩
      have hStop : mark.lexeme.stop = offset + c.utf8Size := by
        rw [hLexeme]
        exact congrArg (offset + ·) (String.utf8ByteSize_singleton)
      rw [hStop]
      exact (standsIn_of_mem_tiles h hMem).offset_le
  | name _ _ h ih =>
      exact List.pairwise_cons.mpr ⟨fun later hMem => (standsIn_of_mem_tiles h hMem).offset_le, ih⟩

/-- **Nothing but blanks** lies outside the tokens. -/
theorem isBlank_or_covers_of_tiles {offset : Nat} {text : List Char} {tokens : List Token}
    (h : Tiles offset text tokens) {before : List Char} {c : Char} {after : List Char}
    (hText : text = before ++ c :: after) :
    Glyph.isBlank c = true ∨ ∃ token ∈ tokens,
      token.lexeme.Covers (offset + (String.ofList before).utf8ByteSize)
        (offset + (String.ofList before).utf8ByteSize + c.utf8Size) := by
  induction h generalizing before with
  | done => simp at hText
  | blank hBlank _ ih =>
      rcases before with - | ⟨d, before⟩
      · obtain ⟨rfl, -⟩ := List.cons.inj hText
        exact .inl hBlank
      · obtain ⟨rfl, hRest⟩ := List.cons.inj hText
        rw [Text.utf8ByteSize_cons, ← Nat.add_assoc]
        exact ih hRest
  | mark hMark hLexeme _ ih =>
      rcases before with - | ⟨d, before⟩
      · obtain ⟨rfl, -⟩ := List.cons.inj hText
        refine .inr ⟨_, List.mem_cons_self, ?_⟩
        rw [hLexeme]
        exact ⟨Nat.le_refl _, by simp [Lexeme.stop]⟩
      · obtain ⟨rfl, hRest⟩ := List.cons.inj hText
        rw [Text.utf8ByteSize_cons, ← Nat.add_assoc]
        exact (ih hRest).imp_right fun ⟨token, hMem, hCovers⟩ =>
          ⟨token, List.mem_cons_of_mem _ hMem, hCovers⟩
  | @name offset literal name rest tokens hName _ _ ih =>
      rcases Text.behind_or_inside_of_append_eq hText with
        ⟨behind, rfl, hRest⟩ | ⟨letters, hLetters⟩
      · rw [Text.utf8ByteSize_append, String.ofList_toList, ← Nat.add_assoc]
        exact (ih hRest).imp_right fun ⟨token, hMem, hCovers⟩ =>
          ⟨token, List.mem_cons_of_mem _ hMem, hCovers⟩
      · refine .inr ⟨_, List.mem_cons_self, Nat.le_add_right _ _, ?_⟩
        have hSize : name.utf8ByteSize =
            (String.ofList before).utf8ByteSize + (String.ofList (c :: letters)).utf8ByteSize := by
          rw [← Text.utf8ByteSize_append, ← hLetters, String.ofList_toList]
        rw [Text.utf8ByteSize_cons] at hSize
        simp only [lexeme, Lexeme.stop]
        omega

/-! ### Tokens of a source -/

/-- Whether tokens are a **tiling** of a source. -/
structure IsTiling (source : String) (tokens : List Token) : Prop where
  /-- The end mark stands last, behind the source, and nowhere else. -/
  ends : ∃ front, tokens = front ++ [.endOfInput ⟨"", source.utf8ByteSize⟩] ∧
    ∀ token ∈ front, token.isEnd = false
  /-- Components are written as names, and everything else with its own sign. -/
  written : ∀ token ∈ tokens, token.IsWritten
  /-- Tokens start one behind the other, and none before the end of another. -/
  ordered : tokens.Pairwise fun first second =>
    first.lexeme.offset < second.lexeme.offset ∧ first.lexeme.stop ≤ second.lexeme.offset
  /-- Lexemes are pieces of the source, and names have no letter on either side. -/
  standing : ∀ token ∈ tokens, token.StandsIn 0 source.toList
  /-- Lexemes are cut out of the source at boundaries of characters. -/
  cut : ∀ token ∈ tokens, String.Pos.Raw.IsValid source ⟨token.lexeme.offset⟩ ∧
    String.Pos.Raw.IsValid source ⟨token.lexeme.stop⟩ ∧
    String.Pos.Raw.extract source ⟨token.lexeme.offset⟩ ⟨token.lexeme.stop⟩ = token.lexeme.text
  /-- The bytes of every character that is no blank belong to one token. -/
  covering : ∀ before c after, source.toList = before ++ c :: after →
    Glyph.isBlank c = true ∨ ∃ token ∈ tokens,
      token.lexeme.Covers (String.ofList before).utf8ByteSize
        ((String.ofList before).utf8ByteSize + c.utf8Size)

/-- **A source without foreign characters scans, and its tokens are a tiling of it.** -/
theorem scan_tiles (source : String) (hClean : ∀ c ∈ source.toList, ¬ Glyph.IsForeign c) :
    ∃ tokens, scan source = .ok tokens ∧ IsTiling source tokens := by
  have hTiles : Tiles 0 source.toList (ofText [] false 0 source.toList) :=
    tiles_ofText source.toList hClean [] 0
  refine ⟨ofText [] false 0 source.toList, ?_, ?_⟩
  · rw [scan, firstForeign?_eq_none hClean]
  · constructor
    case ends =>
      simpa using exists_ofText_eq_append [] false 0 source.toList
    case written => exact isWritten_of_mem_ofText
    case ordered =>
      exact (pairwise_offset_ofText [] false 0 source.toList).and
        (pairwise_stop_le_of_tiles hTiles)
    case standing => exact fun token hMem => standsIn_of_mem_tiles hTiles hMem
    case cut =>
      intro token hMem
      obtain ⟨before, after, hBetween, -⟩ := standsIn_of_mem_tiles hTiles hMem
      exact ⟨hBetween.isValid.1, hBetween.isValid.2, hBetween.extract_eq⟩
    case covering =>
      intro before c after hText
      simpa using isBlank_or_covers_of_tiles hTiles hText

/-- In `é |R` the second name starts behind four bytes. -/
theorem scan_tiles_letter_of_two_bytes :
    (∀ c ∈ "é |R".toList, ¬ Glyph.IsForeign c) ∧
      scan "é |R" = .ok [.component "é1" ⟨"é", 0⟩, .operator ⟨.parallel, ⟨"|", 3⟩⟩,
        .component "R1" ⟨"R", 4⟩, .endOfInput ⟨"", 5⟩] ∧
      IsTiling "é |R" [.component "é1" ⟨"é", 0⟩, .operator ⟨.parallel, ⟨"|", 3⟩⟩,
        .component "R1" ⟨"R", 4⟩, .endOfInput ⟨"", 5⟩] := by
  have hAll : ("é |R".toList.all fun c => !decide (Glyph.IsForeign c)) = true := by decide
  have hClean : ∀ c ∈ "é |R".toList, ¬ Glyph.IsForeign c := by simpa using hAll
  have hScan : scan "é |R" = .ok [.component "é1" ⟨"é", 0⟩, .operator ⟨.parallel, ⟨"|", 3⟩⟩,
      .component "R1" ⟨"R", 4⟩, .endOfInput ⟨"", 5⟩] := by rfl
  obtain ⟨tokens, hTokens, hTiling⟩ := scan_tiles "é |R" hClean
  obtain rfl := Except.ok.inj (hTokens.symm.trans hScan)
  exact ⟨hClean, hScan, hTiling⟩

end Token

end EquivalentCircuit
