import EquivalentCircuit.Proofs.Places
import EquivalentCircuit.Proofs.Scanning

/-!
# Blanks

Blanks separate words and do nothing else. Wherever they are **inserted** in a source, other than
inside a name, the tokens stay the same, and the places behind the blanks move by the length of
what was inserted (`Text.makeRoom`).

Two scans are followed side by side through one equation for a character in front of a text
(`Token.ofText_cons`): a token starts at the character or not, and what comes of the text behind it
depends on the character through the names so far and through whether it is a letter. A name is
read ahead to its end, so it is the same in both scans only if it does not reach over the **seam**,
and this is what the condition on the seam is for.

## Main results

* `Token.ofText_insert_blanks` and `Token.firstForeign?_insert_blanks`: the two halves of the scan.
* `Postfix.parse_insert_blanks`: the result of a source, faults included.
* `Circuit.insert_blanks`: with it, the circuits of the two sources cannot be told apart.
-/

universe u

namespace EquivalentCircuit

/-! ### Room for what is inserted -/

namespace Text

/-- Where a place goes when `size` bytes are **inserted** at byte `seam`: places at the seam and
behind it move, and those before it stay. -/
def makeRoom (seam size place : Nat) : Nat :=
  if place < seam then place else place + size

theorem makeRoom_of_lt {seam size place : Nat} (h : place < seam) :
    makeRoom seam size place = place :=
  if_pos h

theorem makeRoom_of_le {seam size place : Nat} (h : seam ≤ place) :
    makeRoom seam size place = place + size :=
  if_neg (Nat.not_lt.mpr h)

/-- A word that does not reach over the seam is the same when blanks are inserted there. -/
theorem takeWhile_insert_blanks {front blanks back : List Char}
    (hBlanks : ∀ c ∈ blanks, Glyph.isBlank c = true)
    (hSeam : (∀ c ∈ front, Unicode.isAlphabetic c = true) → Token.EndsName back) :
    (front ++ (blanks ++ back)).takeWhile Unicode.isAlphabetic =
      (front ++ back).takeWhile Unicode.isAlphabetic := by
  induction front with
  | nil =>
      have hBack : Token.EndsName back := hSeam (by simp)
      have hBoth : Token.EndsName (blanks ++ back) := by
        rcases blanks with - | ⟨blank, blanks⟩
        · exact hBack
        · intro c hC
          obtain rfl : blank = c := Option.some.inj hC
          exact Glyph.isAlphabetic_eq_false_of_isBlank (hBlanks blank List.mem_cons_self)
      rw [List.nil_append, List.nil_append, takeWhile_eq_nil hBoth, takeWhile_eq_nil hBack]
  | cons c front ih =>
      rw [List.cons_append, List.cons_append, List.takeWhile_cons, List.takeWhile_cons]
      split
      · next hC =>
          rw [ih fun hFront => hSeam (List.forall_mem_cons.mpr ⟨hC, hFront⟩)]
      · rfl

end Text

namespace Token

/-! ### Places behind the seam -/

/-- A text that starts farther behind has the same tokens there. -/
theorem ofText_map_makeRoom {seam offset : Nat} (hLe : seam ≤ offset) (size : Nat)
    (earlier : List String) (inName : Bool) (text : List Char) :
    (ofText earlier inName offset text).map (moved (Text.makeRoom seam size)) =
      ofText earlier inName (offset + size) text := by
  have hPlaces : ∀ k, Text.makeRoom seam size (offset + k) = id (offset + size + k) := by
    intro k
    rw [Text.makeRoom_of_le (Nat.le_trans hLe (Nat.le_add_right _ _)), Nat.add_right_comm, id]
  rw [map_moved_ofText hPlaces, moved_id, List.map_id]

/-- Blanks in front of a text only take up room. -/
theorem ofText_blanks_append {blanks : List Char} (hBlanks : ∀ c ∈ blanks, Glyph.isBlank c = true)
    {inName : Bool} {back : List Char} (hBack : inName = true → EndsName back)
    (earlier : List String) (offset : Nat) :
    ofText earlier inName offset (blanks ++ back) =
      ofText earlier inName (offset + (String.ofList blanks).utf8ByteSize) back := by
  induction blanks generalizing inName offset with
  | nil => rfl
  | cons c blanks ih =>
      rw [List.forall_mem_cons] at hBlanks
      have hState : ∀ place,
          ofText earlier false place back = ofText earlier inName place back := by
        intro place
        cases inName with
        | false => rfl
        | true => exact (ofText_true_of_endsName (hBack rfl) _ _).symm
      have hRest : ofText earlier false (offset + c.utf8Size) (blanks ++ back) =
          ofText earlier false (offset + c.utf8Size + (String.ofList blanks).utf8ByteSize) back :=
        ih hBlanks.2 (fun hInside => absurd hInside Bool.false_ne_true) _
      rw [← hState, List.cons_append, ofText, Glyph.ofChar?_eq_blank_iff.mpr hBlanks.1,
        Text.utf8ByteSize_cons, ← Nat.add_assoc]
      exact hRest

/-! ### The seam -/

/-- Whether a **letter stands last** in a text, or before it if the text is empty. -/
def letterLast (inName : Bool) (text : List Char) : Bool :=
  text.foldl (fun _ c => Unicode.isAlphabetic c) inName

theorem letterLast_concat (inName : Bool) (front : List Char) (c : Char) :
    letterLast inName (front ++ [c]) = Unicode.isAlphabetic c := by
  rw [letterLast, List.foldl_append]
  rfl

/-- Behind letters a letter stands last. -/
theorem letterLast_of_forall {text : List Char} (hText : text ≠ [])
    (h : ∀ c ∈ text, Unicode.isAlphabetic c = true) (inName : Bool) :
    letterLast inName text = true := by
  obtain ⟨front, c, rfl⟩ := (List.eq_nil_or_concat text).resolve_left hText
  rw [List.concat_eq_append, letterLast_concat]
  exact h c (by simp)

/-- Where a name may start, no letter stands last. -/
theorem StartsName.letterLast_eq_false {text : List Char} (h : StartsName text) :
    letterLast false text = false := by
  rcases List.eq_nil_or_concat text with rfl | ⟨front, c, rfl⟩
  · rfl
  · rw [List.concat_eq_append, letterLast_concat]
    exact h c (by simp)

/-- **The tokens of a text in which blanks are inserted**: they make room, and that is all. -/
theorem ofText_insert_blanks {blanks : List Char}
    (hBlanks : ∀ c ∈ blanks, Glyph.isBlank c = true) {inName : Bool} {front back : List Char}
    (hSeam : letterLast inName front = true → EndsName back) (earlier : List String)
    (offset : Nat) :
    ofText earlier inName offset (front ++ (blanks ++ back)) =
      (ofText earlier inName offset (front ++ back)).map
        (moved (Text.makeRoom (offset + (String.ofList front).utf8ByteSize)
          (String.ofList blanks).utf8ByteSize)) := by
  induction front generalizing earlier inName offset with
  | nil =>
      have hBack : inName = true → EndsName back := hSeam
      rw [List.nil_append, List.nil_append, ofText_blanks_append hBlanks hBack]
      exact (ofText_map_makeRoom (Nat.le_refl offset) _ earlier inName back).symm
  | cons c front ih =>
      have hWord : (c :: front ++ (blanks ++ back)).takeWhile Unicode.isAlphabetic =
          (c :: front ++ back).takeWhile Unicode.isAlphabetic :=
        Text.takeWhile_insert_blanks hBlanks fun hLetters =>
          hSeam (letterLast_of_forall (List.cons_ne_nil _ _) hLetters inName)
      have hBefore : offset < offset + (String.ofList (c :: front)).utf8ByteSize := by
        have hPos := c.utf8Size_pos
        rw [Text.utf8ByteSize_cons]
        omega
      rw [List.cons_append] at hWord ⊢
      rw [List.cons_append] at hWord ⊢
      rw [ofText_cons, ofText_cons, hWord, ih hSeam, List.map_append, starting_map_moved,
        Text.makeRoom_of_lt hBefore, Text.utf8ByteSize_cons, Nat.add_assoc]

/-! ### Foreign characters -/

/-- A text that starts farther behind has the same first foreign character there. -/
theorem firstForeign?_map_makeRoom {seam offset : Nat} (hLe : seam ≤ offset) (size : Nat)
    (text : List Char) :
    (firstForeign? offset text).map (Prod.map id (Text.makeRoom seam size)) =
      firstForeign? (offset + size) text := by
  induction text generalizing offset with
  | nil => rfl
  | cons c rest ih =>
      rw [firstForeign?, firstForeign?]
      split
      · rw [Option.map_some, Prod.map_apply, Text.makeRoom_of_le hLe, id]
      · rw [ih (Nat.le_trans hLe (Nat.le_add_right _ _)), Nat.add_right_comm]

/-- No blank is foreign. -/
theorem firstForeign?_blanks_append {blanks : List Char}
    (hBlanks : ∀ c ∈ blanks, Glyph.isBlank c = true) (back : List Char) (offset : Nat) :
    firstForeign? offset (blanks ++ back) =
      firstForeign? (offset + (String.ofList blanks).utf8ByteSize) back := by
  induction blanks generalizing offset with
  | nil => rfl
  | cons c blanks ih =>
      rw [List.forall_mem_cons] at hBlanks
      rw [List.cons_append, firstForeign?, Glyph.ofChar?_eq_blank_iff.mpr hBlanks.1,
        Text.utf8ByteSize_cons, ← Nat.add_assoc]
      exact ih hBlanks.2 _

/-- **The first foreign character of a text in which blanks are inserted** is the same one. -/
theorem firstForeign?_insert_blanks {blanks : List Char}
    (hBlanks : ∀ c ∈ blanks, Glyph.isBlank c = true) (front back : List Char) (offset : Nat) :
    firstForeign? offset (front ++ (blanks ++ back)) =
      (firstForeign? offset (front ++ back)).map
        (Prod.map id (Text.makeRoom (offset + (String.ofList front).utf8ByteSize)
          (String.ofList blanks).utf8ByteSize)) := by
  induction front generalizing offset with
  | nil =>
      rw [List.nil_append, List.nil_append, firstForeign?_blanks_append hBlanks]
      exact (firstForeign?_map_makeRoom (Nat.le_refl offset) _ back).symm
  | cons c front ih =>
      rw [List.cons_append, List.cons_append, firstForeign?, firstForeign?]
      split
      · have hBefore : offset < offset + (String.ofList (c :: front)).utf8ByteSize := by
          have hPos := c.utf8Size_pos
          rw [Text.utf8ByteSize_cons]
          omega
        rw [Option.map_some, Prod.map_apply, Text.makeRoom_of_lt hBefore, id]
      · rw [ih, Text.utf8ByteSize_cons, Nat.add_assoc]

end Token

/-! ### Sources -/

/-- **Inserting blanks** in a source, other than between two letters, changes its result by moving
the places at the seam and behind it, and by nothing else: not whether it is accepted, not the
fault or its character, and not the items, their order, texts or literals. -/
theorem Postfix.parse_insert_blanks (precedence : Precedence) {front blanks back : String}
    (hBlanks : ∀ c ∈ blanks.toList, Glyph.isBlank c = true)
    (hSeam : Token.StartsName front.toList ∨ Token.EndsName back.toList) :
    parse precedence (front ++ blanks ++ back) =
      movedResult (Text.makeRoom front.utf8ByteSize blanks.utf8ByteSize)
        (parse precedence (front ++ back)) := by
  have hText : (front ++ blanks ++ back).toList =
      front.toList ++ (blanks.toList ++ back.toList) := by
    simp
  have hLetter : Token.letterLast false front.toList = true → Token.EndsName back.toList := by
    intro hLast
    refine hSeam.resolve_left fun hStarts => ?_
    rw [hStarts.letterLast_eq_false] at hLast
    exact Bool.false_ne_true hLast
  have hForeign := Token.firstForeign?_insert_blanks hBlanks front.toList back.toList 0
  have hTokens := Token.ofText_insert_blanks hBlanks hLetter [] 0
  rw [Nat.zero_add, String.ofList_toList, String.ofList_toList] at hForeign hTokens
  rw [parse, parse, Token.scan, Token.scan, hText, String.toList_append, hForeign, hTokens]
  rcases Token.firstForeign? 0 (front.toList ++ back.toList) with - | ⟨character, place⟩
  · exact ofTokens_map_moved _
  · rfl

namespace Circuit

variable {ζ α : Type u} [Immittance ζ α] [Zero α] [One α] [Add α] [Sub α] [Neg α] [Mul α]
  [Div α] [BEq α] [Elementary α] [LT α] [DecidableLT α]

/-- **Blanks between words mean nothing.** Blanks that are inserted in a source, other than between
two letters, move the places at the seam and behind it by their length in bytes, in the items and
in faults alike, and the result of the source is otherwise the same. So the circuits of the two
sources list the same components, and with the same values they evaluate to the same result, with
any exponents and at any frequency. -/
theorem insert_blanks (precedence : Precedence) {front blanks back : String}
    (hBlanks : ∀ c ∈ blanks.toList, Glyph.isBlank c = true)
    (hSeam : Token.StartsName front.toList ∨ Token.EndsName back.toList) :
    Postfix.parse precedence (front ++ blanks ++ back) =
      Postfix.movedResult (Text.makeRoom front.utf8ByteSize blanks.utf8ByteSize)
        (Postfix.parse precedence (front ++ back)) ∧
    ∀ items, Postfix.parse precedence (front ++ back) = .ok items →
      (∃ original spaced : Circuit α, ofSource precedence (front ++ back) = .ok original ∧
        ofSource precedence (front ++ blanks ++ back) = .ok spaced ∧
        spaced.components = original.components) ∧
      ∀ assignment : String → α,
        (∃ original : Circuit α, Reached precedence (front ++ back) original ∧
          original.Holds assignment) ∧
        (∃ spaced : Circuit α, Reached precedence (front ++ blanks ++ back) spaced ∧
          spaced.Holds assignment) ∧
        ∀ original spaced : Circuit α, Reached precedence (front ++ back) original →
          Reached precedence (front ++ blanks ++ back) spaced → original.Holds assignment →
          spaced.Holds assignment →
            spaced.components = original.components ∧
            ∀ (exponents : Exponents α) (frequency : α),
              spaced.evaluateWith (ζ := ζ) exponents frequency =
                original.evaluateWith exponents frequency := by
  have hSpaced := Postfix.parse_insert_blanks precedence hBlanks hSeam
  refine ⟨hSpaced, fun items hParse => ?_⟩
  rw [hParse] at hSpaced
  refine indistinguishable_of_map_unplaced hParse hSpaced ?_
  rw [List.map_map]
  exact List.map_congr_left fun item _ => Item.unplaced_moved _ item

/-- In `é|C`, a tab and a line feed behind the letter move the operator to byte four. -/
theorem insert_blanks_behind_letter :
    (∀ c ∈ "\t\n".toList, Glyph.isBlank c = true) ∧
      (Token.StartsName "é".toList ∨ Token.EndsName "|C".toList) ∧
      Postfix.parse .ranked "é|C" = .ok [.operand (.ofComponent "é1" ⟨"é", 0⟩),
        .operand (.ofComponent "C1" ⟨"C", 3⟩), .operator ⟨.parallel, ⟨"|", 2⟩⟩] ∧
      Postfix.parse .ranked "é\t\n|C" = .ok [.operand (.ofComponent "é1" ⟨"é", 0⟩),
        .operand (.ofComponent "C1" ⟨"C", 5⟩), .operator ⟨.parallel, ⟨"|", 4⟩⟩] ∧
      ∃ original spaced : Circuit Binary64, ofSource .ranked "é|C" = .ok original ∧
        ofSource .ranked "é\t\n|C" = .ok spaced ∧ spaced.components = original.components ∧
        spaced.evaluate (ζ := Complex Binary64) 1 = original.evaluate 1 := by
  have hBlanks : ∀ c ∈ "\t\n".toList, Glyph.isBlank c = true :=
    List.all_eq_true.mp (by decide)
  have hSeam : Token.StartsName "é".toList ∨ Token.EndsName "|C".toList := by
    refine .inr fun c hC => ?_
    obtain rfl : '|' = c := Option.some.inj hC
    decide
  have hParse : Postfix.parse .ranked ("é" ++ "|C") = .ok [.operand (.ofComponent "é1" ⟨"é", 0⟩),
      .operand (.ofComponent "C1" ⟨"C", 3⟩), .operator ⟨.parallel, ⟨"|", 2⟩⟩] := rfl
  obtain ⟨hSpaced, hCircuits⟩ :=
    insert_blanks (ζ := Complex Binary64) (α := Binary64) .ranked hBlanks hSeam
  rw [hParse] at hSpaced
  obtain ⟨⟨original, spaced, hOriginal, hOther, hComponents⟩, hSame⟩ := hCircuits _ hParse
  obtain ⟨-, -, hEvaluate⟩ := hSame fun _ => 1
  refine ⟨hBlanks, hSeam, hParse, hSpaced, original, spaced, hOriginal, hOther, hComponents, ?_⟩
  obtain ⟨items, -, rfl⟩ := ofSource_eq_ok_iff.mp hOriginal
  obtain ⟨again, -, rfl⟩ := ofSource_eq_ok_iff.mp hOther
  exact (hEvaluate _ _ (.built hOriginal) (.built hOther) (holds_ofPostfix _ _)
    (holds_ofPostfix _ _)).2 [] 1

end Circuit

end EquivalentCircuit
