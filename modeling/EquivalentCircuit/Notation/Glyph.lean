import EquivalentCircuit.Network.Connection
import EquivalentCircuit.Unicode.Alphabetic

/-!
# The Characters of the Notation

A source may hold parentheses, the signs of the two connections, blanks, and letters. Every
other character is foreign to the notation, digits included.
-/

namespace EquivalentCircuit

/-- What a **character** means in the notation. -/
inductive Glyph where
  | leftParen
  | rightParen
  | operator (connection : Connection)
  | blank
  | letter
  deriving DecidableEq

namespace Glyph

/-- Whether a character is a **blank**: a space, a tab, a line feed, a form feed or a carriage
return. No other character separates words, whatever Unicode says of it. -/
def isBlank (c : Char) : Bool :=
  c == ' ' || c == '\t' || c == '\n' || c == '\x0c' || c == '\r'

/-- The meaning of a character, if the notation has it. -/
def ofChar? (c : Char) : Option Glyph :=
  if c = '(' then some .leftParen
  else if c = ')' then some .rightParen
  else if c = Connection.series.symbol then some (.operator .series)
  else if c = Connection.parallel.symbol then some (.operator .parallel)
  else if isBlank c then some .blank
  else if Unicode.isAlphabetic c then some .letter
  else none

/-- The **letters** of the notation are the alphabetic characters: none of them is a parenthesis, a
sign or a blank. -/
theorem ofChar?_eq_letter_iff {c : Char} :
    ofChar? c = some .letter ↔ Unicode.isAlphabetic c = true := by
  by_cases hMark : c = '(' ∨ c = ')' ∨ c = '-' ∨ c = '|'
  · obtain rfl | rfl | rfl | rfl := hMark <;> decide
  · obtain ⟨h1, h2, h3, h4⟩ : c ≠ '(' ∧ c ≠ ')' ∧ c ≠ '-' ∧ c ≠ '|' := by
      simpa only [not_or] using hMark
    by_cases hBlank : isBlank c = true
    · have hNot : Unicode.isAlphabetic c = false := by
        simp only [isBlank, Bool.or_eq_true, beq_iff_eq] at hBlank
        obtain (((rfl | rfl) | rfl) | rfl) | rfl := hBlank <;> decide
      simp [ofChar?, Connection.symbol, h1, h2, h3, h4, hBlank, hNot]
    · simp [ofChar?, Connection.symbol, h1, h2, h3, h4, hBlank]

end Glyph

end EquivalentCircuit
