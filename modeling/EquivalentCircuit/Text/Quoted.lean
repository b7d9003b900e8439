import EquivalentCircuit.Unicode.GraphemeExtend
import EquivalentCircuit.Unicode.Invisible

/-!
# Quoted Characters

A message that reports a single character shows it between single quotes, in a form that can
be read whatever the character is. A few characters have an escape of two characters, a
character that could not be seen, or that would merge with the opening quote, is shown by its
code point in hexadecimal, and every other character stands for itself.
-/

namespace EquivalentCircuit.Text

open EquivalentCircuit.Unicode

/-- The **code point escape**: the number in lower-case hexadecimal without padding, in
braces. -/
def codePointEscape (c : Char) : List Char :=
  '\\' :: 'u' :: '\x7b' :: (Nat.toDigits 16 c.toNat ++ ['\x7d'])

/-- The form of a character between single quotes. -/
def escape (c : Char) : List Char :=
  if c = '\x00' then ['\\', '0']
  else if c = '\t' then ['\\', 't']
  else if c = '\r' then ['\\', 'r']
  else if c = '\n' then ['\\', 'n']
  else if c = '\x27' then ['\\', '\x27']
  else if c = '\\' then ['\\', '\\']
  else if isGraphemeExtend c || isInvisible c then codePointEscape c
  else [c]

/-- A character in single quotes. A double quote needs no escape there. -/
def quoted (c : Char) : String :=
  String.ofList ('\x27' :: (escape c ++ ['\x27']))

end EquivalentCircuit.Text
