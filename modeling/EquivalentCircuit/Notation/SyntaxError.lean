import EquivalentCircuit.Text.Quoted

/-!
# Errors in a Source

The ways in which the text of a circuit can be malformed: a character that the notation does
not have, a closing parenthesis without an opening one, and an opening parenthesis without a
closing one. Each names the place of the fault as a byte offset in the UTF-8 form of the text.
-/

namespace EquivalentCircuit

/-- A **fault in the text** of a circuit, with its byte offset. -/
inductive SyntaxError where
  | unknownCharacter (character : Char) (offset : Nat)
  | unmatchedClose (offset : Nat)
  | unclosedOpen (offset : Nat)
  deriving DecidableEq

namespace SyntaxError

/-- The byte offset of the fault. -/
def offset : SyntaxError → Nat
  | .unknownCharacter _ offset => offset
  | .unmatchedClose offset => offset
  | .unclosedOpen offset => offset

/-- Whether the fault is in the balance of the parentheses. -/
def isParenthesis : SyntaxError → Bool
  | .unknownCharacter _ _ => false
  | .unmatchedClose _ => true
  | .unclosedOpen _ => true

/-- The text that reports the fault. -/
def message : SyntaxError → String
  | .unknownCharacter character offset =>
    "unknown token " ++ Text.quoted character ++ " at offset " ++ toString offset
  | .unmatchedClose offset =>
    "parenthesis mismatch: ')' at offset " ++ toString offset ++ " has no matching '('"
  | .unclosedOpen offset =>
    "mismatched parenthesis: '(' at offset " ++ toString offset ++ " is never closed"

end SyntaxError

end EquivalentCircuit
