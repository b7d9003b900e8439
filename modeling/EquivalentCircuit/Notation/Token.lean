import EquivalentCircuit.Network.Connection

/-!
# Tokens

The words of the notation. A component is written as a name, and a name may occur many times in
a circuit, so each occurrence has a **literal** of its own, the name with the number of the
occurrence. All tokens carry the text they were written as and the place where it starts.
-/

namespace EquivalentCircuit

/-- A **lexeme**: a piece of text and the byte offset where it starts. -/
structure Lexeme where
  text : String
  offset : Nat
  deriving DecidableEq

/-- An **operator** at its place in the text. -/
structure Operator where
  connection : Connection
  lexeme : Lexeme
  deriving DecidableEq

/-- A **token** of the notation. -/
inductive Token where
  | component (literal : String) (lexeme : Lexeme)
  | operator (op : Operator)
  | leftParen (lexeme : Lexeme)
  | rightParen (lexeme : Lexeme)
  | endOfInput (lexeme : Lexeme)
  deriving DecidableEq

namespace Token

/-- The lexeme of a token. -/
def lexeme : Token → Lexeme
  | .component _ lexeme => lexeme
  | .operator op => op.lexeme
  | .leftParen lexeme => lexeme
  | .rightParen lexeme => lexeme
  | .endOfInput lexeme => lexeme

/-- The literal of a component. -/
def literal? : Token → Option String
  | .component literal _ => some literal
  | .operator _ | .leftParen _ | .rightParen _ | .endOfInput _ => none

end Token

end EquivalentCircuit
