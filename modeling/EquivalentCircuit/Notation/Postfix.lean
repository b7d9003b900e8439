import EquivalentCircuit.Network.Element
import EquivalentCircuit.Notation.Precedence
import EquivalentCircuit.Notation.Scan

/-!
# Postfix Order

In postfix order an operator stands behind its two operands, and no parentheses are needed.
`Postfix.ofTokens` brings the tokens of a source into that order.

The conversion reads the tokens once. Operands leave at once; an operator waits until its right
operand is complete, which is the case when an operator follows that binds less tightly, when
the group of the operator is closed, or at the end. A group that is opened puts the waiting
operators of the group around it aside.

The order of the operands never changes, and the conversion does not ask whether operators and
operands alternate: that shows when the sequence is evaluated.
-/

namespace EquivalentCircuit

/-- An **operand** of a sequence in postfix order: a component occurrence and its kind, if its name
has one. -/
structure Operand where
  literal : String
  kind : Option ElementKind
  lexeme : Lexeme
  deriving DecidableEq

/-- The operand that a component token stands for. -/
def Operand.ofComponent (literal : String) (lexeme : Lexeme) : Operand :=
  ⟨literal, ElementKind.ofName? lexeme.text, lexeme⟩

/-- An **item** of a sequence in postfix order. -/
inductive Item where
  | operand (component : Operand)
  | operator (op : Operator)
  deriving DecidableEq

namespace Item

/-- The lexeme of an item. -/
def lexeme : Item → Lexeme
  | .operand component => component.lexeme
  | .operator op => op.lexeme

/-- The operand that an item is. -/
def operand? : Item → Option Operand
  | .operand component => some component
  | .operator _ => none

/-- The operator that an item is. -/
def operator? : Item → Option Operator
  | .operand _ => none
  | .operator op => some op

end Item

/-- A circuit in **postfix order**. -/
abbrev Postfix := List Item

namespace Postfix

/-- The operands, in order. -/
def operands (items : Postfix) : List Operand :=
  items.filterMap Item.operand?

/-- The operators, in order. -/
def operators (items : Postfix) : List Operator :=
  items.filterMap Item.operator?

/-- The literals of the operands, in order. -/
def literals (items : Postfix) : List String :=
  items.operands.map Operand.literal

/-- The **written form**: the texts of the items with a space between neighbours. -/
def text (items : Postfix) : String :=
  String.intercalate " " (items.map fun item => item.lexeme.text)

/-! ### Conversion -/

/-- The end of the conversion: the waiting operators complete, the last one first. A group that is
still open is a fault, and the innermost one is reported. -/
def finish (waiting : List Operator) (outer : List (Nat × List Operator)) :
    Except SyntaxError Postfix :=
  match outer with
  | [] => .ok (waiting.map .operator)
  | (offset, _) :: _ => .error (.unclosedOpen offset)

/-- The **conversion** of the tokens that remain. The waiting operators of the current group come
with the last one first; `outer` holds, innermost first, the groups around it, each as the
offset of the parenthesis that was opened inside and the operators that wait meanwhile. -/
def convert (precedence : Precedence) (waiting : List Operator)
    (outer : List (Nat × List Operator)) : List Token → Except SyntaxError Postfix
  | [] => finish waiting outer
  | .endOfInput _ :: _ => finish waiting outer
  | .component literal lexeme :: rest =>
    (convert precedence waiting outer rest).map
      (Item.operand (.ofComponent literal lexeme) :: ·)
  | .operator incoming :: rest =>
    let completed (op : Operator) : Bool :=
      precedence.completes op.connection incoming.connection
    (convert precedence (incoming :: waiting.dropWhile completed) outer rest).map
      ((waiting.takeWhile completed).map Item.operator ++ ·)
  | .leftParen lexeme :: rest => convert precedence [] ((lexeme.offset, waiting) :: outer) rest
  | .rightParen lexeme :: rest =>
    match outer with
    | [] => .error (.unmatchedClose lexeme.offset)
    | (_, suspended) :: outer =>
      (convert precedence suspended outer rest).map (waiting.map Item.operator ++ ·)

/-- The **postfix order** of a sequence of tokens, up to its end mark. -/
def ofTokens (precedence : Precedence) (tokens : List Token) : Except SyntaxError Postfix :=
  convert precedence [] [] tokens

/-- The **postfix order of a source**. -/
def parse (precedence : Precedence) (source : String) : Except SyntaxError Postfix :=
  (Token.scan source).bind (ofTokens precedence)

end Postfix

end EquivalentCircuit
