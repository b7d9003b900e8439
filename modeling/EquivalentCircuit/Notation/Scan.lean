import EquivalentCircuit.Notation.Glyph
import EquivalentCircuit.Notation.SyntaxError
import EquivalentCircuit.Notation.Token

/-!
# From Text to Tokens

`Token.scan` cuts a source into tokens. A source with a foreign character is refused, and the
first such character is reported. In any other source each parenthesis and each sign of a
connection is a token, each maximal run of letters is a component, and blanks only separate.

Components are numbered by name, from left to right and from one: the literal of the second
component called `R` is `R2`. The last token marks the end of the source.
-/

namespace EquivalentCircuit.Token

open Glyph

/-- The first **foreign character** of a text that starts at a given byte offset, with its own
offset. -/
def firstForeign? (offset : Nat) : List Char → Option (Char × Nat)
  | [] => none
  | c :: rest =>
    match Glyph.ofChar? c with
    | none => some (c, offset)
    | some _ => firstForeign? (offset + c.utf8Size) rest

/-- The **literal** of a component: its name with its number among the components of that name,
given the names before it. -/
def numbered (name : String) (earlier : List String) : String :=
  name ++ Nat.repr (earlier.count name + 1)

/-- The **tokens of a text** without foreign characters. The text starts at byte `offset`, the names
of the components before it are `earlier`, and `inName` says that a letter stands right before
it. A letter opens a component unless a letter stands right before it, and the name reaches as
far as the letters do. -/
def ofText (earlier : List String) (inName : Bool) (offset : Nat) : List Char → List Token
  | [] => [.endOfInput ⟨"", offset⟩]
  | c :: rest =>
    let next := offset + c.utf8Size
    match Glyph.ofChar? c with
    | some .leftParen => .leftParen ⟨c.toString, offset⟩ :: ofText earlier false next rest
    | some .rightParen => .rightParen ⟨c.toString, offset⟩ :: ofText earlier false next rest
    | some (.operator connection) =>
      .operator ⟨connection, ⟨c.toString, offset⟩⟩ :: ofText earlier false next rest
    | some .letter =>
      if inName then ofText earlier true next rest
      else
        let name := String.ofList (c :: rest.takeWhile Unicode.isAlphabetic)
        .component (numbered name earlier) ⟨name, offset⟩ ::
          ofText (name :: earlier) true next rest
    | some .blank | none => ofText earlier false next rest

/-- **Scanning** a source. -/
def scan (source : String) : Except SyntaxError (List Token) :=
  match firstForeign? 0 source.toList with
  | some (character, offset) => .error (.unknownCharacter character offset)
  | none => .ok (ofText [] false 0 source.toList)

end EquivalentCircuit.Token
