import EquivalentCircuit.Notation.Expr

/-!
# The Grammar of the Notation

A **chain** is a sequence of terms with an operator between neighbours, and a **term** is a
component or a chain in parentheses. The tokens of a chain are what a well-formed source
consists of, and the chain is read as a tree according to the precedence of its operators.

* With uniform precedence each operator joins the term before it to all the rest of its chain.
* With ranked precedence a chain is first cut at its series operators. Each segment between two
  cuts is joined by its parallel operators to the right, and then the segments are joined to
  the right by the operators at the cuts.
-/

namespace EquivalentCircuit

mutual

/-- A **term**: a component, or a chain in parentheses. -/
inductive Term where
  | component (literal : String) (lexeme : Lexeme)
  | group (leftParen : Lexeme) (chain : Chain) (rightParen : Lexeme)

/-- A **chain** of terms. -/
inductive Chain where
  | last (term : Term)
  | link (term : Term) (op : Operator) (rest : Chain)

end

mutual

/-- The tokens of a term. -/
def Term.tokens : Term → List Token
  | .component literal lexeme => [.component literal lexeme]
  | .group leftParen chain rightParen =>
    .leftParen leftParen :: (chain.tokens ++ [.rightParen rightParen])

/-- The **tokens of a chain**. -/
def Chain.tokens : Chain → List Token
  | .last term => term.tokens
  | .link term op rest => term.tokens ++ .operator op :: rest.tokens

end

/-- A first segment of a chain, joined to what follows it, if anything does. -/
def Expr.join (segment : Expr) : Option (Operator × Expr) → Expr
  | none => segment
  | some (op, rest) => .node op segment rest

/-- Whether a chain is **cut** at an operator. -/
def Precedence.cutsAt (precedence : Precedence) (connection : Connection) : Bool :=
  match precedence, connection with
  | .ranked, .series => true
  | .ranked, .parallel => false
  | .uniform, _ => false

mutual

/-- The tree of a term. -/
def Term.tree (precedence : Precedence) : Term → Expr
  | .component literal lexeme => .leaf (.ofComponent literal lexeme)
  | .group _ chain _ =>
    let parts := chain.parts precedence
    Expr.join parts.1 parts.2

/-- The tree of the **first segment** of a chain, and the operator and tree that follow. -/
def Chain.parts (precedence : Precedence) : Chain → Expr × Option (Operator × Expr)
  | .last term => (term.tree precedence, none)
  | .link term op rest =>
    let parts := rest.parts precedence
    if precedence.cutsAt op.connection then
      (term.tree precedence, some (op, Expr.join parts.1 parts.2))
    else (.node op (term.tree precedence) parts.1, parts.2)

end

/-- The **tree of a chain**. -/
def Chain.tree (precedence : Precedence) (chain : Chain) : Expr :=
  Expr.join (chain.parts precedence).1 (chain.parts precedence).2

/-- A source **spells** a chain when its tokens are those of the chain and the end mark. -/
def Chain.SpelledBy (chain : Chain) (source : String) : Prop :=
  ∃ finalLexeme, Token.scan source = .ok (chain.tokens ++ [.endOfInput finalLexeme])

/-- A source is **grammatical** when it spells some chain. -/
def Grammatical (source : String) : Prop :=
  ∃ chain : Chain, chain.SpelledBy source

end EquivalentCircuit
