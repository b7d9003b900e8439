import EquivalentCircuit.Notation.Postfix

/-!
# Expression Trees

An **expression** is a circuit as a tree: components at the leaves and operators at the nodes.
Listing each operator behind its two operands gives the postfix order of the tree, and a tree
is read back from postfix order with a stack.

## Main results

* `ofPostfix?_postorder`: reading back the postfix order of a tree gives the tree.
* `postorder_of_ofPostfix?`: a sequence that can be read back is the postfix order of its tree.
-/

universe u

namespace EquivalentCircuit

/-- An **expression tree**. -/
inductive Expr where
  | leaf (component : Operand)
  | node (op : Operator) (left right : Expr)
  deriving DecidableEq

namespace Expr

/-- The **postfix order** of a tree. -/
def postorder : Expr → Postfix
  | .leaf component => [.operand component]
  | .node op left right => left.postorder ++ right.postorder ++ [.operator op]

/-- The **text of a tree**, with parentheses around every operator and its operands. -/
def text : Expr → String
  | .leaf component => component.lexeme.text
  | .node op left right =>
    "(" ++ left.text ++ " " ++ op.connection.symbol.toString ++ " " ++ right.text ++ ")"

/-- The **value of a tree** when the leaves have impedances: that of the connected network. -/
def value {ζ α : Type u} [Immittance ζ α] [Zero α] (leafValue : Operand → ζ) : Expr → ζ
  | .leaf component => leafValue component
  | .node op left right => op.connection.combine (left.value leafValue) (right.value leafValue)

/-! ### Reading a tree back -/

/-- Reading items onto a stack of trees, the last one first. -/
def readBack : List Expr → Postfix → Option Expr
  | [tree], [] => some tree
  | _, [] => none
  | stack, .operand component :: rest => readBack (.leaf component :: stack) rest
  | right :: left :: stack, .operator op :: rest => readBack (.node op left right :: stack) rest
  | _, .operator _ :: _ => none

/-- The tree of a sequence in postfix order, if the sequence is that of one tree. -/
def ofPostfix? (items : Postfix) : Option Expr :=
  readBack [] items

/-- Reading the items of a tree puts the tree on the stack. -/
theorem readBack_postorder_append (tree : Expr) :
    ∀ (stack : List Expr) (rest : Postfix),
      readBack stack (tree.postorder ++ rest) = readBack (tree :: stack) rest := by
  induction tree with
  | leaf component =>
      intro stack rest
      rw [postorder, List.singleton_append, readBack]
  | node op left right ihl ihr =>
      intro stack rest
      rw [postorder, List.append_assoc, List.append_assoc, ihl, ihr, List.singleton_append,
        readBack]

/-- **Reading back** the postfix order of a tree gives the tree. -/
theorem ofPostfix?_postorder (tree : Expr) : ofPostfix? tree.postorder = some tree := by
  have h := readBack_postorder_append tree [] []
  rw [List.append_nil] at h
  rw [ofPostfix?, h, readBack]

/-- What is read back consists of the trees on the stack and the items that follow. -/
theorem postorder_of_readBack {stack : List Expr} {items : Postfix} {tree : Expr}
    (h : readBack stack items = some tree) :
    tree.postorder = stack.reverse.flatMap postorder ++ items := by
  fun_induction readBack stack items with
  | case1 found =>
      obtain rfl := Option.some.inj h
      simp
  | case2 => exact absurd h (by simp)
  | case3 stack component rest ih => simp [ih h, postorder]
  | case4 right left stack op rest ih => simp [ih h, postorder]
  | case5 => exact absurd h (by simp)

/-- A sequence that can be **read back** is the postfix order of its tree. -/
theorem postorder_of_ofPostfix? {items : Postfix} {tree : Expr}
    (h : ofPostfix? items = some tree) : tree.postorder = items := by
  simpa using postorder_of_readBack h

end Expr

end EquivalentCircuit
