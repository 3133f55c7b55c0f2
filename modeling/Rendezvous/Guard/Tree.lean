import Rendezvous.Guard.Token
import Rendezvous.Guard.Expr

/-!
# Syntax trees of guards

A syntax tree keeps every token of the text it was read from, whitespace and errors included.
`Tree.lower?` drops what carries no meaning and gives the expression, when no operand is missing.
-/

namespace Rendezvous.Guard

/-- A syntax tree: tokens at the leaves, nodes of a kind inside. -/
inductive Tree where
  | leaf (token : Token)
  | node (kind : NodeKind) (children : List Tree)
  deriving Repr, Inhabited

namespace Tree

/-! ## Leaves -/

mutual

/-- The tokens of a tree, from left to right. -/
def leaves : Tree → List Token
  | leaf t => [t]
  | node _ children => leavesOfAll children

/-- The tokens of neighbouring trees, from left to right. -/
def leavesOfAll : List Tree → List Token
  | [] => []
  | c :: rest => c.leaves ++ leavesOfAll rest

end

/-- The text that a tree was read from. -/
def text (t : Tree) : List Char :=
  t.leaves.flatMap Token.text

/-! ## Children -/

def children : Tree → List Tree
  | leaf _ => []
  | node _ cs => cs

/-- Whether a tree is an expression node. -/
def isExpr : Tree → Bool
  | leaf _ => false
  | node kind _ => kind.isExpr

/-- The expressions among the children of a tree. -/
def operands (t : Tree) : List Tree :=
  t.children.filter isExpr

/-- The first word among some trees. -/
def firstWord? : List Tree → Option String
  | [] => none
  | leaf ⟨.word, text⟩ :: _ => some (String.ofList text)
  | _ :: rest => firstWord? rest

/-! ## Expressions -/

/-- The expression of a node of the given kind over its lowered operands. -/
def combine? (kind : NodeKind) (children : List Tree) (operands : List (Option Expr)) : Option Expr :=
  match kind, operands with
  | .orExpr, some a :: some b :: _ => some (.or a b)
  | .andExpr, some a :: some b :: _ => some (.and a b)
  | .notExpr, some a :: _ => some (.not a)
  | .parenExpr, some a :: _ => some a
  | .guardRef, _ => (firstWord? children).map .guard
  | _, _ => none

mutual

/-- The expression of a tree, if it is an expression node without missing operands. -/
def lower? : Tree → Option Expr
  | leaf _ => none
  | node kind children => combine? kind children (lowerOperands children)

/-- The expressions of the expression nodes among some trees. -/
def lowerOperands : List Tree → List (Option Expr)
  | [] => []
  | c :: rest => if c.isExpr then c.lower? :: lowerOperands rest else lowerOperands rest

end

/-- The expression of a whole tree, if its root holds exactly one. -/
def lowerRoot? (t : Tree) : Option Expr :=
  match lowerOperands t.children with
  | [e] => e
  | _ => none

end Tree

end Rendezvous.Guard
