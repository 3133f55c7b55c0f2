/-!
# Kinds of tokens and nodes

The leaves of a guard's syntax tree are tokens and its inner nodes are expressions, plus the root
and the error nodes that hold what no rule of the grammar accepts.  Tokens and nodes share one
numbering, tokens first.  Errors are of one kind, whether as tokens or as nodes.
-/

namespace Rendezvous.Guard

/-- The kinds of tokens. -/
inductive TokenKind where
  | whitespace
  | word
  | amp
  | pipe
  | bang
  | leftParen
  | rightParen
  /-- A character with which no other token begins. -/
  | error
  deriving DecidableEq, Repr, Inhabited

/-- The kinds of inner nodes. -/
inductive NodeKind where
  | error
  | root
  | orExpr
  | andExpr
  | notExpr
  | parenExpr
  | guardRef
  deriving DecidableEq, Repr, Inhabited

/-- How a message calls a token of this kind. -/
def TokenKind.describe : TokenKind → String
  | whitespace => "whitespace"
  | word => "guard name"
  | amp => "'&'"
  | pipe => "'|'"
  | bang => "'!'"
  | leftParen => "'('"
  | rightParen => "')'"
  | error => "invalid input"

/-- Whether nodes of this kind are expressions. -/
def NodeKind.isExpr : NodeKind → Bool
  | orExpr | andExpr | notExpr | parenExpr | guardRef => true
  | error | root => false

/-- The kind of a token or of a node. -/
inductive Kind where
  | token (kind : TokenKind)
  | node (kind : NodeKind)
  deriving DecidableEq, Repr, Inhabited

namespace Kind

/-- All kinds, in the order of their numbers.  Errors have one number, as tokens and as nodes. -/
def all : List Kind :=
  [.token .whitespace, .token .word, .token .amp, .token .pipe, .token .bang, .token .leftParen,
    .token .rightParen, .node .error, .node .root, .node .orExpr, .node .andExpr, .node .notExpr,
    .node .parenExpr, .node .guardRef]

/-- The kind of a number.  Numbers outside the table stand for errors. -/
def ofNat (n : Nat) : Kind :=
  all[n]?.getD (.node .error)

/-- The name of a kind in dumps of syntax trees. -/
def name : Kind → String
  | token .whitespace => "WHITESPACE"
  | token .word => "WORD"
  | token .amp => "AMP"
  | token .pipe => "PIPE"
  | token .bang => "BANG"
  | token .leftParen => "L_PAREN"
  | token .rightParen => "R_PAREN"
  | token .error | node .error => "ERROR"
  | node .root => "ROOT"
  | node .orExpr => "OR_EXPR"
  | node .andExpr => "AND_EXPR"
  | node .notExpr => "NOT_EXPR"
  | node .parenExpr => "PAREN_EXPR"
  | node .guardRef => "GUARD_REF"

/-- Whether the grammar ignores leaves of this kind. -/
def isTrivia (k : Kind) : Bool :=
  k == token .whitespace

/-- Whether nodes of this kind are expressions. -/
def isExpr : Kind → Bool
  | token _ => false
  | node k => k.isExpr

/-- How a message calls a leaf of this kind. -/
def describe : Kind → String
  | token k => k.describe
  | node _ => "invalid input"

end Kind

end Rendezvous.Guard
