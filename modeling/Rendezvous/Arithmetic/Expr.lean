import Rendezvous.Table
import Rendezvous.Arithmetic.Fraction

/-!
# Arithmetic expressions and their values

An expression is a tree of integer literals, parameters and the four operations.  Its value is the
exact fraction the tree denotes; evaluation fails at the leftmost operand that has no value, and
otherwise where an operation fails.
-/

namespace Rendezvous.Arithmetic

/-- The four operations. -/
inductive Operation where
  | add
  | subtract
  | multiply
  | divide
  deriving DecidableEq, Repr, Inhabited

namespace Operation

/-- Multiplication and division bind tighter than addition and subtraction. -/
def bindsTightly : Operation → Bool
  | multiply | divide => true
  | add | subtract => false

/-- The operation on values. -/
def apply : Operation → Fraction → Fraction → Except ExpressionError Fraction
  | add => Fraction.add
  | subtract => Fraction.sub
  | multiply => Fraction.mul
  | divide => Fraction.div

end Operation

/-- An expression without its parentheses. -/
inductive Expr where
  | literal (value : Nat)
  | parameter (letter : Char)
  | binary (op : Operation) (lhs rhs : Expr)
  deriving DecidableEq, Repr, Inhabited

/-- The values given to parameters. -/
abbrev Bindings := Table Char UInt32

namespace Expr

/-- The value of an expression when parameters have the values of `bindings`. -/
def eval (bindings : Bindings) : Expr → Except ExpressionError Fraction
  | literal value =>
    match Fraction.ofInt? value with
    | some f => .ok f
    | none => .error .overflow
  | parameter letter =>
    match bindings.get? letter with
    | some n => .ok (.ofCount n)
    | none => .error (.unboundParameter letter)
  | binary op lhs rhs => do
    let a ← lhs.eval bindings
    let b ← rhs.eval bindings
    op.apply a b

end Expr

end Rendezvous.Arithmetic
