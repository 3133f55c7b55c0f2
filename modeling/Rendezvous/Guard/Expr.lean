/-!
# Guard expressions

A guard expression combines guard names with negation, conjunction and disjunction.  Its text uses
the fewest parentheses that keep its shape when `!` binds tighter than `&`, `&` tighter than `|`, and
both binary operators associate to the left.
-/

namespace Rendezvous.Guard

/-- A Boolean expression over guard names. -/
inductive Expr where
  | guard (name : String)
  | not (operand : Expr)
  | and (lhs rhs : Expr)
  | or (lhs rhs : Expr)
  deriving DecidableEq, Repr, Inhabited

namespace Expr

/-- The value of an expression when each guard has the value that `holds` gives it. -/
def eval (holds : String → Bool) : Expr → Bool
  | guard name => holds name
  | not operand => !operand.eval holds
  | and lhs rhs => lhs.eval holds && rhs.eval holds
  | or lhs rhs => lhs.eval holds || rhs.eval holds

/-- The guard names of an expression, from left to right. -/
def guards : Expr → List String
  | guard name => [name]
  | not operand => operand.guards
  | and lhs rhs | or lhs rhs => lhs.guards ++ rhs.guards

/-- How tightly the outermost operator binds. -/
def precedence : Expr → Nat
  | or .. => 1
  | and .. => 2
  | not _ => 3
  | guard _ => 4

/-- Puts a text in parentheses if asked to. -/
def parenthesize (wrap : Bool) (text : String) : String :=
  if wrap then "(" ++ text ++ ")" else text

/-- The text of an expression. -/
def text : Expr → String
  | guard name => name
  | not operand => "!" ++ parenthesize (operand.precedence < 3) operand.text
  | and lhs rhs =>
    parenthesize (lhs.precedence < 2) lhs.text ++ " & " ++ parenthesize (rhs.precedence ≤ 2) rhs.text
  | or lhs rhs =>
    parenthesize (lhs.precedence < 1) lhs.text ++ " | " ++ parenthesize (rhs.precedence ≤ 1) rhs.text

end Expr

end Rendezvous.Guard
