/-!
# What can be wrong with an arithmetic expression

The causes for which checking, reading or evaluating an expression fails, and the text of each.
Offsets count bytes of the expression, in 32 bits.
-/

namespace Rendezvous.Arithmetic

/-- What the grammar would have accepted where an expression stopped making sense. -/
inductive Expected where
  /-- An expression: at the very start and after an opening parenthesis. -/
  | expression
  /-- An operand: after an operator. -/
  | operand
  /-- An operator: after an operand inside parentheses. -/
  | operator
  /-- An operator or the end of the text: after an operand outside parentheses. -/
  | operatorOrEnd
  deriving DecidableEq, Repr, Inhabited

/-- The wording of an expectation. -/
def Expected.text : Expected → String
  | .expression => "expr"
  | .operand => "integer or parameter"
  | .operator => "add, subtract, multiply, or divide"
  | .operatorOrEnd => "EOI, add, subtract, multiply, or divide"

/-- Why an expression has no value. -/
inductive ExpressionError where
  /-- The text is empty. -/
  | empty
  /-- The first character that is no digit, no operator and no declared parameter. -/
  | disallowedCharacter (ch : Char) (offset : UInt32)
  /-- The first place at which the text leaves the grammar. -/
  | malformed (offset : UInt32) (expected : Expected)
  /-- A parameter without a value. -/
  | unboundParameter (letter : Char)
  | divisionByZero
  /-- A value that does not fit in 64 bits, or an offset that does not fit in 32. -/
  | overflow
  deriving DecidableEq, Repr, Inhabited

namespace ExpressionError

/-- The message of an error. -/
def message : ExpressionError → String
  | empty => "empty expression"
  | disallowedCharacter ch offset =>
    "character '" ++ ch.toString ++ "' at offset " ++ toString offset ++ " is not allowed"
  | malformed offset expected =>
    "syntax error at offset " ++ toString offset ++ ": expected " ++ expected.text
  | unboundParameter letter => "parameter '" ++ letter.toString ++ "' has no bound value"
  | divisionByZero => "division by zero"
  | overflow => "arithmetic overflow"

/-- Whether the text failed the allow-list and not the grammar. -/
def isDisallowed : ExpressionError → Bool
  | disallowedCharacter .. => true
  | _ => false

end ExpressionError

end Rendezvous.Arithmetic
