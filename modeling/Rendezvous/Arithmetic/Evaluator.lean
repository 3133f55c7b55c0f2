import Rendezvous.Arithmetic.Parameters
import Rendezvous.Arithmetic.Parser

/-!
# Evaluating expression texts

An evaluator holds the declared parameters, which decide what a text may contain, and the values
bound to parameters.  A text is checked against the allow-list, then read, then evaluated, and the
first of these steps to fail gives the error.
-/

namespace Rendezvous.Arithmetic

/-- Whether a text is a plain number: one or more decimal digits. -/
def isLiteral (text : String) : Bool :=
  !text.isEmpty && text.toList.all Char.isDigit

/-- Declared parameters and their values.  A declared parameter need not have a value, and a value
may be bound to a letter that is not declared. -/
structure Evaluator where
  parameters : Parameters
  bindings : Bindings

namespace Evaluator

/-- An evaluator that binds nothing. -/
def ofParameters (parameters : Parameters) : Evaluator :=
  ⟨parameters, .empty⟩

/-- Declares and binds the same letters. -/
def ofBindings (bindings : Bindings) : Evaluator :=
  ⟨.ofList bindings.keys, bindings⟩

/-- Gives a letter a value. -/
def bind (ev : Evaluator) (letter : Char) (value : UInt32) : Evaluator :=
  { ev with bindings := ev.bindings.insert letter value }

/-- The expression that an allowed text denotes. -/
def read (ev : Evaluator) (text : String) : Except ExpressionError Expr := do
  ev.parameters.check text.toList
  Expr.read text.toList

/-- Checks the allow-list and the grammar. -/
def validate (ev : Evaluator) (text : String) : Except ExpressionError Unit := do
  discard (ev.read text)

/-- The value of a text. -/
def evaluate (ev : Evaluator) (text : String) : Except ExpressionError Fraction := do
  let e ← ev.read text
  e.eval ev.bindings

end Evaluator

end Rendezvous.Arithmetic
