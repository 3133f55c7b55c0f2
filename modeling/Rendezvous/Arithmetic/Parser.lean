import Rendezvous.Arithmetic.Expr
import Rendezvous.Text.Size

/-!
# Reading arithmetic expressions

The grammar is

* `expr := primary (operation primary)*`
* `primary := digits | letter | '(' expr ')'`

with `*` and `/` binding tighter than `+` and `-`, all four associating to the left.  A text is cut
into lexemes, digits greedily, and the lexemes are read from left to right by one pass that keeps
the operations waiting for their right operand, one `Pending` for each open parenthesis.  The first
lexeme that cannot continue the text read so far is reported with its offset, which is zero where it is
no text size.  The pass reads what a parsing expression grammar and a table of the operations say
(`read_eq_iff_grammarReads`).
-/

namespace Rendezvous.Arithmetic

/-! ## Lexemes -/

/-- The pieces of an expression. -/
inductive Symbol where
  | digits (ds : List Char)
  | letter (c : Char)
  | operation (op : Operation)
  | opening
  | closing
  deriving DecidableEq, Repr, Inhabited

/-- A piece with the number of characters before it. -/
structure Lexeme where
  offset : Nat
  symbol : Symbol
  deriving DecidableEq, Repr, Inhabited

/-- The symbol of a character that is no digit. -/
def Symbol.ofChar : Char → Symbol
  | '+' => .operation .add
  | '-' => .operation .subtract
  | '*' => .operation .multiply
  | '/' => .operation .divide
  | '(' => .opening
  | ')' => .closing
  | c => .letter c

/-- Puts a digit in front of the lexemes that follow it, joining it to a number that starts there. -/
def consDigit (offset : Nat) (d : Char) : List Lexeme → List Lexeme
  | ⟨_, .digits ds⟩ :: rest => ⟨offset, .digits (d :: ds)⟩ :: rest
  | rest => ⟨offset, .digits [d]⟩ :: rest

/-- The lexemes of a text that starts at `offset`. -/
def lexemes (offset : Nat) : List Char → List Lexeme
  | [] => []
  | c :: rest =>
    if c.isDigit then consDigit offset c (lexemes (offset + 1) rest)
    else ⟨offset, Symbol.ofChar c⟩ :: lexemes (offset + 1) rest

/-! ## Pending operations -/

/-- A left operand that waits for the right operand of its operation. -/
abbrev Waiting := Option (Expr × Operation)

/-- Supplies the right operand. -/
def Waiting.supply : Waiting → Expr → Expr
  | none, e => e
  | some (lhs, op), e => .binary op lhs e

/-- The operations of one parenthesis level that wait for a right operand: a sum or difference, and
inside it a product or quotient. -/
structure Pending where
  sum : Waiting
  product : Waiting
  deriving DecidableEq, Repr, Inhabited

/-- Nothing waits. -/
def Pending.none : Pending := ⟨.none, .none⟩

/-- What an operation leaves waiting after the operand `e`. -/
def Pending.extend (p : Pending) (e : Expr) (op : Operation) : Pending :=
  if op.bindsTightly then ⟨p.sum, some (p.product.supply e, op)⟩
  else ⟨some (p.sum.supply (p.product.supply e), op), .none⟩

/-- The expression of a level whose last operand is `e`. -/
def Pending.close (p : Pending) (e : Expr) : Expr :=
  p.sum.supply (p.product.supply e)

/-! ## The pass over the lexemes -/

/-- What the text read so far ends with. -/
inductive Position where
  /-- Nothing, or an opening parenthesis. -/
  | start
  /-- An operation. -/
  | afterOperation
  /-- An operand. -/
  | afterOperand (e : Expr)
  deriving DecidableEq, Repr, Inhabited

/-- What may follow a position inside `depth` open parentheses. -/
def Position.expected (depth : Nat) : Position → Expected
  | start => .expression
  | afterOperation => .operand
  | afterOperand _ => if depth = 0 then .operatorOrEnd else .operator

/-- The error of a text that leaves the grammar behind `offset` bytes. -/
def malformedAt (offset : Nat) (expected : Expected) : ExpressionError :=
  .malformed (Text.sizeOrZero offset) expected

/-- Reads the remaining lexemes.  `outer` holds what waits outside the innermost open parenthesis,
`pending` what waits inside it, and `length` is the offset of the end of the text. -/
def readFrom (length : Nat) :
    List Pending → Pending → Position → List Lexeme → Except ExpressionError Expr
  | [], pending, .afterOperand e, [] => .ok (pending.close e)
  | outer, _, position, [] => .error (malformedAt length (position.expected outer.length))
  | outer, pending, position, ⟨offset, symbol⟩ :: rest =>
    match position, symbol with
    | .afterOperand e, .operation op => readFrom length outer (pending.extend e op) .afterOperation rest
    | .afterOperand e, .closing =>
      match outer with
      | enclosing :: outer => readFrom length outer enclosing (.afterOperand (pending.close e)) rest
      | [] => .error (malformedAt offset (position.expected 0))
    | .start, .digits ds | .afterOperation, .digits ds =>
      readFrom length outer pending (.afterOperand (.literal (Nat.ofDigitChars 10 ds 0))) rest
    | .start, .letter c | .afterOperation, .letter c =>
      readFrom length outer pending (.afterOperand (.parameter c)) rest
    | .start, .opening | .afterOperation, .opening =>
      readFrom length (pending :: outer) .none .start rest
    | position, _ => .error (malformedAt offset (position.expected outer.length))

/-- The expression that a text denotes. -/
def Expr.read (text : List Char) : Except ExpressionError Expr :=
  readFrom text.length [] .none .start (lexemes 0 text)

end Rendezvous.Arithmetic
