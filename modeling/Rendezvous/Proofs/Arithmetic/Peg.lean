import Rendezvous.Arithmetic.Parser

/-!
# The rules of arithmetic, and the table of its operations

The reader of expressions makes one pass over the lexemes of a text.  Here the same language is given
by what defines it: the rules of a parsing expression grammar, and a table that says how tightly the
operations bind.

A choice takes the first of its parts that matches, a repetition goes on for as long as it can, and
neither comes back to try less.  A rule that is not silent leaves a pair, and when it fails it is noted
as tried.  Of the rules that were tried, only those at the furthest place are remembered, and they
are what the message of an error asks for; a rule none of whose parts got anywhere stands for all of
them, if there is more than one.

The pairs of an expression are its operands and operations in their order.  Climbing takes an operand
and then, as long as the operation after it binds more tightly than the one before it, the operation
with what its own strength gathers on the right.

A repetition need not end, and pairs need not begin with an operand.  Both give `none` here.
-/

namespace Rendezvous.Arithmetic

/-! ## Parsing expressions -/

/-- The rules, in the order in which messages list them. -/
inductive RuleName where
  | eoi
  | integer
  | parameter
  | add
  | subtract
  | multiply
  | divide
  | binOp
  | primary
  | expr
  | expression
  deriving DecidableEq, Repr, Inhabited

/-- What a rule may match. -/
inductive Peg where
  /-- Nothing, at the beginning of the text. -/
  | start
  /-- Nothing, at the end of the text. -/
  | finish
  /-- One character of a range. -/
  | range (first last : Char)
  /-- What a rule matches. -/
  | call (rule : RuleName)
  /-- The one and then the other. -/
  | seq (p q : Peg)
  /-- The one or, where it fails, the other. -/
  | choice (p q : Peg)
  /-- As often as it goes, also never. -/
  | many (p : Peg)
  deriving Repr, Inhabited

/-- One character. -/
def Peg.literal (c : Char) : Peg := .range c c

/-- Once or more often. -/
def Peg.atLeastOnce (p : Peg) : Peg := .seq p (.many p)

namespace RuleName

/-- The rules. -/
def body : RuleName → Peg
  | eoi => .finish
  | integer => .atLeastOnce (.range '0' '9')
  | parameter => .range 'a' 'z'
  | add => .literal '+'
  | subtract => .literal '-'
  | multiply => .literal '*'
  | divide => .literal '/'
  | binOp => .choice (.call add) (.choice (.call subtract) (.choice (.call multiply) (.call divide)))
  | primary => .choice (.call integer)
      (.choice (.call parameter) (.seq (.literal '(') (.seq (.call expr) (.literal ')'))))
  | expr => .seq (.call primary) (.many (.seq (.call binOp) (.call primary)))
  | expression => .seq .start (.seq (.call expr) (.call eoi))

/-- Rules that leave no pair and are not noted as tried. -/
def isSilent : RuleName → Bool
  | binOp | primary | expression => true
  | _ => false

/-- How messages call a rule. -/
def name : RuleName → String
  | eoi => "EOI"
  | integer => "integer"
  | parameter => "parameter"
  | add => "add"
  | subtract => "subtract"
  | multiply => "multiply"
  | divide => "divide"
  | binOp => "bin_op"
  | primary => "primary"
  | expr => "expr"
  | expression => "expression"

end RuleName

/-! ## Matching -/

/-- What a rule has matched, and the pairs inside. -/
inductive Pair where
  | mk (rule : RuleName) (text : List Char) (inner : List Pair)
  deriving Inhabited

/-- A match: its text, the text after it, and its pairs. -/
structure Matched where
  text : List Char
  rest : List Char
  pairs : List Pair

namespace Matched

/-- Nothing, before a text. -/
def nothing (rest : List Char) : Matched := ⟨[], rest, []⟩

/-- A match and the one that begins where it ends. -/
def append (m n : Matched) : Matched := ⟨m.text ++ n.text, n.rest, m.pairs ++ n.pairs⟩

/-- What a rule makes of a match of its body. -/
def of (r : RuleName) (m : Matched) : Matched :=
  if r.isSilent then m else ⟨m.text, m.rest, [.mk r m.text m.pairs]⟩

end Matched

/-- The furthest place at which a rule was tried in vain, and the rules that were tried there. -/
structure Attempts where
  place : Nat
  rules : List RuleName
  deriving DecidableEq, Repr, Inhabited

namespace Attempts

/-- How many attempts are remembered at a place. -/
def countAt (a : Attempts) (place : Nat) : Nat :=
  if a.place = place then a.rules.length else 0

/-- Notes that a rule fails at a place.  `before` is what was remembered when it was tried, `after` what
its parts have left.  A single attempt of its parts at that place says more than the rule; otherwise
the rule takes the place of those attempts. -/
def note (before after : Attempts) (place : Nat) (r : RuleName) : Attempts :=
  if after.countAt place = before.countAt place + 1 then after
  else if after.place < place then ⟨place, [r]⟩
  else if after.place = place then ⟨place, after.rules.take (before.countAt place) ++ [r]⟩
  else after

end Attempts

/-- Matches a text that `place` bytes stand before.  Gives the match, if there is one, and the attempts
that are remembered. -/
def Peg.run (p : Peg) (place : Nat) (cs : List Char) (a : Attempts) :
    Option (Option Matched × Attempts) :=
  match p with
  | .start => some (if place = 0 then some (.nothing cs) else none, a)
  | .finish => some (if cs = [] then some (.nothing cs) else none, a)
  | .range first last =>
    match cs with
    | [] => some (none, a)
    | c :: rest => some (if first ≤ c ∧ c ≤ last then some ⟨[c], rest, []⟩ else none, a)
  | .call r => do
    let (result, after) ← r.body |>.run place cs a
    match result with
    | some m => return (some (m.of r), after)
    | none => return (none, if r.isSilent then after else a.note after place r)
  | .seq p q => do
    let (result, a) ← p |>.run place cs a
    match result with
    | none => return (none, a)
    | some m =>
      let (result, a) ← q |>.run (place + Text.byteSize m.text) m.rest a
      return (result.map m.append, a)
  | .choice p q => do
    let (result, a) ← p |>.run place cs a
    match result with
    | some m => return (some m, a)
    | none => q |>.run place cs a
  | .many p => do
    let (result, a) ← p |>.run place cs a
    match result with
    | none => return (some (.nothing cs), a)
    | some m =>
      let (result, a) ← (Peg.many p) |>.run (place + Text.byteSize m.text) m.rest a
      return (result.map m.append, a)
partial_fixpoint

/-- The pairs of a text, or the attempts with which it fails. -/
def Peg.parse? (text : List Char) : Option (Except Attempts (List Pair)) := do
  let (result, a) ← (Peg.call .expression).run 0 text ⟨0, []⟩
  match result with
  | some m => return .ok m.pairs
  | none => return .error a

/-! ## Climbing -/

/-- The operation that a pair stands for. -/
def Pair.operation? : Pair → Option Operation
  | .mk .add _ _ => some .add
  | .mk .subtract _ _ => some .subtract
  | .mk .multiply _ _ => some .multiply
  | .mk .divide _ _ => some .divide
  | _ => none

/-- How tightly an operation binds: sums and differences stand in the first row of the table, products
and quotients in the second. -/
def Operation.power : Operation → Nat
  | add | subtract => 1
  | multiply | divide => 2

mutual

/-- Reads the pairs of an expression: this one and those after it. -/
def Pair.tree? (p : Pair) (pairs : List Pair) : Option Expr := do
  let (e, rest) ← p |>.climb? 0 pairs
  if rest.isEmpty then return e else none
partial_fixpoint

/-- Reads an operand, and as many operations after it as bind more tightly than `limit`. -/
def Pair.climb? (p : Pair) (limit : Nat) (pairs : List Pair) : Option (Expr × List Pair) := do
  let e ← p |>.operand?
  e |>.climb? limit pairs
partial_fixpoint

/-- Reads as many operations after an operand as bind more tightly than `limit`.  Operations of one
strength associate to the left. -/
def Expr.climb? (lhs : Expr) (limit : Nat) (pairs : List Pair) : Option (Expr × List Pair) :=
  match pairs with
  | [] => some (lhs, [])
  | p :: rest => do
    let op ← p.operation?
    if limit < op.power then
      let q ← rest.head?
      let (rhs, rest) ← q |>.climb? op.power rest.tail
      Expr.binary op lhs rhs |>.climb? limit rest
    else return (lhs, p :: rest)
partial_fixpoint

/-- The operand that a pair stands for. -/
def Pair.operand? (p : Pair) : Option Expr :=
  match p with
  | .mk .integer text _ => some (.literal (Nat.ofDigitChars 10 text 0))
  | .mk .parameter text _ => text.head?.map .parameter
  | .mk .expr _ (p :: inner) => p |>.tree? inner
  | _ => none
partial_fixpoint

end

/-- The tree of the first pair of a text, which is its expression. -/
def treeOfText? (pairs : List Pair) : Option Expr :=
  pairs.head?.bind Pair.operand?

/-! ## Messages -/

/-- The rules that could have gone on. -/
def Expected.rules : Expected → List RuleName
  | expression => [.expr]
  | operand => [.integer, .parameter]
  | operator => [.add, .subtract, .multiply, .divide]
  | operatorOrEnd => [.eoi, .add, .subtract, .multiply, .divide]

/-- Names in one phrase. -/
def enumerate : List String → String
  | [] => ""
  | [a] => a
  | [a, b] => a ++ " or " ++ b
  | names => ", ".intercalate names.dropLast ++ ", or " ++ names.getLastD ""

/-- The wording of an expectation lists the rules that could have gone on. -/
theorem Expected.text_eq (expected : Expected) :
    expected.text = enumerate (expected.rules.map RuleName.name) := by
  cases expected <;> decide +kernel

end Rendezvous.Arithmetic
