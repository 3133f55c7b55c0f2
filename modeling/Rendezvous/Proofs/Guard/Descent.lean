import Rendezvous.Guard.Parser

/-!
# Reading guards by descent

The reader of guards takes one token at a time and holds the open nodes in its state.  Here the same
grammar is read by one procedure for each of its rules, which call one another.  The procedures share a
`Cursor` and put the tree together with a `Builder`: a node is started, at the current place or at an
earlier one that a checkpoint has kept, takes what is added after that place as its children, and has
to be finished.

A builder can be misused, and a procedure need not end.  Both give `none` here, so that a result says
that every node has been finished, that every checkpoint was still valid when a node was started at it,
and that the descent has come to its end.
-/

namespace Rendezvous.Guard

/-! ## Builders -/

/-- A syntax tree under construction. -/
structure Builder where
  /-- The finished trees that have no finished tree around them, from left to right. -/
  finished : List Tree
  /-- The started nodes, innermost first: their kind, and the number of trees before their first
  child. -/
  started : List (NodeKind × Nat)

namespace Builder

def empty : Builder := ⟨[], []⟩

/-- Adds a token. -/
def token (b : Builder) (t : Token) : Builder :=
  { b with finished := b.finished ++ [.leaf t] }

/-- Starts a node at the current place. -/
def start (b : Builder) (kind : NodeKind) : Builder :=
  { b with started := (kind, b.finished.length) :: b.started }

/-- Keeps the current place. -/
def checkpoint (b : Builder) : Nat :=
  b.finished.length

/-- Starts a node at an earlier place.  The place has to exist still, and to be inside the innermost
started node. -/
def startAt? (b : Builder) (checkpoint : Nat) (kind : NodeKind) : Option Builder :=
  if checkpoint ≤ b.finished.length ∧ ∀ node ∈ b.started.head?, node.2 ≤ checkpoint then
    some { b with started := (kind, checkpoint) :: b.started }
  else none

/-- Finishes the innermost started node. -/
def finish? (b : Builder) : Option Builder :=
  match b.started with
  | [] => none
  | (kind, first) :: rest =>
    some ⟨b.finished.take first ++ [.node kind (b.finished.drop first)], rest⟩

end Builder

/-! ## Cursors -/

/-- What the procedures share. -/
structure Cursor where
  builder : Builder
  /-- The tokens that have not been read. -/
  rest : List Token
  /-- The number of bytes before them. -/
  offset : Nat
  /-- How many negations and parentheses are open. -/
  depth : Nat
  /-- Whether the nesting went too deep; no error is reported from there on. -/
  abandoned : Bool
  errors : List SyntaxError

namespace Cursor

/-- A cursor before some tokens. -/
def ofTokens (ts : List Token) : Cursor :=
  ⟨.empty, ts, 0, 0, false, []⟩

/-- Moves past a token, which joins the tree. -/
def advance (c : Cursor) (t : Token) (rest : List Token) : Cursor :=
  { c with builder := c.builder.token t, rest := rest, offset := c.offset + Text.byteSize t.text }

/-- Moves past the whitespace at the beginning of the tokens that have not been read. -/
def skipFrom (c : Cursor) : List Token → Cursor
  | [] => c
  | t :: rest => if t.kind = .whitespace then (c.advance t rest).skipFrom rest else c

/-- Moves to the next token that is not whitespace. -/
def skip (c : Cursor) : Cursor :=
  c.skipFrom c.rest

/-- Moves past the next token that is not whitespace. -/
def bump (c : Cursor) : Cursor :=
  let c := c.skip
  match c.rest with
  | [] => c
  | t :: rest => c.advance t rest

/-- Moves past all tokens. -/
def bumpAll (c : Cursor) : List Token → Cursor
  | [] => c
  | t :: rest => (c.advance t rest).bumpAll rest

/-- Whether the next token is of a kind. -/
def isAt (c : Cursor) (kind : TokenKind) : Bool :=
  c.rest.head?.any fun t => t.kind = kind

/-- How many bytes the next token has, none at the end of the text. -/
def nextSize (c : Cursor) : Nat :=
  match c.rest with
  | [] => 0
  | t :: _ => Text.byteSize t.text

/-- Reports an error at the next token that is not whitespace. -/
def report (c : Cursor) (cause : Cause) : Cursor :=
  if c.abandoned then c
  else
    let c := c.skip
    { c with errors := c.errors ++ SyntaxError.at c.offset c.nextSize [cause] }

def start (c : Cursor) (kind : NodeKind) : Cursor :=
  { c with builder := c.builder.start kind }

def startAt? (c : Cursor) (checkpoint : Nat) (kind : NodeKind) : Option Cursor :=
  (c.builder.startAt? checkpoint kind).map fun b => { c with builder := b }

def finish? (c : Cursor) : Option Cursor :=
  c.builder.finish?.map fun b => { c with builder := b }

/-- Finishes as many nodes. -/
def finishAll? : Nat → Cursor → Option Cursor
  | 0, c => some c
  | n + 1, c => do finishAll? n (← c.finish?)

/-- Counts one more open negation or parenthesis. -/
def descend (c : Cursor) : Cursor :=
  { c with depth := c.depth + 1 }

/-- Counts `n` fewer open negations and parentheses. -/
def ascend (c : Cursor) (n : Nat) : Cursor :=
  { c with depth := c.depth - n }

/-- Reports an error and puts the next token into a node of its own. -/
def bumpError? (c : Cursor) (cause : Cause) : Option Cursor :=
  ((c.report cause).start .error).bump.finish?

/-- Reports that the nesting goes too deep, and puts all tokens that are left into one node. -/
def abandon? (c : Cursor) : Option Cursor :=
  let c := { c.report .nestedTooDeeply with abandoned := true }
  ((c.start .error).bumpAll c.rest).finish?

/-- Moves past a closing parenthesis, or reports that it is missing. -/
def expectClosing (c : Cursor) : Cursor :=
  let c := c.skip
  if c.isAt .rightParen then c.bump else c.report (.missingClosing c.rest.head?)

/-! ## Procedures -/

/-- Starts a node for each negation, and counts them. -/
def parseNegations (c : Cursor) (count : Nat) : Option (Cursor × Nat) := do
  let c := c.skip
  if c.isAt .bang then
    if c.depth = maxNesting then
      return (← c.abandon?, count)
    else
      (c.start .notExpr).bump.descend |>.parseNegations (count + 1)
  else
    return (c, count)
partial_fixpoint

mutual

/-- Reads a disjunction. -/
def parseOr (names : List String) (c : Cursor) : Option Cursor := do
  let c := c.skip
  let checkpoint := c.builder.checkpoint
  let c ← c |>.parseAnd names
  c |>.parseDisjuncts names checkpoint
partial_fixpoint

/-- Reads further operands of a disjunction that begins at a checkpoint. -/
def parseDisjuncts (names : List String) (checkpoint : Nat) (c : Cursor) : Option Cursor := do
  let c := c.skip
  if c.isAt .pipe then
    let c ← c.startAt? checkpoint .orExpr
    let c ← c.bump |>.parseAnd names
    let c ← c.finish?
    c |>.parseDisjuncts names checkpoint
  else
    return c
partial_fixpoint

/-- Reads a conjunction. -/
def parseAnd (names : List String) (c : Cursor) : Option Cursor := do
  let c := c.skip
  let checkpoint := c.builder.checkpoint
  let c ← c |>.parseUnary names
  c |>.parseConjuncts names checkpoint
partial_fixpoint

/-- Reads further operands of a conjunction that begins at a checkpoint. -/
def parseConjuncts (names : List String) (checkpoint : Nat) (c : Cursor) : Option Cursor := do
  let c := c.skip
  if c.isAt .amp then
    let c ← c.startAt? checkpoint .andExpr
    let c ← c.bump |>.parseUnary names
    let c ← c.finish?
    c |>.parseConjuncts names checkpoint
  else
    return c
partial_fixpoint

/-- Reads an operand with the negations before it. -/
def parseUnary (names : List String) (c : Cursor) : Option Cursor := do
  let (c, negations) ← parseNegations c 0
  let c ← if c.abandoned then some c else c |>.parsePrimary names
  let c ← c.finishAll? negations
  return c.ascend negations
partial_fixpoint

/-- Reads a name or a parenthesis.  An operator is left to the rules around it. -/
def parsePrimary (names : List String) (c : Cursor) : Option Cursor :=
  let c := c.skip
  match c.rest with
  | [] => some (c.report (.missingOperand none))
  | t :: _ =>
    match t.kind with
    | .word =>
      if String.ofList t.text ∈ names then (c.start .guardRef).bump.finish?
      else c.bumpError? (.undeclaredName t.text)
    | .error => c.bumpError? .invalidInput
    | .leftParen =>
      if c.depth = maxNesting then c.abandon?
      else do
        let c ← (c.start .parenExpr).bump.descend |>.parseOr names
        (c.expectClosing.ascend 1).finish?
    | _ => some (c.report (.missingOperand (some t)))
partial_fixpoint

end

/-- Reports every token after the expression. -/
def parseSurplus (c : Cursor) : Option Cursor := do
  let c := c.skip
  match c.rest with
  | [] => return c
  | t :: _ => (← c.bumpError? (.unexpected t)) |>.parseSurplus
partial_fixpoint

end Cursor

/-- Reads a whole text. -/
def parseRoot (names : List String) (c : Cursor) : Option Cursor :=
  let c := (c.start .root).skip
  let read := if c.rest.isEmpty then some (c.report .noExpression)
    else (c.parseOr names).bind Cursor.parseSurplus
  read.bind fun c => c.skip.finish?

end Rendezvous.Guard
