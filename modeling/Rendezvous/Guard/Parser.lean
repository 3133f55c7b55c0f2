import Rendezvous.Guard.Tree

/-!
# Reading guards

The grammar is

* `or := and ('|' and)*`
* `and := unary ('&' unary)*`
* `unary := '!' unary | primary`
* `primary := NAME | '(' or ')'`

where `NAME` is a declared guard name, binary operators associate to the left, and at most
`maxNesting` negations and parentheses may be open at once.

The reader takes one token at a time and never drops one.  While an operand is due it keeps a `Slot`
for every open parenthesis and for the text itself: the nodes that wait for that operand.  Once the
operand is there the innermost slot becomes a `Filled` level, whose last operand an operator may still
take as its left side.  A token that does not fit is reported and kept in an error node, and reading
goes on, so that one pass finds every error.
-/

namespace Rendezvous.Guard

/-- How many negations and parentheses may be open at once. -/
def maxNesting : Nat := 64

/-! ## Errors -/

/-- What is wrong at a place of a guard text. -/
inductive Cause where
  /-- The text holds no token but whitespace. -/
  | noExpression
  /-- An operand is due, and another token or the end comes. -/
  | missingOperand (found : Option Token)
  /-- A closing parenthesis is due, and another token or the end comes. -/
  | missingClosing (found : Option Token)
  | undeclaredName (name : List Char)
  /-- A token that is none. -/
  | invalidInput
  /-- A token after the end of the expression. -/
  | unexpected (found : Token)
  /-- One more negation or parenthesis than may be open. -/
  | nestedTooDeeply
  deriving DecidableEq, Repr, Inhabited

/-- How a message calls the token found: words by their text, operators by their kind. -/
def describeFound : Option Token → String
  | none => "end of expression"
  | some ⟨.word, text⟩ => "'" ++ String.ofList text ++ "'"
  | some ⟨kind, _⟩ => kind.describe

/-- The message of a cause. -/
def Cause.message : Cause → String
  | noExpression => "expected guard expression"
  | missingOperand found => "expected guard name or '(' but found " ++ describeFound found
  | missingClosing found => "expected ')' but found " ++ describeFound found
  | undeclaredName name => "undeclared guard name '" ++ String.ofList name ++ "'"
  | invalidInput => "invalid input"
  | unexpected found => "unexpected " ++ describeFound (some found)
  | nestedTooDeeply =>
    "expression nested too deeply (more than " ++ toString maxNesting ++ " levels)"

/-- A cause with the bytes it is about: a token, or the empty range at the end. -/
structure SyntaxError where
  cause : Cause
  /-- How many bytes come before them. -/
  start : UInt32
  /-- How many bytes they are. -/
  length : UInt32
  deriving DecidableEq, Repr, Inhabited

/-- Where the bytes of an error end.  In a text of less than four gibibytes this is a text size. -/
def SyntaxError.stop (e : SyntaxError) : Nat :=
  e.start.toNat + e.length.toNat

/-- A message with its place. -/
def SyntaxError.text (e : SyntaxError) : String :=
  e.cause.message ++ " at " ++ toString e.start ++ ".." ++ toString e.stop

/-! ## Levels -/

/-- The open nodes of one parenthesis level while an operand is due, each with the children it has so
far. -/
structure Slot where
  /-- The children of the parenthesis, or of the root, before its expression. -/
  lead : List Tree
  /-- The disjunction whose right side is being read. -/
  disjunction : Option (List Tree)
  /-- The conjunction whose right side is being read. -/
  conjunction : Option (List Tree)
  /-- The negations around the operand, innermost first. -/
  negations : List (List Tree)
  deriving Repr, Inhabited

/-- A level whose last operand is complete. -/
structure Filled where
  lead : List Tree
  disjunction : Option (List Tree)
  /-- The last operand and the whitespace after it. -/
  operand : List Tree
  deriving Repr, Inhabited

/-- A node of an open kind around its last children, if that node is open. -/
def wrap (kind : NodeKind) : Option (List Tree) → List Tree → List Tree
  | none, last => last
  | some first, last => [.node kind (first ++ last)]

/-- Closes negations around an operand, innermost first. -/
def negate (negations : List (List Tree)) (operand : List Tree) : List Tree :=
  negations.foldl (fun inner first => wrap .notExpr (some first) inner) operand

namespace Slot

/-- A level that begins with the children `lead`. -/
def opened (lead : List Tree) : Slot :=
  ⟨lead, none, none, []⟩

/-- Whether no operator has been read on this level. -/
def isBare (s : Slot) : Bool :=
  s.disjunction.isNone && s.conjunction.isNone && s.negations.isEmpty

/-- Adds a child to the innermost open node. -/
def push (s : Slot) (t : Tree) : Slot :=
  match s.negations, s.conjunction, s.disjunction with
  | first :: rest, _, _ => { s with negations := (first ++ [t]) :: rest }
  | [], some first, _ => { s with conjunction := some (first ++ [t]) }
  | [], none, some first => { s with disjunction := some (first ++ [t]) }
  | [], none, none => { s with lead := s.lead ++ [t] }

/-- Opens a negation with its `!`. -/
def openNegation (s : Slot) (bang : Tree) : Slot :=
  { s with negations := [bang] :: s.negations }

/-- Supplies the operand, closing the negations and the conjunction that waited for it. -/
def fill (s : Slot) (operand : List Tree) : Filled :=
  ⟨s.lead, s.disjunction, wrap .andExpr s.conjunction (negate s.negations operand)⟩

end Slot

namespace Filled

/-- Adds a child after the last operand. -/
def push (f : Filled) (t : Tree) : Filled :=
  { f with operand := f.operand ++ [t] }

/-- The children of the level so far, its disjunction closed. -/
def alternatives (f : Filled) : List Tree :=
  wrap .orExpr f.disjunction f.operand

/-- The children of the parenthesis or root. -/
def children (f : Filled) : List Tree :=
  f.lead ++ f.alternatives

/-- Makes the last operand the left side of a conjunction. -/
def conjoin (f : Filled) (amp : Tree) : Slot :=
  ⟨f.lead, f.disjunction, some (f.operand ++ [amp]), []⟩

/-- Makes everything on the level the left side of a disjunction. -/
def disjoin (f : Filled) (pipe : Tree) : Slot :=
  ⟨f.lead, some (f.alternatives ++ [pipe]), none, []⟩

end Filled

/-- The children of the root once every open parenthesis is closed. -/
def unwind : List Slot → Filled → List Tree
  | [], f => f.children
  | s :: outer, f => unwind outer (s.fill [.node .parenExpr f.children])

/-- How many negations are open in some levels. -/
def openNegations : List Slot → Nat
  | [] => 0
  | s :: rest => s.negations.length + openNegations rest

/-- The number of open parentheses and negations. -/
def nesting (outer : List Slot) (slot : Slot) : Nat :=
  outer.length + openNegations (slot :: outer)

/-! ## Reading -/

/-- What has been read.  `outer` holds the levels around the innermost open parenthesis, from the
inside out. -/
inductive State where
  /-- An operand is due. -/
  | operand (outer : List Slot) (slot : Slot)
  /-- An operand is complete. -/
  | operator (outer : List Slot) (filled : Filled)
  /-- The expression is over, and tokens follow. -/
  | surplus (children : List Tree)
  /-- The nesting went too deep; the tokens from there on are skipped. -/
  | abandoned (outer : List Slot) (slot : Slot) (skipped : List Tree)
  deriving Repr, Inhabited

/-- Nothing has been read. -/
def State.initial : State := .operand [] (.opened [])

/-- Reads a token that follows a complete operand. -/
def stepOperator (outer : List Slot) (filled : Filled) (t : Token) : State × List Cause :=
  let leaf := Tree.leaf t
  match t.kind with
  | .whitespace => (.operator outer (filled.push leaf), [])
  | .amp => (.operand outer (filled.conjoin leaf), [])
  | .pipe => (.operand outer (filled.disjoin leaf), [])
  | .rightParen =>
    match outer with
    | s :: outer => (.operator outer (s.fill [.node .parenExpr (filled.children ++ [leaf])]), [])
    | [] => (.surplus (filled.children ++ [.node .error [leaf]]), [.unexpected t])
  | .word | .bang | .leftParen | .error =>
    (.surplus (unwind outer filled ++ [.node .error [leaf]]),
      List.replicate outer.length (.missingClosing (some t)) ++ [.unexpected t])

/-- Reads a token where an operand is due. -/
def stepOperand (names : List String) (outer : List Slot) (slot : Slot) (t : Token) :
    State × List Cause :=
  let leaf := Tree.leaf t
  match t.kind with
  | .whitespace => (.operand outer (slot.push leaf), [])
  | .word =>
    if String.ofList t.text ∈ names then
      (.operator outer (slot.fill [.node .guardRef [leaf]]), [])
    else (.operator outer (slot.fill [.node .error [leaf]]), [.undeclaredName t.text])
  | .bang =>
    if nesting outer slot = maxNesting then (.abandoned outer slot [leaf], [.nestedTooDeeply])
    else (.operand outer (slot.openNegation leaf), [])
  | .leftParen =>
    if nesting outer slot = maxNesting then (.abandoned outer slot [leaf], [.nestedTooDeeply])
    else (.operand (slot :: outer) (.opened [leaf]), [])
  | .error => (.operator outer (slot.fill [.node .error [leaf]]), [.invalidInput])
  | .amp | .pipe | .rightParen =>
    let r := stepOperator outer (slot.fill []) t
    (r.1, .missingOperand (some t) :: r.2)

/-- Reads one token. -/
def step (names : List String) (state : State) (t : Token) : State × List Cause :=
  match state with
  | .operand outer slot => stepOperand names outer slot t
  | .operator outer filled => stepOperator outer filled t
  | .surplus children =>
    if t.kind = .whitespace then (.surplus (children ++ [.leaf t]), [])
    else (.surplus (children ++ [.node .error [.leaf t]]), [.unexpected t])
  | .abandoned outer slot skipped => (.abandoned outer slot (skipped ++ [.leaf t]), [])

/-- The children of the root and the errors at the end of the text. -/
def finish : State → List Tree × List Cause
  | .operand outer slot =>
    (unwind outer (slot.fill []),
      if outer.isEmpty && slot.isBare then [.noExpression]
      else .missingOperand none :: List.replicate outer.length (.missingClosing none))
  | .operator outer filled =>
    (unwind outer filled, List.replicate outer.length (.missingClosing none))
  | .surplus children => (children, [])
  | .abandoned outer slot skipped => (unwind outer (slot.fill [.node .error skipped]), [])

/-- A syntax tree and every error found while reading it. -/
structure Reading where
  tree : Tree
  errors : List SyntaxError
  deriving Repr, Inhabited

/-- Whether no error was found. -/
def Reading.isClean (r : Reading) : Bool :=
  r.errors.isEmpty

/-- Gives causes the range of `length` bytes from byte `start` on. -/
def SyntaxError.at (start length : Nat) (causes : List Cause) : List SyntaxError :=
  causes.map fun c => ⟨c, Text.sizeOrZero start, Text.sizeOrZero length⟩

/-- Reads tokens that start at byte `offset`, in the given state. -/
def readFrom (names : List String) (offset : Nat) (state : State) : List Token → Reading
  | [] =>
    let r := finish state
    ⟨.node .root r.1, SyntaxError.at offset 0 r.2⟩
  | t :: rest =>
    let r := step names state t
    let length := Text.byteSize t.text
    let reading := readFrom names (offset + length) r.1 rest
    ⟨reading.tree, SyntaxError.at offset length r.2 ++ reading.errors⟩

end Rendezvous.Guard
