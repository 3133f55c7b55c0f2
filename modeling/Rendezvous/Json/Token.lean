import Rendezvous.Text.Utf8

/-!
# Tokens of JSON documents

A document is cut into punctuation, literals, numbers and strings by one pass over its characters.
Whitespace is space, tab, line feed and carriage return.  Strings are only checked for their form: a
gap in the decoding, or half of a surrogate pair, is kept as a piece, because a value that nobody
reads may hold them.  Numbers are kept as the characters they are written with.
-/

namespace Rendezvous.Json

open Text

/-- A piece of a string. -/
inductive Piece where
  /-- A character, written as itself or as a short escape. -/
  | char (c : Char)
  /-- A byte that belongs to no character. -/
  | gap
  /-- A code unit, written with four hexadecimal digits. -/
  | unit (n : Nat)
  deriving DecidableEq, Repr, Inhabited

/-- A token of a document. -/
inductive Token where
  | openBrace
  | closeBrace
  | openBracket
  | closeBracket
  | comma
  | colon
  | null
  | bool (b : Bool)
  /-- A run of the characters that numbers are written with. -/
  | number (chars : List Char)
  | string (pieces : List Piece)
  deriving DecidableEq, Repr, Inhabited

/-- What the pass is in the middle of.  Characters and pieces are held last one first. -/
inductive Mode where
  | between
  /-- A literal, with the characters still to come. -/
  | literal (rest : List Char) (token : Token)
  | number (chars : List Char)
  | string (pieces : List Piece)
  /-- After a backslash. -/
  | escape (pieces : List Piece)
  /-- After `\u`, with the number of digits still to come. -/
  | unit (pieces : List Piece) (value : Nat) (missing : Nat)
  deriving DecidableEq, Repr, Inhabited

def isSpace (c : Char) : Bool :=
  c == ' ' || c == '\t' || c == '\n' || c == '\r'

/-- Whether numbers are written with a character. -/
def isNumeric (c : Char) : Bool :=
  c.isDigit || c == '-' || c == '+' || c == '.' || c == 'e' || c == 'E'

/-- Whether a number can begin with a character. -/
def beginsNumber (c : Char) : Bool :=
  c.isDigit || c == '-'

/-- The token of a punctuation character. -/
def punctuation? : Char → Option Token
  | '\x7b' => some .openBrace
  | '\x7d' => some .closeBrace
  | '[' => some .openBracket
  | ']' => some .closeBracket
  | ',' => some .comma
  | ':' => some .colon
  | _ => none

/-- The literal that begins with a character. -/
def literal? : Char → Option Mode
  | 'n' => some (.literal ['u', 'l', 'l'] .null)
  | 't' => some (.literal ['r', 'u', 'e'] (.bool true))
  | 'f' => some (.literal ['a', 'l', 's', 'e'] (.bool false))
  | _ => none

/-- The character of a short escape. -/
def shortEscape? : Char → Option Char
  | '"' => some '"'
  | '\\' => some '\\'
  | '/' => some '/'
  | 'b' => some '\x08'
  | 'f' => some '\x0c'
  | 'n' => some '\n'
  | 'r' => some '\r'
  | 't' => some '\t'
  | _ => none

/-- The value of a hexadecimal digit. -/
def hexValue? (c : Char) : Option Nat :=
  if c.isDigit then some (c.toNat - '0'.toNat)
  else if 'a' ≤ c ∧ c ≤ 'f' then some (c.toNat - 'a'.toNat + 10)
  else if 'A' ≤ c ∧ c ≤ 'F' then some (c.toNat - 'A'.toNat + 10)
  else none

/-- What a character between tokens does: the tokens it ends, and the mode after it. -/
def stepBetween (c : Char) : Option (List Token × Mode) :=
  if isSpace c then some ([], .between)
  else if c == '"' then some ([], .string [])
  else if beginsNumber c then some ([], .number [c])
  else
    match punctuation? c, literal? c with
    | some t, _ => some ([t], .between)
    | none, some m => some ([], m)
    | none, none => none

/-- What a character inside a string does. -/
def stepString (pieces : List Piece) (c : Char) : Option (List Token × Mode) :=
  if c == '"' then some ([.string pieces.reverse], .between)
  else if c == '\\' then some ([], .escape pieces)
  else if c.toNat < 0x20 then none
  else some ([], .string (.char c :: pieces))

/-- What a character after a backslash does. -/
def stepEscape (pieces : List Piece) (c : Char) : Option (List Token × Mode) :=
  if c == 'u' then some ([], .unit pieces 0 4)
  else (shortEscape? c).map fun e => ([], .string (.char e :: pieces))

/-- What a hexadecimal digit does. -/
def stepUnit (pieces : List Piece) (value missing : Nat) (c : Char) : Option (List Token × Mode) :=
  (hexValue? c).map fun d =>
    let value := 16 * value + d
    if missing ≤ 1 then ([], .string (.unit value :: pieces)) else ([], .unit pieces value (missing - 1))

/-- The tokens that a character ends, and the mode after it. -/
def step (mode : Mode) (c : Char) : Option (List Token × Mode) :=
  match mode with
  | .between => stepBetween c
  | .literal [] _ => none
  | .literal [x] t => if c = x then some ([t], .between) else none
  | .literal (x :: rest) t => if c = x then some ([], .literal rest t) else none
  | .number chars =>
    if isNumeric c then some ([], .number (c :: chars))
    else (stepBetween c).map fun r => (.number chars.reverse :: r.1, r.2)
  | .string pieces => stepString pieces c
  | .escape pieces => stepEscape pieces c
  | .unit pieces value missing => stepUnit pieces value missing c

/-- The mode after a byte that belongs to no character, which only strings may hold. -/
def stepGap : Mode → Option Mode
  | .string pieces => some (.string (.gap :: pieces))
  | _ => none

/-- The tokens at the end of a document. -/
def lastTokens? : Mode → Option (List Token)
  | .between => some []
  | .number chars => some [.number chars.reverse]
  | _ => none

/-- The tokens of the remaining characters. -/
def tokensFrom (mode : Mode) : Decoded → Option (List Token)
  | [] => lastTokens? mode
  | none :: rest => (stepGap mode).bind fun m => tokensFrom m rest
  | some c :: rest =>
    match step mode c with
    | none => none
    | some (ts, m) => (tokensFrom m rest).map (ts ++ ·)

/-- The tokens of a document. -/
def tokens? (source : Decoded) : Option (List Token) :=
  tokensFrom .between source

end Rendezvous.Json
