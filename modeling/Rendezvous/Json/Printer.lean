import Rendezvous.Json.Value

/-!
# Writing JSON documents

A document is written either compactly or with one item or field on each line, indented by two spaces
for each level.  Strings escape quotes, backslashes and control characters and nothing else.
-/

namespace Rendezvous.Json

/-- The hexadecimal digit of a number below 16, in lower case. -/
def hexDigit (n : Nat) : Char :=
  Char.ofNat (if n < 10 then '0'.toNat + n else 'a'.toNat + (n - 10))

/-- How a character is written in a string. -/
def escapeChar (c : Char) : List Char :=
  if c = '"' then ['\\', '"']
  else if c = '\\' then ['\\', '\\']
  else if c = '\x08' then ['\\', 'b']
  else if c = '\x0c' then ['\\', 'f']
  else if c = '\n' then ['\\', 'n']
  else if c = '\r' then ['\\', 'r']
  else if c = '\t' then ['\\', 't']
  else if c.toNat < 0x20 then
    ['\\', 'u', '0', '0', hexDigit (c.toNat / 16), hexDigit (c.toNat % 16)]
  else [c]

/-- A text between quotes. -/
def quoted (s : String) : String :=
  String.ofList ('"' :: (s.toList.flatMap escapeChar ++ ['"']))

/-! ## Compact documents -/

mutual

/-- A value without any whitespace. -/
def compact : Value → String
  | .null => "null"
  | .bool b => if b then "true" else "false"
  | .number n => n.text
  | .text s => quoted s
  | .array items => "[" ++ compactItems items ++ "]"
  | .object fields => "\x7b" ++ compactFields fields ++ "\x7d"

/-- Items separated by commas. -/
def compactItems : List Value → String
  | [] => ""
  | [v] => compact v
  | v :: rest => compact v ++ "," ++ compactItems rest

/-- Fields separated by commas. -/
def compactFields : List (String × Value) → String
  | [] => ""
  | [(key, v)] => quoted key ++ ":" ++ compact v
  | (key, v) :: rest => quoted key ++ ":" ++ compact v ++ "," ++ compactFields rest

end

/-! ## Indented documents -/

/-- The start of a line at a level. -/
def newline (level : Nat) : String :=
  "\n" ++ String.ofList (List.replicate (2 * level) ' ')

mutual

/-- A value that begins at a level of indentation. -/
def indented (level : Nat) : Value → String
  | .array (v :: rest) =>
    "[" ++ newline (level + 1) ++ indentedItems (level + 1) (v :: rest) ++ newline level ++ "]"
  | .object (f :: rest) =>
    "\x7b" ++ newline (level + 1) ++ indentedFields (level + 1) (f :: rest) ++ newline level ++ "\x7d"
  | .array [] => "[]"
  | .object [] => "\x7b\x7d"
  | .null => "null"
  | .bool b => if b then "true" else "false"
  | .number n => n.text
  | .text s => quoted s

/-- Items on lines of their own. -/
def indentedItems (level : Nat) : List Value → String
  | [] => ""
  | [v] => indented level v
  | v :: rest => indented level v ++ "," ++ newline level ++ indentedItems level rest

/-- Fields on lines of their own. -/
def indentedFields (level : Nat) : List (String × Value) → String
  | [] => ""
  | [(key, v)] => quoted key ++ ": " ++ indented level v
  | (key, v) :: rest =>
    quoted key ++ ": " ++ indented level v ++ "," ++ newline level ++ indentedFields level rest

end

/-- A document with one item or field on each line. -/
def pretty (v : Value) : String :=
  indented 0 v

end Rendezvous.Json
