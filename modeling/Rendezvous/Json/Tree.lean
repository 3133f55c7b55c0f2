import Rendezvous.Json.Token
import Rendezvous.Json.Number

/-!
# Syntax trees of JSON documents

The tokens of a document are read by one pass with a stack of the arrays and objects that are still
open.  Nothing may follow the value of the document, and nesting is not limited here.
-/

namespace Rendezvous.Json

/-- A value as it is written: repeated fields, gaps and numbers are kept as they are. -/
inductive Tree where
  | null
  | bool (b : Bool)
  | number (chars : List Char)
  | string (pieces : List Piece)
  | array (items : List Tree)
  | object (fields : List (List Piece × Tree))
  deriving Repr, Inhabited

/-- An array or object that is still open, its parts last one first. -/
inductive Frame where
  | array (items : List Tree)
  /-- An object whose field `key` waits for its value. -/
  | object (fields : List (List Piece × Tree)) (key : List Piece)
  deriving Repr, Inhabited

/-- What may come next. -/
inductive Due where
  | value
  /-- A value, or the end of an array without items. -/
  | firstItem
  /-- A key, or the end of an object without fields. -/
  | firstKey
  | key (fields : List (List Piece × Tree))
  | colon (fields : List (List Piece × Tree)) (key : List Piece)
  /-- What follows a complete value. -/
  | after (v : Tree)
  deriving Repr, Inhabited

/-- Takes the token of a value. -/
def stepValue (stack : List Frame) : Token → Option (List Frame × Due)
  | .null => some (stack, .after .null)
  | .bool b => some (stack, .after (.bool b))
  | .number chars => if (Numeral.read? chars).isSome then some (stack, .after (.number chars)) else none
  | .string pieces => some (stack, .after (.string pieces))
  | .openBracket => some (.array [] :: stack, .firstItem)
  | .openBrace => some (stack, .firstKey)
  | _ => none

/-- Takes a token that follows a complete value. -/
def stepAfter (v : Tree) : List Frame → Token → Option (List Frame × Due)
  | .array items :: stack, .comma => some (.array (v :: items) :: stack, .value)
  | .array items :: stack, .closeBracket => some (stack, .after (.array (v :: items).reverse))
  | .object fields key :: stack, .comma => some (stack, .key ((key, v) :: fields))
  | .object fields key :: stack, .closeBrace =>
    some (stack, .after (.object ((key, v) :: fields).reverse))
  | _, _ => none

/-- Takes one token. -/
def stepToken (stack : List Frame) (due : Due) (t : Token) : Option (List Frame × Due) :=
  match due, t with
  | .value, t => stepValue stack t
  | .firstItem, .closeBracket =>
    match stack with
    | .array _ :: stack => some (stack, .after (.array []))
    | _ => none
  | .firstItem, t => stepValue stack t
  | .firstKey, .closeBrace => some (stack, .after (.object []))
  | .firstKey, .string key => some (stack, .colon [] key)
  | .key fields, .string key => some (stack, .colon fields key)
  | .colon fields key, .colon => some (.object fields key :: stack, .value)
  | .after v, t => stepAfter v stack t
  | _, _ => none

/-- The value at the end of the tokens. -/
def finish? : List Frame → Due → Option Tree
  | [], .after v => some v
  | _, _ => none

/-- Reads the remaining tokens. -/
def treeFrom (stack : List Frame) (due : Due) : List Token → Option Tree
  | [] => finish? stack due
  | t :: rest =>
    match stepToken stack due t with
    | some (stack, due) => treeFrom stack due rest
    | none => none

/-- The syntax tree of a document. -/
def tree? (source : Text.Decoded) : Option Tree :=
  (tokens? source).bind (treeFrom [] .value)

end Rendezvous.Json
