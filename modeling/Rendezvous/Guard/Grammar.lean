import Rendezvous.Guard.Parser

/-!
# Guard grammars

The operators of guards are fixed; which words are guard names is not.  A grammar holds the names
that one component type declares and reads guard texts over them.
-/

namespace Rendezvous.Guard

/-- A non-empty list of distinct non-empty names. -/
structure Grammar where
  names : List String
  deriving DecidableEq, Repr, Inhabited

/-- A guard text that is no expression over the declared names. -/
structure GuardSyntaxError where
  text : String
  errors : List SyntaxError
  deriving DecidableEq, Repr, Inhabited

/-- The message of a rejected guard: its first error and the number of the others. -/
def GuardSyntaxError.message (e : GuardSyntaxError) : String :=
  let first := match e.errors with
    | [] => "malformed expression"
    | [only] => only.text
    | first :: rest => first.text ++ " (and " ++ toString rest.length ++ " more)"
  "invalid guard expression '" ++ e.text ++ "': " ++ first

namespace Grammar

/-- The grammar whose names are the non-empty ones of a list, or nothing if there are none.  A
repeated name keeps its first place. -/
def build (names : List String) : Option Grammar :=
  let names := (names.filter fun n => n ≠ "").eraseDups
  if names.isEmpty then none else some ⟨names⟩

/-- Reads a text into a syntax tree, collecting every error. -/
def readTree (g : Grammar) (text : String) : Reading :=
  readFrom g.names 0 .initial (tokens text.toList)

/-- The expression of a text without errors. -/
def read (g : Grammar) (text : String) : Except GuardSyntaxError Expr :=
  let reading := g.readTree text
  match if reading.isClean then reading.tree.lowerRoot? else none with
  | some e => .ok e
  | none => .error ⟨text, reading.errors⟩

end Grammar

end Rendezvous.Guard
