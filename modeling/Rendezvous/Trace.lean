import Rendezvous.Json.Printer

/-!
# Simulation traces

A trace is a JSON object with the array `output` of its entries and any other fields.  Only the first
entries are kept, as many as the configuration allows; the other fields are kept, ordered by key after
`output`, and all values are written compactly.
-/

namespace Rendezvous

open Json

/-- A trace: its entries, and its other fields ordered by key. -/
structure Trace where
  output : List Value
  extra : List (String × Value)
  deriving Repr, Inhabited

namespace Trace

/-- The key of the entries. -/
def outputKey : String := "output"

/-- The entries of a trace: the items of the only field `output`. -/
def output? (fields : List (String × Value)) : Option (List Value) :=
  match fields.filter fun f => f.1 = outputKey with
  | [(_, .array items)] => some items
  | _ => none

/-- The trace with these fields. -/
def ofFields? (fields : List (String × Value)) : Option Trace :=
  (output? fields).map fun items => ⟨items, sortFields (fields.filter fun f => f.1 ≠ outputKey)⟩

/-- The trace that a document describes. -/
def ofTree? (t : Tree) : Option Trace :=
  match t with
  | .object fields => if depth t ≤ maxDepth then (fieldsOf? fields).bind ofFields? else none
  | _ => none

/-- The trace that a document describes. -/
def read? (source : Text.Decoded) : Option Trace :=
  (tree? source).bind ofTree?

/-- A trace with at most `limit` entries. -/
def truncate (limit : Nat) (t : Trace) : Trace :=
  { t with output := t.output.take limit }

/-- The document of a trace. -/
def document (t : Trace) : String :=
  compact (.object ((outputKey, .array t.output) :: t.extra))

/-- The document of a trace cut to `limit` entries, if the source describes one. -/
def truncateDocument? (limit : Nat) (source : Text.Decoded) : Option String :=
  (read? source).map fun t => (t.truncate limit).document

end Trace

end Rendezvous
