import Rendezvous.Config.Basic
import Rendezvous.Json.Printer
import Rendezvous.Text.FilePath

/-!
# Configuration documents

A configuration is written as one JSON object: the bound on transitions under the key `transitions`,
and every parameter under its own key.  Reading accepts an object in any order of fields whose values
are natural numbers, 64 bits for the bound and 32 bits for parameters, and then requires that every
key names a parameter.
-/

namespace Rendezvous.Config

open Json

/-- The key of the bound on transitions. -/
def transitionsKey : String := "transitions"

/-- The natural number that a tree stands for, if it is below a bound. -/
def naturalBelow? (bound : Nat) : Tree → Option Nat
  | .number chars =>
    match Number.read? chars with
    | some (.integer z) => if 0 ≤ z ∧ z < bound then some z.toNat else none
    | _ => none
  | _ => none

/-- The fields of a configuration read so far. -/
structure Fields where
  transitions : Option UInt64
  parameters : Table String UInt32

/-- Takes in one field. -/
def readField? (fields : Fields) (f : List Piece × Tree) : Option Fields :=
  (textOf? f.1).bind fun key =>
    if key = transitionsKey then
      if fields.transitions.isSome then none
      else (naturalBelow? UInt64.size f.2).map fun n => { fields with transitions := some n.toUInt64 }
    else
      (naturalBelow? UInt32.size f.2).map fun n =>
        { fields with parameters := fields.parameters.insert key n.toUInt32 }

/-- The configuration that a document describes, before its keys are checked. -/
def ofTree? : Tree → Option Config
  | .object fields =>
    (fields.foldlM readField? ⟨none, .empty⟩).map fun r =>
      ⟨r.transitions.getD defaultTransitions, r.parameters⟩
  | _ => none

/-- The valid configuration that a document describes. -/
def read (source : Text.Decoded) : Except ConfigError Config :=
  match (tree? source).bind ofTree? with
  | none => .error .json
  | some c =>
    match c.validate with
    | .ok _ => .ok c
    | .error e => .error e

/-- The document of a configuration as a value. -/
def toValue (c : Config) : Value :=
  .object ((transitionsKey, .number (.integer c.transitions.toNat))
    :: c.parameters.entries.map fun e => (e.1, .number (.integer e.2.toNat)))

/-- The document of a configuration. -/
def document (c : Config) : String :=
  pretty c.toValue

/-- Reads a file by its name and its contents, which a file that cannot be read lacks. -/
def ofFile (name : String) (contents : Option Text.Decoded) : Except ConfigError Config :=
  match contents with
  | none => .error .unreadable
  | some source =>
    let extension := Text.lowerExtension name
    if extension = "json" then read source else .error (.unsupportedFormat extension)

end Rendezvous.Config
