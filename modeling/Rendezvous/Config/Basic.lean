import Rendezvous.Table
import Rendezvous.Arithmetic.Evaluator

/-!
# Configurations

A configuration gives values to cardinality parameters and bounds the number of transitions of a
simulation.  Parameters are keyed by text; a configuration is valid when every key is a single
lower-case letter.
-/

namespace Rendezvous

/-- Parameter values, and the bound on transitions. -/
structure Config where
  transitions : UInt64
  parameters : Table String UInt32
  deriving DecidableEq

/-- Why a configuration cannot be used. -/
inductive ConfigError where
  /-- The text is no JSON document of the right shape. -/
  | json
  /-- The file cannot be read. -/
  | unreadable
  /-- The first key that is no parameter name. -/
  | invalidParameter (key : String)
  /-- A file of an unknown kind. -/
  | unsupportedFormat (extension : String)
  deriving DecidableEq, Repr, Inhabited

/-- The message of an error of the configuration itself.  The wording of reading errors is not ours. -/
def ConfigError.message? : ConfigError → Option String
  | json | unreadable => none
  | invalidParameter key => some ("Invalid cardinality parameter name: '" ++ key ++ "'")
  | unsupportedFormat extension => some ("Unsupported configuration format: " ++ extension)

namespace Config

/-- The bound on transitions when none is configured. -/
def defaultTransitions : UInt64 := 100

/-- The configuration without parameters. -/
def empty : Config := ⟨defaultTransitions, .empty⟩

instance : Inhabited Config := ⟨empty⟩

/-- The letter that a key names, if it is a single lower-case letter. -/
def parameterLetter? (key : String) : Option Char :=
  match key.toList with
  | [c] => if c.isLower then some c else none
  | _ => none

/-- Gives a letter a value. -/
def withParameter (c : Config) (letter : Char) (value : UInt32) : Config :=
  { c with parameters := c.parameters.insert letter.toString value }

/-- The value of a letter. -/
def parameter? (c : Config) (letter : Char) : Option UInt32 :=
  c.parameters.get? letter.toString

/-- The parameters whose keys are valid, in order. -/
def bindings (c : Config) : List (Char × UInt32) :=
  c.parameters.entries.filterMap fun e => (parameterLetter? e.1).map fun letter => (letter, e.2)

/-- Accepts the configurations whose keys are all parameter names. -/
def validate (c : Config) : Except ConfigError Unit :=
  match c.parameters.keys.find? fun key => (parameterLetter? key).isNone with
  | some key => .error (.invalidParameter key)
  | none => .ok ()

end Config

end Rendezvous
