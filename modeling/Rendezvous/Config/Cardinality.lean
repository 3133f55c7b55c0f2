import Rendezvous.Config.Basic

/-!
# Cardinalities

The cardinality of a component type is the number of its instances: a literal count, or a letter
whose value the configuration gives.
-/

namespace Rendezvous

/-- The reading of a cardinality text. -/
inductive Cardinality where
  | parameter (letter : Char)
  | literal (count : UInt32)
  /-- Neither a single lower-case letter nor a 32-bit number. -/
  | invalid (raw : String)
  deriving DecidableEq, Repr, Inhabited

namespace Cardinality

/-- The cardinality that decimal digits denote, if it is a 32-bit number. -/
def ofDigits (raw : String) : Cardinality :=
  let n := Nat.ofDigitChars 10 raw.toList 0
  if n < UInt32.size then literal n.toUInt32 else invalid raw

/-- The cardinality that a text denotes. -/
def read (raw : String) : Cardinality :=
  match Config.parameterLetter? raw with
  | some letter => parameter letter
  | none => if Arithmetic.isLiteral raw then ofDigits raw else invalid raw

/-- The count that a cardinality stands for. -/
def resolve (config : Config) : Cardinality → Option UInt32
  | parameter letter => config.parameter? letter
  | literal count => some count
  | invalid _ => none

/-- Whether a cardinality text is a letter or a positive number without a leading zero. -/
def isWellFormed (raw : String) : Bool :=
  match read raw with
  | parameter _ => true
  | literal count => count ≠ 0 && raw.toList.head? ≠ some '0'
  | invalid _ => false

end Cardinality

end Rendezvous
