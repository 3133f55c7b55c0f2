import Rendezvous.Json.Tree

/-!
# JSON values

A value is what a syntax tree stands for: strings without gaps and with their surrogate pairs joined,
numbers with a value, and objects whose fields are ordered by key, the last of equal keys counting.
Values are also what documents are written from; then the order of the fields is the writer's.
-/

namespace Rendezvous.Json

/-- A JSON value. -/
inductive Value where
  | null
  | bool (b : Bool)
  | number (n : Number)
  | text (s : String)
  | array (items : List Value)
  | object (fields : List (String × Value))
  deriving Repr, Inhabited

/-! ## Strings -/

/-- Whether a code unit is the first of a surrogate pair. -/
def isHighSurrogate (n : Nat) : Bool :=
  0xD800 ≤ n && n < 0xDC00

/-- Whether a code unit is the second of a surrogate pair. -/
def isLowSurrogate (n : Nat) : Bool :=
  0xDC00 ≤ n && n < 0xE000

/-- The character of a surrogate pair. -/
def joinSurrogates (high low : Nat) : Char :=
  Char.ofNat (0x10000 + 0x400 * (high - 0xD800) + (low - 0xDC00))

/-- The characters of a string, if it has no gap and no half of a surrogate pair. -/
def charsOf? : List Piece → Option (List Char)
  | [] => some []
  | .char c :: rest => (charsOf? rest).map (c :: ·)
  | .gap :: _ => none
  | .unit high :: .unit low :: rest =>
    if isHighSurrogate high then
      if isLowSurrogate low then (charsOf? rest).map (joinSurrogates high low :: ·) else none
    else if isLowSurrogate high then none
    else (charsOf? (.unit low :: rest)).map (Char.ofNat high :: ·)
  | .unit n :: rest =>
    if isHighSurrogate n || isLowSurrogate n then none
    else (charsOf? rest).map (Char.ofNat n :: ·)

/-- The text of a string. -/
def textOf? (pieces : List Piece) : Option String :=
  (charsOf? pieces).map String.ofList

/-! ## Objects -/

/-- Puts a field at its place among fields ordered by key, replacing one with the same key. -/
def insertField (key : String) (v : Value) : List (String × Value) → List (String × Value)
  | [] => [(key, v)]
  | f :: rest =>
    if key < f.1 then (key, v) :: f :: rest
    else if key = f.1 then (key, v) :: rest
    else f :: insertField key v rest

/-- Fields ordered by key, the last of equal keys counting. -/
def sortFields (fields : List (String × Value)) : List (String × Value) :=
  fields.foldl (fun sorted f => insertField f.1 f.2 sorted) []

/-! ## The value of a syntax tree -/

mutual

/-- The value that a syntax tree stands for, if it has one. -/
def valueOf? : Tree → Option Value
  | .null => some .null
  | .bool b => some (.bool b)
  | .number chars => (Number.read? chars).map .number
  | .string pieces => (textOf? pieces).map .text
  | .array items => (itemsOf? items).map .array
  | .object fields => (fieldsOf? fields).map fun fs => .object (sortFields fs)

/-- The values of array items. -/
def itemsOf? : List Tree → Option (List Value)
  | [] => some []
  | t :: rest =>
    match valueOf? t, itemsOf? rest with
    | some v, some vs => some (v :: vs)
    | _, _ => none

/-- The keys and values of object fields, in the order of the document. -/
def fieldsOf? : List (List Piece × Tree) → Option (List (String × Value))
  | [] => some []
  | (key, t) :: rest =>
    match textOf? key, valueOf? t, fieldsOf? rest with
    | some k, some v, some fs => some ((k, v) :: fs)
    | _, _, _ => none

end

/-! ## Nesting -/

mutual

/-- How many arrays and objects stand inside each other. -/
def depth : Tree → Nat
  | .array items => depthOfItems items + 1
  | .object fields => depthOfFields fields + 1
  | _ => 0

/-- The greatest depth of array items. -/
def depthOfItems : List Tree → Nat
  | [] => 0
  | t :: rest => max (depth t) (depthOfItems rest)

/-- The greatest depth of object fields. -/
def depthOfFields : List (List Piece × Tree) → Nat
  | [] => 0
  | (_, t) :: rest => max (depth t) (depthOfFields rest)

end

/-- How deep the values of a document may be nested. -/
def maxDepth : Nat := 127

end Rendezvous.Json
