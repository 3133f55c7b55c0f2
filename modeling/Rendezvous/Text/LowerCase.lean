import Rendezvous.Text.Range
import Rendezvous.Text.LowerCase.Mapping
import Rendezvous.Text.LowerCase.Cased
import Rendezvous.Text.LowerCase.Ignorable

/-!
# Lower case

The lower case of a character is its counterpart in the Unicode tables; U+0130 becomes two
characters.  In a text, a capital sigma at the end of a word has a lower case of its own.
-/

namespace Rendezvous.Text

/-- The counterpart of a code point that belongs to a run. -/
def LowerRun.target? (r : LowerRun) (n : Nat) : Option Nat :=
  if r.first ≤ n ∧ n ≤ r.last ∧ (n - r.first) % r.stride = 0 then some (n - r.first + r.target)
  else none

/-- The lower case of a character by itself. -/
def lowerChar (c : Char) : List Char :=
  if c.toNat = 0x130 then ['i', Char.ofNat 0x307]
  else
    match lowerRuns.findSome? fun r => r.target? c.toNat with
    | some n => [Char.ofNat n]
    | none => [c]

/-- A text with its first character in lower case. -/
def lowerFirst : List Char → List Char
  | [] => []
  | c :: rest => lowerChar c ++ rest

/-- Whether the first character that is not ignorable has case. -/
def reachesCased (text : List Char) : Bool :=
  match text.dropWhile fun c => inRanges ignorableRanges c with
  | c :: _ => inRanges casedRanges c
  | [] => false

/-- The lower case of a text whose preceding characters are `before`, last one first. -/
def lowerAfter (before : List Char) : List Char → List Char
  | [] => []
  | c :: rest =>
    (if c.toNat = 0x3A3 && reachesCased before && !reachesCased rest then [Char.ofNat 0x3C2]
      else lowerChar c) ++ lowerAfter (c :: before) rest

/-- The lower case of a text. -/
def lower (text : List Char) : List Char :=
  lowerAfter [] text

end Rendezvous.Text
