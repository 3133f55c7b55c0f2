import Rendezvous.Text.LowerCase

/-!
# File paths as texts

Paths are texts with `/` between their parts.  Joining puts exactly one `/` between the two sides,
none after an empty left side, and gives the right side alone when it is absolute.  The extension of a
file name is what follows its last dot, unless that dot begins the name.  A name on disk has at most
255 bytes, a path at most 4095.
-/

namespace Rendezvous.Text

/-- Whether a path begins at the root. -/
def isAbsolute (path : String) : Bool :=
  decide (path.toList.head? = some '/')

/-- Appends a relative path to a path; an absolute one replaces it. -/
def joinPath (left right : String) : String :=
  if isAbsolute right then right
  else if left.isEmpty || left.toList.getLast? = some '/' then left ++ right
  else left ++ "/" ++ right

/-- The last part of a path. -/
def lastPart (path : List Char) : List Char :=
  (path.reverse.takeWhile (· ≠ '/')).reverse

/-- The extension of a file in lower case, empty when it has none. -/
def lowerExtension (path : String) : String :=
  let name := lastPart path.toList
  let reversed := name.reverse
  let stem := (reversed.dropWhile (· ≠ '.')).drop 1
  if name = ['.', '.'] || stem.isEmpty then ""
  else String.ofList (lower (reversed.takeWhile (· ≠ '.')).reverse)

/-! ## Parts -/

/-- The parts of a path between slashes. -/
def pathParts : List Char → List (List Char)
  | [] => [[]]
  | c :: rest =>
    if c = '/' then [] :: pathParts rest
    else
      match pathParts rest with
      | p :: ps => (c :: p) :: ps
      | [] => [[c]]

/-- Whether a part of a path leads nowhere else: an empty part, or the directory itself. -/
def isIdle (part : List Char) : Bool :=
  part = [] || part = ['.']

/-- The part of a path that leads to the directory above. -/
def upward : List Char := ['.', '.']

/-- A relative path without the idle parts at its beginning; an absolute one as it is. -/
def relativePath (path : String) : String :=
  if isAbsolute path then path
  else String.ofList (List.intercalate ['/'] ((pathParts path.toList).dropWhile isIdle))

/-! ## Limits -/

/-- The greatest number of bytes in the name of a file or directory. -/
def maxNameBytes : Nat := 255

/-- The greatest number of bytes in a path. -/
def maxPathBytes : Nat := 4095

/-- Whether a part of a path can name a new file or directory. -/
def isFileName (part : List Char) : Bool :=
  !isIdle part && !decide (part = upward) && !part.contains '\x00'
    && decide ((String.ofList part).utf8ByteSize ≤ maxNameBytes)

end Rendezvous.Text
