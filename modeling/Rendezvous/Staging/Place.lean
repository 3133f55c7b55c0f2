import Rendezvous.Text.FilePath

/-!
# Where paths lead

A path is followed part by part.  An empty part and `.` stay, `..` goes to the directory above, the
root being above itself, and a name goes down.  The only directories taken to exist are the one that
files are written into and those above it: a path leads to a file when the parts before the last
stay among them and the last can name a file and names none of them.
-/

namespace Rendezvous

open Text

/-- A file or directory, as the names on the way to it from the root, the last one first. -/
abbrev Place := List (List Char)

namespace Place

/-- The root. -/
def root : Place := []

/-- The place of a directory that is given by an absolute path without `..`. -/
def ofDirectory (path : String) : Place :=
  ((pathParts path.toList).filter fun part => !isIdle part).reverse

/-- Whether a place is one of the directories that exist: `home` and those above it. -/
def isDirectory (home place : Place) : Bool :=
  place.isSuffixOf home

/-- The file that the parts of a path lead to from a directory. -/
def follow? (home : Place) : Place → List (List Char) → Option Place
  | _, [] => none
  | here, [last] =>
    if isFileName last && !isDirectory home (last :: here) then some (last :: here) else none
  | here, part :: rest =>
    if isIdle part then follow? home here rest
    else if part = upward then follow? home here.tail rest
    else if isDirectory home (part :: here) then follow? home (part :: here) rest
    else none

/-- The file that is written under a path in a directory, if it can be. -/
def ofFile? (directory path : String) : Option Place :=
  if (joinPath directory path).utf8ByteSize ≤ maxPathBytes then
    let home := ofDirectory directory
    follow? home (if isAbsolute path then root else home) (pathParts path.toList)
  else none

/-- A name that is neither idle nor that of a directory leads to a file in the directory itself. -/
theorem follow?_name {home : Place} {name : List Char} (h : isFileName name)
    (hd : isDirectory home (name :: home) = false) :
    follow? home home [name] = some (name :: home) := by
  simp [follow?, h, hd]

/-- A file that a path leads to is no directory. -/
theorem not_isDirectory_of_follow? {home here p : Place} {parts : List (List Char)}
    (h : follow? home here parts = some p) : isDirectory home p = false := by
  fun_induction follow? home here parts with
  | case1 | case3 | case7 => simp at h
  | case2 here last hl =>
    obtain rfl := Option.some.inj h
    simp_all
  | case4 _ _ _ _ _ ih | case5 _ _ _ _ ih | case6 _ _ _ _ _ _ _ ih => exact ih h

end Place

end Rendezvous
