import Rendezvous.Staging.Place
import Rendezvous.Table

/-!
# Bundles

A bundle is the set of files that a successful run produces, in the order in which they were first
added.  Adding a file under a name that is taken replaces its contents.
-/

namespace Rendezvous

/-- Named files. -/
structure Bundle where
  name : String
  files : Table String String
  deriving DecidableEq

namespace Bundle

/-- A bundle without files. -/
def empty (name : String) : Bundle := ⟨name, .empty⟩

instance : Inhabited Bundle := ⟨empty ""⟩

/-- Adds a file. -/
def add (b : Bundle) (name contents : String) : Bundle :=
  { b with files := b.files.insert name contents }

/-- Adds files in order. -/
def addMany (b : Bundle) (files : List (String × String)) : Bundle :=
  { b with files := b.files.insertMany files }

/-- The contents of a file. -/
def file? (b : Bundle) (name : String) : Option String :=
  b.files.get? name

@[simp] theorem file?_add (b : Bundle) (name contents n : String) :
    (b.add name contents).file? n = if name = n then some contents else b.file? n :=
  b.files.get?_insert name n contents

/-- The names of the files. -/
def names (b : Bundle) : List String :=
  b.files.keys

def size (b : Bundle) : Nat :=
  b.files.size

def isEmpty (b : Bundle) : Bool :=
  b.files.isEmpty

/-- The entries of the bundle as an archive. -/
def archive (b : Bundle) : List (String × String) :=
  b.files.entries

/-! ## Writing into a directory -/

/-- What a file holds after all files have been written into a directory: the last contents written to
its place. -/
def settledContents (files : List (String × String)) (directory name : String) : String :=
  let place := Place.ofFile? directory name
  ((files.filter fun f => Place.ofFile? directory f.1 = place).getLast?.map Prod.snd).getD ""

/-- The files that writing the bundle into a fresh directory leaves, with their paths relative to it, if
all of them can be written. -/
def writeInto? (b : Bundle) (directory : String) : Option (List (String × String)) :=
  let files := b.files.entries
  if files.all fun f => (Place.ofFile? directory f.1).isSome then
    some (files.map fun f => (Text.relativePath f.1, settledContents files directory f.1))
  else none

end Bundle

end Rendezvous
