import Rendezvous.Staging.Workspace
import Rendezvous.Table
import Rendezvous.Text.Utf8

/-!
# What runs make on disk

A disk holds the directories and files that a run has made, under their paths.  One step creates a
directory, writes a file, or removes a directory with all that is in it.  Steps that follow each other
end with the first that cannot be taken (`takeAll`); what the steps before it have made stays.
-/

namespace Rendezvous

open Text

/-- What a run can make under a path. -/
inductive Disk.Entry where
  | directory
  | file (contents : Decoded)
  deriving DecidableEq, Inhabited

/-- What a run has made, under its paths. -/
structure Disk where
  entries : Table String Disk.Entry

namespace Disk

/-- A disk on which nothing has been made. -/
def empty : Disk := ⟨.empty⟩

instance : Inhabited Disk := ⟨empty⟩

/-- What is under a path. -/
def at? (d : Disk) (path : String) : Option Entry :=
  d.entries.get? path

/-- The paths, in the order in which they were made. -/
def paths (d : Disk) : List String :=
  d.entries.keys

/-- The contents of a file. -/
def file? (d : Disk) (path : String) : Option Decoded :=
  match d.at? path with
  | some (.file contents) => some contents
  | _ => none

/-! ## Steps -/

/-- Makes an entry, if the last part of its path can name one. -/
def put? (path : String) (e : Entry) (d : Disk) : Option Disk :=
  if isFileName (lastPart path.toList) then some ⟨d.entries.insert path e⟩ else none

/-- Creates a directory, unless it is there.  It cannot take the place of a file. -/
def createDirectory? (path : String) (d : Disk) : Option Disk :=
  match d.at? path with
  | some .directory => some d
  | some (.file _) => none
  | none => d.put? path .directory

/-- Writes a file, in the place of the one that is there.  It cannot take the place of a directory. -/
def writeFile? (path : String) (contents : Decoded) (d : Disk) : Option Disk :=
  match d.at? path with
  | some .directory => none
  | _ => d.put? path (.file contents)

/-- The path that leads from a directory to what is in it. -/
def pathIn? (directory path : String) : Option String :=
  let above := directory.toList ++ ['/']
  if above.isPrefixOf path.toList then some (String.ofList (path.toList.drop above.length)) else none

/-- Whether a path is the directory or leads into it. -/
def isWithin (directory path : String) : Bool :=
  decide (path = directory) || (pathIn? directory path).isSome

/-- Removes a directory with all that is in it. -/
def removeAll (directory : String) (d : Disk) : Disk :=
  ⟨d.entries.filterKeys fun path => !isWithin directory path⟩

/-- Takes steps in order, up to the first that cannot be taken.  Says whether all were taken. -/
def takeAll {α : Type} (step : α → Disk → Option Disk) : List α → Disk → Disk × Bool
  | [], d => (d, true)
  | a :: rest, d =>
    match step a d with
    | some d' => takeAll step rest d'
    | none => (d, false)

/-- The files in a directory, in byte order. -/
def filesIn (directory : String) (d : Disk) : List String :=
  let files := d.paths.filter fun path => (d.file? path).isSome
  (files.filterMap (pathIn? directory)).mergeSort fun a b => decide (a ≤ b)

end Disk

/-! ## Workspaces -/

namespace Workspace

/-- Creates a workspace and, before it, the directory that holds all workspaces of its base. -/
def make (base : String) (w : Workspace) (d : Disk) : Disk × Bool :=
  Disk.takeAll Disk.createDirectory? [outputs base, w.root] d

/-- Writes a file into a workspace that has been made. -/
def write? (w : Workspace) (f : String × Decoded) (d : Disk) : Option Disk :=
  if d.at? w.root = some .directory then d.writeFile? (w.file f.1) f.2 else none

/-- Writes texts into a workspace. -/
def stage (w : Workspace) (files : List (String × String)) (d : Disk) : Disk × Bool :=
  Disk.takeAll w.write? (files.map fun f => (f.1, decoded f.2)) d

/-- Removes a workspace with its files. -/
def remove (w : Workspace) (d : Disk) : Disk :=
  d.removeAll w.root

end Workspace

end Rendezvous
