import Rendezvous.Text.Blank
import Rendezvous.Text.FilePath

/-!
# Workspaces

A run stages its files in a directory of its own below `projectOutputs`, named after the architecture
with a tag that no other run has, both without blanks.
-/

namespace Rendezvous

open Text

/-- A staging directory. -/
structure Workspace where
  root : String
  deriving DecidableEq, Repr, Inhabited

namespace Workspace

/-- The directory that holds all workspaces, relative to their base. -/
def outputsDirectory : String := "projectOutputs"

/-- The directory that holds the workspaces of a base. -/
def outputs (base : String) : String :=
  joinPath base outputsDirectory

/-- The workspace of an architecture below a base. -/
def create (base name tag : String) : Workspace :=
  ⟨joinPath (outputs base) (String.ofList (stripBlanks (name ++ tag).toList))⟩

/-- The path of a file in a workspace. -/
def file (w : Workspace) (name : String) : String :=
  joinPath w.root name

end Workspace

end Rendezvous
