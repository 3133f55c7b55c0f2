import Rendezvous.Component.Basic
import Rendezvous.Text.Blank
import Rendezvous.Text.Literal

/-!
# Class sources of component types

A component type becomes one annotated class: its ports and its initial state, then the declarations
of the model, and one annotated method for every transition and guard.  Declarations and methods are
copied line by line at the indentation of the class body, without blank lines at their ends; lines of
blanks become empty.
-/

namespace Rendezvous

open Text

namespace Source

/-- A line of a source at an indentation level. -/
def indented (level : Nat) (text : String) : String :=
  String.join (List.replicate level "    ") ++ text

/-- A declaration of the model, line by line. -/
def verbatim (level : Nat) (text : String) : List String :=
  (lines (trimEnd text.toList)).map fun l =>
    if isAllBlank l then "" else indented level (String.ofList l)

/-- Lines without the empty ones at their end. -/
def dropEmptyEnd (ls : List String) : List String :=
  (ls.reverse.dropWhile (· = "")).reverse

/-- The text of some lines, each ended by a line feed. -/
def render (ls : List String) : String :=
  String.join (ls.map (· ++ "\n"))

end Source

namespace Component

open Source

/-- The declaration of one port; all but the last are followed by a comma. -/
def portLines : List ComponentTransition → List String
  | [] => []
  | t :: rest =>
    indented 1 ("@Port(name = " ++ literal t.name ++ ", type = PortType." ++ t.kind.portType ++ ")"
      ++ if rest.isEmpty then "" else ",") :: portLines rest

/-- The declaration of the ports, if there are any. -/
def portsLines (c : Component) : List String :=
  if c.ports.isEmpty then [] else "@Ports(\x7b" :: (portLines c.ports ++ ["\x7d)"])

/-- The annotation of a transition.  Internal transitions have no name, and only guarded ones name
their guard. -/
def transitionHeader (t : ComponentTransition) : String :=
  "@Transition(name = " ++ literal (if t.kind = .internal then "" else t.name)
    ++ ", source = " ++ literal t.source ++ ", target = " ++ literal t.target
    ++ (if t.guard = "" then "" else ", guard = " ++ literal t.guard) ++ ")"

/-- A transition's annotation and method. -/
def transitionLines (t : ComponentTransition) : List String :=
  indented 1 (transitionHeader t) :: (verbatim 1 t.method ++ [""])

/-- A guard's annotation and method. -/
def guardLines (g : ComponentGuard) : List String :=
  indented 1 ("@Guard(name = " ++ literal g.name ++ ")") :: (verbatim 1 g.method ++ [""])

/-- The declarations outside the methods. -/
def definitionLines (c : Component) : List String :=
  if isAllBlank c.definitions.toList then [] else verbatim 1 c.definitions ++ [""]

/-- The lines before the class body. -/
def headerLines (c : Component) : List String :=
  ["import org.javabip.annotations.*;", "import org.javabip.api.PortType;", ""]
    ++ c.portsLines
    ++ ["@ComponentType(initial = " ++ literal (c.initialState?.getD "") ++ ", name = "
          ++ literal c.name ++ ")",
      "public class " ++ c.name ++ " \x7b"]

/-- The lines of the class body. -/
def bodyLines (c : Component) : List String :=
  c.definitionLines ++ c.transitions.flatMap transitionLines ++ c.guards.flatMap guardLines

/-- The class source of a component type. -/
def source (c : Component) : String :=
  render (c.headerLines ++ dropEmptyEnd c.bodyLines ++ ["\x7d"])

/-- The name of a class source. -/
def sourceFile (className : String) : String :=
  className ++ ".java"

end Component

/-- The class sources of some component types, by file name. -/
def Store.componentSources (s : Store) (types : List Path) : Table String String :=
  Table.ofList (types.map fun p =>
    let c := Component.ofStore s p
    (Component.sourceFile c.name, c.source))

end Rendezvous
