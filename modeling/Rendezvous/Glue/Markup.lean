import Rendezvous.Glue.Basic

/-!
# Glue as markup

The glue is written as an XML document of two sections, the accepted ports of every effect and then
the requirements of every effect.  Every tag stands on a line of its own, indented by four spaces for
each element around it; attribute values escape the five characters that markup uses.  A list of ports
without entries is one empty element.
-/

namespace Rendezvous.Glue

/-- How a character is written in an attribute value. -/
def escapeChar : Char → List Char
  | '<' => ['&', 'l', 't', ';']
  | '>' => ['&', 'g', 't', ';']
  | '&' => ['&', 'a', 'm', 'p', ';']
  | '\'' => ['&', 'a', 'p', 'o', 's', ';']
  | '"' => ['&', 'q', 'u', 'o', 't', ';']
  | c => [c]

/-- An attribute value with its special characters escaped. -/
def escape (value : String) : String :=
  String.ofList (value.toList.flatMap escapeChar)

/-- The indentation of a tag inside `depth` elements. -/
def indentation (depth : Nat) : String :=
  String.ofList (List.replicate (4 * depth) ' ')

/-- A tag on its line. -/
def tagLine (depth : Nat) (tag : String) : String :=
  indentation depth ++ tag ++ "\n"

/-- An element with the lines of its content. -/
def element (depth : Nat) (name content : String) : String :=
  tagLine depth ("<" ++ name ++ ">") ++ content ++ tagLine depth ("</" ++ name ++ ">")

/-- An element that names a port. -/
def portElement (depth : Nat) (name : String) (p : Port) : String :=
  tagLine depth ("<" ++ name ++ " id=\"" ++ escape p.id ++ "\" specType=\"" ++ escape p.specType
    ++ "\"/>")

/-- A list of ports. -/
def causesElement (depth : Nat) (ports : List Port) : String :=
  if ports.isEmpty then tagLine depth "<causes/>"
  else element depth "causes" (String.join (ports.map (portElement (depth + 1) "port")))

/-- The accepted ports of an effect. -/
def acceptElement (p : Port) (e : Effect) : String :=
  element 2 "accept" (portElement 3 "effect" p ++ causesElement 3 e.accepts)

/-- One option of an effect. -/
def optionElement (ports : List Port) : String :=
  element 4 "option" (causesElement 5 ports)

/-- The requirements of an effect. -/
def requireElement (p : Port) (e : Effect) : String :=
  element 2 "require" (portElement 3 "effect" p
    ++ element 3 "causes" (String.join (e.requires.map optionElement)))

/-- The document of a glue. -/
def markup (g : Glue) : String :=
  tagLine 0 "<?xml version=\"1.0\" encoding=\"UTF-8\" standalone=\"yes\"?>"
    ++ element 0 "glue"
      (element 1 "accepts" (String.join (g.effects.entries.map fun e => acceptElement e.1 e.2))
        ++ element 1 "requires" (String.join (g.effects.entries.map fun e => requireElement e.1 e.2)))

end Rendezvous.Glue
