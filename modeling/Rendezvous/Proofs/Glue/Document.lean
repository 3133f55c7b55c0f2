import Rendezvous.Glue.Markup
import Rendezvous.Proofs.Table
import Rendezvous.Proofs.Xml.Reader

/-!
# Reading a glue from its document

The document of a glue lists its effects twice, once with the ports that they accept and once with what
they require.  Read as an XML document it has one element for each part of the glue (`reads_markup`):
names cannot pretend to be markup, because a reader takes everything up to the next quote for the value
of an attribute, and a value has no quote left (`run_escape`).  The glue is then put together from the
elements, and it is the one that was written (`markup_lossless`).
-/

namespace Rendezvous.Glue

open Xml

/-! ## Reading the elements -/

/-- The content of an element with a name. -/
def content? (name : String) (e : Element) : Option (List Element) :=
  if e.name = name then some e.content else none

/-- The port that an element with a name refers to. -/
def port? (name : String) (e : Element) : Option Port :=
  match content? name e, e.attribute? "id", e.attribute? "specType" with
  | some [], some id, some specType => some ⟨specType, id⟩
  | _, _, _ => none

/-- What the elements inside an element with a name stand for. -/
def list? {α : Type} (name : String) (read : Element → Option α) (e : Element) : Option (List α) :=
  (content? name e).bind fun es => es.mapM read

/-- A list of ports. -/
def causes? (e : Element) : Option (List Port) :=
  list? "causes" (port? "port") e

/-- An option, which wraps one list of ports. -/
def option? (e : Element) : Option (List Port) :=
  match content? "option" e with
  | some [causes] => causes? causes
  | _ => none

/-- What an element says about an effect, with the port of the effect. -/
def constraint? {α : Type} (name : String) (read : Element → Option α) (e : Element) :
    Option (Port × α) :=
  match content? name e with
  | some [effect, causes] => (port? "effect" effect).bind fun p => (read causes).map fun x => (p, x)
  | _ => none

/-- The glue of two sections, which have to list the same effects in the same order. -/
def ofSections? (accepts : List (Port × List Port)) (requires : List (Port × List (List Port))) :
    Option Glue :=
  if requires.map Prod.fst = accepts.map Prod.fst then
    some ⟨.ofList (List.zipWith (fun a r => (a.1, ⟨a.2, r.2⟩)) accepts requires)⟩
  else none

/-- The glue that an element describes. -/
def ofElement? (e : Element) : Option Glue :=
  match content? "glue" e with
  | some [first, second] =>
    (list? "accepts" (constraint? "accept" causes?) first).bind fun accepts =>
      (list? "requires" (constraint? "require" (list? "causes" option?)) second).bind fun requires =>
        ofSections? accepts requires
  | _ => none

/-- The glue that a document describes. -/
def read? (text : String) : Option Glue :=
  (document? text).bind ofElement?

/-! ## The elements of a glue -/

def portNode (name : String) (p : Port) : Element :=
  .node name [("id", p.id), ("specType", p.specType)] []

def listNode {α : Type} (name : String) (f : α → Element) (xs : List α) : Element :=
  .node name [] (xs.map f)

def causesNode (ports : List Port) : Element :=
  listNode "causes" (portNode "port") ports

def optionNode (ports : List Port) : Element :=
  .node "option" [] [causesNode ports]

def constraintNode {α : Type} (name : String) (f : α → Element) (c : Port × α) : Element :=
  .node name [] [portNode "effect" c.1, f c.2]

/-- The ports that every effect accepts. -/
def acceptSection (g : Glue) : List (Port × List Port) :=
  g.effects.entries.map fun e => (e.1, e.2.accepts)

/-- The options that every effect has. -/
def requireSection (g : Glue) : List (Port × List (List Port)) :=
  g.effects.entries.map fun e => (e.1, e.2.requires)

def glueNode (g : Glue) : Element :=
  .node "glue" [] [
    listNode "accepts" (constraintNode "accept" causesNode) g.acceptSection,
    listNode "requires" (constraintNode "require" (listNode "causes" optionNode)) g.requireSection]

/-! ### Reading inverts writing -/

theorem port?_portNode (name : String) (p : Port) : port? name (portNode name p) = some p := by
  have hcontent : content? name (portNode name p) = some [] := if_pos rfl
  have hid : (portNode name p).attribute? "id" = some p.id := rfl
  have hspecType : (portNode name p).attribute? "specType" = some p.specType := rfl
  rw [port?, hcontent, hid, hspecType]

theorem mapM_map {α : Type} {read : Element → Option α} {f : α → Element}
    (h : ∀ x, read (f x) = some x) (xs : List α) : (xs.map f).mapM read = some xs := by
  induction xs with
  | nil => rfl
  | cons x xs ih => simp [h, ih]

theorem list?_listNode {α : Type} {read : Element → Option α} {f : α → Element}
    (h : ∀ x, read (f x) = some x) (name : String) (xs : List α) :
    list? name read (listNode name f xs) = some xs := by
  have hcontent : content? name (listNode name f xs) = some (xs.map f) := if_pos rfl
  rw [list?, hcontent, Option.bind_some, mapM_map h]

theorem causes?_causesNode (ports : List Port) : causes? (causesNode ports) = some ports :=
  list?_listNode (port?_portNode "port") "causes" ports

theorem option?_optionNode (ports : List Port) : option? (optionNode ports) = some ports := by
  have hcontent : content? "option" (optionNode ports) = some [causesNode ports] := rfl
  simp only [option?, hcontent, causes?_causesNode]

theorem constraint?_constraintNode {α : Type} {read : Element → Option α} {f : α → Element}
    (h : ∀ x, read (f x) = some x) (name : String) (c : Port × α) :
    constraint? name read (constraintNode name f c) = some c := by
  have hcontent : content? name (constraintNode name f c) = some [portNode "effect" c.1, f c.2] :=
    if_pos rfl
  simp only [constraint?, hcontent, port?_portNode, h, Option.bind_some, Option.map_some]

/-- The sections of a glue make up the glue. -/
theorem ofSections?_sections (g : Glue) :
    ofSections? g.acceptSection g.requireSection = some g := by
  have hkeys : g.requireSection.map Prod.fst = g.acceptSection.map Prod.fst := by
    simp [acceptSection, requireSection]
  have hentries : List.zipWith (fun a r => (a.1, (⟨a.2, r.2⟩ : Effect))) g.acceptSection
      g.requireSection = g.effects.entries := by
    rw [acceptSection, requireSection, List.zipWith_map, List.zipWith_self]
    exact List.map_id _
  rw [ofSections?, if_pos hkeys, hentries, Table.ofList_entries]

theorem ofElement?_glueNode (g : Glue) : ofElement? (glueNode g) = some g := by
  have haccepts := list?_listNode (constraint?_constraintNode causes?_causesNode "accept") "accepts"
    g.acceptSection
  have hrequires := list?_listNode (constraint?_constraintNode
    (list?_listNode option?_optionNode "causes") "require") "requires" g.requireSection
  have hcontent : content? "glue" (glueNode g) = some (glueNode g).content := rfl
  rw [ofElement?, hcontent]
  simp only [glueNode, Element.content, haccepts, hrequires, Option.bind_some, ofSections?_sections]

/-! ## Reading the text -/

section
variable {name key : String} {attributes : List (String × String)}

/-- A character is read back from the way it is written in a value. -/
theorem run_escapeChar (chars : List Char) (c : Char) (rest : List Char) :
    run (.value name attributes key chars) (escapeChar c ++ rest) =
      run (.value name attributes key (c :: chars)) rest := by
  unfold escapeChar
  split
  · exact run_reference ['l', 't'] rfl (by decide) chars rest
  · exact run_reference ['g', 't'] rfl (by decide) chars rest
  · exact run_reference ['a', 'm', 'p'] rfl (by decide) chars rest
  · exact run_reference ['a', 'p', 'o', 's'] rfl (by decide) chars rest
  · exact run_reference ['q', 'u', 'o', 't'] rfl (by decide) chars rest
  · next hlt _ hamp _ hquot =>
    refine run_silent ?_
    rw [step, stepValue, if_neg hquot, if_neg hamp, if_neg hlt]

/-- A value ends with its own quote, and is the text that was written. -/
theorem run_escape (value : String) :
    run (.value name attributes key []) ((escape value).toList ++ ['"']) =
      some ([], .inside name (attributes ++ [(key, value)])) := by
  have hchars : ∀ (cs chars : List Char),
      run (.value name attributes key chars) (cs.flatMap escapeChar ++ ['"']) =
        some ([], .inside name (attributes ++ [(key, textOf (cs.reverse ++ chars))])) := by
    intro cs
    induction cs with
    | nil => exact fun chars => rfl
    | cons c cs ih =>
      intro chars
      rw [List.flatMap_cons, List.append_assoc, run_escapeChar, ih, List.reverse_cons,
        List.append_assoc, List.singleton_append]
  rw [escape, String.toList_ofList, hchars, List.append_nil, textOf_reverse]

theorem run_attribute (h : IsName key) (value : String) :
    run (.inside name attributes) (key.toList ++ ['=', '"'] ++ ((escape value).toList ++ ['"'])) =
      some ([], .inside name (attributes ++ [(key, value)])) :=
  run_append (run_key h) (run_escape value)

end

section
variable {content : String} {es : List Element}

theorem run_tagLine {tag : String} {ts : List Tag}
    (h : run .between tag.toList = some (ts, .between)) (depth : Nat) :
    run .between (tagLine depth tag).toList = some (ts, .between) := by
  have hspaces : run .between (indentation depth).toList = some ([], .between) := by
    rw [indentation, String.toList_ofList]
    exact run_spaces (4 * depth)
  have hbreak : run .between "\n".toList = some ([], .between) := rfl
  rw [tagLine, String.toList_append, String.toList_append,
    run_append (run_append hspaces h) hbreak, List.nil_append, List.append_nil]

theorem reads_element {name : String} (hname : IsName name) (h : Reads content es) (depth : Nat) :
    Reads (element depth name content) [.node name [] es] := by
  refine Reads.element (run_tagLine ?_ depth) h (run_tagLine ?_ depth)
  · simpa using run_opening hname
  · simpa using run_closing hname

theorem reads_portElement {name : String} (hname : IsName name) (depth : Nat) (p : Port) :
    Reads (portElement depth name p) [portNode name p] := by
  have hspace : run (.opening name.toList.reverse) [' '] =
      some ([], .inside (textOf name.toList.reverse) []) := rfl
  rw [textOf_reverse] at hspace
  have hid : run (.inside name []) ("id".toList ++ ['=', '"'] ++ ((escape p.id).toList ++ ['"'])) =
      some ([], .inside name [("id", p.id)]) := run_attribute (by decide) p.id
  have hgap : run (.inside name [("id", p.id)]) [' '] =
      some ([], .inside name [("id", p.id)]) := rfl
  have hspecType : run (.inside name [("id", p.id)])
      ("specType".toList ++ ['=', '"'] ++ ((escape p.specType).toList ++ ['"'])) =
      some ([], .inside name [("id", p.id), ("specType", p.specType)]) :=
    run_attribute (by decide) p.specType
  have hend : run (.inside name [("id", p.id), ("specType", p.specType)]) ['/', '>'] =
      some ([.single name [("id", p.id), ("specType", p.specType)]], .between) := rfl
  have hrun := run_append (run_openingName hname) (run_append hspace (run_append hid
    (run_append hgap (run_append hspecType hend))))
  refine reads_single (run_tagLine ?_ depth)
  simpa using hrun

theorem reads_causesElement (depth : Nat) (ports : List Port) :
    Reads (causesElement depth ports) [causesNode ports] := by
  unfold causesElement
  split
  · next h =>
    obtain rfl := List.isEmpty_iff.1 h
    exact reads_single (run_tagLine (by decide) depth)
  · exact reads_element (by decide)
      (reads_join (fun p => reads_portElement (by decide) (depth + 1) p) ports) depth

end

section
variable (p : Port) (e : Effect)

theorem reads_acceptElement :
    Reads (acceptElement p e) [constraintNode "accept" causesNode (p, e.accepts)] :=
  reads_element (by decide)
    ((reads_portElement (by decide) 3 p).append (reads_causesElement 3 e.accepts)) 2

theorem reads_optionElement (ports : List Port) :
    Reads (optionElement ports) [optionNode ports] :=
  reads_element (by decide) (reads_causesElement 5 ports) 4

theorem reads_requireElement : Reads (requireElement p e)
    [constraintNode "require" (listNode "causes" optionNode) (p, e.requires)] := by
  have hcauses : Reads (element 3 "causes" (String.join (e.requires.map optionElement)))
      [listNode "causes" optionNode e.requires] :=
    reads_element (by decide) (reads_join reads_optionElement e.requires) 3
  exact reads_element (by decide) ((reads_portElement (by decide) 3 p).append hcauses) 2

end

/-- The document of a glue has the elements of the glue, and nothing else. -/
theorem reads_markup (g : Glue) : Reads (markup g) [glueNode g] := by
  have haccepts := reads_join (fun e : Port × Effect => reads_acceptElement e.1 e.2)
    g.effects.entries
  have hrequires := reads_join (fun e : Port × Effect => reads_requireElement e.1 e.2)
    g.effects.entries
  have hdeclaration : Reads (tagLine 0 "<?xml version=\"1.0\" encoding=\"UTF-8\" standalone=\"yes\"?>")
      [] := reads_of_run (run_tagLine (by decide) 0)
  have hsections := (reads_element (by decide : IsName "accepts") haccepts 1).append
    (reads_element (by decide : IsName "requires") hrequires 1)
  have hnode : glueNode g = .node "glue" []
      ([.node "accepts" [] (g.effects.entries.map fun e =>
          constraintNode "accept" causesNode (e.1, e.2.accepts))] ++
        [.node "requires" [] (g.effects.entries.map fun e =>
          constraintNode "require" (listNode "causes" optionNode) (e.1, e.2.requires))]) := by
    simp [glueNode, listNode, acceptSection, requireSection, Function.comp_def]
  rw [hnode]
  exact hdeclaration.append (reads_element (by decide : IsName "glue") hsections 0)

/-- **The document determines the glue.**  Reading it gives the same effects in the same order, with the
same accepted ports and the same options, whatever the names of ports and component types are; so no
other glue is written the same way. -/
theorem markup_lossless (g : Glue) :
    read? (markup g) = some g ∧ ∀ g' : Glue, markup g' = markup g → g' = g := by
  have hread : ∀ g : Glue, read? (markup g) = some g := by
    intro g
    rw [read?, (reads_markup g).document?_eq, Option.bind_some, ofElement?_glueNode]
  refine ⟨hread g, fun g' heq => ?_⟩
  have hsame := hread g'
  rw [heq, hread g] at hsame
  exact (Option.some.inj hsame).symm

end Rendezvous.Glue
