import Rendezvous.Architecture.Basic

/-!
# Glue

The glue of an architecture says, for every port at a connector, which ports it accepts to interact
with and which it requires.  An end contributes to the port it is connected to:

* it accepts the ports of the other ends of its connector, and its own when its multiplicity is
  greater than one;
* a trigger requires nothing;
* a synchron end of a connector with triggers requires one of the triggers;
* any other synchron end requires every other end's port as often as its multiplicity says, and its
  own port once less.

What several ends contribute to one port is merged.
-/

namespace Rendezvous

/-- A port, by the names of its component type and of itself. -/
structure Port where
  specType : String
  id : String
  deriving DecidableEq, Repr, Inhabited

/-- What the glue says about a port. -/
structure Effect where
  /-- The ports that it may interact with, without repetition. -/
  accepts : List Port
  /-- The alternatives of what it needs; an empty one needs nothing. -/
  requires : List (List Port)
  deriving DecidableEq, Repr, Inhabited

namespace Effect

/-- Nothing is accepted and nothing is said about requirements. -/
def empty : Effect := ⟨[], []⟩

end Effect

/-- Appends a value unless it is there already. -/
def insertNew {α : Type} [DecidableEq α] (xs : List α) (x : α) : List α :=
  if x ∈ xs then xs else xs ++ [x]

/-- The effects of ports, in the order in which the ports were met. -/
structure Glue where
  effects : Table Port Effect
  deriving DecidableEq

/-- A connector end as the glue sees it. -/
structure GlueEnd where
  port : Port
  multiplicity : Nat
  isTrigger : Bool
  deriving DecidableEq, Repr, Inhabited

namespace Glue

/-- The glue without effects. -/
def empty : Glue := ⟨.empty⟩

instance : Inhabited Glue := ⟨empty⟩

/-- The ports that an end accepts, given the other ends of its connector. -/
def accepted (e : GlueEnd) (others : List GlueEnd) : List Port :=
  others.map GlueEnd.port ++ if 1 < e.multiplicity then [e.port] else []

/-- The one option of a synchron end without triggers around it. -/
def synchronOption (e : GlueEnd) (others : List GlueEnd) : List Port :=
  (others.flatMap fun o => List.replicate o.multiplicity o.port)
    ++ List.replicate (e.multiplicity - 1) e.port

/-- The options of an end, given the triggers and the other ends of its connector. -/
def options (e : GlueEnd) (triggers : List Port) (others : List GlueEnd) : List (List Port) :=
  if e.isTrigger then [[]]
  else if triggers.isEmpty then [synchronOption e others]
  else triggers.map fun t => [t]

/-- Adds accepted ports and options to an effect. -/
def mergeEffect (accepts : List Port) (options : List (List Port)) (e : Effect) : Effect :=
  ⟨accepts.foldl insertNew e.accepts, options.foldl insertNew e.requires⟩

/-- Adds what an end contributes. -/
def addEnd (triggers : List Port) (g : Glue) (e : GlueEnd) (others : List GlueEnd) : Glue :=
  ⟨g.effects.update e.port .empty (mergeEffect (accepted e others) (options e triggers others))⟩

/-- Every element of a list with the list of the others. -/
def withOthers {α : Type} : List α → List α → List (α × List α)
  | _, [] => []
  | before, x :: after => (x, before ++ after) :: withOthers (before ++ [x]) after

/-- Adds what the ends of one connector contribute. -/
def addConnector (g : Glue) (ends : List GlueEnd) : Glue :=
  let triggers := (ends.filter GlueEnd.isTrigger).map GlueEnd.port
  (withOthers [] ends).foldl (fun g p => addEnd triggers g p.1 p.2) g

/-- The port of a node. -/
def portOfNode (s : Store) (node : Path) : Port :=
  ⟨((s.parent? node).map s.nameOf).getD "", s.nameOf node⟩

/-- An end as the glue sees it, if it is connected to a port.  An end whose multiplicity is not
resolved counts once. -/
def end? (s : Store) (a : Architecture) (e : Path) : Option GlueEnd :=
  (a.annotations.portOf? e).map fun port =>
    ⟨portOfNode s port, ((a.annotations.get e).resolvedMultiplicity).getD 1, s.isA e .trigger⟩

/-- The glue of an architecture. -/
def ofArchitecture (s : Store) (a : Architecture) : Glue :=
  a.connectors.foldl (fun g c => g.addConnector ((a.ends c).filterMap (end? s a))) empty

end Glue

end Rendezvous
