import Rendezvous.Architecture.Annotations
import Rendezvous.Config.Cardinality

/-!
# Architectures

An architecture sorts the instance nodes of a store into component types, ports, connectors and
connections.  A connector whose destination is another connector is a sub-connector: it adds an end
to the motif of that other connector.  Every other connector is binary and gets the targets of its
two pointers as its first ends.  A connection joins a connector end to a port.
-/

namespace Rendezvous

open Arithmetic

/-- The parts of an architecture, each in load order, with what is derived from them. -/
structure Architecture where
  componentTypes : List Path
  ports : List Path
  /-- The binary connectors, each the head of one motif. -/
  connectors : List Path
  /-- The connectors that extend another connector. -/
  subConnectors : List Path
  /-- The sources of connections. -/
  connectorEnds : List Path
  connections : List Path
  /-- The letters used as cardinalities. -/
  parameters : Parameters
  annotations : Annotations
  deriving DecidableEq

namespace Architecture

/-- The architecture without parts. -/
def empty : Architecture := ⟨[], [], [], [], [], [], .empty, .empty⟩

instance : Inhabited Architecture := ⟨empty⟩

/-- The connector of an end. -/
def connectorOf? (a : Architecture) (p : Path) : Option Path :=
  a.annotations.connectorOf? p

/-- The ends of a connector. -/
def ends (a : Architecture) (p : Path) : List Path :=
  a.annotations.ends p

def cardinality? (a : Architecture) (p : Path) : Option UInt32 :=
  a.annotations.cardinality? p

/-! ## Component types -/

/-- The enforceable transitions among the children of a node. -/
def enforceablePorts (s : Store) (node : Path) : List Path :=
  (s.children node).filter fun c => s.isA c .enforceableTransition

/-- The letter of a cardinality. -/
def letterOf? : Cardinality → Option Char
  | .parameter letter => some letter
  | _ => none

/-- Records the cardinality of a component type, and its letter if it has one. -/
def annotateType (node : Path) (value : Option UInt32) (letter : Option Char)
    (a : Annotations) : Annotations :=
  a.modify node fun d =>
    { d with
      cardinality := value
      cardinalityParameter := match letter with
        | some c => some c
        | none => d.cardinalityParameter }

/-- Adds a component type and its ports, which have the cardinality of the type. -/
def addComponentType (s : Store) (config : Config) (a : Architecture) (node : Path) :
    Architecture :=
  let cardinality := Cardinality.read (s.attributeText node Attribute.cardinality)
  let value := cardinality.resolve config
  let letter := letterOf? cardinality
  let ports := enforceablePorts s node
  { a with
    componentTypes := a.componentTypes ++ [node]
    ports := a.ports ++ ports
    parameters := letter.elim a.parameters a.parameters.insert
    annotations := ports.foldl (fun t p => t.setCardinality p value)
      (annotateType node value letter a.annotations) }

/-! ## Connectors -/

/-- Whether the destination of a connector is a connector. -/
def isSubConnector (s : Store) (node : Path) : Bool :=
  ((s.pointer? node Pointer.destination).map fun d => s.isA d .connector).getD false

/-- The targets of a connector's pointers, source first. -/
def connectorTargets (s : Store) (node : Path) : List Path :=
  (s.pointer? node Pointer.source).toList ++ (s.pointer? node Pointer.destination).toList

/-- Adds a connector.  A binary one gets its ends, a sub-connector waits for its motif. -/
def addConnector (s : Store) (a : Architecture) (node : Path) : Architecture :=
  if isSubConnector s node then { a with subConnectors := a.subConnectors ++ [node] }
  else
    { a with
      connectors := a.connectors ++ [node]
      annotations :=
        ((connectorTargets s node).foldl (fun t e => t.attach node e) a.annotations).touch node }

/-! ## Connections -/

/-- Records the expressions of an end and, unless it has one already, its port. -/
def annotateEnd (s : Store) (e : Path) (port : Option Path) (a : Annotations) : Annotations :=
  a.modify e fun d =>
    { d with
      degree := some (s.attributeText e Attribute.degree)
      multiplicity := some (s.attributeText e Attribute.multiplicity)
      port := match d.port with
        | some p => some p
        | none => port }

/-- The end that a connection starts from.  A connection from a connector exports a port of a nested
motif and has none. -/
def connectionEnd? (s : Store) (node : Path) : Option Path :=
  (s.pointer? node Pointer.source).filter fun e => !s.isA e .connector

/-- Adds a connection and the end that it starts from. -/
def addConnection (s : Store) (a : Architecture) (node : Path) : Architecture :=
  let a := { a with connections := a.connections ++ [node] }
  match connectionEnd? s node with
  | none => a
  | some e =>
    { a with
      connectorEnds := if a.connectorEnds.contains e then a.connectorEnds
        else a.connectorEnds ++ [e]
      annotations := annotateEnd s e (s.pointer? node Pointer.destination) a.annotations }

/-! ## Building -/

/-- Adds a node if it is an instance that an architecture is made of. -/
def addNode (s : Store) (config : Config) (a : Architecture) (node : Path) : Architecture :=
  if s.isInstance node then
    match s.metaType? node with
    | some .componentType => addComponentType s config a node
    | some .connector => addConnector s a node
    | some .connection => addConnection s a node
    | _ => a
  else a

/-- The architecture of a store under a configuration. -/
def build (s : Store) (config : Config) : Architecture :=
  s.paths.foldl (addNode s config) empty

end Architecture

end Rendezvous
