import Rendezvous.Architecture.Basic
import Rendezvous.Check.Violation

/-!
# Motifs

A motif is a binary connector with the ends that sub-connectors add to it.  Resolving motifs first
gives every connector end the cardinality of the port it is connected to, then attaches the source of
every sub-connector to the connector at the end of its chain of destinations.  A source that reaches
no connector is reported.
-/

namespace Rendezvous.Architecture

/-! ## Cardinalities of ends -/

/-- Gives the end of a connection the cardinality of the connection's port. -/
def deriveCardinality (s : Store) (a : Annotations) (connection : Path) : Annotations :=
  match connectionEnd? s connection with
  | none => a
  | some e =>
    a.setCardinality e ((s.pointer? connection Pointer.destination).bind a.cardinality?)

/-- Gives all ends of connections their cardinalities. -/
def deriveCardinalities (s : Store) (a : Architecture) : Architecture :=
  { a with annotations := a.connections.foldl (deriveCardinality s) a.annotations }

/-! ## Chains of sub-connectors -/

/-- Where following destinations ends. -/
inductive ChainEnd where
  /-- At a binary connector. -/
  | connector (node : Path)
  /-- At a node that is no connector of the architecture, or that was visited before. -/
  | stuck (node : Path)
  /-- At a sub-connector without a destination. -/
  | broken
  deriving DecidableEq, Repr, Inhabited

/-- A list of nodes without one of them. -/
def without (nodes : List Path) (p : Path) : List Path :=
  nodes.filter (· ≠ p)

theorem length_without_lt {nodes : List Path} {p : Path} (h : p ∈ nodes) :
    (without nodes p).length < nodes.length :=
  List.length_filter_lt_length_iff_exists.2 ⟨p, h, by simp⟩

/-- Follows destinations from `target`.  `fresh` are the sub-connectors not yet visited. -/
def followChain (s : Store) (connectors : List Path) (fresh : List Path) (target : Path) :
    ChainEnd :=
  if connectors.contains target then .connector target
  else if _h : target ∈ fresh then
    match s.pointer? target Pointer.destination with
    | some next => followChain s connectors (without fresh target) next
    | none => .broken
  else .stuck target
  termination_by fresh.length
  decreasing_by exact length_without_lt _h

/-- The connector that a node's source is attached to, if any. -/
def holderOfSource? (s : Store) (a : Architecture) (node : Path) : Option Path :=
  (s.pointer? node Pointer.source).bind fun e =>
    a.connectors.find? fun c => (a.ends c).contains e

/-- The binary connector whose motif a sub-connector extends.  Where its chain gets stuck, that is
the connector which already holds the source of the node reached. -/
def motifOf? (s : Store) (a : Architecture) (sub : Path) : Option Path :=
  (s.pointer? sub Pointer.destination).bind fun target =>
    match followChain s a.connectors (without a.subConnectors sub) target with
    | .connector c => some c
    | .stuck node => holderOfSource? s a node
    | .broken => none

/-! ## Attaching sub-connectors -/

/-- The violation of an end without a motif. -/
def orphanedEndMessage (e : Path) : String :=
  "Connector end [" ++ e ++ "] is not attached to any connector motif."

/-- Attaches the source of a sub-connector to its motif, unless it belongs to a connector already. -/
def attachSubConnector (s : Store) (r : Architecture × Report) (sub : Path) :
    Architecture × Report :=
  match s.pointer? sub Pointer.source with
  | none => r
  | some e =>
    if (r.1.connectorOf? e).isSome then r
    else
      match motifOf? s r.1 sub with
      | some c => ({ r.1 with annotations := r.1.annotations.attach c e }, r.2)
      | none => (r.1, r.2.add e Code.orphanedEnd (orphanedEndMessage e))

/-- Gives ends their cardinalities and attaches all sub-connectors in load order. -/
def resolveMotifs (s : Store) (a : Architecture) (report : Report) : Architecture × Report :=
  a.subConnectors.foldl (attachSubConnector s) (deriveCardinalities s a, report)

end Rendezvous.Architecture
