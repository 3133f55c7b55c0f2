import Rendezvous.Store.Basic

/-!
# Derived values of nodes

What building and checking an architecture finds out about a node is kept in a side table, so that
the store itself stays as it was loaded.  Attaching an end to a connector writes both directions: the
end joins the connector's list, and the connector becomes the end's.
-/

namespace Rendezvous

/-- The derived values of a node. -/
structure Derived where
  /-- The number of instances behind a component type, a port or a connector end. -/
  cardinality : Option UInt32
  /-- The letter of a component type's cardinality. -/
  cardinalityParameter : Option Char
  /-- The connector that an end belongs to. -/
  connector : Option Path
  /-- The ends of a connector, in the order in which they were attached. -/
  ends : List Path
  /-- The port that an end is connected to. -/
  port : Option Path
  /-- The text of an end's degree. -/
  degree : Option String
  /-- The text of an end's multiplicity. -/
  multiplicity : Option String
  resolvedDegree : Option Nat
  resolvedMultiplicity : Option Nat
  /-- Degree times cardinality over multiplicity. -/
  matchingFactor : Option Nat
  deriving DecidableEq, Repr

namespace Derived

/-- Nothing is known. -/
def empty : Derived :=
  ⟨none, none, none, [], none, none, none, none, none, none⟩

instance : Inhabited Derived := ⟨empty⟩

end Derived

/-- The derived values of the nodes that have any. -/
structure Annotations where
  table : Table Path Derived
  deriving DecidableEq

namespace Annotations

/-- No node has a record. -/
def empty : Annotations := ⟨.empty⟩

instance : Inhabited Annotations := ⟨empty⟩

/-- The record of a node. -/
def get? (a : Annotations) (p : Path) : Option Derived :=
  a.table.get? p

/-- The record of a node, empty when there is none. -/
def get (a : Annotations) (p : Path) : Derived :=
  (a.get? p).getD .empty

/-- Changes the record of a node, creating it when there is none. -/
def modify (a : Annotations) (p : Path) (f : Derived → Derived) : Annotations :=
  ⟨a.table.update p .empty f⟩

/-- Makes sure that a node has a record. -/
def touch (a : Annotations) (p : Path) : Annotations :=
  a.modify p id

def cardinality? (a : Annotations) (p : Path) : Option UInt32 :=
  (a.get p).cardinality

def cardinalityParameter? (a : Annotations) (p : Path) : Option Char :=
  (a.get p).cardinalityParameter

def connectorOf? (a : Annotations) (p : Path) : Option Path :=
  (a.get p).connector

def portOf? (a : Annotations) (p : Path) : Option Path :=
  (a.get p).port

def ends (a : Annotations) (p : Path) : List Path :=
  (a.get p).ends

def size (a : Annotations) : Nat :=
  a.table.size

def isEmpty (a : Annotations) : Bool :=
  a.table.isEmpty

def setCardinality (a : Annotations) (p : Path) (value : Option UInt32) : Annotations :=
  a.modify p fun d => { d with cardinality := value }

def setPort (a : Annotations) (p : Path) (value : Option Path) : Annotations :=
  a.modify p fun d => { d with port := value }

/-- Whether an end could still be attached to a connector. -/
def canAttach (a : Annotations) (connector e : Path) : Bool :=
  !(a.ends connector).contains e

/-- Attaches an end to a connector, unless it is attached there already. -/
def attach (a : Annotations) (connector e : Path) : Annotations :=
  if a.canAttach connector e then
    (a.modify connector fun d => { d with ends := d.ends ++ [e] }).modify e fun d =>
      { d with connector := some connector }
  else a

/-! ## The record view -/

theorem get?_modify (a : Annotations) (p q : Path) (f : Derived → Derived) :
    (a.modify p f).get? q = if p = q then some (f (a.get p)) else a.get? q := by
  simp [modify, get?, get, Table.update]

theorem get_modify (a : Annotations) (p q : Path) (f : Derived → Derived) :
    (a.modify p f).get q = if p = q then f (a.get p) else a.get q := by
  rw [get, get?_modify]
  split <;> simp [get]

theorem ends_modify (a : Annotations) (p q : Path) (f : Derived → Derived) :
    (a.modify p f).ends q = if p = q then (f (a.get p)).ends else a.ends q := by
  rw [ends, get_modify]
  split <;> rfl

theorem ends_attach (a : Annotations) (connector e p : Path) :
    (a.attach connector e).ends p =
      if connector = p ∧ e ∉ a.ends p then a.ends p ++ [e] else a.ends p := by
  unfold attach
  split
  · next h =>
    have hc : e ∉ a.ends connector := by simpa [canAttach] using h
    rw [ends_modify]
    split
    · next he =>
      subst he
      show ((a.modify connector _).get e).ends = _
      rw [← ends, ends_modify]
      by_cases hp : connector = e
      · subst hp
        rw [if_pos rfl, if_pos ⟨rfl, hc⟩]
        rfl
      · simp [hp]
    · rw [ends_modify]
      by_cases hp : connector = p
      · subst hp
        rw [if_pos rfl, if_pos ⟨rfl, hc⟩]
        rfl
      · simp [hp]
  · next h =>
    have hc : e ∈ a.ends connector := by simpa [canAttach] using h
    rw [if_neg]
    rintro ⟨rfl, hn⟩
    exact hn hc

end Annotations

end Rendezvous
