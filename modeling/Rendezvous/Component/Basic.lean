import Rendezvous.Store.Basic

/-!
# Component types

A component type is a state machine: its direct children are its states, transitions and guards.
Transitions name the states they connect; a pointer that is missing, or leads to a node without a
name, names the empty state.
-/

namespace Rendezvous

/-- Who triggers a transition. -/
inductive TransitionKind where
  /-- The engine, through a connector. -/
  | enforceable
  /-- The environment. -/
  | spontaneous
  /-- The component itself. -/
  | internal
  deriving DecidableEq, Repr, Inhabited

namespace TransitionKind

/-- The kind of transition that a meta-type stands for. -/
def ofMetaType? : MetaType → Option TransitionKind
  | .enforceableTransition => some enforceable
  | .spontaneousTransition => some spontaneous
  | .internalTransition => some internal
  | _ => none

/-- Whether transitions of this kind are ports. -/
def isPort : TransitionKind → Bool
  | internal => false
  | _ => true

/-- How class sources call the kind. -/
def portType : TransitionKind → String
  | enforceable => "enforceable"
  | spontaneous => "spontaneous"
  | internal => "internal"

end TransitionKind

/-- A state of a component type. -/
structure ComponentState where
  node : Path
  name : String
  isInitial : Bool
  deriving DecidableEq, Repr, Inhabited

/-- A transition of a component type. -/
structure ComponentTransition where
  node : Path
  kind : TransitionKind
  name : String
  /-- The name of the state it starts from. -/
  source : String
  /-- The name of the state it leads to. -/
  target : String
  /-- The guard expression, empty when it is unguarded. -/
  guard : String
  /-- The declaration of its method. -/
  method : String
  deriving DecidableEq, Repr, Inhabited

/-- A guard of a component type. -/
structure ComponentGuard where
  node : Path
  name : String
  /-- The declaration of its method. -/
  method : String
  deriving DecidableEq, Repr, Inhabited

/-- The state machine of a component type. -/
structure Component where
  node : Path
  name : String
  /-- The cardinality text. -/
  cardinality : String
  states : List ComponentState
  transitions : List ComponentTransition
  guards : List ComponentGuard
  /-- Declarations outside the methods. -/
  definitions : String
  deriving DecidableEq, Repr, Inhabited

namespace Component

/-- The state that a node stands for. -/
def state? (s : Store) (node : Path) : Option ComponentState :=
  (s.metaType? node).bind fun m =>
    if m.isA .state then some ⟨node, s.nameOf node, m = .initialState⟩ else none

/-- The name of the target of a pointer. -/
def targetName (s : Store) (node : Path) (pointer : String) : String :=
  ((s.pointer? node pointer).map s.nameOf).getD ""

/-- The transition that a node stands for. -/
def transition? (s : Store) (node : Path) : Option ComponentTransition :=
  ((s.metaType? node).bind TransitionKind.ofMetaType?).map fun kind =>
    { node, kind
      name := s.nameOf node
      source := targetName s node Pointer.source
      target := targetName s node Pointer.destination
      guard := s.attributeText node Attribute.guard
      method := s.attributeText node Attribute.transitionMethod }

/-- The guard that a node stands for. -/
def guard? (s : Store) (node : Path) : Option ComponentGuard :=
  (s.metaType? node).bind fun m =>
    if m = .guard then some ⟨node, s.nameOf node, s.attributeText node Attribute.guardMethod⟩
    else none

/-- The component type of a node and its direct children. -/
def ofStore (s : Store) (node : Path) : Component where
  node := node
  name := s.nameOf node
  cardinality := s.attributeText node Attribute.cardinality
  states := (s.children node).filterMap (state? s)
  transitions := (s.children node).filterMap (transition? s)
  guards := (s.children node).filterMap (guard? s)
  definitions := s.attributeText node Attribute.definitions

/-- The name of the first initial state. -/
def initialState? (c : Component) : Option String :=
  (c.states.find? ComponentState.isInitial).map ComponentState.name

/-- The transitions that are ports. -/
def ports (c : Component) : List ComponentTransition :=
  c.transitions.filter fun t => t.kind.isPort

end Component

/-- The component types that take part in the architecture, in load order. -/
def Store.componentTypes (s : Store) : List Path :=
  s.paths.filter fun p => s.isInstance p && s.metaType? p == some .componentType

end Rendezvous
