/-!
# Meta-types

Every node of a model has a meta-type that says what it stands for: parts of a component's behaviour,
parts of the architecture that connects components, or containers of templates.  Names outside this
vocabulary stand for `other`.
-/

namespace Rendezvous

/-- What a node of a model stands for. -/
inductive MetaType where
  | componentType
  | enforceableTransition
  | spontaneousTransition
  | internalTransition
  | state
  | initialState
  | guard
  | connector
  | connection
  | synchron
  | trigger
  | architectureStyle
  | componentTypesLibrary
  | other
  deriving DecidableEq, Repr, Inhabited

namespace MetaType

/-- The meta-types that have a name of their own. -/
def named : List MetaType :=
  [componentType, enforceableTransition, spontaneousTransition, internalTransition, state,
    initialState, guard, connector, connection, synchron, trigger, architectureStyle,
    componentTypesLibrary]

/-- The name of a meta-type. -/
def name : MetaType → String
  | componentType => "ComponentType"
  | enforceableTransition => "EnforceableTransition"
  | spontaneousTransition => "SpontaneousTransition"
  | internalTransition => "InternalTransition"
  | state => "State"
  | initialState => "InitialState"
  | guard => "Guard"
  | connector => "Connector"
  | connection => "Connection"
  | synchron => "Synchron"
  | trigger => "Trigger"
  | architectureStyle => "ArchitectureStyle"
  | componentTypesLibrary => "ComponentTypesLibrary"
  | other => "Other"

/-- The meta-type of a name; any unknown name stands for `other`. -/
def ofName (n : String) : MetaType :=
  (named.find? fun m => m.name == n).getD other

/-- Whether nodes of this meta-type are instances of another: an initial state is a state. -/
def isA (m kind : MetaType) : Bool :=
  m == kind || (m == initialState && kind == state)

def isTransition : MetaType → Bool
  | enforceableTransition | spontaneousTransition | internalTransition => true
  | _ => false

/-- Whether transitions of this meta-type are ports of their component. -/
def isPortTransition : MetaType → Bool
  | enforceableTransition | spontaneousTransition => true
  | _ => false

def isConnectorEnd : MetaType → Bool
  | synchron | trigger => true
  | _ => false

/-- Whether the children of such nodes are templates and not part of the architecture. -/
def isTemplateContainer : MetaType → Bool
  | architectureStyle | componentTypesLibrary => true
  | _ => false

theorem ofName_name (m : MetaType) : ofName m.name = m := by
  cases m <;> decide

end MetaType

end Rendezvous
