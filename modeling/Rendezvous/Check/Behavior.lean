import Rendezvous.Check.Violation
import Rendezvous.Guard.Grammar
import Rendezvous.Text.Blank
import Rendezvous.Text.Identifier

/-!
# Checking behaviour

Component types need distinct names that can name classes.  Within a component type, states need
distinct names and one of them has to be initial; transitions need a source, a destination and a
method, and those that are ports distinct names; guards need distinct names and a method.  The guard
of a transition has to be an expression over the guards of its component type, and is checked once all
of them are known.
-/

namespace Rendezvous

open Text

/-- Whether a text can name a class. -/
def isClassName (name : String) : Bool :=
  isIdentifier name.toList

namespace Behavior

/-! ## Messages -/

def duplicateTypeMessage (name : String) (node : Path) : String :=
  "Name [" ++ name ++ "] of component type [" ++ node
    ++ "] is not unique. Please rename. Component types must have unique names."

def invalidClassNameMessage (name : String) (node : Path) : String :=
  "Name [" ++ name ++ "] of component type [" ++ node
    ++ "] is not a valid Java class name. Please rename."

def missingInitialStateMessage (typeName : String) : String :=
  "Component type [" ++ typeName
    ++ "] does not have an initial state. Please define an initial state."

def duplicateStateMessage (name : String) (node : Path) (typeName : String) : String :=
  "Name [" ++ name ++ "] of state [" ++ node ++ "] in component type [" ++ typeName
    ++ "] is not unique. Please rename. States that belong to the same component type must have "
    ++ "unique names."

def missingDestinationMessage (name : String) : String :=
  "Transition [" ++ name
    ++ "] with no destination encountered. Please connect or remove it."

def missingSourceMessage (name : String) : String :=
  "Transition [" ++ name ++ "] with no source encountered. Please connect or remove it."

def missingTransitionMethodMessage (name : String) : String :=
  "Attribute transitionMethod of transition [" ++ name
    ++ "] is not defined. Please define transitionMethod."

def duplicateTransitionMessage (name : String) (node : Path) : String :=
  "Name [" ++ name ++ "] of transition [" ++ node
    ++ "] is not unique. Please rename. Enforceable and spontaneous transitions of the same "
    ++ "component type must have unique names."

def duplicateGuardMessage (name : String) : String :=
  "Name [" ++ name ++ "] of guard is not unique. Please rename. Guards of the same component type "
    ++ "must have unique names."

def missingGuardMethodMessage (name : String) : String :=
  "Attribute guardMethod of guard [" ++ name ++ "] is not defined. Please define guardMethod."

def invalidGuardMessage (guard : String) : String :=
  "Guard expression [" ++ guard ++ "] is not a logical expression that has only defined guard names "
    ++ "as symbols. Please update. The allowed symbols of logical operators are: & for conjunction, "
    ++ "| for disjunction and ! for negation."

def invalidArchitectureNameMessage (name : String) (node : Path) : String :=
  "Name [" ++ name ++ "] of architecture [" ++ node
    ++ "] does not give a valid Java class name once whitespace is removed. Please rename."

/-! ## Children of a component type -/

/-- Adds a finding when a condition holds. -/
def addIf (condition : Bool) (node : Path) (code message : String) (report : Report) : Report :=
  if condition then report.add node code message else report

/-- What the children checked so far have shown. -/
structure TypePass where
  stateNames : List String
  /-- The names of the port transitions. -/
  transitionNames : List String
  guardNames : List String
  hasInitialState : Bool
  /-- The transitions that have a guard, with its text. -/
  guarded : List (Path × String)
  report : Report

/-- No child has been checked. -/
def TypePass.initial (report : Report) : TypePass :=
  ⟨[], [], [], false, [], report⟩

/-- Checks a state. -/
def checkState (typeName : String) (node : Path) (name : String) (isInitial : Bool)
    (p : TypePass) : TypePass :=
  { p with
    stateNames := p.stateNames ++ [name]
    hasInitialState := p.hasInitialState || isInitial
    report := addIf (p.stateNames.contains name) node Code.duplicateState
      (duplicateStateMessage name node typeName) p.report }

/-- Checks a transition, and keeps its guard for later. -/
def checkTransition (s : Store) (node : Path) (name : String) (isPort : Bool)
    (p : TypePass) : TypePass :=
  let noDestination := (s.pointer? node Pointer.destination).isNone
  let noSource := (s.pointer? node Pointer.source).isNone
  let noMethod := s.attributeText node Attribute.transitionMethod = ""
  let guard := s.attributeText node Attribute.guard
  let report := addIf noDestination node Code.missingDestination (missingDestinationMessage name)
    p.report
  let report := addIf noSource node Code.missingSource (missingSourceMessage name) report
  let report := addIf noMethod node Code.missingTransitionMethod
    (missingTransitionMethodMessage name) report
  { p with
    transitionNames := if isPort then p.transitionNames ++ [name] else p.transitionNames
    guarded := if guard = "" then p.guarded else p.guarded ++ [(node, guard)]
    report := addIf (isPort && p.transitionNames.contains name) node Code.duplicateTransition
      (duplicateTransitionMessage name node) report }

/-- Checks a guard. -/
def checkGuard (s : Store) (node : Path) (name : String) (p : TypePass) : TypePass :=
  let noMethod := s.attributeText node Attribute.guardMethod = ""
  let report := addIf (p.guardNames.contains name) node Code.duplicateGuard
    (duplicateGuardMessage name) p.report
  { p with
    guardNames := p.guardNames ++ [name]
    report := addIf noMethod node Code.missingGuardMethod (missingGuardMethodMessage name) report }

/-- Checks a child of a component type. -/
def checkChild (s : Store) (typeName : String) (p : TypePass) (node : Path) : TypePass :=
  let name := s.nameOf node
  match s.metaType? node with
  | some .state => checkState typeName node name false p
  | some .initialState => checkState typeName node name true p
  | some .guard => checkGuard s node name p
  | some .internalTransition => checkTransition s node name false p
  | some .enforceableTransition | some .spontaneousTransition => checkTransition s node name true p
  | _ => p

/-- Checks the guards of transitions against a grammar. -/
def checkGuardTexts (g : Guard.Grammar) (guarded : List (Path × String)) (report : Report) :
    Report :=
  guarded.foldl (fun r e =>
    match g.read e.2 with
    | .ok _ => r
    | .error _ => r.add e.1 Code.invalidGuardExpression (invalidGuardMessage e.2)) report

/-- Checks a component type by its children. -/
def checkMachine (s : Store) (node : Path) (typeName : String) (report : Report) : Report :=
  let p := (s.children node).foldl (checkChild s typeName) (.initial report)
  let report := addIf (!p.hasInitialState) node Code.missingInitialState
    (missingInitialStateMessage typeName) p.report
  match Guard.Grammar.build p.guardNames with
  | none => report
  | some g => checkGuardTexts g p.guarded report

/-! ## Component types and architectures -/

/-- Checks a component type, given the names of the earlier ones. -/
def checkType (s : Store) (r : List String × Report) (node : Path) : List String × Report :=
  let name := s.nameOf node
  let report := addIf (r.1.contains name) node Code.duplicateComponentType
    (duplicateTypeMessage name node) r.2
  let report := addIf (!isClassName name) node Code.invalidClassName
    (invalidClassNameMessage name node) report
  (r.1 ++ [name], checkMachine s node name report)

end Behavior

/-- Checks the names and state machines of component types. -/
def checkBehavior (s : Store) (types : List Path) : Report :=
  (types.foldl (Behavior.checkType s) ([], .empty .behavior)).2

/-- Checks that the words of an architecture's name, put together, can name a class. -/
def checkArchitectureName (s : Store) (node : Path) : Report :=
  let name := s.nameOf node
  Behavior.addIf (!isIdentifier (words name.toList).flatten) node Code.invalidArchitectureName
    (Behavior.invalidArchitectureNameMessage name node) (.empty .behavior)

end Rendezvous
