import Rendezvous.Store.Basic

/-!
# Violations

A check never fails on a bad model: it reports what is wrong as violations, each about one node and
with a stable code, and goes on.  A report lists violations of one kind in the order of the findings.
-/

namespace Rendezvous

/-- What a violation is a violation of. -/
inductive ViolationKind where
  /-- The rules on cardinalities, degrees and multiplicities. -/
  | parameter
  /-- The consistency of connectors. -/
  | architecture
  /-- The rules on the behaviour of component types. -/
  | behavior
  deriving DecidableEq, Repr, Inhabited

/-- How a kind is called. -/
def ViolationKind.label : ViolationKind → String
  | parameter => "parameterized model"
  | architecture => "architecture"
  | behavior => "behavior"

/-- A finding about a node. -/
structure Violation where
  node : Path
  kind : ViolationKind
  code : String
  message : String
  deriving DecidableEq, Repr, Inhabited

/-- A violation in one line. -/
def Violation.text (v : Violation) : String :=
  "[" ++ v.code ++ "] " ++ v.node ++ ": " ++ v.message

/-- Violations of one kind, in the order of the findings. -/
structure Report where
  kind : ViolationKind
  violations : List Violation
  deriving DecidableEq, Repr, Inhabited

namespace Report

/-- Nothing was found. -/
def empty (kind : ViolationKind) : Report := ⟨kind, []⟩

/-- Adds a finding. -/
def add (r : Report) (node : Path) (code message : String) : Report :=
  { r with violations := r.violations ++ [⟨node, r.kind, code, message⟩] }

def size (r : Report) : Nat :=
  r.violations.length

def isEmpty (r : Report) : Bool :=
  r.violations.isEmpty

@[simp] theorem size_add (r : Report) (node : Path) (code message : String) :
    (r.add node code message).size = r.size + 1 := by
  simp [size, add]

end Report

/-! ## Codes -/

namespace Code

/-- A cardinality is neither a positive number nor a letter. -/
def invalidCardinality : String := "P0001"

/-- A cardinality letter has no value. -/
def unboundParameter : String := "P0002"

/-- A degree or multiplicity has a character outside the allow-list. -/
def disallowedExpression : String := "P0003"

/-- A degree or multiplicity is no arithmetic expression. -/
def malformedExpression : String := "P0004"

/-- A multiplicity is greater than the cardinality of its component type. -/
def multiplicityExceedsCardinality : String := "A0001"

/-- A matching factor is no natural number. -/
def nonIntegerMatchingFactor : String := "A0002"

/-- Two ends of a connector have different matching factors. -/
def matchingFactorMismatch : String := "A0003"

/-- The end of a sub-connector belongs to no connector. -/
def orphanedEnd : String := "A0004"

/-- A degree or multiplicity has no value. -/
def unevaluableExpression : String := "A0005"

/-- The cardinality at an end is unknown. -/
def unresolvedCardinality : String := "A0006"

/-- A degree or multiplicity is no natural number. -/
def nonIntegerEndValue : String := "A0007"

/-- Two component types share a name. -/
def duplicateComponentType : String := "B0001"

/-- The name of a component type is no class name. -/
def invalidClassName : String := "B0002"

/-- A component type has no initial state. -/
def missingInitialState : String := "B0003"

/-- Two states of a component type share a name. -/
def duplicateState : String := "B0004"

/-- A transition leads nowhere. -/
def missingDestination : String := "B0005"

/-- A transition starts nowhere. -/
def missingSource : String := "B0006"

/-- A transition has no method. -/
def missingTransitionMethod : String := "B0007"

/-- Two port transitions of a component type share a name. -/
def duplicateTransition : String := "B0008"

/-- Two guards of a component type share a name. -/
def duplicateGuard : String := "B0009"

/-- A guard has no method. -/
def missingGuardMethod : String := "B0010"

/-- The guard of a transition is no expression over the declared guards. -/
def invalidGuardExpression : String := "B0011"

/-- The name of the architecture gives no class name. -/
def invalidArchitectureName : String := "B0012"

end Code

end Rendezvous
