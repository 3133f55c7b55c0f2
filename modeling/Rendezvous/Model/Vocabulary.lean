/-!
# Names of attributes and pointers

The attributes and pointers of model nodes that carry a meaning for the checks and for the generated
files.
-/

namespace Rendezvous

namespace Attribute

def name : String := "name"
def cardinality : String := "cardinality"
def degree : String := "degree"
def multiplicity : String := "multiplicity"

/-- The method that a transition calls. -/
def transitionMethod : String := "transitionMethod"

/-- The method that computes a guard. -/
def guardMethod : String := "guardMethod"

/-- The guard expression of a transition. -/
def guard : String := "guard"

/-- The declarations of a component type that stand outside its methods. -/
def definitions : String := "definitions"

/-- The trace of the last simulation, on the architecture node. -/
def engineOutput : String := "engineOutput"

end Attribute

namespace Pointer

def source : String := "src"
def destination : String := "dst"

end Pointer

end Rendezvous
