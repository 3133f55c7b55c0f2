import Rendezvous.Check.Violation
import Rendezvous.Config.Cardinality

/-!
# Checking cardinalities and end expressions

Before an architecture is built, every cardinality has to be a positive number or a lower-case letter
with a configured value, and the degree and multiplicity of every connector end have to be arithmetic
expressions over numbers and the cardinality letters of the model.
-/

namespace Rendezvous

open Arithmetic

/-- What the cardinalities checked so far have shown. -/
structure CardinalityPass where
  parameters : Parameters
  report : Report

/-- The violation of an ill-formed cardinality. -/
def invalidCardinalityMessage (raw name : String) : String :=
  "Cardinality [" ++ raw ++ "] of component type [" ++ name
    ++ "] is not a natural non-zero number or a character."

/-- The violation of a letter without a value. -/
def unboundParameterMessage (letter : Char) (name : String) : String :=
  "Cardinality parameter [" ++ letter.toString ++ "] of component type [" ++ name
    ++ "] has no value in the active configuration."

/-- Checks the cardinality of a component type, and declares its letter. -/
def checkCardinality (s : Store) (config : Config) (pass : CardinalityPass) (node : Path) :
    CardinalityPass :=
  let raw := s.attributeText node Attribute.cardinality
  let name := s.nameOf node
  if Cardinality.isWellFormed raw then
    match Cardinality.read raw with
    | .parameter letter =>
      { parameters := pass.parameters.insert letter
        report := if (config.parameter? letter).isNone then
            pass.report.add node Code.unboundParameter (unboundParameterMessage letter name)
          else pass.report }
    | _ => pass
  else
    { pass with
      report := pass.report.add node Code.invalidCardinality (invalidCardinalityMessage raw name) }

/-- An expression attribute of a connector end. -/
inductive EndValue where
  | degree
  | multiplicity
  deriving DecidableEq, Repr, Inhabited

namespace EndValue

/-- The name of the attribute. -/
def attributeName : EndValue → String
  | degree => Attribute.degree
  | multiplicity => Attribute.multiplicity

/-- How messages call the attribute. -/
def label : EndValue → String
  | degree => "Degree"
  | multiplicity => "Multiplicity"

/-- The beginning of every message about the attribute of an end. -/
def subject (v : EndValue) (raw : String) (node : Path) : String :=
  v.label ++ " [" ++ raw ++ "] of connector end [" ++ node ++ "] "

end EndValue

/-- Checks that an expression of a connector end is well formed. -/
def checkEndExpression (s : Store) (ev : Evaluator) (node : Path) (value : EndValue)
    (report : Report) : Report :=
  let raw := s.attributeText node value.attributeName
  match ev.validate raw with
  | .ok _ => report
  | .error .empty | .error (.disallowedCharacter ..) =>
    report.add node Code.disallowedExpression (value.subject raw node
      ++ "is not a natural number or an arithmetic expression of cardinality parameters.")
  | .error _ =>
    report.add node Code.malformedExpression (value.subject raw node
      ++ "is not a valid arithmetic expression with integers and lower-case parameters defined by "
      ++ "the cardinalities of the model. Please change it.")

/-- Checks both expressions of a connector end. -/
def checkEndExpressions (s : Store) (ev : Evaluator) (report : Report) (node : Path) : Report :=
  checkEndExpression s ev node .degree (checkEndExpression s ev node .multiplicity report)

/-- The instance nodes whose meta-type has a property, in load order. -/
def Store.instancesWhere (s : Store) (isWanted : MetaType → Bool) : List Path :=
  s.paths.filter fun p => s.isInstance p && ((s.metaType? p).map isWanted).getD false

/-- Checks the cardinalities of all component types and the expressions of all connector ends. -/
def checkParameters (s : Store) (config : Config) : Report :=
  let types := s.instancesWhere (· == .componentType)
  let ends := s.instancesWhere MetaType.isConnectorEnd
  let pass := types.foldl (checkCardinality s config) ⟨.empty, .empty .parameter⟩
  ends.foldl (checkEndExpressions s (.ofParameters pass.parameters)) pass.report

end Rendezvous
