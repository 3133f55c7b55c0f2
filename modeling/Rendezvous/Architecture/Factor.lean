import Rendezvous.Architecture.Motif
import Rendezvous.Check.Parameters

/-!
# Matching factors

The matching factor of a connector end is its degree times its cardinality over its multiplicity: the
number of interactions of the connector that its component instances take part in.  It has to be a
natural number, and the same for all ends of a connector.  The ends of a connector are checked in
order; the first valid one sets the factor that the others are compared with, and the first end that
differs from it ends the check of that connector.
-/

namespace Rendezvous.Architecture

open Arithmetic

/-! ## Values of one end -/

/-- The value of an expression as a natural number, or what is wrong with it. -/
def evaluateEndValue (ev : Evaluator) (e : Path) (value : EndValue) (raw : String)
    (report : Report) : Option Nat × Report :=
  match ev.evaluate raw with
  | .ok f =>
    match f.toNat? with
    | some n => (some n, report)
    | none =>
      (none, report.add e Code.nonIntegerEndValue (value.subject raw e ++ "evaluates to ["
        ++ f.text ++ "], which is not a non-negative integer."))
  | .error err =>
    (none, report.add e Code.unevaluableExpression (value.subject raw e
      ++ "cannot be evaluated: " ++ err.message ++ "."))

/-- A natural number as a fraction. -/
def fractionOfNat (n : Nat) : Except ExpressionError Fraction :=
  match Fraction.ofInt? n with
  | some f => .ok f
  | none => .error .overflow

/-- Degree times cardinality over multiplicity. -/
def matchingFactor (degree : Nat) (cardinality : UInt32) (multiplicity : Nat) :
    Except ExpressionError Fraction := do
  let d ← fractionOfNat degree
  let product ← d.mul (.ofCount cardinality)
  let m ← fractionOfNat multiplicity
  product.div m

/-- A matching factor in messages. -/
def shownFactor : Except ExpressionError Fraction → String
  | .ok f => f.text
  | .error _ => "undefined"

/-- A matching factor as a natural number, if it is one. -/
def naturalFactor? : Except ExpressionError Fraction → Option Nat
  | .ok f => f.toNat?
  | .error _ => none

/-! ## Messages -/

def unresolvedCardinalityMessage (e : Path) : String :=
  "Cardinality of the component type connected to connector end [" ++ e ++ "] cannot be resolved."

def excessiveMultiplicityMessage (e : Path) : String :=
  "Multiplicity of connector end [" ++ e
    ++ "] is greater than the cardinality of the corresponding component type."

def nonIntegerFactorMessage (shown : String) (e : Path) : String :=
  "Matching factor (cardinality * degree / multiplicity) [" ++ shown ++ "] of connector end [" ++ e
    ++ "] is not a non-negative integer."

def mismatchMessage (connector : Path) : String :=
  "Matching factors (cardinality * degree / multiplicity) of ends in connector motif [" ++ connector
    ++ "] are not equal."

/-! ## One end -/

/-- Derived values and findings so far. -/
structure Progress where
  annotations : Annotations
  report : Report

/-- The text of an end's expression: the recorded one if there is one. -/
def recordedText (recorded : Option String) (s : Store) (e : Path) (value : EndValue) : String :=
  recorded.getD (s.attributeText e value.attributeName)

/-- Records the matching factor of an end, or reports that it is no natural number. -/
def settleFactor (e : Path) (degree : Nat) (cardinality : UInt32) (multiplicity : Nat)
    (p : Progress) : Option Nat × Progress :=
  let factor := matchingFactor degree cardinality multiplicity
  let resolved := p.annotations.modify e fun d =>
    { d with resolvedDegree := some degree, resolvedMultiplicity := some multiplicity }
  match naturalFactor? factor with
  | some n =>
    (some n, { p with annotations := resolved.modify e fun d => { d with matchingFactor := some n } })
  | none =>
    (none, {
      annotations := resolved
      report := p.report.add e Code.nonIntegerMatchingFactor
        (nonIntegerFactorMessage (shownFactor factor) e) })

/-- Reports a multiplicity expression whose value exceeds the cardinality. -/
def checkMultiplicity (e : Path) (raw : String) (multiplicity : Nat) (cardinality : UInt32)
    (report : Report) : Report :=
  if !isLiteral raw && cardinality.toNat < multiplicity then
    report.add e Code.multiplicityExceedsCardinality (excessiveMultiplicityMessage e)
  else report

/-- Checks an end whose cardinality is known. -/
def checkResolvedEnd (s : Store) (ev : Evaluator) (e : Path) (cardinality : UInt32) (p : Progress) :
    Option Nat × Progress :=
  let d := p.annotations.get e
  let rawDegree := recordedText d.degree s e .degree
  let rawMultiplicity := recordedText d.multiplicity s e .multiplicity
  let r₁ := evaluateEndValue ev e .degree rawDegree p.report
  let r₂ := evaluateEndValue ev e .multiplicity rawMultiplicity r₁.2
  match r₁.1, r₂.1 with
  | some degree, some multiplicity =>
    settleFactor e degree cardinality multiplicity
      { p with report := checkMultiplicity e rawMultiplicity multiplicity cardinality r₂.2 }
  | _, _ => (none, { p with report := r₂.2 })

/-- Checks an end and gives its matching factor when it is valid. -/
def checkEnd (s : Store) (ev : Evaluator) (e : Path) (p : Progress) : Option Nat × Progress :=
  match p.annotations.cardinality? e with
  | none =>
    (none, { p with
      report := p.report.add e Code.unresolvedCardinality (unresolvedCardinalityMessage e) })
  | some cardinality => checkResolvedEnd s ev e cardinality p

/-! ## All ends -/

/-- Checks the remaining ends of a connector against the factor of the first valid one. -/
def checkEnds (s : Store) (ev : Evaluator) (connector : Path) :
    Option Nat → List Path → Progress → Progress
  | _, [], p => p
  | reference, e :: rest, p =>
    let r := checkEnd s ev e p
    match r.1, reference with
    | none, _ => checkEnds s ev connector reference rest r.2
    | some factor, none => checkEnds s ev connector (some factor) rest r.2
    | some factor, some expected =>
      if factor = expected then checkEnds s ev connector reference rest r.2
      else { r.2 with
        report := r.2.report.add connector Code.matchingFactorMismatch (mismatchMessage connector) }

/-- Checks one connector. -/
def checkConnector (s : Store) (ev : Evaluator) (p : Progress) (connector : Path) : Progress :=
  checkEnds s ev connector none (p.annotations.ends connector) p

/-- Declares the letters of an architecture and gives them their configured values. -/
def evaluator (a : Architecture) (config : Config) : Evaluator :=
  a.parameters.letters.foldl
    (fun ev letter => (config.parameter? letter).elim ev (ev.bind letter))
    (.ofParameters a.parameters)

/-- Checks all connectors in load order. -/
def checkConnectors (s : Store) (config : Config) (a : Architecture) (report : Report) :
    Architecture × Report :=
  let p := a.connectors.foldl (checkConnector s (a.evaluator config)) ⟨a.annotations, report⟩
  ({ a with annotations := p.annotations }, p.report)

/-- Resolves the motifs of an architecture and checks its matching factors. -/
def checkConsistency (s : Store) (config : Config) (a : Architecture) : Architecture × Report :=
  let r := resolveMotifs s a (.empty .architecture)
  checkConnectors s config r.1 r.2

end Rendezvous.Architecture
