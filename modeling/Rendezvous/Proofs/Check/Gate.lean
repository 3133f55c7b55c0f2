import Rendezvous.Architecture.Factor
import Rendezvous.Proofs.Architecture.Motifs
import Rendezvous.Proofs.Architecture.Types
import Rendezvous.Proofs.Arithmetic.Letters
import Rendezvous.Proofs.Check.Reports

/-!
# The gate and the later phases

Before an architecture is built, a gate collects the cardinality letters and validates all
expressions of ends with them.  Building collects the letters again, and the check of connectors
evaluates with those.  Both collect the same letters, and the gate passes exactly when every
component type is configured and every expression is valid (`checkParameters_eq_nil_iff`).  What
passes the gate therefore has its cardinalities after building, and its expressions fail only by
their arithmetic.
-/

namespace Rendezvous

open Arithmetic

/-! ## The evaluator of an architecture -/

/-- Gives a letter its configured value, if it has one. -/
def bindConfigured (config : Config) (ev : Evaluator) (letter : Char) : Evaluator :=
  (config.parameter? letter).elim ev (ev.bind letter)

section
variable (config : Config)

theorem parameters_bindConfigured (ev : Evaluator) (letter : Char) :
    (bindConfigured config ev letter).parameters = ev.parameters := by
  unfold bindConfigured
  cases config.parameter? letter <;> rfl

theorem get?_bindConfigured (ev : Evaluator) (letter c : Char) :
    (bindConfigured config ev letter).bindings.get? c =
      if letter = c then (config.parameter? c).or (ev.bindings.get? c) else ev.bindings.get? c := by
  unfold bindConfigured
  by_cases hc : letter = c
  · subst hc
    cases config.parameter? letter <;> simp [Evaluator.bind]
  · cases config.parameter? letter <;> simp [Evaluator.bind, hc]

theorem get?_foldl_bindConfigured (letters : List Char) (ev : Evaluator) (c : Char) :
    (letters.foldl (bindConfigured config) ev).bindings.get? c =
      if c ∈ letters then (config.parameter? c).or (ev.bindings.get? c)
      else ev.bindings.get? c := by
  induction letters generalizing ev with
  | nil => simp
  | cons letter letters ih =>
    rw [List.foldl_cons, ih, get?_bindConfigured]
    by_cases hletter : letter = c
    · subst hletter
      simp [← Option.or_assoc]
    · simp [hletter, Ne.symm hletter]

end

namespace Architecture

variable (a : Architecture) (config : Config)

theorem parameters_evaluator : (a.evaluator config).parameters = a.parameters :=
  List.foldlRecOn a.parameters.letters (bindConfigured config)
    (motive := fun ev => ev.parameters = a.parameters) rfl fun ev hev letter _ => by
      rw [parameters_bindConfigured, hev]

/-- The evaluator binds the declared letters to their configured values, and nothing else. -/
theorem get?_evaluator (c : Char) :
    (a.evaluator config).bindings.get? c =
      if c ∈ a.parameters.letters then config.parameter? c else none := by
  have hfold := get?_foldl_bindConfigured config a.parameters.letters (.ofParameters a.parameters) c
  rw [evaluator]
  refine hfold.trans ?_
  simp [Evaluator.ofParameters]

end Architecture

/-! ## What the gate checks -/

/-- The cardinality of a component type is well formed, and its letter, if it is one, has a value.
-/
def IsConfigured (s : Store) (config : Config) (t : Path) : Prop :=
  Cardinality.isWellFormed (s.attributeText t Attribute.cardinality) = true ∧
    ∀ c, Cardinality.read (s.attributeText t Attribute.cardinality) = .parameter c →
      (config.parameter? c).isSome

section
variable {s : Store} {config : Config} {pass : CardinalityPass} {ev : Evaluator} {report : Report}
  {t e : Path} {value : EndValue}

/-- The check of a component type declares the letter that building declares, and reports the type
unless it is configured. -/
theorem checkCardinality_eq (s : Store) (config : Config) (pass : CardinalityPass) (t : Path) :
    ∃ report, checkCardinality s config pass t =
        ⟨Architecture.declareLetter s pass.parameters t, report⟩ ∧
      Report.Decides (IsConfigured s config t) pass.report report := by
  unfold checkCardinality IsConfigured Architecture.declareLetter
  dsimp only
  by_cases hwell : Cardinality.isWellFormed (s.attributeText t Attribute.cardinality) = true
  · rw [if_pos hwell]
    cases hread : Cardinality.read (s.attributeText t Attribute.cardinality) with
    | parameter letter =>
      cases hvalue : config.parameter? letter with
      | some value =>
        refine ⟨pass.report, by simp only [hvalue]; rfl, Or.inl ⟨⟨hwell, fun c hc => ?_⟩, rfl⟩⟩
        cases hc
        rw [hvalue]
        rfl
      | none =>
        refine ⟨_, by simp only [hvalue]; rfl, Or.inr ⟨fun h => ?_, t, _, _, rfl⟩⟩
        have hsome := h.2 letter rfl
        rw [hvalue] at hsome
        cases hsome
    | literal count =>
      refine ⟨pass.report, rfl, Or.inl ⟨⟨hwell, fun c hc => ?_⟩, rfl⟩⟩
      cases hc
    | invalid raw =>
      refine ⟨pass.report, rfl, Or.inl ⟨⟨hwell, fun c hc => ?_⟩, rfl⟩⟩
      cases hc
  · rw [if_neg hwell]
    refine ⟨_, ?_, Or.inr ⟨fun h => hwell h.1, t, Code.invalidCardinality,
      invalidCardinalityMessage (s.attributeText t Attribute.cardinality) (s.nameOf t), rfl⟩⟩
    cases hread : Cardinality.read (s.attributeText t Attribute.cardinality) with
    | parameter letter => exact absurd (Cardinality.isWellFormed_of_parameter hread) hwell
    | literal count => rfl
    | invalid raw => rfl

theorem parameters_checkCardinality :
    (checkCardinality s config pass t).parameters =
      Architecture.declareLetter s pass.parameters t := by
  obtain ⟨report, h, -⟩ := checkCardinality_eq s config pass t
  rw [h]

/-- A component type passes exactly when it is configured. -/
theorem decides_checkCardinality (s : Store) (config : Config) (pass : CardinalityPass) (t : Path) :
    Report.Decides (IsConfigured s config t) pass.report
      (checkCardinality s config pass t).report := by
  obtain ⟨report, h, hdecides⟩ := checkCardinality_eq s config pass t
  rw [h]
  exact hdecides

/-- An expression passes exactly when it is valid. -/
theorem decides_checkEndExpression (s : Store) (ev : Evaluator) (e : Path) (value : EndValue)
    (report : Report) :
    Report.Decides (ev.validate (s.attributeText e value.attributeName) = .ok ()) report
      (checkEndExpression s ev e value report) := by
  unfold checkEndExpression
  dsimp only
  cases hvalid : ev.validate (s.attributeText e value.attributeName) with
  | ok _ => exact Or.inl ⟨rfl, rfl⟩
  | error err =>
    refine Or.inr ⟨by simp, e, ?_⟩
    cases err <;> exact ⟨_, _, rfl⟩

theorem extends_checkEndExpressions (s : Store) (ev : Evaluator) (report : Report) (e : Path) :
    report.Extends (checkEndExpressions s ev report e) :=
  (decides_checkEndExpression s ev e .multiplicity report).extends_report.trans
    (decides_checkEndExpression s ev e .degree _).extends_report

/-- An end passes exactly when both of its expressions are valid. -/
theorem checkEndExpressions_eq_iff :
    checkEndExpressions s ev report e = report ↔
      ∀ value : EndValue, ev.validate (s.attributeText e value.attributeName) = .ok () := by
  have hmultiplicity := decides_checkEndExpression s ev e .multiplicity report
  have hdegree := decides_checkEndExpression s ev e .degree
    (checkEndExpression s ev e .multiplicity report)
  rw [checkEndExpressions, hmultiplicity.extends_report.eq_iff hdegree.extends_report,
    hmultiplicity.eq_iff, hdegree.eq_iff]
  constructor
  · rintro ⟨hmultiplicity, hdegree⟩ value
    cases value with
    | degree => exact hdegree
    | multiplicity => exact hmultiplicity
  · intro h
    exact ⟨h .multiplicity, h .degree⟩

end

/-! ## The gate -/

/-- The evaluator that validates expressions declares the letters that building declares. -/
theorem parameters_gate (s : Store) (config : Config) (report : Report) :
    ((s.instancesWhere (· == .componentType)).foldl (checkCardinality s config)
      ⟨.empty, report⟩).parameters = (Architecture.build s config).parameters := by
  rw [Architecture.parameters_build]
  exact (List.foldl_hom CardinalityPass.parameters fun pass t =>
    parameters_checkCardinality.symm).symm

/-- **What the gate checks.**  It reports nothing exactly when all component types are configured
and all expressions of ends are valid over the letters of the architecture. -/
theorem checkParameters_eq_nil_iff {s : Store} {config : Config} :
    (checkParameters s config).violations = [] ↔
      (∀ t ∈ s.instancesWhere (· == .componentType), IsConfigured s config t) ∧
        ∀ e ∈ s.instancesWhere MetaType.isConnectorEnd, ∀ value : EndValue,
          (Evaluator.ofParameters (Architecture.build s config).parameters).validate
            (s.attributeText e value.attributeName) = .ok () := by
  have htypes : (Report.empty .parameter).Extends ((s.instancesWhere (· == .componentType)).foldl
      (checkCardinality s config) ⟨.empty, .empty .parameter⟩).report :=
    Report.extends_foldl CardinalityPass.report
      (fun pass t => (decides_checkCardinality s config pass t).extends_report) _
      ⟨.empty, .empty .parameter⟩
  have hends : ∀ (ev : Evaluator) (report : Report), report.Extends
      ((s.instancesWhere MetaType.isConnectorEnd).foldl (checkEndExpressions s ev) report) :=
    fun ev report => Report.extends_foldl id (extends_checkEndExpressions s ev) _ report
  unfold checkParameters
  dsimp only
  rw [(htypes.trans (hends _ _)).violations_eq_nil_iff, htypes.eq_iff (hends _ _), parameters_gate]
  refine and_congr ?_ ?_
  · exact Report.foldl_eq_iff CardinalityPass.report (fun _ => True)
      (fun pass t => (decides_checkCardinality s config pass t).extends_report)
      (fun _ _ _ => trivial)
      (fun pass t _ => (decides_checkCardinality s config pass t).eq_iff) trivial
  · exact Report.foldl_eq_iff id (fun _ => True) (extends_checkEndExpressions s _)
      (fun _ _ _ => trivial) (fun report e _ => checkEndExpressions_eq_iff) trivial

/-- **The gate and the later phases agree.**  Behind a gate that reports nothing, building gives a
cardinality to every component type and to every enforceable transition among its children, and the
expressions of every end fail only by their arithmetic when they are evaluated. -/
theorem gate_agrees {s : Store} {config : Config} (h : (checkParameters s config).violations = []) :
    (∀ t, s.instanceType? t = some .componentType →
      ((Architecture.build s config).cardinality? t).isSome ∧
        ∀ p ∈ s.children t, s.metaType? p = some .enforceableTransition →
          ((Architecture.build s config).cardinality? p).isSome) ∧
      ∀ report : Report,
        let a := (Architecture.resolveMotifs s (Architecture.build s config) report).1
        ∀ e, s.instanceType? e = some .synchron ∨ s.instanceType? e = some .trigger →
          ∀ (value : EndValue) (err : ExpressionError),
            (a.evaluator config).evaluate (s.attributeText e value.attributeName) = .error err →
              err = .divisionByZero ∨ err = .overflow := by
  obtain ⟨htypes, hends⟩ := checkParameters_eq_nil_iff.1 h
  have hconfigured : ∀ t, s.instanceType? t = some .componentType → IsConfigured s config t :=
    fun t ht => htypes t (Store.mem_instancesWhere.2 ⟨_, ht, rfl⟩)
  constructor
  · intro t ht
    have hsome : ∀ p, Architecture.HasCardinalityOf s t p →
        ((Architecture.build s config).cardinality? p).isSome := by
      intro p hp
      rw [Architecture.cardinality?_build_of_type ht hp]
      exact Cardinality.isSome_resolve (hconfigured t ht).1 (hconfigured t ht).2
    refine ⟨hsome t (Or.inl rfl), fun p hp hmeta => hsome p (Or.inr ?_)⟩
    refine List.mem_filter.2 ⟨hp, ?_⟩
    rw [Store.isA, hmeta]
    rfl
  · intro report a e he value err
    have hparameters : a.parameters = (Architecture.build s config).parameters :=
      (Architecture.resolving_resolveMotifs s config report).parameters_eq
    have hmem : e ∈ s.instancesWhere MetaType.isConnectorEnd := by
      rcases he with he | he
      · exact Store.mem_instancesWhere.2 ⟨_, he, rfl⟩
      · exact Store.mem_instancesWhere.2 ⟨_, he, rfl⟩
    have hdeclared : (a.evaluator config).parameters = (Architecture.build s config).parameters :=
      (Architecture.parameters_evaluator a config).trans hparameters
    refine errorsArithmetic_evaluate hdeclared (hends e hmem value) (fun c hc => ?_) err
    -- a declared letter is the cardinality of a component type, whose gate found a value for it
    rw [Architecture.parameters_evaluator] at hc
    rw [Architecture.get?_evaluator, if_pos hc]
    rw [hparameters] at hc
    obtain ⟨t, ht, hread⟩ := Architecture.mem_parameters_build.1 hc
    exact (hconfigured t ht).2 c hread

/-- A component type with three instances, and an end whose degree divides by zero for them. -/
def threeInstances : Store :=
  Store.empty.addMany [
    ("/t", ⟨.componentType, false, none, .ofList [(Attribute.cardinality, "n")], .empty⟩),
    ("/t/p", ⟨.enforceableTransition, false, some "/t", .empty, .empty⟩),
    ("/e", ⟨.synchron, false, none,
      .ofList [(Attribute.degree, "6/(n-3)"), (Attribute.multiplicity, "n")], .empty⟩)]

/-- The gate lets the division pass, and it is all that can fail. -/
theorem gate_agrees_threeInstances :
    let config := Config.empty.withParameter 'n' 3
    let a := Architecture.build threeInstances config
    (checkParameters threeInstances config).violations = [] ∧
      ((a.cardinality? "/t").isSome ∧ (a.cardinality? "/t/p").isSome) ∧
      ∀ err, ((Architecture.resolveMotifs threeInstances a (.empty .architecture)).1.evaluator
          config).evaluate (threeInstances.attributeText "/e" Attribute.degree) = .error err →
        err = .divisionByZero ∨ err = .overflow := by
  intro config a
  have hgate : (checkParameters threeInstances config).violations = [] := by decide
  obtain ⟨htypes, hends⟩ := gate_agrees hgate
  obtain ⟨htype, hports⟩ := htypes "/t" (by decide)
  refine ⟨hgate, ⟨htype, hports "/t/p" (by decide) (by decide)⟩, ?_⟩
  exact hends (.empty .architecture) "/e" (Or.inl (by decide)) .degree

end Rendezvous
