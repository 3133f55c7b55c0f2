import Rendezvous.Proofs.Arithmetic.Rejection
import Rendezvous.Proofs.Check.Findings
import Rendezvous.Proofs.Check.Gate
import Rendezvous.Proofs.Config.Literals

/-!
# The rules of the gate

The rules that an architecture has to keep before it is built, in terms of the texts of its
attributes: a cardinality is a letter with a value or a positive number in decimal, and a degree or
multiplicity is an arithmetic expression over numbers and the letters that cardinalities use.  Which
letters these are does not depend on the order of loading, nor on what the configuration binds.  An
expression with a character of another kind is disallowed where a text size says where the character
is, and malformed where none does.
-/

namespace Rendezvous

open Arithmetic

namespace Gate

open Report (Lists)

/-! ## The rules -/

/-- A component type that takes part has this letter as its cardinality. -/
def DeclaresLetter (s : Store) (c : Char) : Prop :=
  c.isLower = true ∧ ∃ t, s.instanceType? t = some .componentType ∧
    (s.attributeText t Attribute.cardinality).toList = [c]

/-- The texts that are cardinalities. -/
inductive IsCardinality : String → Prop
  | letter {raw : String} {c : Char} : raw.toList = [c] → c.isLower = true → IsCardinality raw
  | count {n : Nat} : 1 ≤ n → n ≤ 4294967295 → IsCardinality (toString n)

/-- The characters of expressions: digits, operators, parentheses and declared letters. -/
def IsListed (s : Store) (c : Char) : Prop :=
  c.isDigit = true ∨ c ∈ ['+', '-', '*', '/', '(', ')'] ∨ DeclaresLetter s c

/-- A text is not empty and has only characters of expressions. -/
def IsAllowed (s : Store) (raw : String) : Prop :=
  raw.toList ≠ [] ∧ ∀ c ∈ raw.toList, IsListed s c

/-- The first character that is none of expressions starts at byte `offset`. -/
def DepartsAt (s : Store) (raw : String) (offset : Nat) : Prop :=
  ∃ before c after, raw.toList = before ++ c :: after ∧ (∀ d ∈ before, IsListed s d) ∧
    ¬ IsListed s c ∧ offset = Text.byteSize before

/-- A cardinality breaks the rule with a code. -/
inductive CardinalityBreaks (config : Config) (raw : String) : String → Prop
  | invalid : ¬ IsCardinality raw → CardinalityBreaks config raw Code.invalidCardinality
  | unbound {c : Char} : raw.toList = [c] → c.isLower = true → config.parameter? c = none →
      CardinalityBreaks config raw Code.unboundParameter

/-- A degree or multiplicity breaks the rule with a code. -/
inductive ExpressionBreaks (s : Store) (raw : String) : String → Prop
  | empty : raw = "" → ExpressionBreaks s raw Code.disallowedExpression
  | disallowed {offset : Nat} : DepartsAt s raw offset → offset < UInt32.size →
      ExpressionBreaks s raw Code.disallowedExpression
  | beyond {offset : Nat} : DepartsAt s raw offset → UInt32.size ≤ offset →
      ExpressionBreaks s raw Code.malformedExpression
  | malformed : IsAllowed s raw → ¬ Derives .expr raw.toList →
      ExpressionBreaks s raw Code.malformedExpression

/-- `Breaks s config node key code`: the text of an attribute of a node breaks the rule with
that code. -/
inductive Breaks (s : Store) (config : Config) : Path → String → String → Prop
  | cardinality {t : Path} {code : String} : s.instanceType? t = some .componentType →
      CardinalityBreaks config (s.attributeText t Attribute.cardinality) code →
      Breaks s config t Attribute.cardinality code
  | expression {e : Path} {code : String} (value : EndValue) :
      s.instanceType? e = some .synchron ∨ s.instanceType? e = some .trigger →
      ExpressionBreaks s (s.attributeText e value.attributeName) code →
      Breaks s config e value.attributeName code

/-! ## Cardinalities -/

theorem isWellFormed_iff_isCardinality {raw : String} :
    Cardinality.isWellFormed raw = true ↔ IsCardinality raw := by
  rw [Cardinality.isWellFormed_iff]
  constructor
  · rintro (⟨c, hraw, hlower⟩ | ⟨n, hpos, hfits, rfl⟩)
    · exact .letter hraw hlower
    · exact .count hpos (Nat.le_of_lt_succ hfits)
  · intro h
    cases h with
    | letter hraw hlower => exact Or.inl ⟨_, hraw, hlower⟩
    | count hpos hfits => exact Or.inr ⟨_, hpos, Nat.lt_succ_of_le hfits, rfl⟩

section
variable {config : Config} {raw code : String}

theorem cardinalityBreaks_iff_of_not (h : ¬ IsCardinality raw) :
    CardinalityBreaks config raw code ↔ code = Code.invalidCardinality := by
  constructor
  · intro hbreaks
    cases hbreaks with
    | invalid => rfl
    | unbound hraw hlower _ => exact absurd (.letter hraw hlower) h
  · rintro rfl
    exact .invalid h

theorem cardinalityBreaks_iff_of_letter {c : Char} (hraw : raw.toList = [c])
    (hlower : c.isLower = true) : CardinalityBreaks config raw code ↔
      (config.parameter? c).isNone = true ∧ code = Code.unboundParameter := by
  rw [Option.isNone_iff_eq_none]
  constructor
  · intro hbreaks
    cases hbreaks with
    | invalid hnot => exact absurd (.letter hraw hlower) hnot
    | unbound hraw' _ hnone =>
      rw [hraw, List.singleton_inj] at hraw'
      rw [← hraw'] at hnone
      exact ⟨hnone, rfl⟩
  · rintro ⟨hnone, rfl⟩
    exact .unbound hraw hlower hnone

theorem not_cardinalityBreaks (h : IsCardinality raw)
    (hcount : ∀ c, raw.toList = [c] → c.isLower = false) : ¬ CardinalityBreaks config raw code := by
  intro hbreaks
  cases hbreaks with
  | invalid hnot => exact hnot h
  | unbound hraw hlower _ =>
    rw [hcount _ hraw] at hlower
    cases hlower

end

/-- The check of a component type lists the rules that its cardinality breaks. -/
theorem lists_checkCardinality (s : Store) (config : Config) (pass : CardinalityPass) (t : Path) :
    Lists (fun code => (t, code))
      (CardinalityBreaks config (s.attributeText t Attribute.cardinality)) pass.report
      (checkCardinality s config pass t).report := by
  unfold checkCardinality
  dsimp only
  generalize s.attributeText t Attribute.cardinality = raw
  by_cases hwell : Cardinality.isWellFormed raw = true
  · rw [if_pos hwell]
    cases hread : Cardinality.read raw with
    | parameter letter =>
      obtain ⟨hraw, hlower⟩ := Cardinality.read_eq_parameter_iff.1 hread
      have hbound : Lists (fun code => (t, code)) (fun code =>
          (config.parameter? letter).isNone = true ∧ code = Code.unboundParameter) pass.report _ :=
        Report.lists_addIf _ rfl _ (unboundParameterMessage letter (s.nameOf t)) pass.report
      exact hbound.congr fun code => (cardinalityBreaks_iff_of_letter hraw hlower).symm
    | literal count =>
      refine Report.lists_of_forall_not (fun code => ?_) rfl
      refine not_cardinalityBreaks (isWellFormed_iff_isCardinality.1 hwell) fun c hraw => ?_
      rw [Bool.eq_false_iff]
      intro hlower
      rw [Cardinality.read_eq_parameter_iff.2 ⟨hraw, hlower⟩] at hread
      cases hread
    | invalid text =>
      rw [Cardinality.isWellFormed, hread] at hwell
      cases hwell
  · rw [if_neg hwell]
    rw [isWellFormed_iff_isCardinality] at hwell
    exact Report.lists_of_iff_eq (fun code => cardinalityBreaks_iff_of_not hwell)
      (Report.findings_add ..)

/-! ## Expressions -/

section
variable {s : Store} {raw code : String}

theorem DepartsAt.not_isAllowed {offset : Nat} (h : DepartsAt s raw offset) : ¬ IsAllowed s raw := by
  obtain ⟨before, c, after, htext, -, hc, -⟩ := h
  exact fun hallowed => hc (hallowed.2 c (by simp [htext]))

theorem expressionBreaks_iff_of_empty : ExpressionBreaks s "" code ↔
    code = Code.disallowedExpression := by
  constructor
  · intro hbreaks
    cases hbreaks with
    | empty | disallowed => rfl
    | beyond hdeparts _ =>
      obtain ⟨before, c, after, htext, -⟩ := hdeparts
      simp at htext
    | malformed hallowed _ => exact absurd rfl hallowed.1
  · rintro rfl
    exact .empty rfl

theorem expressionBreaks_iff_of_allowed (h : IsAllowed s raw) : ExpressionBreaks s raw code ↔
    ¬ Derives .expr raw.toList ∧ code = Code.malformedExpression := by
  constructor
  · intro hbreaks
    cases hbreaks with
    | empty hempty => exact absurd (by rw [hempty]; rfl) h.1
    | disallowed hdeparts _ | beyond hdeparts _ => exact absurd h hdeparts.not_isAllowed
    | malformed _ hnot => exact ⟨hnot, rfl⟩
  · rintro ⟨hnot, rfl⟩
    exact .malformed h hnot

end

section
variable {s : Store} {ev : Evaluator}
  (hletters : ∀ c, c ∈ ev.parameters.letters ↔ DeclaresLetter s c)
include hletters

theorem lists_iff_isListed {c : Char} : ev.parameters.Lists c ↔ IsListed s c := by
  rw [Parameters.Lists, IsListed, hletters]

theorem isAllowed_of_lists {raw : String} (hne : raw.toList ≠ [])
    (hlisted : ∀ c ∈ raw.toList, ev.parameters.Lists c) : IsAllowed s raw :=
  ⟨hne, fun c hc => (lists_iff_isListed hletters).1 (hlisted c hc)⟩

theorem departsAt_iff {raw : String} {offset : Nat} :
    DepartsAt s raw offset ↔ ∃ c, ev.parameters.Misses raw.toList c offset := by
  simp only [DepartsAt, Parameters.Misses, lists_iff_isListed hletters]
  rw [exists_comm]

theorem expressionBreaks_iff_of_misses {raw code : String} {c : Char} {offset : Nat}
    (h : ev.parameters.Misses raw.toList c offset) : ExpressionBreaks s raw code ↔ code =
      if offset < UInt32.size then Code.disallowedExpression else Code.malformedExpression := by
  have hdeparts : DepartsAt s raw offset := (departsAt_iff hletters).2 ⟨c, h⟩
  -- there is no other place where the text departs
  have hunique : ∀ {n : Nat}, DepartsAt s raw n → n = offset := fun hn => by
    obtain ⟨d, hd⟩ := (departsAt_iff hletters).1 hn
    exact (hd.unique h).2
  constructor
  · intro hbreaks
    cases hbreaks with
    | empty hempty =>
      subst hempty
      exact absurd h not_misses_nil
    | disallowed hdeparts hlt => rw [if_pos (hunique hdeparts ▸ hlt)]
    | beyond hdeparts hle => rw [if_neg (Nat.not_lt_of_le (hunique hdeparts ▸ hle))]
    | malformed hallowed _ => exact absurd hallowed hdeparts.not_isAllowed
  · rintro rfl
    split
    · next hlt => exact .disallowed hdeparts hlt
    · next hnot => exact .beyond hdeparts (Nat.le_of_not_lt hnot)

/-- The check of an expression lists the rules that its text breaks. -/
theorem lists_checkEndExpression (e : Path) (value : EndValue) (report : Report) :
    Lists (fun code => (e, code)) (ExpressionBreaks s (s.attributeText e value.attributeName))
      report (checkEndExpression s ev e value report) := by
  unfold checkEndExpression
  dsimp only
  generalize s.attributeText e value.attributeName = raw
  have hverdict := verdict_validate ev raw
  generalize ev.validate raw = verdict at hverdict
  cases hverdict with
  | empty hnil =>
    obtain rfl := String.toList_eq_nil_iff.1 hnil
    exact Report.lists_of_iff_eq (fun code => expressionBreaks_iff_of_empty) (Report.findings_add ..)
  | @missed c offset hmiss =>
    refine Report.lists_of_iff_eq (fun code => ?_) (Report.findings_add ..)
    rw [expressionBreaks_iff_of_misses hletters hmiss, if_pos offset.toNat_lt]
  | missedBeyond hmiss hle =>
    refine Report.lists_of_iff_eq (fun code => ?_) (Report.findings_add ..)
    rw [expressionBreaks_iff_of_misses hletters hmiss, if_neg (Nat.not_lt_of_le hle)]
  | malformed hne hlisted hnot =>
    have hallowed := isAllowed_of_lists hletters hne hlisted
    refine Report.lists_of_iff_eq (fun code => ?_) (Report.findings_add ..)
    exact (expressionBreaks_iff_of_allowed hallowed).trans (and_iff_right hnot)
  | valid hne hlisted hderives =>
    have hallowed := isAllowed_of_lists hletters hne hlisted
    refine Report.lists_of_forall_not (fun code hbreaks => ?_) rfl
    exact ((expressionBreaks_iff_of_allowed hallowed).1 hbreaks).1 hderives

/-- A finding of the gate, without the attribute. -/
def shown (f : Path × String × String) : Path × String :=
  (f.1, f.2.2)

/-- The check of an end lists the rules that its two texts break. -/
theorem lists_checkEndExpressions (e : Path) (report : Report) :
    Lists shown (fun f => f.1 = e ∧ ∃ value : EndValue, f.2.1 = value.attributeName ∧
      ExpressionBreaks s (s.attributeText e value.attributeName) f.2.2) report
      (checkEndExpressions s ev report e) := by
  have hvalue : ∀ (value : EndValue) (r : Report), Lists shown (fun f => ∃ code,
      ExpressionBreaks s (s.attributeText e value.attributeName) code ∧
        (e, value.attributeName, code) = f) r (checkEndExpression s ev e value r) := by
    intro value r
    exact (lists_checkEndExpression hletters e value r).image
      (fun code => (e, value.attributeName, code)) shown
      fun code code' _ _ h => congrArg (·.2.2) h
  refine ((hvalue .multiplicity report).trans (hvalue .degree _) ?_).congr fun f => ?_
  · rintro f ⟨code, -, rfl⟩ ⟨code', -, heq⟩
    have hne : Attribute.degree ≠ Attribute.multiplicity := by decide
    exact hne (congrArg (·.2.1) heq)
  · constructor
    · rintro (⟨code, hcode, rfl⟩ | ⟨code, hcode, rfl⟩)
      · exact ⟨rfl, .multiplicity, rfl, hcode⟩
      · exact ⟨rfl, .degree, rfl, hcode⟩
    · obtain ⟨node, key, code⟩ := f
      rintro ⟨rfl, value, rfl, hcode⟩
      cases value with
      | multiplicity => exact Or.inl ⟨code, hcode, rfl⟩
      | degree => exact Or.inr ⟨code, hcode, rfl⟩

end

/-! ## The gate -/

section
variable (s : Store) (config : Config)

theorem mem_types_iff {s : Store} {t : Path} :
    t ∈ s.instancesWhere (· == .componentType) ↔ s.instanceType? t = some .componentType := by
  simp [Store.mem_instancesWhere]

theorem mem_ends_iff {s : Store} {e : Path} : e ∈ s.instancesWhere MetaType.isConnectorEnd ↔
    s.instanceType? e = some .synchron ∨ s.instanceType? e = some .trigger := by
  rw [Store.mem_instancesWhere]
  constructor
  · rintro ⟨m, hm, hend⟩
    cases m with
    | synchron => exact Or.inl hm
    | trigger => exact Or.inr hm
    | _ => cases hend
  · rintro (h | h)
    · exact ⟨_, h, rfl⟩
    · exact ⟨_, h, rfl⟩

/-- The letters that are collected with the cardinalities are the declared ones. -/
theorem mem_letters_iff (report : Report) (c : Char) :
    c ∈ ((s.instancesWhere (· == .componentType)).foldl (checkCardinality s config)
      ⟨.empty, report⟩).parameters.letters ↔ DeclaresLetter s c := by
  rw [parameters_gate, Architecture.mem_parameters_build]
  constructor
  · rintro ⟨t, ht, hread⟩
    obtain ⟨hraw, hlower⟩ := Cardinality.read_eq_parameter_iff.1 hread
    exact ⟨hlower, t, ht, hraw⟩
  · rintro ⟨hlower, t, ht, hraw⟩
    exact ⟨t, ht, Cardinality.read_eq_parameter_iff.2 ⟨hraw, hlower⟩⟩

/-- The first pass lists the rules that cardinalities break. -/
theorem lists_cardinalities (report : Report) :
    Lists shown (fun f => s.instanceType? f.1 = some .componentType ∧
      f.2.1 = Attribute.cardinality ∧
      CardinalityBreaks config (s.attributeText f.1 Attribute.cardinality) f.2.2) report
      ((s.instancesWhere (· == .componentType)).foldl (checkCardinality s config)
        ⟨.empty, report⟩).report := by
  have hstep : ∀ (pass : CardinalityPass) (t : Path), Lists shown (fun f => ∃ code,
      CardinalityBreaks config (s.attributeText t Attribute.cardinality) code ∧
        (t, Attribute.cardinality, code) = f) pass.report
      (checkCardinality s config pass t).report := by
    intro pass t
    exact (lists_checkCardinality s config pass t).image
      (fun code => (t, Attribute.cardinality, code)) shown
      fun code code' _ _ h => congrArg (·.2.2) h
  refine (Report.lists_foldl_mem CardinalityPass.report hstep id Prod.fst ?_ ?_
    ⟨.empty, report⟩).congr fun f => ?_
  · rintro t f ⟨code, -, rfl⟩
    rfl
  · rw [List.map_id]
    exact s.nodup_instancesWhere _
  · obtain ⟨node, key, code⟩ := f
    constructor
    · rintro ⟨t, ht, code, hcode, heq⟩
      obtain ⟨rfl, rfl, rfl⟩ := heq
      exact ⟨mem_types_iff.1 ht, rfl, hcode⟩
    · rintro ⟨hnode, rfl, hcode⟩
      exact ⟨node, mem_types_iff.2 hnode, code, hcode, rfl⟩

/-- The second pass lists the rules that expressions break. -/
theorem lists_expressions (ev : Evaluator)
    (hletters : ∀ c, c ∈ ev.parameters.letters ↔ DeclaresLetter s c) (report : Report) :
    Lists shown (fun f => (s.instanceType? f.1 = some .synchron ∨
        s.instanceType? f.1 = some .trigger) ∧ ∃ value : EndValue, f.2.1 = value.attributeName ∧
      ExpressionBreaks s (s.attributeText f.1 value.attributeName) f.2.2) report
      ((s.instancesWhere MetaType.isConnectorEnd).foldl (checkEndExpressions s ev) report) := by
  refine (Report.lists_foldl_mem id (fun r e => lists_checkEndExpressions hletters e r) id
    Prod.fst (fun e f h => h.1) ?_ report).congr fun f => ?_
  · rw [List.map_id]
    exact s.nodup_instancesWhere _
  · constructor
    · rintro ⟨e, he, rfl, hbreaks⟩
      exact ⟨mem_ends_iff.1 he, hbreaks⟩
    · rintro ⟨hnode, hbreaks⟩
      exact ⟨f.1, mem_ends_iff.2 hnode, rfl, hbreaks⟩

/-- The gate lists the rules that the texts break. -/
theorem lists_checkParameters : Lists shown (fun f => Breaks s config f.1 f.2.1 f.2.2)
    (.empty .parameter) (checkParameters s config) := by
  have hletters := mem_letters_iff s config (.empty .parameter)
  refine ((lists_cardinalities s config (.empty .parameter)).trans
    (lists_expressions s (.ofParameters _) hletters _) ?_).congr fun f => ?_
  · -- an end is no component type
    rintro f ⟨htype, -⟩ ⟨hend, -⟩
    rw [htype] at hend
    simp at hend
  · obtain ⟨node, key, code⟩ := f
    constructor
    · rintro (⟨hnode, rfl, hbreaks⟩ | ⟨hnode, value, rfl, hbreaks⟩)
      · exact .cardinality hnode hbreaks
      · exact .expression value hnode hbreaks
    · intro h
      cases h with
      | cardinality hnode hbreaks => exact Or.inl ⟨hnode, rfl, hbreaks⟩
      | expression value hnode hbreaks => exact Or.inr ⟨hnode, value, rfl, hbreaks⟩

end

end Gate

/-- **The gate reports exactly the texts that break a rule**, each under the code of the rule and once,
whatever order the nodes were loaded in. -/
theorem checkParameters_reports_broken_rules (s : Store) (config : Config) :
    ∃ findings : List (Path × String × String), findings.Nodup ∧
      (∀ node key code, (node, key, code) ∈ findings ↔ Gate.Breaks s config node key code) ∧
      (checkParameters s config).findings = findings.map fun f => (f.1, f.2.2) := by
  obtain ⟨findings, hnodup, hmem, heq⟩ := Gate.lists_checkParameters s config
  exact ⟨findings, hnodup, fun node key code => hmem (node, key, code), heq⟩

namespace Gate

/-- An end of multiplicity one with a degree. -/
def loneEnd (degree : String) : Store :=
  Store.empty.add "/e" ⟨.synchron, false, none,
    .ofList [(Attribute.degree, degree), (Attribute.multiplicity, "1")], .empty⟩

theorem not_declaresLetter_loneEnd (degree : String) (c : Char) :
    ¬ DeclaresLetter (loneEnd degree) c := by
  rintro ⟨-, t, ht, -⟩
  have hnone : (loneEnd degree).instancesWhere (· == .componentType) = [] := rfl
  have hmem := mem_types_iff.2 ht
  rw [hnone] at hmem
  exact List.not_mem_nil hmem

theorem checkParameters_loneEnd (degree : String) : checkParameters (loneEnd degree) .empty =
    checkEndExpression (loneEnd degree) (.ofParameters .empty) "/e" .degree (.empty .parameter) := by
  have hends : checkParameters (loneEnd degree) .empty =
      checkEndExpressions (loneEnd degree) (.ofParameters .empty) (.empty .parameter) "/e" := by
    rfl
  have hmultiplicity := decides_checkEndExpression (loneEnd degree) (.ofParameters .empty) "/e"
    .multiplicity (.empty .parameter)
  have hone : (loneEnd degree).attributeText "/e" EndValue.multiplicity.attributeName = "1" := rfl
  rw [hends, checkEndExpressions, hmultiplicity.eq_iff.2]
  rw [hone]
  decide

end Gate

/-- Behind 4294967296 digits a character that is none of expressions has a place that is no text size,
and the text is not reported for it. -/
theorem not_disallowedExpression_beyond_sizes :
    let degree := numberThen 4294967296 'x'
    let s := Gate.loneEnd degree
    s.instanceType? "/e" = some .synchron ∧ s.attributeText "/e" Attribute.degree = degree ∧
      (∃ c ∈ degree.toList, ¬ Gate.IsListed s c) ∧
      (checkParameters s .empty).findings = [("/e", Code.malformedExpression)] := by
  intro degree s
  have hdegree : s.attributeText "/e" EndValue.degree.attributeName = degree := rfl
  have hoverflow : (Evaluator.ofParameters .empty).validate degree = .error .overflow := by
    refine validate_numberThen_eq_overflow ?_ (Nat.le_refl _)
    rw [← allows_iff_lists]
    decide
  refine ⟨rfl, rfl, ⟨'x', mem_numberThen _ _, ?_⟩, ?_⟩
  · rintro (hdigit | hmark | hletter)
    · cases hdigit
    · exact absurd hmark (by decide)
    · exact Gate.not_declaresLetter_loneEnd degree 'x' hletter
  · rw [Gate.checkParameters_loneEnd, checkEndExpression]
    rw [hdegree, hoverflow]
    rfl

end Rendezvous
