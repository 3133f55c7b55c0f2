import Rendezvous.Architecture.Factor
import Rendezvous.Proofs.Architecture.Build
import Rendezvous.Proofs.Arithmetic.Reduction
import Rendezvous.Proofs.Check.Reports

/-!
# Values and records of one end

The check of an end evaluates its two expressions, divides and records what it finds.  An
expression `EvaluatesTo` a natural number or the end is reported (`evaluateEndValue_cases`), and
the quotient is a natural number exactly when the integers say so (`naturalFactor?_eq_some_iff`).
Whatever an end shows, its check writes to no record but its own, and to nothing that other checks
read (`touches_checkEnd`).
-/

namespace Rendezvous.Architecture

open Arithmetic

/-! ## Values of expressions -/

/-- A text evaluates to a natural number. -/
def EvaluatesTo (ev : Evaluator) (raw : String) (n : Nat) : Prop :=
  ∃ f, ev.evaluate raw = .ok f ∧ f.toNat? = some n

theorem EvaluatesTo.unique {ev : Evaluator} {raw : String} {n m : Nat}
    (hn : EvaluatesTo ev raw n) (hm : EvaluatesTo ev raw m) : n = m := by
  obtain ⟨f, hf, hn⟩ := hn
  obtain ⟨g, hg, hm⟩ := hm
  rw [hf] at hg
  cases hg
  rw [hn] at hm
  exact Option.some.inj hm

theorem EvaluatesTo.lt {ev : Evaluator} {raw : String} {n : Nat} (h : EvaluatesTo ev raw n) :
    n < 9223372036854775808 := by
  obtain ⟨f, -, hn⟩ := h
  exact Fraction.lt_of_toNat? hn

/-- An expression has a natural number as its value, or its end is reported. -/
theorem evaluateEndValue_cases (ev : Evaluator) (e : Path) (value : EndValue) (raw : String)
    (report : Report) :
    (∃ n, EvaluatesTo ev raw n ∧ evaluateEndValue ev e value raw report = (some n, report)) ∨
      ((∀ n, ¬ EvaluatesTo ev raw n) ∧ ∃ code message,
        evaluateEndValue ev e value raw report = (none, report.add e code message)) := by
  unfold evaluateEndValue
  cases hev : ev.evaluate raw with
  | error err =>
    refine Or.inr ⟨?_, _, _, rfl⟩
    rintro n ⟨f, hf, -⟩
    rw [hev] at hf
    cases hf
  | ok f =>
    cases hn : f.toNat? with
    | some n => exact Or.inl ⟨n, ⟨f, hev, hn⟩, by simp only [hn]⟩
    | none =>
      refine Or.inr ⟨?_, ?_⟩
      · rintro n ⟨g, hg, hn'⟩
        rw [hev] at hg
        cases hg
        rw [hn] at hn'
        cases hn'
      · simp only [hn]
        exact ⟨_, _, rfl⟩

/-! ## Matching factors -/

theorem fractionOfNat_of_lt {n : Nat} (h : n < 9223372036854775808) :
    ∃ f, fractionOfNat n = .ok f ∧ f.toNat? = some n := by
  have hfits : Fits64 n := ⟨by omega, by omega⟩
  have hsome : Fraction.ofInt? n = some (.ofInt n hfits) := Fraction.ofInt?_eq_some_iff.2
    ⟨Fraction.numer_ofInt _ _, Fraction.denom_ofInt _ _⟩
  refine ⟨.ofInt n hfits, ?_, Fraction.toNat?_eq_some_iff.2
    ⟨Fraction.numer_ofInt _ _, Fraction.denom_ofInt _ _⟩⟩
  rw [fractionOfNat, hsome]

/-- Degree times cardinality, when it fits. -/
theorem mul_ofCount_cases {f : Fraction} {d : Nat} (hd : f.toNat? = some d) (k : UInt32) :
    (d * k.toNat < 9223372036854775808 ∧ ∃ p, f.mul (.ofCount k) = .ok p ∧
        p.toNat? = some (d * k.toNat)) ∨
      (¬ d * k.toNat < 9223372036854775808 ∧ ∃ err, f.mul (.ofCount k) = .error err) := by
  obtain ⟨hnumer, hdenom⟩ := Fraction.toNat?_eq_some_iff.1 hd
  have hmul : ∀ p, f.mul (.ofCount k) = .ok p ↔ p.toNat? = some (d * k.toNat) := by
    intro p
    rw [Fraction.mul_eq_ok_iff_of_whole hdenom (Fraction.denom_ofCount k), hnumer,
      Fraction.numer_ofCount, Fraction.toNat?_eq_some_iff]
    push_cast
    rfl
  by_cases hfits : d * k.toNat < 9223372036854775808
  · obtain ⟨p, -, hp⟩ := fractionOfNat_of_lt hfits
    exact Or.inl ⟨hfits, p, (hmul p).2 hp, hp⟩
  · refine Or.inr ⟨hfits, ?_⟩
    cases hproduct : f.mul (.ofCount k) with
    | error err => exact ⟨err, rfl⟩
    | ok p => exact absurd (Fraction.lt_of_toNat? ((hmul p).1 hproduct)) hfits

/-- **When an end has a matching factor.**  It is the natural number that gives degree times
cardinality when multiplied by the multiplicity. -/
theorem naturalFactor?_eq_some_iff {d m F : Nat} {k : UInt32} (hd : d < 9223372036854775808)
    (hm : m < 9223372036854775808) :
    naturalFactor? (matchingFactor d k m) = some F ↔
      0 < m ∧ d * k.toNat < 9223372036854775808 ∧ d * k.toNat = F * m := by
  obtain ⟨degree, hdegree, hd⟩ := fractionOfNat_of_lt hd
  obtain ⟨multiplicity, hmultiplicity, hm⟩ := fractionOfNat_of_lt hm
  rw [matchingFactor, hdegree, hmultiplicity]
  rcases mul_ofCount_cases hd k with ⟨hfits, product, hproduct, hp⟩ | ⟨hfits, err, hproduct⟩
  · have hdiv := Fraction.toNat?_div_eq_some_iff (q := F) hp hm
    simp only [hfits, true_and]
    rw [← hdiv]
    simp only [bind, Except.bind, hproduct]
    cases product.div multiplicity with
    | ok f => simp [naturalFactor?]
    | error err => simp [naturalFactor?]
  · simp [bind, Except.bind, hproduct, naturalFactor?, hfits]

/-! ## What a check keeps -/

/-- What later checks read is as it was: the report only grows, and cardinalities, links and texts
stay. -/
structure Keeps (p q : Progress) : Prop where
  extends_report : p.report.Extends q.report
  cardinality?_eq : q.annotations.cardinality? = p.annotations.cardinality?
  links_eq : q.annotations.links = p.annotations.links
  texts_eq : q.annotations.texts = p.annotations.texts

/-- Besides, no record was written but that of `e`. -/
structure Touches (e : Path) (p q : Progress) : Prop extends Keeps p q where
  get_eq : ∀ x, x ≠ e → q.annotations.get x = p.annotations.get x

section
variable {e : Path} {p q r : Progress}

theorem keeps_refl (p : Progress) : Keeps p p :=
  ⟨p.report.extends_refl, rfl, rfl, rfl⟩

theorem Keeps.trans (h : Keeps p q) (h' : Keeps q r) : Keeps p r where
  extends_report := h.extends_report.trans h'.extends_report
  cardinality?_eq := h'.cardinality?_eq.trans h.cardinality?_eq
  links_eq := h'.links_eq.trans h.links_eq
  texts_eq := h'.texts_eq.trans h.texts_eq

theorem Touches.trans (h : Touches e p q) (h' : Touches e q r) : Touches e p r where
  toKeeps := h.toKeeps.trans h'.toKeeps
  get_eq x hx := (h'.get_eq x hx).trans (h.get_eq x hx)

theorem touches_report {report : Report} (h : p.report.Extends report) :
    Touches e p { p with report := report } where
  extends_report := h
  cardinality?_eq := rfl
  links_eq := rfl
  texts_eq := rfl
  get_eq _ _ := rfl

/-- Writing resolved values to the record of `e`. -/
theorem touches_modify {f : Derived → Derived}
    (hcardinality : ∀ d, (f d).cardinality = d.cardinality)
    (hends : ∀ d, (f d).ends = d.ends) (hconnector : ∀ d, (f d).connector = d.connector)
    (hdegree : ∀ d, (f d).degree = d.degree)
    (hmultiplicity : ∀ d, (f d).multiplicity = d.multiplicity) :
    Touches e p { p with annotations := p.annotations.modify e f } where
  extends_report := p.report.extends_refl
  cardinality?_eq := Annotations.cardinality?_modify hcardinality _ _
  links_eq := Annotations.links_modify hends hconnector _ _
  texts_eq := Annotations.texts_modify hdegree hmultiplicity _ _
  get_eq x hx := by
    simp only
    rw [Annotations.get_modify, if_neg fun h => hx h.symm]

end

section
variable {s : Store} {ev : Evaluator} {e : Path} {p : Progress}

theorem touches_settleFactor (d : Nat) (k : UInt32) (m : Nat) :
    Touches e p (settleFactor e d k m p).2 := by
  have hresolved : Touches e p { p with annotations := p.annotations.modify e fun r =>
      { r with resolvedDegree := some d, resolvedMultiplicity := some m } } :=
    touches_modify (by intro _; rfl) (by intro _; rfl) (by intro _; rfl) (by intro _; rfl)
      (by intro _; rfl)
  unfold settleFactor
  dsimp only
  split
  · exact hresolved.trans (touches_modify (by intro _; rfl) (by intro _; rfl) (by intro _; rfl)
      (by intro _; rfl) (by intro _; rfl))
  · exact hresolved.trans (touches_report (p.report.extends_add e _ _))

theorem extends_evaluateEndValue (ev : Evaluator) (e : Path) (value : EndValue) (raw : String)
    (report : Report) : report.Extends (evaluateEndValue ev e value raw report).2 := by
  rcases evaluateEndValue_cases ev e value raw report with ⟨n, -, h⟩ | ⟨-, c, m, h⟩
  · rw [h]
    exact report.extends_refl
  · rw [h]
    exact report.extends_add e c m

/-- A multiplicity is reported when it is an expression with too large a value. -/
theorem decides_checkMultiplicity (e : Path) (raw : String) (m : Nat) (k : UInt32)
    (report : Report) :
    Report.Decides (isLiteral raw = false → m ≤ k.toNat) report
      (checkMultiplicity e raw m k report) := by
  unfold checkMultiplicity
  split
  · next h =>
    rw [Bool.and_eq_true, Bool.not_eq_true', decide_eq_true_eq] at h
    exact Or.inr ⟨fun hle => Nat.not_le_of_lt h.2 (hle h.1), e, _, _, rfl⟩
  · next h =>
    refine Or.inl ⟨fun hliteral => Nat.le_of_not_lt fun hlt => h ?_, rfl⟩
    rw [hliteral, decide_eq_true hlt]
    rfl

/-- A check of an end writes to the record of that end only. -/
theorem touches_checkEnd : Touches e p (checkEnd s ev e p).2 := by
  unfold checkEnd
  split
  · exact touches_report (p.report.extends_add e _ _)
  · next k _ =>
    unfold checkResolvedEnd
    dsimp only
    have hvalues := (extends_evaluateEndValue ev e .degree
      (recordedText (p.annotations.get e).degree s e .degree) p.report).trans
      (extends_evaluateEndValue ev e .multiplicity
        (recordedText (p.annotations.get e).multiplicity s e .multiplicity) _)
    split
    · exact (touches_report (hvalues.trans
        (decides_checkMultiplicity e _ _ k _).extends_report)).trans (touches_settleFactor _ _ _)
    · exact touches_report hvalues

end

end Rendezvous.Architecture
