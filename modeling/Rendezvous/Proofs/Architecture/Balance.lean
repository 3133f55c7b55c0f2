import Rendezvous.Proofs.Architecture.Factor
import Rendezvous.Proofs.Architecture.Motifs

/-!
# Balanced connectors

An end is `Balanced` when its cardinality and both of its expressions have values, and degree
times cardinality is a natural multiple of the multiplicity.  Checking an end records what
balances it and reports nothing, or else it reports something (`checkEnd_cases`).  As checks keep
what later checks read, a connector passes exactly when one factor balances all its ends, and an
architecture exactly when all its connectors pass (`foldl_checkConnector_eq_iff`).
-/

namespace Rendezvous.Architecture

open Arithmetic

/-! ## Balanced ends -/

/-- The end `e` has the cardinality `k`, the degree `d`, the multiplicity `m` and the factor `F`. -/
structure Balanced (s : Store) (ev : Evaluator) (t : Annotations) (e : Path) (k : UInt32)
    (d m F : Nat) : Prop where
  cardinality_eq : t.cardinality? e = some k
  degree : EvaluatesTo ev (s.attributeText e Attribute.degree) d
  multiplicity : EvaluatesTo ev (s.attributeText e Attribute.multiplicity) m
  pos : 0 < m
  /-- Only an expression is compared with the cardinality, a plain number is not. -/
  le_cardinality : isLiteral (s.attributeText e Attribute.multiplicity) = false → m ≤ k.toNat
  fits : d * k.toNat ≤ 2 ^ 63 - 1
  balance : d * k.toNat = F * m

/-- The record of an end holds its degree, its multiplicity and its factor. -/
structure Settled (t : Annotations) (e : Path) (d m F : Nat) : Prop where
  degree : (t.get e).resolvedDegree = some d
  multiplicity : (t.get e).resolvedMultiplicity = some m
  factor : (t.get e).matchingFactor = some F

section
variable {s : Store} {ev : Evaluator} {t u : Annotations} {e : Path} {k k' : UInt32}
  {d d' m m' F F' : Nat}

/-- What balances an end is determined by it. -/
theorem Balanced.unique (h : Balanced s ev t e k d m F) (h' : Balanced s ev t e k' d' m' F') :
    k = k' ∧ d = d' ∧ m = m' ∧ F = F' := by
  have hk : k = k' := Option.some.inj (h.cardinality_eq.symm.trans h'.cardinality_eq)
  have hd : d = d' := h.degree.unique h'.degree
  have hm : m = m' := h.multiplicity.unique h'.multiplicity
  subst hk hd hm
  refine ⟨rfl, rfl, rfl, Nat.eq_of_mul_eq_mul_right h.pos ?_⟩
  rw [← h.balance, h'.balance]

theorem balanced_of_cardinality?_eq (h : Balanced s ev t e k d m F)
    (heq : u.cardinality? = t.cardinality?) : Balanced s ev u e k d m F :=
  { h with cardinality_eq := by rw [heq, h.cardinality_eq] }

theorem settled_of_get_eq (h : Settled t e d m F) (heq : u.get e = t.get e) :
    Settled u e d m F where
  degree := by rw [heq, h.degree]
  multiplicity := by rw [heq, h.multiplicity]
  factor := by rw [heq, h.factor]

end

/-! ## The check of an end -/

section
variable {s : Store} {ev : Evaluator} {e : Path} {p : Progress}

/-- The text that is evaluated is the one that the store has, recorded or not. -/
theorem recordedText_eq {t : Annotations} (h : Faithful s t) (e : Path) :
    recordedText (t.get e).degree s e .degree = s.attributeText e Attribute.degree ∧
      recordedText (t.get e).multiplicity s e .multiplicity =
        s.attributeText e Attribute.multiplicity := by
  rcases h e with h | h
  · obtain ⟨hdegree, hmultiplicity⟩ := Prod.mk.inj h
    rw [hdegree, hmultiplicity]
    exact ⟨rfl, rfl⟩
  · obtain ⟨hdegree, hmultiplicity⟩ := Prod.mk.inj h
    rw [hdegree, hmultiplicity]
    exact ⟨rfl, rfl⟩

/-- A factor is recorded with the values that it comes from, or the end is reported. -/
theorem settleFactor_cases (d : Nat) (k : UInt32) (m : Nat) :
    (∃ F q, naturalFactor? (matchingFactor d k m) = some F ∧
        settleFactor e d k m p = (some F, q) ∧ q.report = p.report ∧
        Settled q.annotations e d m F) ∨
      (naturalFactor? (matchingFactor d k m) = none ∧
        (settleFactor e d k m p).2.report ≠ p.report) := by
  unfold settleFactor
  dsimp only
  cases hfactor : naturalFactor? (matchingFactor d k m) with
  | none => exact Or.inr ⟨rfl, Report.add_ne _ _ _ _⟩
  | some F =>
    refine Or.inl ⟨F, _, rfl, rfl, rfl, ?_⟩
    constructor <;> simp only [Annotations.get_modify, if_true]

/-- What balances an end whose cardinality and expressions have values. -/
theorem balanced_iff {k k' : UInt32} {d d' m m' F : Nat}
    (hk : p.annotations.cardinality? e = some k)
    (hd : EvaluatesTo ev (s.attributeText e Attribute.degree) d)
    (hm : EvaluatesTo ev (s.attributeText e Attribute.multiplicity) m) :
    Balanced s ev p.annotations e k' d' m' F ↔ (k' = k ∧ d' = d ∧ m' = m) ∧
      (isLiteral (s.attributeText e Attribute.multiplicity) = false → m ≤ k.toNat) ∧
      naturalFactor? (matchingFactor d k m) = some F := by
  rw [naturalFactor?_eq_some_iff hd.lt hm.lt]
  constructor
  · intro h
    have hkk : k' = k := Option.some.inj (h.cardinality_eq.symm.trans hk)
    have hdd : d' = d := h.degree.unique hd
    have hmm : m' = m := h.multiplicity.unique hm
    subst hkk hdd hmm
    have hfits := h.fits
    exact ⟨⟨rfl, rfl, rfl⟩, h.le_cardinality, h.pos, by omega, h.balance⟩
  · rintro ⟨⟨rfl, rfl, rfl⟩, hle, hpos, hfits, hbalance⟩
    exact ⟨hk, hd, hm, hpos, hle, by omega, hbalance⟩

/-- An end whose cardinality and expressions have values is settled or reported. -/
theorem settleFactor_checkMultiplicity_cases {k : UInt32} {d m : Nat}
    (hk : p.annotations.cardinality? e = some k)
    (hd : EvaluatesTo ev (s.attributeText e Attribute.degree) d)
    (hm : EvaluatesTo ev (s.attributeText e Attribute.multiplicity) m) :
    let checked := { p with
      report := checkMultiplicity e (s.attributeText e Attribute.multiplicity) m k p.report }
    (∃ F q, Balanced s ev p.annotations e k d m F ∧ settleFactor e d k m checked = (some F, q) ∧
        q.report = p.report ∧ Settled q.annotations e d m F) ∨
      ((∀ k' d' m' F, ¬ Balanced s ev p.annotations e k' d' m' F) ∧
        (settleFactor e d k m checked).2.report ≠ p.report) := by
  intro checked
  have hdecides :=
    decides_checkMultiplicity e (s.attributeText e Attribute.multiplicity) m k p.report
  by_cases hle : isLiteral (s.attributeText e Attribute.multiplicity) = false → m ≤ k.toNat
  · have hchecked : checked.report = p.report := hdecides.eq_iff.2 hle
    rcases settleFactor_cases (e := e) (p := checked) d k m with
      ⟨F, q, hfactor, hsettle, hreport, hsettled⟩ | ⟨hfactor, hreport⟩
    · have hbalanced := (balanced_iff hk hd hm).2 ⟨⟨rfl, rfl, rfl⟩, hle, hfactor⟩
      exact Or.inl ⟨F, q, hbalanced, hsettle, hreport.trans hchecked, hsettled⟩
    · refine Or.inr ⟨fun k' d' m' F hb => ?_, hchecked ▸ hreport⟩
      rw [((balanced_iff hk hd hm).1 hb).2.2] at hfactor
      cases hfactor
  · refine Or.inr ⟨fun k' d' m' F hb => hle ((balanced_iff hk hd hm).1 hb).2.1, ?_⟩
    exact hdecides.extends_report.ne_of_ne (mt hdecides.eq_iff.1 hle)
      (touches_settleFactor (e := e) (p := checked) d k m).extends_report

/-- **An end passes exactly when it is balanced**, and then its record says what balances it. -/
theorem checkEnd_cases (s : Store) (ev : Evaluator) (e : Path) (h : Faithful s p.annotations) :
    (∃ k d m F q, Balanced s ev p.annotations e k d m F ∧ checkEnd s ev e p = (some F, q) ∧
        q.report = p.report ∧ Settled q.annotations e d m F) ∨
      ((∀ k d m F, ¬ Balanced s ev p.annotations e k d m F) ∧
        (checkEnd s ev e p).2.report ≠ p.report) := by
  obtain ⟨hrawDegree, hrawMultiplicity⟩ := recordedText_eq h e
  unfold checkEnd
  cases hk : p.annotations.cardinality? e with
  | none =>
    refine Or.inr ⟨fun k d m F hb => ?_, Report.add_ne _ _ _ _⟩
    rw [hb.cardinality_eq] at hk
    cases hk
  | some k =>
    simp only [checkResolvedEnd, hrawDegree, hrawMultiplicity]
    rcases evaluateEndValue_cases ev e .degree (s.attributeText e Attribute.degree) p.report with
      ⟨d, hd, hdegree⟩ | ⟨hd, code, message, hdegree⟩
    · rcases evaluateEndValue_cases ev e .multiplicity (s.attributeText e Attribute.multiplicity)
        p.report with ⟨m, hm, hmultiplicity⟩ | ⟨hm, code, message, hmultiplicity⟩
      · simp only [hdegree, hmultiplicity]
        rcases settleFactor_checkMultiplicity_cases hk hd hm with ⟨F, q, hpass⟩ | hfail
        · exact Or.inl ⟨k, d, m, F, q, hpass⟩
        · exact Or.inr hfail
      · refine Or.inr ⟨fun k' d' m' F hb => hm m' hb.multiplicity, ?_⟩
        simp only [hdegree, hmultiplicity]
        exact Report.add_ne _ _ _ _
    · refine Or.inr ⟨fun k' d' m' F hb => hd d' hb.degree, ?_⟩
      simp only [hdegree]
      exact (p.report.extends_add e code message).ne_of_ne (Report.add_ne _ _ _ _)
        (extends_evaluateEndValue ev e .multiplicity _ _)

end

/-! ## The ends of a connector -/

/-- One factor balances all ends of a list. -/
def BalancedBy (s : Store) (ev : Evaluator) (t : Annotations) (es : List Path) (F : Nat) : Prop :=
  ∀ e ∈ es, ∃ k d m, Balanced s ev t e k d m F

/-- The record of an end holds what balances it. -/
def IsSettled (s : Store) (ev : Evaluator) (t : Annotations) (e : Path) : Prop :=
  ∃ k d m F, Balanced s ev t e k d m F ∧ Settled t e d m F

section
variable {s : Store} {ev : Evaluator} {c e : Path} {reference : Option Nat} {es : List Path}
  {p q : Progress}

theorem Keeps.faithful (h : Keeps p q) (hp : Faithful s p.annotations) : Faithful s q.annotations :=
  faithful_of_texts hp h.texts_eq

theorem Keeps.balancedBy_iff (h : Keeps p q) {F : Nat} :
    BalancedBy s ev q.annotations es F ↔ BalancedBy s ev p.annotations es F := by
  constructor
  · intro hb e he
    obtain ⟨k, d, m, hbalanced⟩ := hb e he
    exact ⟨k, d, m, balanced_of_cardinality?_eq hbalanced h.cardinality?_eq.symm⟩
  · intro hb e he
    obtain ⟨k, d, m, hbalanced⟩ := hb e he
    exact ⟨k, d, m, balanced_of_cardinality?_eq hbalanced h.cardinality?_eq⟩

/-- An end without a factor leaves the rest to be checked as before. -/
theorem checkEnds_of_none (hnone : (checkEnd s ev e p).1 = none) :
    checkEnds s ev c reference (e :: es) p =
      checkEnds s ev c reference es (checkEnd s ev e p).2 := by
  simp only [checkEnds, hnone]

/-- An end whose factor agrees with the reference makes it the reference. -/
theorem checkEnds_of_agree {F : Nat} (hsome : (checkEnd s ev e p).1 = some F)
    (hagree : ∀ r, reference = some r → r = F) :
    checkEnds s ev c reference (e :: es) p =
      checkEnds s ev c (some F) es (checkEnd s ev e p).2 := by
  cases reference with
  | none => simp only [checkEnds, hsome]
  | some r =>
    obtain rfl : r = F := hagree r rfl
    simp only [checkEnds, hsome, if_pos]

/-- An end whose factor differs from the reference ends the check. -/
theorem checkEnds_of_differ {F : Nat} (hsome : (checkEnd s ev e p).1 = some F)
    (hdiffer : ¬ ∀ r, reference = some r → r = F) :
    checkEnds s ev c reference (e :: es) p = { (checkEnd s ev e p).2 with
      report := (checkEnd s ev e p).2.report.add c Code.matchingFactorMismatch
        (mismatchMessage c) } := by
  cases reference with
  | none => exact absurd (by simp) hdiffer
  | some r =>
    have hne : F ≠ r := fun h => hdiffer fun r' hr' => (Option.some.inj hr').symm.trans h.symm
    simp only [checkEnds, hsome, if_neg hne]

/-- After one end, the others are checked against some factor, or the connector is reported. -/
theorem checkEnds_cons_cases (s : Store) (ev : Evaluator) (c e : Path) (reference : Option Nat)
    (es : List Path) (p : Progress) :
    (∃ reference', checkEnds s ev c reference (e :: es) p =
        checkEnds s ev c reference' es (checkEnd s ev e p).2) ∨
      ∃ code message, checkEnds s ev c reference (e :: es) p =
        { (checkEnd s ev e p).2 with
          report := (checkEnd s ev e p).2.report.add c code message } := by
  cases hfactor : (checkEnd s ev e p).1 with
  | none => exact Or.inl ⟨_, checkEnds_of_none hfactor⟩
  | some F =>
    by_cases hagree : ∀ r, reference = some r → r = F
    · exact Or.inl ⟨_, checkEnds_of_agree hfactor hagree⟩
    · exact Or.inr ⟨_, _, checkEnds_of_differ hfactor hagree⟩

theorem keeps_checkEnds : Keeps p (checkEnds s ev c reference es p) := by
  induction es generalizing reference p with
  | nil => exact keeps_refl p
  | cons e es ih =>
    have hend : Keeps p (checkEnd s ev e p).2 := touches_checkEnd.toKeeps
    rcases checkEnds_cons_cases s ev c e reference es p with ⟨reference', h⟩ | ⟨code, message, h⟩
    · rw [h]
      exact hend.trans ih
    · rw [h]
      exact hend.trans (touches_report (e := c) (Report.extends_add _ c code message)).toKeeps

/-- A finding at the first end stays. -/
theorem checkEnds_ne (hne : (checkEnd s ev e p).2.report ≠ p.report) :
    (checkEnds s ev c reference (e :: es) p).report ≠ p.report := by
  have hend : Keeps p (checkEnd s ev e p).2 := touches_checkEnd.toKeeps
  rcases checkEnds_cons_cases s ev c e reference es p with ⟨reference', h⟩ | ⟨code, message, h⟩
  · rw [h]
    exact hend.extends_report.ne_of_ne hne keeps_checkEnds.extends_report
  · rw [h]
    exact hend.extends_report.ne_of_ne hne (Report.extends_add _ c code message)

/-- **Ends pass exactly when one factor balances them**, the one that is given if there is one. -/
theorem checkEnds_eq_iff (h : Faithful s p.annotations) :
    (checkEnds s ev c reference es p).report = p.report ↔
      ∃ F, (∀ r, reference = some r → r = F) ∧ BalancedBy s ev p.annotations es F := by
  induction es generalizing reference p with
  | nil =>
    refine ⟨fun _ => ?_, fun _ => rfl⟩
    cases reference with
    | none => exact ⟨0, by simp, by simp [BalancedBy]⟩
    | some r => exact ⟨r, by simp, by simp [BalancedBy]⟩
  | cons e es ih =>
    have hend : Keeps p (checkEnd s ev e p).2 := touches_checkEnd.toKeeps
    rcases checkEnd_cases s ev e h with
      ⟨k, d, m, F₀, q, hbalanced, hcheck, hreport, -⟩ | ⟨hunbalanced, hne⟩
    · -- the end passes with factor `F₀`, which the reference and the rest have to share
      have hsome : (checkEnd s ev e p).1 = some F₀ := congrArg Prod.fst hcheck
      have hnext : (checkEnd s ev e p).2.report = p.report := by rw [hcheck, hreport]
      have hcons : ∀ F, BalancedBy s ev p.annotations (e :: es) F ↔
          F₀ = F ∧ BalancedBy s ev p.annotations es F := by
        intro F
        rw [BalancedBy, List.forall_mem_cons]
        refine and_congr_left fun _ => ⟨?_, ?_⟩
        · rintro ⟨k', d', m', hb⟩
          exact (hbalanced.unique hb).2.2.2
        · rintro rfl
          exact ⟨k, d, m, hbalanced⟩
      by_cases hagree : ∀ r, reference = some r → r = F₀
      · rw [checkEnds_of_agree hsome hagree, ← hnext, ih (hend.faithful h)]
        simp only [hcons, hend.balancedBy_iff, Option.some.injEq]
        constructor
        · rintro ⟨F, hF, hb⟩
          obtain rfl : F₀ = F := hF F₀ rfl
          exact ⟨F₀, hagree, rfl, hb⟩
        · rintro ⟨F, -, rfl, hb⟩
          exact ⟨F₀, fun r hr => hr.symm, hb⟩
      · refine iff_of_false ?_ ?_
        · rw [checkEnds_of_differ hsome hagree, ← hnext]
          exact Report.add_ne _ _ _ _
        · rintro ⟨F, hF, hb⟩
          obtain ⟨rfl, -⟩ := (hcons F).1 hb
          exact hagree hF
    · refine iff_of_false (checkEnds_ne hne) ?_
      rintro ⟨F, -, hb⟩
      obtain ⟨k, d, m, hbalanced⟩ := hb e List.mem_cons_self
      exact hunbalanced k d m F hbalanced

/-! ## Settled records -/

/-- The record of an end stays settled while others are checked. -/
theorem Touches.isSettled (h : Touches e p q) {x : Path} (hx : x ≠ e)
    (hsettled : IsSettled s ev p.annotations x) : IsSettled s ev q.annotations x := by
  obtain ⟨k, d, m, F, hbalanced, hrecord⟩ := hsettled
  exact ⟨k, d, m, F, balanced_of_cardinality?_eq hbalanced h.cardinality?_eq,
    settled_of_get_eq hrecord (h.get_eq x hx)⟩

/-- The record of an end is settled when its check is silent. -/
theorem isSettled_checkEnd (h : Faithful s p.annotations)
    (hsilent : (checkEnd s ev e p).2.report = p.report) :
    IsSettled s ev (checkEnd s ev e p).2.annotations e := by
  have hend : Keeps p (checkEnd s ev e p).2 := touches_checkEnd.toKeeps
  rcases checkEnd_cases s ev e h with
    ⟨k, d, m, F, q, hbalanced, hcheck, -, hrecord⟩ | ⟨-, hne⟩
  · rw [hcheck] at hend ⊢
    exact ⟨k, d, m, F, balanced_of_cardinality?_eq hbalanced hend.cardinality?_eq, hrecord⟩
  · exact absurd hsilent hne

/-- A silent check of ends settles them all, and unsettles none. -/
theorem isSettled_checkEnds (h : Faithful s p.annotations)
    (hsilent : (checkEnds s ev c reference es p).report = p.report) {x : Path}
    (hx : x ∈ es ∨ IsSettled s ev p.annotations x) :
    IsSettled s ev (checkEnds s ev c reference es p).annotations x := by
  induction es generalizing reference p with
  | nil => exact hx.resolve_left List.not_mem_nil
  | cons e es ih =>
    have hend : Touches e p (checkEnd s ev e p).2 := touches_checkEnd
    have hfirst : (checkEnd s ev e p).2.report = p.report :=
      Decidable.byContradiction fun hne => checkEnds_ne hne hsilent
    rcases checkEnds_cons_cases s ev c e reference es p with
      ⟨reference', hrest⟩ | ⟨code, message, hadd⟩
    · rw [hrest] at hsilent ⊢
      refine ih (hend.toKeeps.faithful h) (hsilent.trans hfirst.symm) ?_
      by_cases hxe : x = e
      · subst hxe
        exact Or.inr (isSettled_checkEnd h hfirst)
      · rcases hx with hx | hx
        · exact Or.inl ((List.mem_cons.1 hx).resolve_left hxe)
        · exact Or.inr (hend.isSettled hxe hx)
    · rw [hadd, ← hfirst] at hsilent
      exact absurd hsilent (Report.add_ne _ _ _ _)

/-! ## All connectors -/

theorem ends_eq_of_keeps (h : Keeps p q) : q.annotations.ends = p.annotations.ends :=
  Annotations.ends_eq_of_links h.links_eq

theorem keeps_checkConnector : Keeps p (checkConnector s ev p c) :=
  keeps_checkEnds

theorem keeps_foldl_checkConnector (s : Store) (ev : Evaluator) (p : Progress) (cs : List Path) :
    Keeps p (cs.foldl (checkConnector s ev) p) :=
  List.foldlRecOn cs _ (keeps_refl p) fun _ hq _ _ => hq.trans keeps_checkConnector

/-- A connector passes exactly when one factor balances its ends. -/
theorem checkConnector_eq_iff (h : Faithful s p.annotations) :
    (checkConnector s ev p c).report = p.report ↔
      ∃ F, BalancedBy s ev p.annotations (p.annotations.ends c) F := by
  rw [checkConnector, checkEnds_eq_iff h]
  simp

/-- Connectors pass exactly when each of them does on its own. -/
theorem foldl_checkConnector_eq_iff (h : Faithful s p.annotations) {cs : List Path} :
    (cs.foldl (checkConnector s ev) p).report = p.report ↔
      ∀ c ∈ cs, ∃ F, BalancedBy s ev p.annotations (p.annotations.ends c) F := by
  refine Report.foldl_eq_iff Progress.report (Keeps p)
    (fun q c => keeps_checkConnector.extends_report)
    (fun q c hq => hq.trans keeps_checkConnector) (fun q c hq => ?_) (keeps_refl p)
  rw [checkConnector_eq_iff (hq.faithful h), ends_eq_of_keeps hq]
  simp only [hq.balancedBy_iff]

/-- A silent check of connectors settles all their ends, and unsettles none. -/
theorem isSettled_foldl_checkConnector (h : Faithful s p.annotations) {cs : List Path}
    (hsilent : (cs.foldl (checkConnector s ev) p).report = p.report) {x : Path}
    (hx : (∃ c ∈ cs, x ∈ p.annotations.ends c) ∨ IsSettled s ev p.annotations x) :
    IsSettled s ev (cs.foldl (checkConnector s ev) p).annotations x := by
  induction cs generalizing p with
  | nil => exact hx.resolve_left fun ⟨c, hc, _⟩ => List.not_mem_nil hc
  | cons c cs ih =>
    have hkeeps : Keeps p (checkConnector s ev p c) := keeps_checkConnector
    have hextends : (checkConnector s ev p c).report.Extends
        (cs.foldl (checkConnector s ev) (checkConnector s ev p c)).report :=
      Report.extends_foldl Progress.report (fun q c => keeps_checkConnector.extends_report) cs _
    rw [List.foldl_cons] at hsilent ⊢
    obtain ⟨hfirst, hrest⟩ := (hkeeps.extends_report.eq_iff hextends).1 hsilent
    refine ih (hkeeps.faithful h) hrest ?_
    rw [ends_eq_of_keeps hkeeps]
    rcases hx with ⟨d, hd, hx⟩ | hx
    · rcases List.mem_cons.1 hd with rfl | hd
      · exact Or.inr (isSettled_checkEnds h hfirst (Or.inl hx))
      · exact Or.inl ⟨d, hd, hx⟩
    · exact Or.inr (isSettled_checkEnds h hfirst (Or.inr hx))

end

/-- **The check of matching factors is sound and complete.**  It adds no violation exactly when
every connector has one factor that balances all its ends, and then the record of every end holds
the degree, the multiplicity and the factor that balance it. -/
theorem checkConnectors_eq_iff_balanced (s : Store) (config : Config) (report report' : Report) :
    let a := (resolveMotifs s (build s config) report).1
    let r := checkConnectors s config a report'
    (r.2 = report' ↔ ∀ c ∈ a.connectors, ∃ F, ∀ e ∈ a.ends c, ∃ k d m,
        Balanced s (a.evaluator config) a.annotations e k d m F) ∧
      (r.2 = report' → ∀ c ∈ a.connectors, ∀ e ∈ a.ends c, ∀ k d m F,
        Balanced s (a.evaluator config) a.annotations e k d m F →
          Settled r.1.annotations e d m F) := by
  intro a r
  have hfaithful : Faithful s a.annotations :=
    faithful_of_texts (faithful_build s config) (resolving_resolveMotifs s config report).texts_eq
  refine ⟨foldl_checkConnector_eq_iff (p := ⟨a.annotations, report'⟩) hfaithful, ?_⟩
  intro hsilent c hc e he k d m F hbalanced
  obtain ⟨k', d', m', F', hbalanced', hrecord⟩ :=
    isSettled_foldl_checkConnector (p := ⟨a.annotations, report'⟩) hfaithful hsilent
      (Or.inl ⟨c, hc, he⟩)
  have hkeeps := keeps_foldl_checkConnector s (a.evaluator config) ⟨a.annotations, report'⟩
    a.connectors
  obtain ⟨-, rfl, rfl, rfl⟩ :=
    hbalanced.unique (balanced_of_cardinality?_eq hbalanced' hkeeps.cardinality?_eq.symm)
  exact hrecord

end Rendezvous.Architecture
