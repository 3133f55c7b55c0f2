import Rendezvous.Proofs.Architecture.Balance
import Rendezvous.Proofs.Architecture.Parts

/-!
# Mismatched connectors

The check of a connector compares every valid end with the first valid one and stops at the first
difference.  That is enough to see whether any two of its ends disagree: the reference and the ends
still to come show the same factors before and after each step (`Shows`), so two different ones are
found exactly when there are two.  A connector is then reported once, and as no check writes what the
others read, once in the whole run (`mismatches_reported_once`).
-/

namespace Rendezvous

/-! ## Mismatches in a report -/

namespace Report

/-- The findings that a connector has ends with different factors. -/
def mismatchesAt (r : Report) (c : Path) : List Violation :=
  r.violations.filter fun v => v.node = c ∧ v.code = Code.matchingFactorMismatch

section
variable {r : Report} {c node : Path} {code message : String}

theorem mismatchesAt_add_of_code_ne (h : code ≠ Code.matchingFactorMismatch) :
    (r.add node code message).mismatchesAt c = r.mismatchesAt c := by
  simp [mismatchesAt, add, h]

theorem mismatchesAt_add_of_node_ne (h : node ≠ c) :
    (r.add node code message).mismatchesAt c = r.mismatchesAt c := by
  simp [mismatchesAt, add, h]

theorem mismatchesAt_add :
    (r.add c Code.matchingFactorMismatch message).mismatchesAt c =
      r.mismatchesAt c ++ [⟨c, r.kind, Code.matchingFactorMismatch, message⟩] := by
  simp [mismatchesAt, add]

end

/-- A check from `r` to `r'` that reports the connector `c` once if `clash` holds, and not at all if
it does not. -/
structure MarksIf (clash : Prop) (c : Path) (r r' : Report) : Prop where
  once : clash → r'.mismatchesAt c = r.mismatchesAt c ++
    [⟨c, r.kind, Code.matchingFactorMismatch, Architecture.mismatchMessage c⟩]
  silent : ¬ clash → r'.mismatchesAt c = r.mismatchesAt c

/-- What happens to other connectors before and after does not count. -/
theorem MarksIf.within {clash clash' : Prop} {c : Path} {r₀ r r' r₁ : Report}
    (h : MarksIf clash c r r') (hclash : clash ↔ clash') (hkind : r.kind = r₀.kind)
    (hbefore : r.mismatchesAt c = r₀.mismatchesAt c)
    (hafter : r₁.mismatchesAt c = r'.mismatchesAt c) : MarksIf clash' c r₀ r₁ where
  once hc := by rw [hafter, h.once (hclash.2 hc), hbefore, hkind]
  silent hc := by rw [hafter, h.silent (mt hclash.1 hc), hbefore]

end Report

namespace Architecture

open Arithmetic
open Report (MarksIf)

/-! ## The factor of an end -/

/-- The end `e` is valid, with the matching factor `F`: its cardinality and its expressions have
values, and degree times cardinality, which has to be below `2 ^ 63`, is `F` times the
multiplicity. -/
def HasFactor (s : Store) (ev : Evaluator) (t : Annotations) (e : Path) (F : Nat) : Prop :=
  ∃ k d m, t.cardinality? e = some k ∧ EvaluatesTo ev (s.attributeText e Attribute.degree) d ∧
    EvaluatesTo ev (s.attributeText e Attribute.multiplicity) m ∧
    0 < m ∧ d * k.toNat < 9223372036854775808 ∧ d * k.toNat = F * m

section
variable {s : Store} {ev : Evaluator} {t u : Annotations} {e : Path} {p : Progress} {F : Nat}

theorem hasFactor_of_cardinality?_eq (h : HasFactor s ev t e F)
    (heq : u.cardinality? = t.cardinality?) : HasFactor s ev u e F := by
  obtain ⟨k, d, m, hk, hrest⟩ := h
  exact ⟨k, d, m, by rw [heq, hk], hrest⟩

theorem settleFactor_fst (d : Nat) (k : UInt32) (m : Nat) :
    (settleFactor e d k m p).1 = naturalFactor? (matchingFactor d k m) := by
  unfold settleFactor
  dsimp only
  split
  · next h => rw [h]
  · next h => rw [h]

theorem hasFactor_iff {k : UInt32} {d m : Nat} (hk : t.cardinality? e = some k)
    (hd : EvaluatesTo ev (s.attributeText e Attribute.degree) d)
    (hm : EvaluatesTo ev (s.attributeText e Attribute.multiplicity) m) :
    HasFactor s ev t e F ↔ naturalFactor? (matchingFactor d k m) = some F := by
  rw [naturalFactor?_eq_some_iff hd.lt hm.lt]
  constructor
  · rintro ⟨k', d', m', hk', hd', hm', h⟩
    obtain rfl : k' = k := Option.some.inj (hk'.symm.trans hk)
    obtain rfl : d' = d := hd'.unique hd
    obtain rfl : m' = m := hm'.unique hm
    exact h
  · exact fun h => ⟨k, d, m, hk, hd, hm, h⟩

/-- The check of an end gives the factor of the end, if it has one. -/
theorem checkEnd_fst_eq_some_iff (h : Faithful s p.annotations) :
    (checkEnd s ev e p).1 = some F ↔ HasFactor s ev p.annotations e F := by
  obtain ⟨hrawDegree, hrawMultiplicity⟩ := recordedText_eq h e
  unfold checkEnd
  cases hk : p.annotations.cardinality? e with
  | none =>
    refine iff_of_false (by simp) ?_
    rintro ⟨k, d, m, hk', -⟩
    rw [hk] at hk'
    cases hk'
  | some k =>
    simp only [checkResolvedEnd, hrawDegree, hrawMultiplicity]
    rcases evaluateEndValue_cases ev e .degree (s.attributeText e Attribute.degree) p.report with
      ⟨d, hd, hdegree⟩ | ⟨hd, code, message, hdegree⟩
    · rcases evaluateEndValue_cases ev e .multiplicity (s.attributeText e Attribute.multiplicity)
        p.report with ⟨m, hm, hmultiplicity⟩ | ⟨hm, code, message, hmultiplicity⟩
      · simp only [hdegree, hmultiplicity, settleFactor_fst]
        exact (hasFactor_iff hk hd hm).symm
      · refine iff_of_false (by simp [hdegree, hmultiplicity]) ?_
        rintro ⟨k', d', m', -, -, hm', -⟩
        exact hm m' hm'
    · refine iff_of_false (by simp [hdegree]) ?_
      rintro ⟨k', d', m', -, hd', -⟩
      exact hd d' hd'

end

/-! ## The findings of one end -/

section
variable {s : Store} {ev : Evaluator} {e c : Path} {p : Progress}

theorem mismatchesAt_evaluateEndValue (value : EndValue) (raw : String) (report : Report) :
    (evaluateEndValue ev e value raw report).2.mismatchesAt c = report.mismatchesAt c := by
  unfold evaluateEndValue
  split
  · split
    · rfl
    · exact Report.mismatchesAt_add_of_code_ne (by decide)
  · exact Report.mismatchesAt_add_of_code_ne (by decide)

theorem mismatchesAt_checkMultiplicity (raw : String) (m : Nat) (k : UInt32) (report : Report) :
    (checkMultiplicity e raw m k report).mismatchesAt c = report.mismatchesAt c := by
  unfold checkMultiplicity
  split
  · exact Report.mismatchesAt_add_of_code_ne (by decide)
  · rfl

theorem mismatchesAt_settleFactor (d : Nat) (k : UInt32) (m : Nat) :
    (settleFactor e d k m p).2.report.mismatchesAt c = p.report.mismatchesAt c := by
  unfold settleFactor
  dsimp only
  split
  · rfl
  · exact Report.mismatchesAt_add_of_code_ne (by decide)

/-- Whatever is wrong with an end, its check reports no mismatch. -/
theorem mismatchesAt_checkEnd :
    (checkEnd s ev e p).2.report.mismatchesAt c = p.report.mismatchesAt c := by
  unfold checkEnd
  split
  · exact Report.mismatchesAt_add_of_code_ne (by decide)
  · unfold checkResolvedEnd
    dsimp only
    split
    · rw [mismatchesAt_settleFactor, mismatchesAt_checkMultiplicity,
        mismatchesAt_evaluateEndValue, mismatchesAt_evaluateEndValue]
    · rw [mismatchesAt_evaluateEndValue, mismatchesAt_evaluateEndValue]

end

/-! ## The ends of a connector -/

/-- The factor `F` is the reference or that of one of the ends. -/
def Shows (s : Store) (ev : Evaluator) (t : Annotations) (reference : Option Nat) (es : List Path)
    (F : Nat) : Prop :=
  reference = some F ∨ ∃ e ∈ es, HasFactor s ev t e F

/-- The reference and the ends show two different factors. -/
def Clash (s : Store) (ev : Evaluator) (t : Annotations) (reference : Option Nat)
    (es : List Path) : Prop :=
  ∃ F F', F ≠ F' ∧ Shows s ev t reference es F ∧ Shows s ev t reference es F'

section
variable {s : Store} {ev : Evaluator} {t u : Annotations} {c e : Path} {reference : Option Nat}
  {es : List Path} {p q : Progress} {F F' : Nat}

theorem shows_cons : Shows s ev t reference (e :: es) F ↔
    HasFactor s ev t e F ∨ Shows s ev t reference es F := by
  simp only [Shows, List.exists_mem_cons_iff]
  exact or_left_comm

theorem Keeps.shows_iff (h : Keeps p q) :
    Shows s ev q.annotations reference es F ↔ Shows s ev p.annotations reference es F := by
  refine or_congr_right (exists_congr fun e => and_congr_right fun _ => ⟨fun he => ?_, fun he => ?_⟩)
  · exact hasFactor_of_cardinality?_eq he h.cardinality?_eq.symm
  · exact hasFactor_of_cardinality?_eq he h.cardinality?_eq

theorem clash_congr {reference' : Option Nat} {es' : List Path}
    (h : ∀ F, Shows s ev t reference es F ↔ Shows s ev u reference' es' F) :
    Clash s ev t reference es ↔ Clash s ev u reference' es' := by
  simp only [Clash, h]

/-- Ends clash among themselves when two of them have different factors. -/
theorem clash_none_iff : Clash s ev t none es ↔
    ∃ e ∈ es, ∃ e' ∈ es, ∃ F F', HasFactor s ev t e F ∧ HasFactor s ev t e' F' ∧ F ≠ F' := by
  simp only [Clash, Shows, reduceCtorEq, false_or]
  constructor
  · rintro ⟨F, F', hne, ⟨e, he, hF⟩, e', he', hF'⟩
    exact ⟨e, he, e', he', F, F', hF, hF', hne⟩
  · rintro ⟨e, he, e', he', F, F', hF, hF', hne⟩
    exact ⟨F, F', hne, ⟨e, he, hF⟩, e', he', hF'⟩

/-- **A connector is reported once exactly if there are two factors**, whether they are found at
neighbouring ends or not. -/
theorem marksIf_checkEnds (h : Faithful s p.annotations) :
    MarksIf (Clash s ev p.annotations reference es) c p.report
      (checkEnds s ev c reference es p).report := by
  induction es generalizing reference p with
  | nil =>
    refine ⟨?_, fun _ => rfl⟩
    rintro ⟨F, F', hne, hF | ⟨e, he, -⟩, hF' | ⟨e', he', -⟩⟩
    · exact absurd (Option.some.inj (hF.symm.trans hF')) hne
    · exact absurd he' List.not_mem_nil
    · exact absurd he List.not_mem_nil
    · exact absurd he List.not_mem_nil
  | cons e es ih =>
    have hend : Keeps p (checkEnd s ev e p).2 := touches_checkEnd.toKeeps
    have hfactor : ∀ F, HasFactor s ev p.annotations e F ↔ (checkEnd s ev e p).1 = some F :=
      fun F => (checkEnd_fst_eq_some_iff h).symm
    cases hfst : (checkEnd s ev e p).1 with
    | none =>
      rw [checkEnds_of_none hfst]
      refine (ih (hend.faithful h)).within (clash_congr fun F => ?_) hend.extends_report.kind_eq
        mismatchesAt_checkEnd rfl
      rw [hend.shows_iff, shows_cons, hfactor, hfst]
      simp
    | some F₀ =>
      by_cases hagree : ∀ r, reference = some r → r = F₀
      · -- the factor takes the place of the reference, and both stand for the same
        rw [checkEnds_of_agree hfst hagree]
        refine (ih (hend.faithful h)).within (clash_congr fun F => ?_) hend.extends_report.kind_eq
          mismatchesAt_checkEnd rfl
        rw [hend.shows_iff, shows_cons, hfactor, hfst, Shows, Shows]
        refine (or_congr_left ?_).trans or_assoc
        refine (or_iff_left_of_imp fun hr => ?_).symm
        rw [hagree F hr]
      · rw [checkEnds_of_differ hfst hagree]
        have hclash : Clash s ev p.annotations reference (e :: es) := by
          push Not at hagree
          obtain ⟨r, hr, hne⟩ := hagree
          exact ⟨r, F₀, hne, Or.inl hr, shows_cons.2 (Or.inl ((hfactor F₀).2 hfst))⟩
        refine ⟨fun _ => ?_, fun hnot => absurd hclash hnot⟩
        rw [Report.mismatchesAt_add, mismatchesAt_checkEnd, hend.extends_report.kind_eq]

/-- The check of a connector reports no other one. -/
theorem mismatchesAt_checkEnds_of_ne {c' : Path} (hne : c ≠ c') :
    (checkEnds s ev c reference es p).report.mismatchesAt c' = p.report.mismatchesAt c' := by
  induction es generalizing reference p with
  | nil => rfl
  | cons e es ih =>
    rcases checkEnds_cons_cases s ev c e reference es p with ⟨reference', h⟩ | ⟨code, message, h⟩
    · rw [h, ih, mismatchesAt_checkEnd]
    · rw [h, Report.mismatchesAt_add_of_node_ne hne, mismatchesAt_checkEnd]

/-! ## All connectors -/

theorem mismatchesAt_foldl_checkConnector {cs : List Path} (hc : c ∉ cs) (p : Progress) :
    (cs.foldl (checkConnector s ev) p).report.mismatchesAt c = p.report.mismatchesAt c := by
  refine List.foldlRecOn (motive := fun q : Progress => q.report.mismatchesAt c =
    p.report.mismatchesAt c) cs _ rfl fun q hq d hd => ?_
  have hne : d ≠ c := fun heq => hc (heq ▸ hd)
  rw [← hq]
  exact mismatchesAt_checkEnds_of_ne hne

/-- Among other connectors, a connector is judged by its own ends. -/
theorem marksIf_foldl_checkConnector (h : Faithful s p.annotations) {cs : List Path}
    (hnodup : cs.Nodup) (hc : c ∈ cs) :
    MarksIf (Clash s ev p.annotations none (p.annotations.ends c)) c p.report
      (cs.foldl (checkConnector s ev) p).report := by
  obtain ⟨before, after, rfl⟩ := List.append_of_mem hc
  obtain ⟨hbefore, hafter⟩ : c ∉ before ∧ c ∉ after := by
    rw [List.nodup_middle, List.nodup_cons, List.mem_append, not_or] at hnodup
    exact hnodup.1
  have hkeeps := keeps_foldl_checkConnector s ev p before
  rw [List.foldl_append, List.foldl_cons]
  refine (marksIf_checkEnds (hkeeps.faithful h)).within (clash_congr fun F => ?_)
    hkeeps.extends_report.kind_eq (mismatchesAt_foldl_checkConnector hbefore p)
    (mismatchesAt_foldl_checkConnector hafter _)
  rw [ends_eq_of_keeps hkeeps, hkeeps.shows_iff]

end

theorem nodup_connectors_build (s : Store) (config : Config) : (build s config).connectors.Nodup := by
  rw [connectors_build_eq_filter]
  exact (s.nodup_instancesWhere _).filter _

/-- **Mismatches are reported exactly once.**  The check only adds findings.  It adds one finding of a
mismatch on a connector if two of its ends have different matching factors, and none otherwise; and it
adds none on anything but a connector. -/
theorem mismatches_reported_once (s : Store) (config config' : Config) (report report' : Report) :
    let a := (resolveMotifs s (build s config) report).1
    let ev := a.evaluator config'
    let after := (checkConnectors s config' a report').2
    report'.Extends after ∧
      (∀ c ∈ a.connectors, MarksIf (∃ e ∈ a.ends c, ∃ e' ∈ a.ends c, ∃ F F',
        HasFactor s ev a.annotations e F ∧ HasFactor s ev a.annotations e' F' ∧ F ≠ F')
        c report' after) ∧
      ∀ c, c ∉ a.connectors → after.mismatchesAt c = report'.mismatchesAt c := by
  intro a ev after
  have hresolving := resolving_resolveMotifs s config report
  have hfaithful : Faithful s a.annotations :=
    faithful_of_texts (faithful_build s config) hresolving.texts_eq
  have hnodup : a.connectors.Nodup := by
    rw [hresolving.connectors_eq]
    exact nodup_connectors_build s config
  let p : Progress := ⟨a.annotations, report'⟩
  refine ⟨(keeps_foldl_checkConnector s ev p a.connectors).extends_report, fun c hc => ?_,
    fun c hc => mismatchesAt_foldl_checkConnector hc p⟩
  rw [← clash_none_iff]
  exact marksIf_foldl_checkConnector (p := p) hfaithful hnodup hc

/-! ## An invalid end between two others -/

/-- The connector `/c` has ends with the factors 1 and 2, and between them one whose factor is one
half. -/
def unequalEnds : Store :=
  Store.empty.addMany (onePortType ++ [
    ("/e", weightedEnd .synchron "1" "1"), ("/f", weightedEnd .synchron "1" "2"),
    ("/g", weightedEnd .synchron "2" "1"),
    ("/k", bareNode .connection [(Pointer.source, "/e"), (Pointer.destination, "/a/p")]),
    ("/l", bareNode .connection [(Pointer.source, "/f"), (Pointer.destination, "/a/p")]),
    ("/m", bareNode .connection [(Pointer.source, "/g"), (Pointer.destination, "/a/p")]),
    ("/c", bareNode .connector [(Pointer.source, "/e"), (Pointer.destination, "/f")]),
    ("/d", bareNode .connector [(Pointer.source, "/g"), (Pointer.destination, "/c")])])

example : (checkConsistency unequalEnds .empty (build unequalEnds .empty)).2.violations.map
    (fun v => (v.node, v.code)) =
      [("/f", Code.nonIntegerMatchingFactor), ("/c", Code.matchingFactorMismatch)] := by
  decide +kernel

end Architecture

end Rendezvous
