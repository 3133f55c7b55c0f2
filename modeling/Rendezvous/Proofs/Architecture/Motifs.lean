import Mathlib.Data.List.Induction
import Rendezvous.Proofs.Architecture.Build
import Rendezvous.Proofs.Architecture.Chains

/-!
# Attaching the ends of sub-connectors

Sub-connectors are processed one after the other, and each step reads the lists that the earlier
steps have extended.  What carries through the run is that the table stays linked and that only
binary connectors list ends (`Owned`): an end without a connector is then an end that no list
holds.  One step decides one `Fate` for the source of its sub-connector, and the steps together
only lengthen the lists (`Growth`), by ends that no list held before and each by one
sub-connector's step.
-/

namespace Rendezvous.Architecture

/-! ## Deriving cardinalities keeps links and texts -/

section
variable (s : Store) (a : Annotations) (connection : Path)

theorem links_deriveCardinality : (deriveCardinality s a connection).links = a.links := by
  unfold deriveCardinality
  split
  · rfl
  · exact Annotations.links_setCardinality _ _ _

theorem texts_deriveCardinality : (deriveCardinality s a connection).texts = a.texts := by
  unfold deriveCardinality
  split
  · rfl
  · exact Annotations.texts_setCardinality _ _ _

end

theorem links_deriveCardinalities (s : Store) (a : Architecture) :
    (deriveCardinalities s a).annotations.links = a.annotations.links :=
  view_foldl Annotations.links (links_deriveCardinality s) _ _

theorem texts_deriveCardinalities (s : Store) (a : Architecture) :
    (deriveCardinalities s a).annotations.texts = a.annotations.texts :=
  view_foldl Annotations.texts (texts_deriveCardinality s) _ _

/-! ## Ends and their owners -/

/-- The table is linked, and only binary connectors list ends. -/
structure Owned (a : Architecture) : Prop where
  linked : a.annotations.Linked
  mem_connectors : ∀ {c e : Path}, e ∈ a.ends c → c ∈ a.connectors

theorem owned_build (s : Store) (config : Config) : Owned (build s config) where
  linked := (wired_build s config).linked
  mem_connectors h := ((wired_build s config).mem_ends_iff.1 h).1

theorem owned_of_links {a b : Architecture} (h : Owned a)
    (hlinks : b.annotations.links = a.annotations.links)
    (hconnectors : b.connectors = a.connectors) :
    Owned b where
  linked := Annotations.linked_of_links hlinks h.linked
  mem_connectors {c e} := by
    rw [ends, Annotations.ends_eq_of_links hlinks, hconnectors]
    exact h.mem_connectors

theorem Owned.isSome_iff {a : Architecture} (h : Owned a) {e : Path} :
    (a.connectorOf? e).isSome ↔ ∃ c ∈ a.connectors, e ∈ a.ends c := by
  rw [connectorOf?, h.linked.isSome_iff]
  constructor
  · rintro ⟨c, hc⟩
    exact ⟨c, h.mem_connectors hc, hc⟩
  · rintro ⟨c, -, hc⟩
    exact ⟨c, hc⟩

/-! ## One step -/

/-- What becomes of the source of a sub-connector. -/
inductive Fate where
  /-- A connector lists it already. -/
  | attached
  /-- It joins the ends of a connector. -/
  | joins (connector : Path)
  /-- It has no motif. -/
  | orphaned

/-- What a fate means for the source `e` of a sub-connector, from before to after its step.  Only
one list is ever changed, and only an orphan is reported, once. -/
def Fate.Holds (e : Path) (r r' : Architecture × Report) : Fate → Prop
  | attached => (∃ c ∈ r.1.connectors, e ∈ r.1.ends c) ∧ r' = r
  | joins c =>
    (∀ d, e ∉ r.1.ends d) ∧ c ∈ r.1.connectors ∧
      (∀ d, r'.1.ends d = if d = c then r.1.ends d ++ [e] else r.1.ends d) ∧
      r'.1.connectorOf? e = some c ∧ r'.2 = r.2
  | orphaned =>
    (∀ d, e ∉ r.1.ends d) ∧ r' = (r.1, r.2.add e Code.orphanedEnd (orphanedEndMessage e))

section
variable {s : Store} {r : Architecture × Report} {sub e : Path}

/-- A step with a source either finds it attached, or attaches it to its motif, or reports it. -/
theorem attachSubConnector_of_source (he : s.pointer? sub Pointer.source = some e) :
    attachSubConnector s r sub =
      if (r.1.connectorOf? e).isSome then r
      else
        match motifOf? s r.1 sub with
        | some c => ({ r.1 with annotations := r.1.annotations.attach c e }, r.2)
        | none => (r.1, r.2.add e Code.orphanedEnd (orphanedEndMessage e)) := by
  unfold attachSubConnector
  split
  · next hnone =>
    rw [he] at hnone
    cases hnone
  · next e' he' =>
    rw [he] at he'
    cases he'
    rfl

theorem attachSubConnector_of_attached (h : Owned r.1)
    (he : s.pointer? sub Pointer.source = some e)
    (hattached : ∃ c ∈ r.1.connectors, e ∈ r.1.ends c) : attachSubConnector s r sub = r := by
  rw [attachSubConnector_of_source he, if_pos (h.isSome_iff.2 hattached)]

theorem attachSubConnector_of_fresh (h : Owned r.1) (he : s.pointer? sub Pointer.source = some e)
    (hfresh : ∀ d, e ∉ r.1.ends d) :
    attachSubConnector s r sub =
      match motifOf? s r.1 sub with
      | some c => ({ r.1 with annotations := r.1.annotations.attach c e }, r.2)
      | none => (r.1, r.2.add e Code.orphanedEnd (orphanedEndMessage e)) := by
  have hnone : r.1.connectorOf? e = none := h.linked.eq_none_iff.2 hfresh
  rw [attachSubConnector_of_source he, hnone, if_neg (by simp)]

/-- An unattached source with a motif joins it. -/
theorem holds_joins (h : Owned r.1) (he : s.pointer? sub Pointer.source = some e)
    (hfresh : ∀ d, e ∉ r.1.ends d) {c : Path} (hc : motifOf? s r.1 sub = some c) :
    (Fate.joins c).Holds e r (attachSubConnector s r sub) := by
  rw [attachSubConnector_of_fresh h he hfresh, hc]
  refine ⟨hfresh, mem_connectors_of_motifOf? hc, fun d => ?_, ?_, rfl⟩
  · rw [ends, Annotations.ends_attach]
    by_cases hd : d = c
    · subst hd
      rw [if_pos ⟨rfl, hfresh d⟩, if_pos rfl]
      rfl
    · rw [if_neg fun hcd => hd hcd.1.symm, if_neg hd]
      rfl
  · rw [connectorOf?, Annotations.connectorOf?_attach, if_pos ⟨hfresh c, rfl⟩]

/-- An unattached source without a motif is reported. -/
theorem holds_orphaned (h : Owned r.1) (he : s.pointer? sub Pointer.source = some e)
    (hfresh : ∀ d, e ∉ r.1.ends d) (hc : motifOf? s r.1 sub = none) :
    Fate.orphaned.Holds e r (attachSubConnector s r sub) := by
  rw [attachSubConnector_of_fresh h he hfresh, hc]
  exact ⟨hfresh, rfl⟩

/-- One step cannot have two outcomes. -/
theorem Fate.holds_unique {r' : Architecture × Report} {f g : Fate} (hf : f.Holds e r r')
    (hg : g.Holds e r r') : f = g := by
  -- an attached end is in a list, a joining one has a new owner, an orphan lengthens the report
  have hreport : ∀ {code message : String}, r.2 ≠ r.2.add e code message := by
    intro code message heq
    have hsize := congrArg Report.size heq
    rw [Report.size_add] at hsize
    omega
  cases f with
  | attached =>
    obtain ⟨⟨c, -, hc⟩, -⟩ := hf
    cases g with
    | attached => rfl
    | joins d => exact absurd hc (hg.1 c)
    | orphaned => exact absurd hc (hg.1 c)
  | joins c =>
    obtain ⟨hfresh, -, -, howner, hsame⟩ := hf
    cases g with
    | attached =>
      obtain ⟨⟨d, -, hd⟩, -⟩ := hg
      exact absurd hd (hfresh d)
    | joins d =>
      have howner' := hg.2.2.2.1
      rw [howner] at howner'
      cases howner'
      rfl
    | orphaned =>
      have hadd := hg.2
      rw [hadd] at hsame
      exact absurd hsame.symm hreport
  | orphaned =>
    obtain ⟨hfresh, hadd⟩ := hf
    cases g with
    | attached =>
      obtain ⟨⟨d, -, hd⟩, -⟩ := hg
      exact absurd hd (hfresh d)
    | joins d =>
      have hsame := hg.2.2.2.2
      rw [hadd] at hsame
      exact absurd hsame.symm hreport
    | orphaned => rfl

/-- **One step decides one fate.** -/
theorem existsUnique_fate (h : Owned r.1) (he : s.pointer? sub Pointer.source = some e) :
    ∃! fate : Fate, fate.Holds e r (attachSubConnector s r sub) := by
  refine existsUnique_of_exists_of_unique ?_ fun f g => Fate.holds_unique
  by_cases hattached : ∃ c ∈ r.1.connectors, e ∈ r.1.ends c
  · exact ⟨.attached, hattached, attachSubConnector_of_attached h he hattached⟩
  · have hfresh : ∀ d, e ∉ r.1.ends d := fun d hd => hattached ⟨d, h.mem_connectors hd, hd⟩
    cases hc : motifOf? s r.1 sub with
    | some c => exact ⟨.joins c, holds_joins h he hfresh hc⟩
    | none => exact ⟨.orphaned, holds_orphaned h he hfresh hc⟩

end

/-! ## What a step leaves alone -/

section
variable {s : Store} {r : Architecture × Report} {sub : Path}

/-- A step changes the table and nothing else of the architecture, and the table by attaching the
source of the sub-connector, when no connector has it. -/
theorem attachSubConnector_fst (s : Store) (r : Architecture × Report) (sub : Path) :
    ∃ t : Annotations, (attachSubConnector s r sub).1 = { r.1 with annotations := t } ∧
      (t = r.1.annotations ∨ ∃ c e, s.pointer? sub Pointer.source = some e ∧
        r.1.connectorOf? e = none ∧ c ∈ r.1.connectors ∧ t = r.1.annotations.attach c e) := by
  unfold attachSubConnector
  split
  · exact ⟨r.1.annotations, rfl, Or.inl rfl⟩
  · next e he =>
    split
    · exact ⟨r.1.annotations, rfl, Or.inl rfl⟩
    · next hnone =>
      split
      · next c hc =>
        exact ⟨_, rfl, Or.inr ⟨c, e, he, by simpa using hnone, mem_connectors_of_motifOf? hc, rfl⟩⟩
      · exact ⟨r.1.annotations, rfl, Or.inl rfl⟩

theorem owned_attach {a : Architecture} (h : Owned a) {c : Path} (hc : c ∈ a.connectors)
    (e : Path) :
    Owned { a with annotations := a.annotations.attach c e } where
  linked := Annotations.linked_attach h.linked c e
  mem_connectors {d x} hx := by
    rcases Annotations.mem_ends_attach.1 hx with hx | ⟨rfl, -⟩
    · exact h.mem_connectors hx
    · exact hc

theorem owned_attachSubConnector (h : Owned r.1) : Owned (attachSubConnector s r sub).1 := by
  obtain ⟨t, hfst, rfl | ⟨c, e, -, -, hc, rfl⟩⟩ := attachSubConnector_fst s r sub
  · rw [hfst]
    exact h
  · rw [hfst]
    exact owned_attach h hc e

theorem texts_attachSubConnector :
    (attachSubConnector s r sub).1.annotations.texts = r.1.annotations.texts := by
  obtain ⟨t, hfst, rfl | ⟨c, e, -, -, -, rfl⟩⟩ := attachSubConnector_fst s r sub
  · rw [hfst]
  · rw [hfst, Annotations.texts_attach]

end

/-! ## Growing lists -/

/-- The ends that a log of attachments adds to a connector. -/
def appendedTo (log : List (Path × Path)) (c : Path) : List Path :=
  (log.filter fun entry => entry.1 = c).map Prod.snd

theorem mem_appendedTo {log : List (Path × Path)} {c e : Path} :
    e ∈ appendedTo log c ↔ (c, e) ∈ log := by
  unfold appendedTo
  constructor
  · intro h
    obtain ⟨⟨d, x⟩, hmem, rfl⟩ := List.mem_map.1 h
    obtain ⟨hlog, hd⟩ := List.mem_filter.1 hmem
    rw [← of_decide_eq_true hd]
    exact hlog
  · intro h
    exact List.mem_map.2 ⟨(c, e), List.mem_filter.2 ⟨h, decide_eq_true rfl⟩, rfl⟩

/-- How the lists of ends have grown since `start`, after the sub-connectors `done`: by the
attachments of `log`, in their order.  No end is attached twice, none was listed at the start, and
each is the source of a sub-connector. -/
structure Growth (s : Store) (done : List Path) (start now : Architecture)
    (log : List (Path × Path)) : Prop where
  ends_eq : ∀ c, now.ends c = start.ends c ++ appendedTo log c
  once : (log.map Prod.snd).Nodup
  fresh : ∀ c e, (c, e) ∈ log → ∀ d, e ∉ start.ends d
  source : ∀ c e, (c, e) ∈ log → ∃ sub ∈ done, s.pointer? sub Pointer.source = some e

section
variable {s : Store} {done : List Path} {start now : Architecture} {log : List (Path × Path)}

theorem growth_of_ends (h : now.ends = start.ends) : Growth s done start now [] where
  ends_eq c := by rw [h, appendedTo, List.filter_nil, List.map_nil, List.append_nil]
  once := List.nodup_nil
  fresh _ _ hmem := absurd hmem List.not_mem_nil
  source _ _ hmem := absurd hmem List.not_mem_nil

theorem Growth.mem_ends_iff (h : Growth s done start now log) {c e : Path} :
    e ∈ now.ends c ↔ e ∈ start.ends c ∨ (c, e) ∈ log := by
  rw [h.ends_eq, List.mem_append, mem_appendedTo]

/-- A step that attaches nothing. -/
theorem Growth.skip (h : Growth s done start now log) {next : Architecture}
    (hends : next.ends = now.ends) (sub : Path) : Growth s (done ++ [sub]) start next log where
  ends_eq := by
    rw [hends]
    exact h.ends_eq
  once := h.once
  fresh := h.fresh
  source c e hmem := by
    obtain ⟨sub', hsub', he⟩ := h.source c e hmem
    exact ⟨sub', List.mem_append_left _ hsub', he⟩

/-- A step that attaches an end which no connector lists. -/
theorem Growth.attach (h : Growth s done start now log) {next : Architecture} {sub c e : Path}
    (hends : ∀ d, next.ends d = if c = d ∧ e ∉ now.ends d then now.ends d ++ [e] else now.ends d)
    (hnone : ∀ d, e ∉ now.ends d) (he : s.pointer? sub Pointer.source = some e) :
    Growth s (done ++ [sub]) start next (log ++ [(c, e)]) where
  ends_eq d := by
    rw [hends]
    by_cases hd : c = d
    · subst hd
      rw [if_pos ⟨rfl, hnone c⟩, h.ends_eq]
      simp [appendedTo]
    · rw [if_neg fun hcd => hd hcd.1, h.ends_eq]
      simp [appendedTo, hd]
  once := by
    rw [List.map_append, List.map_singleton]
    refine List.Nodup.append h.once (List.nodup_singleton e) ?_
    refine List.disjoint_singleton.2 fun hmem => ?_
    obtain ⟨⟨d, x⟩, hlog, rfl⟩ := List.mem_map.1 hmem
    exact hnone d (h.mem_ends_iff.2 (Or.inr hlog))
  fresh d x hmem := by
    rcases List.mem_append.1 hmem with hmem | hmem
    · exact h.fresh d x hmem
    · cases List.mem_singleton.1 hmem
      exact fun d' hd' => hnone d' (h.mem_ends_iff.2 (Or.inl hd'))
  source d x hmem := by
    rcases List.mem_append.1 hmem with hmem | hmem
    · obtain ⟨sub', hsub', hx⟩ := h.source d x hmem
      exact ⟨sub', List.mem_append_left _ hsub', hx⟩
    · cases List.mem_singleton.1 hmem
      exact ⟨sub, by simp, he⟩

end

/-! ## The run -/

/-- The state after the given sub-connectors have been processed. -/
def resolvedUpTo (s : Store) (a : Architecture) (report : Report) (done : List Path) :
    Architecture × Report :=
  done.foldl (attachSubConnector s) (deriveCardinalities s a, report)

theorem resolvedUpTo_concat (s : Store) (a : Architecture) (report : Report) (done : List Path)
    (sub : Path) :
    resolvedUpTo s a report (done ++ [sub]) =
      attachSubConnector s (resolvedUpTo s a report done) sub :=
  List.foldl_concat ..

/-- What holds of an architecture `now` that is reached from `start` by processing `done`. -/
structure Resolving (s : Store) (start : Architecture) (done : List Path) (now : Architecture) :
    Prop where
  owned : Owned now
  connectors_eq : now.connectors = start.connectors
  subConnectors_eq : now.subConnectors = start.subConnectors
  parameters_eq : now.parameters = start.parameters
  texts_eq : now.annotations.texts = start.annotations.texts
  growth : ∃ log, Growth s done start now log

theorem resolving_start (s : Store) {a : Architecture} (h : Owned a) :
    Resolving s a [] (deriveCardinalities s a) where
  owned := owned_of_links h (links_deriveCardinalities s a) rfl
  connectors_eq := rfl
  subConnectors_eq := rfl
  parameters_eq := rfl
  texts_eq := texts_deriveCardinalities s a
  growth := ⟨[], growth_of_ends (Annotations.ends_eq_of_links (links_deriveCardinalities s a))⟩

theorem resolving_step {s : Store} {a : Architecture} {done : List Path} {r : Architecture × Report}
    (h : Resolving s a done r.1) (sub : Path) :
    Resolving s a (done ++ [sub]) (attachSubConnector s r sub).1 := by
  obtain ⟨log, hgrowth⟩ := h.growth
  obtain ⟨t, hfst, ht⟩ := attachSubConnector_fst s r sub
  refine ⟨owned_attachSubConnector h.owned, ?_, ?_, ?_,
    texts_attachSubConnector.trans h.texts_eq, ?_⟩
  · rw [hfst]
    exact h.connectors_eq
  · rw [hfst]
    exact h.subConnectors_eq
  · rw [hfst]
    exact h.parameters_eq
  · rw [hfst]
    rcases ht with rfl | ⟨c, e, he, hnone, -, rfl⟩
    · exact ⟨log, hgrowth.skip rfl sub⟩
    · refine ⟨log ++ [(c, e)], hgrowth.attach (fun d => ?_) (h.owned.linked.eq_none_iff.1 hnone) he⟩
      exact Annotations.ends_attach r.1.annotations c e d

theorem resolving_resolvedUpTo (s : Store) {a : Architecture} (h : Owned a) (report : Report)
    (done : List Path) : Resolving s a done (resolvedUpTo s a report done).1 := by
  induction done using List.reverseRecOn with
  | nil => exact resolving_start s h
  | append_singleton done sub ih =>
    rw [resolvedUpTo_concat]
    exact resolving_step ih sub

/-- Resolving the motifs of what was built. -/
theorem resolving_resolveMotifs (s : Store) (config : Config) (report : Report) :
    Resolving s (build s config) (build s config).subConnectors
      (resolveMotifs s (build s config) report).1 :=
  resolving_resolvedUpTo s (owned_build s config) report _

/-! ## Every end finds its motif -/

/-- **Sub-connectors are attached to the right motifs**, whatever their chains look like.  Over
the whole run the lists of ends only grow, by sources of sub-connectors that no list held, each of
them once.  Processing a sub-connector with a source `e` attaches `e`, reports it, or finds it
attached, and only one of these; and if its chain of destinations leads to a binary connector, `e`
is attached to it unless it was attached before. -/
theorem resolveMotifs_attaches_sources (s : Store) (config : Config) (report : Report) :
    let a := build s config
    resolveMotifs s a report = resolvedUpTo s a report a.subConnectors ∧
      (∃ log, Growth s a.subConnectors a (resolveMotifs s a report).1 log) ∧
      ∀ (before after : List Path) (sub e : Path), a.subConnectors = before ++ sub :: after →
        s.pointer? sub Pointer.source = some e →
        let r := resolvedUpTo s a report before
        let r' := resolvedUpTo s a report (before ++ [sub])
        (∃! fate : Fate, fate.Holds e r r') ∧
          ∀ c, (∀ d, e ∉ r.1.ends d) → LeadsTo s a sub c → (Fate.joins c).Holds e r r' := by
  intro a
  refine ⟨rfl, (resolving_resolveMotifs s config report).growth, ?_⟩
  intro before after sub e _ he r r'
  have hr : Resolving s a before r.1 :=
    resolving_resolvedUpTo s (owned_build s config) report before
  have hstep : r' = attachSubConnector s r sub := resolvedUpTo_concat s a report before sub
  rw [hstep]
  refine ⟨existsUnique_fate hr.owned he, fun c hfresh hleads => ?_⟩
  -- the chain is read off pointers and parts, which the steps before have not changed
  have hnow : LeadsTo s r.1 sub c := by
    rw [LeadsTo, hr.connectors_eq, hr.subConnectors_eq]
    exact hleads
  exact holds_joins hr.owned he hfresh (motifOf?_of_leadsTo hnow)

end Rendezvous.Architecture
