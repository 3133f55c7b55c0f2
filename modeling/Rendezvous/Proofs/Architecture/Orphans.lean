import Rendezvous.Proofs.Accumulation
import Rendezvous.Proofs.Architecture.Parts

/-!
# Orphans

A sub-connector whose source no connector lists is reported when it finds no motif for it.  The
report is made at once, while later sub-connectors can still attach the same source.  A source that
stays in no list is always reported (`cites_of_isOrphan`), but a reported one may find its place
after all; `cites_orphanedEnd_iff` says that the reports are right exactly when no later sub-connector
finds a motif for a source that an earlier one has given up.
-/

namespace Rendezvous

/-! ## Findings about a node -/

/-- A report has a finding about a node under a code. -/
def Report.Cites (r : Report) (code : String) (node : Path) : Prop :=
  ∃ v ∈ r.violations, v.node = node ∧ v.code = code

instance (r : Report) (code : String) (node : Path) : Decidable (r.Cites code node) :=
  inferInstanceAs (Decidable (∃ v ∈ r.violations, v.node = node ∧ v.code = code))

theorem Report.cites_add {r : Report} {code code' message : String} {node node' : Path} :
    (r.add node' code' message).Cites code node ↔
      r.Cites code node ∨ (node' = node ∧ code' = code) := by
  simp only [Cites, add, List.mem_append, List.mem_singleton, or_and_right, exists_or,
    exists_eq_left]

namespace Architecture

/-! ## Turns -/

/-- A source of a sub-connector that no connector lists. -/
def IsOrphan (s : Store) (a : Architecture) (e : Path) : Prop :=
  (∃ sub ∈ a.subConnectors, s.pointer? sub Pointer.source = some e) ∧
    ∀ c ∈ a.connectors, e ∉ a.ends c

/-- It is for `sub` to find a motif for `e`, which is its source and in no list. -/
def Seeks (s : Store) (a : Architecture) (sub e : Path) : Prop :=
  s.pointer? sub Pointer.source = some e ∧ ∀ c, e ∉ a.ends c

section
variable {s : Store} {r : Architecture × Report} {sub e : Path}

theorem Seeks.unique {a : Architecture} {x : Path} (h : Seeks s a sub e) (h' : Seeks s a sub x) :
    e = x := by
  have hsource := h'.1
  rw [h.1] at hsource
  exact Option.some.inj hsource

/-- **What a step does.**  Nothing, when its source is missing or in a list.  Otherwise the motif
that it finds gains the source, or the source is reported. -/
theorem attachSubConnector_cases (h : Owned r.1) :
    ((∀ e, ¬ Seeks s r.1 sub e) ∧ attachSubConnector s r sub = r) ∨
      ∃ e, Seeks s r.1 sub e ∧
        ((∃ c, motifOf? s r.1 sub = some c ∧ (Fate.joins c).Holds e r (attachSubConnector s r sub)) ∨
          (motifOf? s r.1 sub = none ∧ attachSubConnector s r sub =
            (r.1, r.2.add e Code.orphanedEnd (orphanedEndMessage e)))) := by
  cases hsource : s.pointer? sub Pointer.source with
  | none =>
    refine Or.inl ⟨fun e hseeks => ?_, by simp [attachSubConnector, hsource]⟩
    rw [Seeks, hsource] at hseeks
    cases hseeks.1
  | some e =>
    by_cases hattached : ∃ c ∈ r.1.connectors, e ∈ r.1.ends c
    · refine Or.inl ⟨fun x hseeks => ?_, attachSubConnector_of_attached h hsource hattached⟩
      obtain ⟨c, -, hc⟩ := hattached
      obtain ⟨hx, hfresh⟩ := hseeks
      rw [hsource] at hx
      cases hx
      exact hfresh c hc
    · have hfresh : ∀ d, e ∉ r.1.ends d := fun d hd => hattached ⟨d, h.mem_connectors hd, hd⟩
      refine Or.inr ⟨e, ⟨hsource, hfresh⟩, ?_⟩
      cases hmotif : motifOf? s r.1 sub with
      | some c => exact Or.inl ⟨c, rfl, holds_joins h hsource hfresh hmotif⟩
      | none => exact Or.inr ⟨rfl, (holds_orphaned h hsource hfresh hmotif).2⟩

/-- A step adds a finding exactly for a source that it seeks a motif for in vain. -/
theorem cites_attachSubConnector (h : Owned r.1) :
    (attachSubConnector s r sub).2.Cites Code.orphanedEnd e ↔
      r.2.Cites Code.orphanedEnd e ∨ (Seeks s r.1 sub e ∧ motifOf? s r.1 sub = none) := by
  rcases attachSubConnector_cases h with ⟨hidle, hstep⟩ | ⟨x, hx, hfound | ⟨hnone, hstep⟩⟩
  · rw [hstep, or_iff_left fun hnew => hidle e hnew.1]
  · obtain ⟨c, hmotif, -, -, -, -, hsame⟩ := hfound
    rw [hsame, or_iff_left fun hnew => by simp [hmotif] at hnew]
  · rw [hstep, Report.cites_add]
    refine or_congr_right ⟨?_, ?_⟩
    · rintro ⟨rfl, -⟩
      exact ⟨hx, hnone⟩
    · rintro ⟨he, -⟩
      exact ⟨hx.unique he, rfl⟩

/-- A step lists what was listed, and a source at the motif that it finds for it. -/
theorem mem_ends_attachSubConnector (h : Owned r.1) {c : Path} :
    e ∈ (attachSubConnector s r sub).1.ends c ↔
      e ∈ r.1.ends c ∨ (Seeks s r.1 sub e ∧ motifOf? s r.1 sub = some c) := by
  rcases attachSubConnector_cases h with ⟨hidle, hstep⟩ | ⟨x, hx, hfound | ⟨hnone, hstep⟩⟩
  · rw [hstep, or_iff_left fun hnew => hidle e hnew.1]
  · obtain ⟨d, hmotif, -, -, hends, -, -⟩ := hfound
    rw [hends, hmotif]
    split
    · next hc =>
      subst hc
      rw [List.mem_append, List.mem_singleton]
      refine or_congr_right ⟨?_, fun he => he.1.unique hx⟩
      rintro rfl
      exact ⟨hx, rfl⟩
    · next hc =>
      rw [or_iff_left]
      rintro ⟨-, hd⟩
      exact hc (Option.some.inj hd).symm
  · rw [hstep, or_iff_left fun hnew => by simp [hnone] at hnew]

theorem listed_attachSubConnector (h : Owned r.1) :
    (∃ c, e ∈ (attachSubConnector s r sub).1.ends c) ↔
      (∃ c, e ∈ r.1.ends c) ∨ (Seeks s r.1 sub e ∧ (motifOf? s r.1 sub).isSome) := by
  simp only [mem_ends_attachSubConnector h, exists_or, exists_and_left, Option.isSome_iff_exists]

end

/-! ## The run -/

/-- The architecture that a sub-connector finds when `before` have been processed. -/
def foundAfter (s : Store) (a : Architecture) (before : List Path) : Architecture :=
  (resolvedUpTo s a (.empty .architecture) before).1

/-- The sub-connector `sub`, processed after `before`, finds no motif for `e`. -/
def GivesUp (s : Store) (a : Architecture) (before : List Path) (sub e : Path) : Prop :=
  Seeks s (foundAfter s a before) sub e ∧ motifOf? s (foundAfter s a before) sub = none

/-- The sub-connector `sub`, processed after `before`, finds a motif for `e`. -/
def Finds (s : Store) (a : Architecture) (before : List Path) (sub e : Path) : Prop :=
  Seeks s (foundAfter s a before) sub e ∧ (motifOf? s (foundAfter s a before) sub).isSome

section
variable {s : Store} {a : Architecture} {before done more : List Path} {sub e : Path}

theorem owned_foundAfter (h : Owned a) (done : List Path) : Owned (foundAfter s a done) :=
  (resolving_resolvedUpTo s h _ done).owned

theorem listed_foundAfter_concat (h : Owned a) :
    (∃ c, e ∈ (foundAfter s a (done ++ [sub])).ends c) ↔
      (∃ c, e ∈ (foundAfter s a done).ends c) ∨ Finds s a done sub e := by
  rw [foundAfter, resolvedUpTo_concat]
  exact listed_attachSubConnector (owned_foundAfter h done)

/-- What is reported has been given up at some turn. -/
theorem cites_resolvedUpTo_iff (h : Owned a) :
    (resolvedUpTo s a (.empty .architecture) done).2.Cites Code.orphanedEnd e ↔
      ∃ before sub, before ++ [sub] <+: done ∧ GivesUp s a before sub e := by
  induction done using List.reverseRecOn with
  | nil => simp [resolvedUpTo, Report.Cites, Report.empty]
  | append_singleton done last ih =>
    rw [resolvedUpTo_concat, cites_attachSubConnector (owned_foundAfter h done), ih,
      exists_turn_concat_iff]
    rfl

/-- All findings are about orphans. -/
theorem code_of_mem_resolvedUpTo {v : Violation}
    (hv : v ∈ (resolvedUpTo s a (.empty .architecture) done).2.violations) :
    v.code = Code.orphanedEnd := by
  have hall : ∀ v ∈ (resolvedUpTo s a (.empty .architecture) done).2.violations,
      v.code = Code.orphanedEnd := by
    refine List.foldlRecOn (motive := fun r : Architecture × Report =>
      ∀ v ∈ r.2.violations, v.code = Code.orphanedEnd) done _ (by simp [Report.empty]) ?_
    intro r hr sub _ v hv
    unfold attachSubConnector at hv
    split at hv
    · exact hr v hv
    · split at hv
      · exact hr v hv
      · split at hv
        · exact hr v hv
        · rcases List.mem_append.1 hv with hv | hv
          · exact hr v hv
          · rw [List.mem_singleton.1 hv]
  exact hall v hv

/-- Nothing is reported when no orphan is. -/
theorem violations_resolvedUpTo_eq_nil_iff :
    (resolvedUpTo s a (.empty .architecture) done).2.violations = [] ↔
      ∀ e, ¬ (resolvedUpTo s a (.empty .architecture) done).2.Cites Code.orphanedEnd e := by
  rw [List.eq_nil_iff_forall_not_mem]
  constructor
  · rintro h e ⟨v, hv, -, -⟩
    exact h v hv
  · exact fun h v hv => h v.node ⟨v, hv, rfl, code_of_mem_resolvedUpTo hv⟩

/-- A source that some list holds after more turns was held before, or was found a motif for at one
of them. -/
theorem listed_foundAfter_append_iff (h : Owned a) :
    (∃ c, e ∈ (foundAfter s a (done ++ more)).ends c) ↔
      (∃ c, e ∈ (foundAfter s a done).ends c) ∨
        ∃ between sub, between ++ [sub] <+: more ∧ Finds s a (done ++ between) sub e := by
  induction more using List.reverseRecOn with
  | nil => simp
  | append_singleton more last ih =>
    rw [← List.append_assoc, listed_foundAfter_concat h, ih, exists_turn_concat_iff, or_assoc]

end

/-! ## Exact reports -/

/-- No sub-connector finds a motif for `e` after another one has given it up. -/
def SettledAtOnce (s : Store) (a : Architecture) (e : Path) : Prop :=
  ∀ before sub between sub', before ++ sub :: between ++ [sub'] <+: a.subConnectors →
    GivesUp s a before sub e → ¬ Finds s a (before ++ sub :: between) sub' e

section
variable {s : Store} {a : Architecture} {e : Path}

/-- **No orphan goes unreported.** -/
theorem cites_of_isOrphan (h : Owned a)
    (horphan : IsOrphan s (foundAfter s a a.subConnectors) e) :
    (resolvedUpTo s a (.empty .architecture) a.subConnectors).2.Cites Code.orphanedEnd e := by
  have hnow := resolving_resolvedUpTo s h (.empty .architecture) a.subConnectors
  obtain ⟨⟨sub, hsub, hsource⟩, hunlisted⟩ := horphan
  rw [foundAfter, hnow.subConnectors_eq] at hsub
  obtain ⟨before, after, hsplit⟩ := List.append_of_mem hsub
  have hnever : ¬ ∃ c, e ∈ (foundAfter s a a.subConnectors).ends c := by
    rintro ⟨c, hc⟩
    exact hunlisted c (hnow.owned.mem_connectors hc) hc
  rw [hsplit, listed_foundAfter_append_iff h, not_or] at hnever
  have hseeks : Seeks s (foundAfter s a before) sub e :=
    ⟨hsource, fun c hc => hnever.1 ⟨c, hc⟩⟩
  -- had it found a motif at its turn, a list would hold the source from then on
  have hnone : motifOf? s (foundAfter s a before) sub = none := by
    rw [← Option.not_isSome_iff_eq_none]
    intro hsome
    refine hnever.2 ⟨[], sub, ?_, ?_⟩
    · exact List.prefix_append [sub] after
    · rw [List.append_nil]
      exact ⟨hseeks, hsome⟩
  refine (cites_resolvedUpTo_iff h).2 ⟨before, sub, ?_, hseeks, hnone⟩
  rw [hsplit]
  exact (List.prefix_append_right_inj before).2 (List.prefix_append [sub] after)

/-- A source that was given up and never found a motif for is an orphan. -/
theorem SettledAtOnce.isOrphan (h : Owned a) (hsettled : SettledAtOnce s a e)
    (hcites : (resolvedUpTo s a (.empty .architecture) a.subConnectors).2.Cites
      Code.orphanedEnd e) : IsOrphan s (foundAfter s a a.subConnectors) e := by
  obtain ⟨before, sub, ⟨more, hsplit⟩, hup⟩ := (cites_resolvedUpTo_iff h).1 hcites
  rw [List.append_assoc] at hsplit
  have hnow := resolving_resolvedUpTo s h (.empty .architecture) a.subConnectors
  refine ⟨⟨sub, ?_, hup.1.1⟩, fun c _ hc => ?_⟩
  · rw [foundAfter, hnow.subConnectors_eq, ← hsplit]
    simp
  · have hlisted : ∃ c, e ∈ (foundAfter s a (before ++ ([sub] ++ more))).ends c := by
      rw [hsplit]
      exact ⟨c, hc⟩
    rcases (listed_foundAfter_append_iff h).1 hlisted with ⟨d, hd⟩ | ⟨between, last, hlast, hfinds⟩
    · exact hup.1.2 d hd
    · -- the turn that finds a motif is not the one that gave up, so it comes later
      cases between with
      | nil =>
        obtain rfl : last = sub := List.singleton_prefix_cons_iff.1 hlast
        have hsome := hfinds.2
        rw [List.append_nil, hup.2] at hsome
        cases hsome
      | cons x between =>
        obtain ⟨rfl, -⟩ := List.cons_prefix_cons.1 hlast
        refine hsettled before x between last ?_ hup hfinds
        rw [← hsplit, List.append_assoc]
        exact (List.prefix_append_right_inj before).2 hlast

/-- Reports that are right leave no source to a later sub-connector. -/
theorem settledAtOnce_of_isOrphan (h : Owned a)
    (hexact : (resolvedUpTo s a (.empty .architecture) a.subConnectors).2.Cites
      Code.orphanedEnd e → IsOrphan s (foundAfter s a a.subConnectors) e) :
    SettledAtOnce s a e := by
  intro before sub between sub' hprefix hup hfinds
  have hturn : before ++ [sub] <+: a.subConnectors := by
    refine List.IsPrefix.trans ?_ hprefix
    rw [List.append_assoc]
    exact (List.prefix_append_right_inj before).2 (List.prefix_append [sub] _)
  have hcites := (cites_resolvedUpTo_iff h).2 ⟨before, sub, hturn, hup⟩
  obtain ⟨more, hmore⟩ := hprefix
  have hlisted : ∃ c, e ∈ (foundAfter s a a.subConnectors).ends c := by
    rw [← hmore, listed_foundAfter_append_iff h, listed_foundAfter_concat h]
    exact Or.inl (Or.inr hfinds)
  obtain ⟨c, hc⟩ := hlisted
  exact (hexact hcites).2 c ((owned_foundAfter h _).mem_connectors hc) hc

end

/-- **When orphan reports are exact.**  Every orphan is reported.  The reports on `e` are right,
which is to say that a reported `e` is an orphan when all sub-connectors have been processed, exactly
when no sub-connector finds a motif for `e` after another one has given it up. -/
theorem cites_orphanedEnd_iff (s : Store) (config : Config) (e : Path) :
    let a := build s config
    let r := resolveMotifs s a (.empty .architecture)
    (IsOrphan s r.1 e → r.2.Cites Code.orphanedEnd e) ∧
      ((r.2.Cites Code.orphanedEnd e ↔ IsOrphan s r.1 e) ↔ SettledAtOnce s a e) := by
  intro a r
  have howned : Owned a := owned_build s config
  have hreported : IsOrphan s r.1 e → r.2.Cites Code.orphanedEnd e := cites_of_isOrphan howned
  refine ⟨hreported, fun hexact => settledAtOnce_of_isOrphan howned hexact.1, fun hsettled => ?_⟩
  exact ⟨hsettled.isOrphan howned, hreported⟩

/-! ## Sources that are settled at once -/

section
variable {s : Store} {config : Config} {e : Path}

/-- The source of one sub-connector only is settled by it. -/
theorem settledAtOnce_of_single
    (h : ∀ sub ∈ (build s config).subConnectors, ∀ sub' ∈ (build s config).subConnectors,
      s.pointer? sub Pointer.source = some e → s.pointer? sub' Pointer.source = some e →
        sub = sub') : SettledAtOnce s (build s config) e := by
  intro before sub between sub' hprefix hup hfinds
  have hnodup := (nodup_subConnectors_build s config).sublist hprefix.sublist
  have hmem : sub ∈ (build s config).subConnectors := hprefix.subset (by simp)
  have hmem' : sub' ∈ (build s config).subConnectors := hprefix.subset (by simp)
  obtain rfl := h sub hmem sub' hmem' hup.1.1 hfinds.1.1
  simp [List.nodup_append] at hnodup

/-- A source whose sub-connectors all lead to a binary connector is never given up. -/
theorem settledAtOnce_of_leadsTo
    (h : ∀ sub ∈ (build s config).subConnectors, s.pointer? sub Pointer.source = some e →
      ∃ c, LeadsTo s (build s config) sub c) : SettledAtOnce s (build s config) e := by
  intro before sub between sub' hprefix hup
  have hmem : sub ∈ (build s config).subConnectors := hprefix.subset (by simp)
  obtain ⟨c, t, n, ht, hleads⟩ := h sub hmem hup.1.1
  have hnow := resolving_resolvedUpTo s (owned_build s config) (.empty .architecture) before
  have hmotif : motifOf? s (foundAfter s (build s config) before) sub = some c := by
    refine motifOf?_of_leadsTo ⟨t, n, ht, ?_⟩
    rw [foundAfter, hnow.connectors_eq, hnow.subConnectors_eq]
    exact hleads
  have hnone := hup.2
  rw [hmotif] at hnone
  cases hnone

end

/-! ## A source that finds its motif late -/

/-- An end `/e` with a sub-connector `/s` that leads to itself, and a sub-connector `/t` that leads
to a binary connector. -/
def lateMotif : Store :=
  Store.empty.addMany [
    ("/e", bareNode .synchron []), ("/f", bareNode .synchron []), ("/g", bareNode .synchron []),
    ("/c", bareNode .connector [(Pointer.source, "/f"), (Pointer.destination, "/g")]),
    ("/s", bareNode .connector [(Pointer.source, "/e"), (Pointer.destination, "/s")]),
    ("/t", bareNode .connector [(Pointer.source, "/e"), (Pointer.destination, "/c")])]

/-- The end is reported, and then attached. -/
theorem not_isOrphan_lateMotif :
    let r := resolveMotifs lateMotif (build lateMotif .empty) (.empty .architecture)
    ¬ (r.2.Cites Code.orphanedEnd "/e" ↔ IsOrphan lateMotif r.1 "/e") := by
  intro r h
  have hcites : r.2.Cites Code.orphanedEnd "/e" := by decide +kernel
  have hlisted : "/e" ∈ r.1.ends "/c" := by decide +kernel
  exact (h.1 hcites).2 "/c" (by decide +kernel) hlisted

end Architecture

end Rendezvous
