import Rendezvous.Proofs.Architecture.Orphans
import Rendezvous.Proofs.Architecture.Order

/-!
# Sub-connectors in any order

A sub-connector finds its motif by its chain, which never changes, or else by an end whose connector
it falls back to, which another sub-connector may attach before or after.  `Unambiguous` says that
what was built already settles both: sub-connectors with one source have one motif, and no other
sub-connector attaches an end that one falls back to.  Then every source joins the motif that it had
when building was done, or is reported for having had none (`Unambiguous.attached`), and neither
depends on the order (`sameAttachments_of_reorders`).
-/

namespace Rendezvous.Architecture

/-! ## Chains and fallbacks -/

/-- The binary connector that the chain of a sub-connector leads to. -/
def chainMotif? (s : Store) (a : Architecture) (sub : Path) : Option Path :=
  (s.pointer? sub Pointer.destination).bind fun target =>
    match followChain s a.connectors (without a.subConnectors sub) target with
    | .connector c => some c
    | _ => none

/-- The end whose connector a sub-connector falls back to: the source of the node that its chain gets
stuck at. -/
def fallbackEnd? (s : Store) (a : Architecture) (sub : Path) : Option Path :=
  (s.pointer? sub Pointer.destination).bind fun target =>
    match followChain s a.connectors (without a.subConnectors sub) target with
    | .stuck node => s.pointer? node Pointer.source
    | _ => none

/-- The first connector that lists an end. -/
def holder? (a : Architecture) (e : Path) : Option Path :=
  a.connectors.find? fun c => (a.ends c).contains e

/-- A motif is found by the chain, or else by the fallback. -/
theorem motifOf?_eq (s : Store) (a : Architecture) (sub : Path) :
    motifOf? s a sub = (chainMotif? s a sub).or ((fallbackEnd? s a sub).bind (holder? a)) := by
  unfold motifOf? chainMotif? fallbackEnd?
  cases s.pointer? sub Pointer.destination with
  | none => rfl
  | some target =>
    simp only [Option.bind_some]
    cases followChain s a.connectors (without a.subConnectors sub) target with
    | connector c => rfl
    | stuck node => rfl
    | broken => rfl

/-- A chain is a matter of which parts there are. -/
theorem chain_congr {s t : Store} {a b : Architecture} (hpointer : s.pointer? = t.pointer?)
    (hconnectors : ∀ p, p ∈ a.connectors ↔ p ∈ b.connectors)
    (hsubs : ∀ p, p ∈ a.subConnectors ↔ p ∈ b.subConnectors) (sub : Path) :
    chainMotif? s a sub = chainMotif? t b sub ∧ fallbackEnd? s a sub = fallbackEnd? t b sub := by
  have hchain : ∀ target, followChain s a.connectors (without a.subConnectors sub) target =
      followChain t b.connectors (without b.subConnectors sub) target := fun target =>
    followChain_congr hpointer hconnectors fun p => by simp [without, hsubs]
  constructor
  · simp only [chainMotif?, hpointer, hchain]
  · simp only [fallbackEnd?, hpointer, hchain]

/-- The only connector that lists an end is its holder. -/
theorem holder?_eq_some_iff {a : Architecture} {e c : Path}
    (hunique : ∀ c c', e ∈ a.ends c → e ∈ a.ends c' → c = c') :
    holder? a e = some c ↔ c ∈ a.connectors ∧ e ∈ a.ends c := by
  constructor
  · intro h
    exact ⟨List.mem_of_find?_eq_some h, by simpa using List.find?_some h⟩
  · rintro ⟨hc, he⟩
    have hsome : (holder? a e).isSome := List.find?_isSome.2 ⟨c, hc, by simpa using he⟩
    obtain ⟨c', hc'⟩ := Option.isSome_iff_exists.1 hsome
    have he' : e ∈ a.ends c' := by simpa using List.find?_some hc'
    rw [hc', hunique c' c he' he]

theorem holder?_congr {a b : Architecture} {e : Path}
    (hconnectors : ∀ p, p ∈ a.connectors ↔ p ∈ b.connectors)
    (hends : ∀ c, e ∈ a.ends c ↔ e ∈ b.ends c)
    (hunique : ∀ c c', e ∈ a.ends c → e ∈ a.ends c' → c = c') : holder? a e = holder? b e := by
  refine Option.ext fun c => ?_
  rw [holder?_eq_some_iff hunique, holder?_eq_some_iff, hconnectors, hends]
  intro c c'
  rw [← hends, ← hends]
  exact hunique c c'

/-! ## Unambiguous sub-connectors -/

/-- What was built settles which motif every source joins.  `Seeks s a sub e` says that `e` is the
source of `sub` and that no binary connector points at it. -/
structure Unambiguous (s : Store) (a : Architecture) : Prop where
  /-- Sub-connectors with one source have one motif. -/
  agree : ∀ sub ∈ a.subConnectors, ∀ sub' ∈ a.subConnectors, ∀ e,
    Seeks s a sub e → Seeks s a sub' e → motifOf? s a sub = motifOf? s a sub'
  /-- No sub-connector attaches an end that another one falls back to. -/
  settled : ∀ sub ∈ a.subConnectors, ∀ sub' ∈ a.subConnectors, ∀ e x,
    Seeks s a sub e → fallbackEnd? s a sub = some x → Seeks s a sub' x → motifOf? s a sub' = none
  /-- An end that a sub-connector falls back to belongs to one binary connector at most. -/
  unique : ∀ sub ∈ a.subConnectors, ∀ e x, Seeks s a sub e → fallbackEnd? s a sub = some x →
    ∀ c c', x ∈ a.ends c → x ∈ a.ends c' → c = c'

/-- Sub-connectors whose chains do not get stuck, each with a source of its own. -/
theorem unambiguous_of_chains {s : Store} {a : Architecture}
    (hchains : ∀ sub ∈ a.subConnectors, fallbackEnd? s a sub = none)
    (hsources : ∀ sub ∈ a.subConnectors, ∀ sub' ∈ a.subConnectors,
      s.pointer? sub Pointer.source = s.pointer? sub' Pointer.source → sub = sub') :
    Unambiguous s a where
  agree sub hsub sub' hsub' e he he' := by
    rw [hsources sub hsub sub' hsub' (he.1.trans he'.1.symm)]
  settled sub hsub _ _ _ _ _ hx := by
    rw [hchains sub hsub] at hx
    cases hx
  unique sub hsub _ _ _ hx := by
    rw [hchains sub hsub] at hx
    cases hx

/-- What has become of the sources of the sub-connectors `done`: each joined the motif that it had at
first, or was reported when it had none. -/
structure Attached (s : Store) (a : Architecture) (done : List Path) (r : Architecture × Report) :
    Prop where
  mem_ends_iff : ∀ {c e}, e ∈ r.1.ends c ↔
    e ∈ a.ends c ∨ ∃ sub ∈ done, Seeks s a sub e ∧ motifOf? s a sub = some c
  cites_iff : ∀ {e}, r.2.Cites Code.orphanedEnd e ↔
    ∃ sub ∈ done, Seeks s a sub e ∧ motifOf? s a sub = none

section
variable {s : Store} {a : Architecture} {done : List Path} {r : Architecture × Report}
  {sub e x c : Path}

theorem attached_start (s : Store) (a : Architecture) :
    Attached s a [] (deriveCardinalities s a, .empty .architecture) where
  mem_ends_iff {c e} := by
    have hends : (deriveCardinalities s a).ends = a.ends :=
      Annotations.ends_eq_of_links (links_deriveCardinalities s a)
    simp [hends]
  cites_iff := by simp [Report.Cites, Report.empty]

/-- A source that is still without a connector was so from the start. -/
theorem Attached.seeks (h : Attached s a done r) (hseeks : Seeks s r.1 sub e) : Seeks s a sub e :=
  ⟨hseeks.1, fun c hc => hseeks.2 c (h.mem_ends_iff.2 (Or.inl hc))⟩

/-- **The motif of a source does not change until it is its turn.** -/
theorem Unambiguous.motifOf?_eq (h : Unambiguous s a) (hr : Attached s a done r)
    (hnow : Resolving s a done r.1) (hdone : ∀ sub ∈ done, sub ∈ a.subConnectors)
    (hsub : sub ∈ a.subConnectors) (hseeks : Seeks s a sub e) :
    motifOf? s r.1 sub = motifOf? s a sub := by
  obtain ⟨hchain, hfallback⟩ := chain_congr (a := r.1) (b := a) (rfl : s.pointer? = s.pointer?)
    (fun p => by rw [hnow.connectors_eq]) (fun p => by rw [hnow.subConnectors_eq]) sub
  rw [Architecture.motifOf?_eq, Architecture.motifOf?_eq, hchain, hfallback]
  congr 1
  refine Option.bind_congr fun x hx => (holder?_congr (fun p => ?_) (fun c => ?_)
    (h.unique sub hsub e x hseeks hx)).symm
  · rw [hnow.connectors_eq]
  · rw [hr.mem_ends_iff, or_iff_left]
    rintro ⟨sub', hsub', hseeks', hmotif⟩
    rw [h.settled sub hsub sub' (hdone sub' hsub') e x hseeks hx hseeks'] at hmotif
    cases hmotif

/-- A source that has a connector when its turn comes has got the motif that it had at first. -/
theorem Attached.motifOf?_of_listed (hr : Attached s a done r) (h : Unambiguous s a)
    (hdone : ∀ sub ∈ done, sub ∈ a.subConnectors) (hsub : sub ∈ a.subConnectors)
    (hseeks : Seeks s a sub e) (hlisted : e ∈ r.1.ends c) : motifOf? s a sub = some c := by
  rcases hr.mem_ends_iff.1 hlisted with hbuilt | ⟨sub', hsub', hseeks', hmotif⟩
  · exact absurd hbuilt (hseeks.2 c)
  · rw [h.agree sub hsub sub' (hdone sub' hsub') e hseeks hseeks', hmotif]

/-- What a turn adds to `old` by the motif found now, it adds by the motif at first: a source that
already has a connector adds nothing, and `old` must say so of its motif. -/
theorem Attached.turn_iff (hr : Attached s a done r) (h : Unambiguous s a)
    (hnow : Resolving s a done r.1) (hdone : ∀ sub ∈ done, sub ∈ a.subConnectors)
    (hsub : sub ∈ a.subConnectors) {old : Prop} {motif : Option Path}
    (hlisted : ∀ c, e ∈ r.1.ends c → motif = some c → old) :
    old ∨ Seeks s r.1 sub e ∧ motifOf? s r.1 sub = motif ↔
      old ∨ Seeks s a sub e ∧ motifOf? s a sub = motif := by
  constructor
  · rintro (hold | ⟨hseeks, hmotif⟩)
    · exact Or.inl hold
    · rw [h.motifOf?_eq hr hnow hdone hsub (hr.seeks hseeks)] at hmotif
      exact Or.inr ⟨hr.seeks hseeks, hmotif⟩
  · rintro (hold | ⟨hseeks, hmotif⟩)
    · exact Or.inl hold
    · by_cases hlater : ∃ c, e ∈ r.1.ends c
      · obtain ⟨c, hc⟩ := hlater
        have hsome : motifOf? s a sub = some c := hr.motifOf?_of_listed h hdone hsub hseeks hc
        exact Or.inl (hlisted c hc (hmotif.symm.trans hsome))
      · rw [← h.motifOf?_eq hr hnow hdone hsub hseeks] at hmotif
        exact Or.inr ⟨⟨hseeks.1, fun c hc => hlater ⟨c, hc⟩⟩, hmotif⟩

/-- Each step attaches or reports its source by the motif that it had at first. -/
theorem attached_step (h : Unambiguous s a) (hr : Attached s a done r)
    (hnow : Resolving s a done r.1) (hdone : ∀ sub ∈ done, sub ∈ a.subConnectors)
    (hsub : sub ∈ a.subConnectors) :
    Attached s a (done ++ [sub]) (attachSubConnector s r sub) := by
  have hlast : ∀ P : Path → Prop,
      (∃ sub' ∈ done ++ [sub], P sub') ↔ (∃ sub' ∈ done, P sub') ∨ P sub := by
    simp [or_and_right, exists_or]
  constructor
  · intro c e
    rw [hlast, ← or_assoc, ← hr.mem_ends_iff, mem_ends_attachSubConnector hnow.owned]
    refine hr.turn_iff h hnow hdone hsub fun d hd hsame => ?_
    cases hsame
    exact hd
  · intro e
    rw [hlast, ← hr.cites_iff, cites_attachSubConnector hnow.owned]
    refine hr.turn_iff h hnow hdone hsub fun d hd hsame => ?_
    cases hsame

/-- **Unambiguous sub-connectors attach by what was built.** -/
theorem Unambiguous.attached (h : Unambiguous s a) (hbuilt : Owned a)
    (hdone : ∀ sub ∈ done, sub ∈ a.subConnectors) :
    Attached s a done (resolvedUpTo s a (.empty .architecture) done) := by
  induction done using List.reverseRecOn with
  | nil => exact attached_start s a
  | append_singleton done last ih =>
    obtain ⟨hdone, hlast⟩ : (∀ sub ∈ done, sub ∈ a.subConnectors) ∧ last ∈ a.subConnectors := by
      simpa [or_imp, forall_and] using hdone
    rw [resolvedUpTo_concat]
    exact attached_step h (ih hdone) (resolving_resolvedUpTo s hbuilt _ done) hdone hlast

end

/-! ## Another order -/

/-- Resolving attaches the same ends in both stores, and reports the same. -/
structure SameAttachments (s t : Store) (config : Config) : Prop where
  mem_ends_iff : ∀ c e, e ∈ (resolveMotifs s (build s config) (.empty .architecture)).1.ends c ↔
    e ∈ (resolveMotifs t (build t config) (.empty .architecture)).1.ends c
  cites_iff : ∀ e,
    (resolveMotifs s (build s config) (.empty .architecture)).2.Cites Code.orphanedEnd e ↔
      (resolveMotifs t (build t config) (.empty .architecture)).2.Cites Code.orphanedEnd e

section
variable {s t : Store} (h : s.Reorders t) (config : Config)
include h

theorem seeks_build_iff_of_reorders {sub e : Path} :
    Seeks s (build s config) sub e ↔ Seeks t (build t config) sub e := by
  simp only [Seeks, h.pointer?_eq, mem_ends_build_iff h]

theorem chain_build_eq_of_reorders (sub : Path) :
    chainMotif? s (build s config) sub = chainMotif? t (build t config) sub ∧
      fallbackEnd? s (build s config) sub = fallbackEnd? t (build t config) sub :=
  chain_congr h.pointer?_eq (fun _ => mem_connectors_build_iff h config)
    (fun _ => mem_subConnectors_build_iff h config) sub

variable (hunambiguous : Unambiguous s (build s config))
include hunambiguous

/-- A source has the same motif in every order. -/
theorem motifOf?_build_eq_of_reorders {sub e : Path} (hsub : sub ∈ (build s config).subConnectors)
    (hseeks : Seeks s (build s config) sub e) :
    motifOf? s (build s config) sub = motifOf? t (build t config) sub := by
  obtain ⟨hchain, hfallback⟩ := chain_build_eq_of_reorders h config sub
  rw [motifOf?_eq, motifOf?_eq, hchain, ← hfallback]
  congr 1
  refine Option.bind_congr fun x hx => holder?_congr (fun _ => mem_connectors_build_iff h config)
    (fun _ => mem_ends_build_iff h config) (hunambiguous.unique sub hsub e x hseeks hx)

theorem unambiguous_of_reorders : Unambiguous t (build t config) := by
  have hseeks : ∀ {sub e}, Seeks t (build t config) sub e → Seeks s (build s config) sub e :=
    (seeks_build_iff_of_reorders h config).2
  have hsubs : ∀ {sub}, sub ∈ (build t config).subConnectors → sub ∈ (build s config).subConnectors :=
    (mem_subConnectors_build_iff h config).2
  have hfallback : ∀ sub, fallbackEnd? s (build s config) sub = fallbackEnd? t (build t config) sub :=
    fun sub => (chain_build_eq_of_reorders h config sub).2
  constructor
  · intro sub hsub sub' hsub' e he he'
    rw [← motifOf?_build_eq_of_reorders h config hunambiguous (hsubs hsub) (hseeks he),
      ← motifOf?_build_eq_of_reorders h config hunambiguous (hsubs hsub') (hseeks he')]
    exact hunambiguous.agree sub (hsubs hsub) sub' (hsubs hsub') e (hseeks he) (hseeks he')
  · intro sub hsub sub' hsub' e x he hx hx'
    rw [← motifOf?_build_eq_of_reorders h config hunambiguous (hsubs hsub') (hseeks hx')]
    rw [← hfallback] at hx
    exact hunambiguous.settled sub (hsubs hsub) sub' (hsubs hsub') e x (hseeks he) hx (hseeks hx')
  · intro sub hsub e x he hx c c'
    rw [← hfallback] at hx
    rw [← mem_ends_build_iff h, ← mem_ends_build_iff h]
    exact hunambiguous.unique sub (hsubs hsub) e x (hseeks he) hx c c'

/-- Which sources have which motif is the same in every order. -/
theorem exists_seeks_iff_of_reorders {e : Path} {motif : Option Path} :
    (∃ sub ∈ (build s config).subConnectors, Seeks s (build s config) sub e ∧
        motifOf? s (build s config) sub = motif) ↔
      ∃ sub ∈ (build t config).subConnectors, Seeks t (build t config) sub e ∧
        motifOf? t (build t config) sub = motif := by
  refine exists_congr fun sub => ?_
  rw [mem_subConnectors_build_iff h, seeks_build_iff_of_reorders h]
  refine and_congr_right fun hsub => and_congr_right fun hseeks => ?_
  rw [motifOf?_build_eq_of_reorders h config hunambiguous
    ((mem_subConnectors_build_iff h config).2 hsub)
    ((seeks_build_iff_of_reorders h config).2 hseeks)]

/-- **Unambiguous sub-connectors attach the same in every order.** -/
theorem sameAttachments_of_reorders : SameAttachments s t config := by
  have hs : Attached s (build s config) _ (resolveMotifs s (build s config) (.empty _)) :=
    hunambiguous.attached (owned_build s config) fun _ hsub => hsub
  have ht : Attached t (build t config) _ (resolveMotifs t (build t config) (.empty _)) :=
    (unambiguous_of_reorders h config hunambiguous).attached (owned_build t config)
      fun _ hsub => hsub
  constructor
  · intro c e
    rw [hs.mem_ends_iff, ht.mem_ends_iff, mem_ends_build_iff h,
      exists_seeks_iff_of_reorders h config hunambiguous]
  · intro e
    rw [hs.cites_iff, ht.cites_iff, exists_seeks_iff_of_reorders h config hunambiguous]

end

end Rendezvous.Architecture
