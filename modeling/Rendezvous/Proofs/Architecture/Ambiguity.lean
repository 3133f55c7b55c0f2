import Rendezvous.Proofs.Architecture.Attachments

/-!
# Ambiguous sub-connectors

`Unambiguous` excludes no more than it must.  The turn of a sub-connector decides about its source for
good (`motifOf?_eq_some_iff_of_turn`), and any sub-connector can be loaded first.  So when the order
does not show in the result, the motifs that were there to be found at first are those of the result,
whichever binary connector is searched first.  `sameAttachments_perm_iff` says that the attachments
and the reports are the same for all orders of loading exactly when the sub-connectors are
unambiguous.
-/

namespace Rendezvous.Architecture

/-! ## Decided sources -/

section
variable {s : Store} {a : Architecture} {done : List Path} {sub e c : Path}

/-- A turn changes nothing for an end that it does not seek a motif for. -/
theorem resolvedUpTo_concat_of_not_seeks (h : Owned a)
    (hidle : ¬ Seeks s (foundAfter s a done) sub e) :
    (∀ c, e ∈ (foundAfter s a (done ++ [sub])).ends c ↔ e ∈ (foundAfter s a done).ends c) ∧
      ((resolvedUpTo s a (.empty .architecture) (done ++ [sub])).2.Cites Code.orphanedEnd e ↔
        (resolvedUpTo s a (.empty .architecture) done).2.Cites Code.orphanedEnd e) := by
  rw [foundAfter, resolvedUpTo_concat]
  constructor
  · intro c
    rw [mem_ends_attachSubConnector (owned_foundAfter h done)]
    exact or_iff_left fun hnew => hidle hnew.1
  · rw [cites_attachSubConnector (owned_foundAfter h done)]
    exact or_iff_left fun hnew => hidle hnew.1

/-- A source that has a connector keeps it, gets no other one, and is reported no more. -/
theorem resolvedUpTo_append_of_listed (h : Owned a) (more : List Path)
    (hlisted : ∃ c, e ∈ (foundAfter s a done).ends c) :
    (∀ c, e ∈ (foundAfter s a (done ++ more)).ends c ↔ e ∈ (foundAfter s a done).ends c) ∧
      ((resolvedUpTo s a (.empty .architecture) (done ++ more)).2.Cites Code.orphanedEnd e ↔
        (resolvedUpTo s a (.empty .architecture) done).2.Cites Code.orphanedEnd e) := by
  induction more using List.reverseRecOn with
  | nil => simp
  | append_singleton more last ih =>
    obtain ⟨hends, hcites⟩ := ih
    have hidle : ¬ Seeks s (foundAfter s a (done ++ more)) last e := by
      obtain ⟨c, hc⟩ := hlisted
      exact fun hseeks => hseeks.2 c ((hends c).2 hc)
    obtain ⟨hends', hcites'⟩ := resolvedUpTo_concat_of_not_seeks h hidle
    rw [← List.append_assoc]
    exact ⟨fun c => (hends' c).trans (hends c), hcites'.trans hcites⟩

/-- A report is never taken back. -/
theorem cites_resolvedUpTo_append (h : Owned a) (more : List Path)
    (hcites : (resolvedUpTo s a (.empty .architecture) done).2.Cites Code.orphanedEnd e) :
    (resolvedUpTo s a (.empty .architecture) (done ++ more)).2.Cites Code.orphanedEnd e := by
  obtain ⟨before, sub, hbefore, hup⟩ := (cites_resolvedUpTo_iff h).1 hcites
  exact (cites_resolvedUpTo_iff h).2
    ⟨before, sub, hbefore.trans (List.prefix_append done more), hup⟩

/-- **A turn decides for good.**  The motif that a sub-connector finds for a source that has not been
reported is the connector that lists the source without a report in the end. -/
theorem motifOf?_eq_some_iff_of_turn (h : Owned a) (more : List Path)
    (hseeks : Seeks s (foundAfter s a done) sub e)
    (hfresh : ¬ (resolvedUpTo s a (.empty .architecture) done).2.Cites Code.orphanedEnd e) :
    motifOf? s (foundAfter s a done) sub = some c ↔
      e ∈ (foundAfter s a (done ++ sub :: more)).ends c ∧
        ¬ (resolvedUpTo s a (.empty .architecture) (done ++ sub :: more)).2.Cites
          Code.orphanedEnd e := by
  have howned : Owned (foundAfter s a done) := owned_foundAfter h done
  have hcites : (resolvedUpTo s a (.empty .architecture) (done ++ [sub])).2.Cites
      Code.orphanedEnd e ↔ motifOf? s (foundAfter s a done) sub = none := by
    rw [resolvedUpTo_concat, cites_attachSubConnector howned, or_iff_right hfresh]
    exact and_iff_right hseeks
  have hends : ∀ d, e ∈ (foundAfter s a (done ++ [sub])).ends d ↔
      motifOf? s (foundAfter s a done) sub = some d := fun d =>
    calc e ∈ (foundAfter s a (done ++ [sub])).ends d
      _ ↔ e ∈ (foundAfter s a done).ends d ∨ Seeks s (foundAfter s a done) sub e ∧
            motifOf? s (foundAfter s a done) sub = some d := by
        rw [foundAfter, resolvedUpTo_concat]
        exact mem_ends_attachSubConnector howned
      _ ↔ motifOf? s (foundAfter s a done) sub = some d := by
        rw [or_iff_right (hseeks.2 d), and_iff_right hseeks]
  rw [List.append_cons]
  cases hmotif : motifOf? s (foundAfter s a done) sub with
  | none =>
    have hreported := cites_resolvedUpTo_append h more (hcites.2 hmotif)
    constructor
    · intro hsome
      cases hsome
    · rintro ⟨-, hquiet⟩
      exact absurd hreported hquiet
  | some d =>
    obtain ⟨hkeep, hquiet⟩ := resolvedUpTo_append_of_listed h more ⟨d, (hends d).2 hmotif⟩
    rw [hkeep, hquiet, hends, hcites, hmotif]
    simp

/-! ## Motifs -/

/-- Motifs are a matter of which parts there are, of the ends, and of the order of the binary
connectors. -/
theorem motifOf?_congr {t : Store} {b : Architecture} (hpointer : s.pointer? = t.pointer?)
    (hconnectors : a.connectors = b.connectors)
    (hsubs : ∀ p, p ∈ a.subConnectors ↔ p ∈ b.subConnectors)
    (hends : ∀ c e, e ∈ a.ends c ↔ e ∈ b.ends c) : motifOf? s a sub = motifOf? t b sub := by
  obtain ⟨hchain, hfallback⟩ :=
    chain_congr hpointer (fun p => by rw [hconnectors]) hsubs sub
  have hholder : holder? a = holder? b := by
    funext e
    rw [holder?, holder?, hconnectors]
    congr 1
    funext c
    rw [Bool.eq_iff_iff, List.contains_iff_mem, List.contains_iff_mem, hends]
  rw [motifOf?_eq, motifOf?_eq, hchain, hfallback, hholder]

/-- A sub-connector that falls back takes the first connector that lists the end. -/
theorem motifOf?_of_fallbackEnd? {x : Path} (h : fallbackEnd? s a sub = some x) :
    motifOf? s a sub = holder? a x := by
  have hchain : chainMotif? s a sub = none := by
    unfold fallbackEnd? at h
    unfold chainMotif?
    cases htarget : s.pointer? sub Pointer.destination with
    | none => rfl
    | some target =>
      rw [htarget, Option.bind_some] at h
      rw [Option.bind_some]
      split at h
      · next hstuck => simp only [hstuck]
      · cases h
  rw [motifOf?_eq, hchain, h, Option.none_or, Option.bind_some]

/-- What the first sub-connector finds is what was built. -/
theorem foundAfter_nil (s : Store) (a : Architecture) :
    (∀ sub e, Seeks s (foundAfter s a []) sub e ↔ Seeks s a sub e) ∧
      (∀ sub, motifOf? s (foundAfter s a []) sub = motifOf? s a sub) ∧
        ∀ e, ¬ (resolvedUpTo s a (.empty .architecture) []).2.Cites Code.orphanedEnd e := by
  have hends : (foundAfter s a []).ends = a.ends :=
    Annotations.ends_eq_of_links (links_deriveCardinalities s a)
  refine ⟨fun sub e => ?_, fun sub => ?_, fun e => ?_⟩
  · rw [Seeks, Seeks, hends]
  · exact motifOf?_congr rfl rfl (fun _ => Iff.rfl) fun c e => by rw [hends]
  · simp [resolvedUpTo, Report.Cites, Report.empty]

/-- A sub-connector that falls back to the source of the one before it finds a motif when that one
does. -/
theorem listed_of_fallback (h : Owned a) (more : List Path) {sub' x : Path} (hne : e ≠ x)
    (hseeks : Seeks s a sub e) (hfallback : fallbackEnd? s a sub = some x)
    (hseeks' : Seeks s a sub' x) (hmotif : motifOf? s a sub' = some c) :
    ∃ d, e ∈ (foundAfter s a (sub' :: sub :: more)).ends d ∧
      ¬ (resolvedUpTo s a (.empty .architecture) (sub' :: sub :: more)).2.Cites
        Code.orphanedEnd e := by
  obtain ⟨hseeksnil, hmotifnil, hfresh⟩ := foundAfter_nil s a
  have hrun := resolving_resolvedUpTo s h (.empty .architecture) [sub']
  have hidle : ¬ Seeks s (foundAfter s a []) sub' e := fun hsource =>
    hne (hsource.unique ((hseeksnil sub' x).2 hseeks'))
  obtain ⟨hends, hcites⟩ := resolvedUpTo_concat_of_not_seeks h hidle
  have hnow : Seeks s (foundAfter s a [sub']) sub e :=
    ⟨hseeks.1, fun d hd => ((hseeksnil sub e).2 hseeks).2 d ((hends d).1 hd)⟩
  have hx : x ∈ (foundAfter s a [sub']).ends c :=
    ((motifOf?_eq_some_iff_of_turn h [] ((hseeksnil sub' x).2 hseeks') (hfresh x)).1
      ((hmotifnil sub').trans hmotif)).1
  have hfallback' : fallbackEnd? s (foundAfter s a [sub']) sub = some x := by
    rw [← hfallback]
    exact (chain_congr rfl (fun p => by rw [foundAfter, hrun.connectors_eq])
      (fun p => by rw [foundAfter, hrun.subConnectors_eq]) sub).2
  have hsome : (motifOf? s (foundAfter s a [sub']) sub).isSome := by
    rw [motifOf?_of_fallbackEnd? hfallback', holder?, List.find?_isSome]
    exact ⟨c, hrun.owned.mem_connectors hx, by simpa using hx⟩
  obtain ⟨d, hd⟩ := Option.isSome_iff_exists.1 hsome
  exact ⟨d, (motifOf?_eq_some_iff_of_turn h more hnow fun hc => hfresh e (hcites.1 hc)).1 hd⟩

end

/-! ## Choosing the order of the connectors -/

/-- The binary connectors and the sub-connectors can come in any order. -/
theorem exists_perm_parts {nodes : List (Path × Node)} (hdistinct : (nodes.map Prod.fst).Nodup)
    (config : Config) {cs subs : List Path}
    (hcs : cs.Perm (build (.addMany .empty nodes) config).connectors)
    (hsubs : subs.Perm (build (.addMany .empty nodes) config).subConnectors) :
    ∃ nodes' : List (Path × Node), nodes'.Perm nodes ∧
      (build (.addMany .empty nodes') config).connectors = cs ∧
      (build (.addMany .empty nodes') config).subConnectors = subs := by
  rw [connectors_build_eq_filter] at hcs
  rw [subConnectors_build] at hsubs
  have hbinary : ∀ p ∈ cs, isSubConnector (.addMany .empty nodes) p = false := by
    intro p hp
    simpa using (List.mem_filter.1 (hcs.subset hp)).2
  have hsub : ∀ p ∈ subs, isSubConnector (.addMany .empty nodes) p = true := fun p hp =>
    (List.mem_filter.1 (hsubs.subset hp)).2
  have hall : (subs ++ cs).Perm
      ((Store.empty.addMany nodes).instancesWhere (· == .connector)) :=
    (hsubs.append hcs).trans (List.filter_append_perm _ _)
  obtain ⟨nodes', hperm, hinstances⟩ := Store.exists_reorders hdistinct hall
  have hreorders := Store.reorders_addMany hdistinct hperm
  refine ⟨nodes', hperm, ?_, ?_⟩
  · rw [connectors_build_eq_filter, hinstances, isSubConnector_eq_of_reorders hreorders,
      List.filter_append, List.filter_eq_nil_iff.2 (by simpa using hsub), List.nil_append,
      List.filter_eq_self.2 (by simpa using hbinary)]
  · rw [subConnectors_build, hinstances, isSubConnector_eq_of_reorders hreorders,
      List.filter_append, List.filter_eq_self.2 hsub,
      List.filter_eq_nil_iff.2 (by simpa using hbinary), List.append_nil]

/-- For every order of the binary connectors and of the sub-connectors there is a store that has them
in this order, and in which resolving attaches and reports the same. -/
def OrderHidden (s : Store) (config : Config) : Prop :=
  ∀ cs subs : List Path, cs.Perm (build s config).connectors →
    subs.Perm (build s config).subConnectors →
      ∃ t : Store, s.Reorders t ∧ (build t config).connectors = cs ∧
        (build t config).subConnectors = subs ∧ SameAttachments s t config

namespace OrderHidden

variable {s : Store} {config : Config} {sub sub' e x c : Path}

/-- When the order does not show, the motif that a sub-connector finds when it comes first is the
connector that lists its source without a report, whichever binary connector is searched first. -/
theorem motifOf?_eq_some_iff (h : OrderHidden s config) (hsub : sub ∈ (build s config).subConnectors)
    (hseeks : Seeks s (build s config) sub e) {cs : List Path}
    (hcs : cs.Perm (build s config).connectors) :
    motifOf? s { build s config with connectors := cs } sub = some c ↔
      e ∈ (resolveMotifs s (build s config) (.empty .architecture)).1.ends c ∧
        ¬ (resolveMotifs s (build s config) (.empty .architecture)).2.Cites
          Code.orphanedEnd e := by
  have hfirst : (sub :: (build s config).subConnectors.erase sub).Perm
      (build s config).subConnectors := (List.perm_cons_erase hsub).symm
  obtain ⟨t, hreorders, hconnectors, hsubs, hsame⟩ := h cs _ hcs hfirst
  obtain ⟨hseeksnil, hmotifnil, hfresh⟩ := foundAfter_nil t (build t config)
  have hmotif : motifOf? s { build s config with connectors := cs } sub =
      motifOf? t (build t config) sub :=
    motifOf?_congr hreorders.pointer?_eq hconnectors.symm
      (fun _ => mem_subConnectors_build_iff hreorders config)
      fun _ _ => mem_ends_build_iff hreorders config
  have hseeks' : Seeks t (foundAfter t (build t config) []) sub e :=
    (hseeksnil sub e).2 ((seeks_build_iff_of_reorders hreorders config).1 hseeks)
  rw [hmotif, ← hmotifnil, hsame.mem_ends_iff, hsame.cites_iff, resolveMotifs, hsubs]
  exact motifOf?_eq_some_iff_of_turn (owned_build t config) _ hseeks' (hfresh e)

/-- When the order does not show, an end that is fallen back to finds no motif of its own: after its
turn, though not before, the sub-connector that falls back to it would find one too. -/
theorem motifOf?_eq_none (h : OrderHidden s config) (hsub : sub ∈ (build s config).subConnectors)
    (hsub' : sub' ∈ (build s config).subConnectors) (hseeks : Seeks s (build s config) sub e)
    (hfallback : fallbackEnd? s (build s config) sub = some x)
    (hseeks' : Seeks s (build s config) sub' x) : motifOf? s (build s config) sub' = none := by
  refine Option.eq_none_iff_forall_ne_some.2 fun c hc => ?_
  have hnone : ∀ d, motifOf? s (build s config) sub ≠ some d := by
    intro d hd
    rw [motifOf?_of_fallbackEnd? hfallback] at hd
    exact hseeks'.2 d (by simpa using List.find?_some hd)
  by_cases hex : e = x
  · subst hex
    have hlisted := (h.motifOf?_eq_some_iff hsub' hseeks' (.refl _)).1 hc
    exact hnone c ((h.motifOf?_eq_some_iff hsub hseeks (.refl _)).2 hlisted)
  -- with `sub'` first and `sub` next
  obtain ⟨rest, hrest⟩ : ∃ rest, (sub' :: sub :: rest).Perm (build s config).subConnectors := by
    have hsubs : sub ∈ (build s config).subConnectors.erase sub' := by
      refine (List.mem_erase_of_ne ?_).2 hsub
      rintro rfl
      exact hex (hseeks.unique hseeks')
    exact ⟨_, ((List.perm_cons_erase hsubs).symm.cons sub').trans (List.perm_cons_erase hsub').symm⟩
  obtain ⟨t, hreorders, hconnectors, hsubs, hsame⟩ := h _ _ (.refl _) hrest
  have hmotif : motifOf? t (build t config) sub' = some c := by
    rw [← hc]
    exact motifOf?_congr hreorders.symm.pointer?_eq hconnectors
      (fun _ => mem_subConnectors_build_iff hreorders.symm config)
      fun _ _ => mem_ends_build_iff hreorders.symm config
  have hfound := listed_of_fallback (owned_build t config) rest hex
    ((seeks_build_iff_of_reorders hreorders config).1 hseeks)
    ((chain_build_eq_of_reorders hreorders config sub).2.symm.trans hfallback)
    ((seeks_build_iff_of_reorders hreorders config).1 hseeks') hmotif
  obtain ⟨d, hd⟩ := hfound
  refine hnone d ((h.motifOf?_eq_some_iff hsub hseeks (.refl _)).2 ?_)
  rw [hsame.mem_ends_iff, hsame.cites_iff, resolveMotifs, hsubs]
  exact hd

/-- When the order does not show, every connector that lists an end that is fallen back to gets the
source: it could be the first that is searched. -/
theorem motifOf?_of_mem_ends (h : OrderHidden s config) (hsub : sub ∈ (build s config).subConnectors)
    (hseeks : Seeks s (build s config) sub e)
    (hfallback : fallbackEnd? s (build s config) sub = some x)
    (hc : x ∈ (build s config).ends c) : motifOf? s (build s config) sub = some c := by
  let cs := c :: (build s config).connectors.erase c
  have hcs : cs.Perm (build s config).connectors :=
    (List.perm_cons_erase ((owned_build s config).mem_connectors hc)).symm
  have hfallback' : fallbackEnd? s { build s config with connectors := cs } sub = some x := by
    have hchain := chain_congr (s := s) (t := s) (b := build s config)
      (a := { build s config with connectors := cs }) rfl (fun _ => hcs.mem_iff)
      (fun _ => Iff.rfl) sub
    exact hchain.2.trans hfallback
  have hmotif : motifOf? s { build s config with connectors := cs } sub = some c := by
    rw [motifOf?_of_fallbackEnd? hfallback', holder?]
    exact List.find?_cons_of_pos (List.contains_iff_mem.2 hc)
  exact (h.motifOf?_eq_some_iff hsub hseeks (.refl _)).2
    ((h.motifOf?_eq_some_iff hsub hseeks hcs).1 hmotif)

theorem unambiguous (h : OrderHidden s config) : Unambiguous s (build s config) where
  agree sub hsub sub' hsub' e hseeks hseeks' := by
    refine Option.ext fun c => ?_
    have hfound := h.motifOf?_eq_some_iff (c := c) hsub hseeks (.refl _)
    exact hfound.trans (h.motifOf?_eq_some_iff hsub' hseeks' (.refl _)).symm
  settled sub hsub sub' hsub' e x hseeks hfallback hseeks' :=
    h.motifOf?_eq_none hsub hsub' hseeks hfallback hseeks'
  unique sub hsub e x hseeks hfallback c c' hc hc' := by
    have hmotif := h.motifOf?_of_mem_ends hsub hseeks hfallback hc
    have hmotif' := h.motifOf?_of_mem_ends hsub hseeks hfallback hc'
    exact Option.some.inj (hmotif.symm.trans hmotif')

end OrderHidden

/-- **Unambiguous sub-connectors are those whose order does not show.** -/
theorem sameAttachments_perm_iff {nodes : List (Path × Node)}
    (hdistinct : (nodes.map Prod.fst).Nodup) (config : Config) :
    (∀ nodes' : List (Path × Node), nodes'.Perm nodes →
        SameAttachments (.addMany .empty nodes) (.addMany .empty nodes') config) ↔
      Unambiguous (.addMany .empty nodes) (build (.addMany .empty nodes) config) := by
  have hreorders : ∀ {nodes' : List (Path × Node)}, nodes'.Perm nodes →
      (Store.empty.addMany nodes).Reorders (.addMany .empty nodes') := fun hperm =>
    (Store.reorders_addMany hdistinct hperm).symm
  constructor
  · intro hsame
    refine OrderHidden.unambiguous fun cs subs hcs hsubs => ?_
    obtain ⟨nodes', hperm, hparts⟩ := exists_perm_parts hdistinct config hcs hsubs
    exact ⟨_, hreorders hperm, hparts.1, hparts.2, hsame nodes' hperm⟩
  · intro hunambiguous nodes' hperm
    exact sameAttachments_of_reorders (hreorders hperm) config hunambiguous

end Rendezvous.Architecture
