import Rendezvous.Proofs.Accumulation

/-!
# The ports that a glue mentions

A glue mentions a port as the key of an effect, among what an effect accepts, or in an option of what
it requires.  Each end adds its own port as a key and mentions, besides, ports of the ends of its
connector only; so the glue of an architecture mentions exactly the ports of the ends of its
connectors (`mentions_ofArchitecture_iff`).
-/

namespace Rendezvous

/-! ## Mentions -/

/-- An effect accepts a port, or requires it in some option. -/
def Effect.Mentions (f : Effect) (q : Port) : Prop :=
  q ∈ f.accepts ∨ ∃ option ∈ f.requires, q ∈ option

theorem Effect.not_mentions_empty (q : Port) : ¬ Effect.empty.Mentions q := by
  simp [Effect.Mentions, Effect.empty]

namespace Glue

/-- A port occurs in a glue. -/
def Mentions (g : Glue) (q : Port) : Prop :=
  ∃ p f, g.effects.get? p = some f ∧ (q = p ∨ f.Mentions q)

theorem not_mentions_empty (q : Port) : ¬ empty.Mentions q := by
  rintro ⟨p, f, h, -⟩
  cases h

theorem mentions_mergeEffect_iff {accepts : List Port} {options : List (List Port)} {f : Effect}
    {q : Port} :
    (mergeEffect accepts options f).Mentions q ↔
      f.Mentions q ∨ q ∈ accepts ∨ ∃ option ∈ options, q ∈ option := by
  simp only [mergeEffect, Effect.Mentions, mem_foldl_insertNew, or_and_right, exists_or]
  exact or_or_or_comm

/-- What the glue says about a port after an end has been added. -/
theorem get?_addEnd (triggers : List Port) (g : Glue) (e : GlueEnd) (others : List GlueEnd)
    (p : Port) :
    (addEnd triggers g e others).effects.get? p =
      if e.port = p then
        some (mergeEffect (accepted e others) (options e triggers others)
          ((g.effects.get? p).getD .empty))
      else g.effects.get? p := by
  rw [addEnd, Table.get?_update]
  split
  · next h => rw [h]
  · rfl

/-- An end mentions its own port and those of its constraints. -/
theorem mentions_addEnd_iff {triggers : List Port} {g : Glue} {e : GlueEnd}
    {others : List GlueEnd} {q : Port} :
    (addEnd triggers g e others).Mentions q ↔
      g.Mentions q ∨ q = e.port ∨ q ∈ accepted e others ∨
        ∃ option ∈ options e triggers others, q ∈ option := by
  constructor
  · rintro ⟨p, f, hf, hq⟩
    rw [get?_addEnd] at hf
    split at hf
    · next hp =>
      obtain rfl := Option.some.inj hf
      rw [mentions_mergeEffect_iff] at hq
      rcases hq with rfl | hq | hq
      · exact Or.inr (Or.inl hp.symm)
      · cases hg : g.effects.get? p with
        | none =>
          rw [hg] at hq
          exact absurd hq (Effect.not_mentions_empty q)
        | some f =>
          rw [hg] at hq
          exact Or.inl ⟨p, f, hg, Or.inr hq⟩
      · exact Or.inr (Or.inr hq)
    · exact Or.inl ⟨p, f, hf, hq⟩
  · intro h
    have hkey := get?_addEnd triggers g e others e.port
    rw [if_pos rfl] at hkey
    rcases h with ⟨p, f, hf, hq⟩ | rfl | hq
    · by_cases hp : e.port = p
      · subst hp
        refine ⟨e.port, _, hkey, ?_⟩
        rw [mentions_mergeEffect_iff, hf]
        exact hq.imp_right Or.inl
      · exact ⟨p, f, by rw [get?_addEnd, if_neg hp, hf], hq⟩
    · exact ⟨e.port, _, hkey, Or.inl rfl⟩
    · exact ⟨e.port, _, hkey, Or.inr (mentions_mergeEffect_iff.2 (Or.inr hq))⟩

/-! ## The ends of one connector -/

/-- An element stands somewhere in a list, and the others are those before and after it. -/
theorem mem_withOthers_iff {α : Type} {before after others : List α} {x : α} :
    (x, others) ∈ withOthers before after ↔
      ∃ l r, after = l ++ x :: r ∧ others = before ++ l ++ r := by
  induction after generalizing before with
  | nil => simp [withOthers]
  | cons z after ih =>
    rw [withOthers, List.mem_cons, ih]
    constructor
    · rintro (heq | ⟨l, r, rfl, rfl⟩)
      · cases heq
        exact ⟨[], after, rfl, by simp⟩
      · exact ⟨z :: l, r, rfl, by simp⟩
    · rintro ⟨l, r, hafter, rfl⟩
      cases l with
      | nil =>
        obtain ⟨rfl, rfl⟩ := List.cons.inj hafter
        exact Or.inl (by simp)
      | cons y l =>
        obtain ⟨rfl, rfl⟩ := List.cons.inj hafter
        exact Or.inr ⟨l, r, rfl, by simp⟩

theorem mem_withOthers {α : Type} {before after others : List α} {x : α}
    (h : (x, others) ∈ withOthers before after) :
    x ∈ after ∧ ∀ y ∈ others, y ∈ before ∨ y ∈ after := by
  obtain ⟨l, r, rfl, rfl⟩ := mem_withOthers_iff.1 h
  refine ⟨by simp, fun y hy => ?_⟩
  simp only [List.mem_append, List.mem_cons] at hy ⊢
  tauto

theorem exists_mem_withOthers {α : Type} (before : List α) {after : List α} {x : α}
    (h : x ∈ after) : ∃ others, (x, others) ∈ withOthers before after := by
  obtain ⟨l, r, rfl⟩ := List.append_of_mem h
  exact ⟨before ++ l ++ r, mem_withOthers_iff.2 ⟨l, r, rfl, rfl⟩⟩

section
variable {triggers : List Port} {e : GlueEnd} {others : List GlueEnd} {q : Port} {P : Port → Prop}

/-- The constraints of an end are made of the ports of the ends around it. -/
theorem of_mem_accepted (he : P e.port) (hothers : ∀ o ∈ others, P o.port)
    (h : q ∈ accepted e others) : P q := by
  rcases List.mem_append.1 h with h | h
  · obtain ⟨o, ho, rfl⟩ := List.mem_map.1 h
    exact hothers o ho
  · split at h
    · rw [List.mem_singleton.1 h]
      exact he
    · exact absurd h List.not_mem_nil

theorem of_mem_options (he : P e.port) (htriggers : ∀ t ∈ triggers, P t)
    (hothers : ∀ o ∈ others, P o.port) {option : List Port}
    (hoption : option ∈ options e triggers others) (h : q ∈ option) : P q := by
  unfold options at hoption
  split at hoption
  · rw [List.mem_singleton.1 hoption] at h
    exact absurd h List.not_mem_nil
  · split at hoption
    · rw [List.mem_singleton.1 hoption] at h
      rcases List.mem_append.1 h with h | h
      · obtain ⟨o, ho, hq⟩ := List.mem_flatMap.1 h
        rw [List.eq_of_mem_replicate hq]
        exact hothers o ho
      · rw [List.eq_of_mem_replicate h]
        exact he
    · obtain ⟨t, ht, rfl⟩ := List.mem_map.1 hoption
      rw [List.mem_singleton.1 h]
      exact htriggers t ht

end

/-- Ends that are added one after the other. -/
theorem mentions_foldl_addEnd_iff {triggers : List Port} {pairs : List (GlueEnd × List GlueEnd)}
    {g : Glue} {q : Port} :
    (pairs.foldl (fun g p => addEnd triggers g p.1 p.2) g).Mentions q ↔
      g.Mentions q ∨ ∃ p ∈ pairs, q = p.1.port ∨ q ∈ accepted p.1 p.2 ∨
        ∃ option ∈ options p.1 triggers p.2, q ∈ option := by
  refine foldl_iff_or_exists (P := (Mentions · q)) (fun g p => ?_) pairs g
  exact mentions_addEnd_iff

/-- A connector mentions the ports of its ends. -/
theorem mentions_addConnector_iff {g : Glue} {ends : List GlueEnd} {q : Port} :
    (g.addConnector ends).Mentions q ↔ g.Mentions q ∨ ∃ e ∈ ends, q = e.port := by
  rw [addConnector, mentions_foldl_addEnd_iff]
  refine or_congr_right ⟨?_, ?_⟩
  · rintro ⟨⟨e, others⟩, hp, hq⟩
    obtain ⟨he, hothers⟩ := mem_withOthers hp
    have hport : ∃ x ∈ ends, e.port = x.port := ⟨e, he, rfl⟩
    have hports : ∀ o ∈ others, ∃ x ∈ ends, o.port = x.port :=
      fun o ho => ⟨o, (hothers o ho).resolve_left List.not_mem_nil, rfl⟩
    have htriggers : ∀ t ∈ (ends.filter GlueEnd.isTrigger).map GlueEnd.port,
        ∃ x ∈ ends, t = x.port := by
      intro t ht
      obtain ⟨x, hx, rfl⟩ := List.mem_map.1 ht
      exact ⟨x, (List.mem_filter.1 hx).1, rfl⟩
    rcases hq with rfl | hq | ⟨option, hoption, hq⟩
    · exact hport
    · exact of_mem_accepted (P := fun q => ∃ x ∈ ends, q = x.port) hport hports hq
    · exact of_mem_options (P := fun q => ∃ x ∈ ends, q = x.port) hport htriggers hports hoption hq
  · rintro ⟨e, he, rfl⟩
    obtain ⟨others, hp⟩ := exists_mem_withOthers [] he
    exact ⟨(e, others), hp, Or.inl rfl⟩

/-- **The glue of an architecture mentions the ports of its ends.** -/
theorem mentions_ofArchitecture_iff {s : Store} {a : Architecture} {q : Port} :
    (ofArchitecture s a).Mentions q ↔
      ∃ c ∈ a.connectors, ∃ e ∈ a.ends c, ∃ p, a.annotations.portOf? e = some p ∧
        q = portOfNode s p := by
  have hfold : ∀ (cs : List Path) (g : Glue),
      (cs.foldl (fun g c => g.addConnector ((a.ends c).filterMap (end? s a))) g).Mentions q ↔
        g.Mentions q ∨ ∃ c ∈ cs, ∃ e ∈ (a.ends c).filterMap (end? s a), q = e.port :=
    foldl_iff_or_exists (P := (Mentions · q)) fun _ _ => mentions_addConnector_iff
  rw [ofArchitecture, hfold, or_iff_right (not_mentions_empty q)]
  simp only [List.mem_filterMap, end?, Option.map_eq_some_iff]
  constructor
  · rintro ⟨c, hc, _, ⟨e, he, p, hp, rfl⟩, rfl⟩
    exact ⟨c, hc, e, he, p, hp, rfl⟩
  · rintro ⟨c, hc, e, he, p, hp, rfl⟩
    exact ⟨c, hc, _, ⟨e, he, p, hp, rfl⟩, rfl⟩

end Glue

end Rendezvous
