import Rendezvous.Proofs.Glue.Contributions

/-!
# Coherent glues

A port that requires what it does not accept can never fire, and neither can one whose partner does
not accept it back.  Glues of architectures have no such ports: every port that they mention is an
effect, accepting is mutual, everything required is accepted, and every effect has alternatives, none
of them twice (`coherent_ofArchitecture`).  The reason lies with single ends: two ends of a connector
stand around each other, and an end takes its options from the ends around it.
-/

namespace Rendezvous.Glue

/-! ## The constraints of one end -/

section
variable {ends others : List GlueEnd} {e : GlueEnd} {q : Port} {option : List Port}

theorem mem_accepted :
    q ∈ accepted e others ↔ (∃ o ∈ others, o.port = q) ∨ (1 < e.multiplicity ∧ q = e.port) := by
  rw [accepted, List.mem_append, List.mem_map]
  by_cases h : 1 < e.multiplicity
  · rw [if_pos h, List.mem_singleton, and_iff_right h]
  · simp [h]

/-- An end is accepted by the ends that it accepts. -/
theorem exists_accepts_back (h : StandsAmong ends e others) (hq : q ∈ accepted e others) :
    ∃ o others', StandsAmong ends o others' ∧ o.port = q ∧ e.port ∈ accepted o others' := by
  rcases mem_accepted.1 hq with ⟨o, ho, hport⟩ | ⟨hmultiple, rfl⟩
  · obtain ⟨others', hstands, he⟩ := h.swap ho
    exact ⟨o, others', hstands, hport, mem_accepted.2 (Or.inl ⟨e, he, rfl⟩)⟩
  · exact ⟨e, others, h, rfl, mem_accepted.2 (Or.inr ⟨hmultiple, rfl⟩)⟩

/-- The option of a synchron end repeats its own port only where the port is accepted. -/
theorem mem_accepted_of_mem_synchronOption (hq : q ∈ synchronOption e others) :
    q ∈ accepted e others := by
  rcases List.mem_append.1 hq with hq | hq
  · obtain ⟨o, ho, hq⟩ := List.mem_flatMap.1 hq
    exact mem_accepted.2 (Or.inl ⟨o, ho, (List.eq_of_mem_replicate hq).symm⟩)
  · obtain ⟨hne, rfl⟩ := List.mem_replicate.1 hq
    exact mem_accepted.2 (Or.inr ⟨by omega, rfl⟩)

/-- An end accepts what it requires. -/
theorem mem_accepted_of_mem_options (h : StandsAmong ends e others)
    (hoption : option ∈ options e (triggersOf ends) others) (hq : q ∈ option) :
    q ∈ accepted e others := by
  unfold options at hoption
  split at hoption
  · rw [List.mem_singleton.1 hoption] at hq
    exact absurd hq List.not_mem_nil
  · next hsynchron =>
    split at hoption
    · rw [List.mem_singleton.1 hoption] at hq
      exact mem_accepted_of_mem_synchronOption hq
    · obtain ⟨t, ht, rfl⟩ := List.mem_map.1 hoption
      obtain ⟨x, hx, htrigger, rfl⟩ := mem_triggersOf.1 ht
      -- the trigger is another end, as this one is a synchron
      have hne : x ≠ e := by
        rintro rfl
        exact hsynchron htrigger
      rw [List.mem_singleton.1 hq]
      exact mem_accepted.2 (Or.inl ⟨x, h.mem_of_ne hx hne, rfl⟩)

theorem exists_mem_options (e : GlueEnd) (triggers : List Port) (others : List GlueEnd) :
    ∃ option, option ∈ options e triggers others := by
  unfold options
  split
  · exact ⟨_, List.mem_singleton_self _⟩
  · split
    · exact ⟨_, List.mem_singleton_self _⟩
    · next hne =>
      obtain ⟨t, ht⟩ := List.isEmpty_eq_false_iff_exists_mem.1 (by simpa using hne)
      exact ⟨[t], List.mem_map_of_mem ht⟩

end

/-! ## Whole glues -/

/-- Adding ends never repeats an option. -/
theorem nodup_requires_ofArchitecture (s : Store) (a : Architecture) (p : Port) :
    ((ofArchitecture s a).requires p).Nodup := by
  refine ofArchitecture_induction (P := fun g => (g.requires p).Nodup) List.nodup_nil ?_ s a
  intro triggers g e others hg
  rw [requires_addEnd]
  split
  · exact nodup_foldl_insertNew hg
  · exact hg

/-- The constraints of a glue fit together. -/
structure Coherent (g : Glue) : Prop where
  /-- Constraints speak of effects. -/
  mem_keys : ∀ p f q, g.effects.get? p = some f → f.Mentions q → q ∈ g.effects.keys
  /-- Accepting is mutual. -/
  symmetric : ∀ p q, q ∈ g.accepts p ↔ p ∈ g.accepts q
  /-- Nothing that is required is refused. -/
  accepts_required : ∀ p, ∀ option ∈ g.requires p, ∀ q ∈ option, q ∈ g.accepts p
  /-- Every effect has an alternative. -/
  exists_option : ∀ p ∈ g.effects.keys, ∃ option, option ∈ g.requires p
  nodup_requires : ∀ p, (g.requires p).Nodup

section
variable (s : Store) (a : Architecture)

theorem mem_accepts_symm {p q : Port} (h : q ∈ (ofArchitecture s a).accepts p) :
    p ∈ (ofArchitecture s a).accepts q := by
  obtain ⟨c, hc, e, others, hstands, rfl, hq⟩ := mem_accepts_ofArchitecture_iff.1 h
  obtain ⟨o, others', hstands', hport, he⟩ := exists_accepts_back hstands hq
  exact mem_accepts_ofArchitecture_iff.2 ⟨c, hc, o, others', hstands', hport, he⟩

theorem mem_keys_of_mentions {q : Port} (h : (ofArchitecture s a).Mentions q) :
    q ∈ (ofArchitecture s a).effects.keys := by
  obtain ⟨c, hc, e, he, p, hp, rfl⟩ := mentions_ofArchitecture_iff.1 h
  exact mem_keys_ofArchitecture_iff.2
    ⟨c, hc, _, List.mem_filterMap.2 ⟨e, he, Option.map_eq_some_iff.2 ⟨p, hp, rfl⟩⟩, rfl⟩

/-- **Glues of architectures are coherent**, and their effects are the ports of all ends. -/
theorem coherent_ofArchitecture :
    (ofArchitecture s a).Coherent ∧
      ∀ p, p ∈ (ofArchitecture s a).effects.keys ↔
        ∃ c ∈ a.connectors, ∃ e ∈ endsOf s a c, e.port = p := by
  refine ⟨⟨?_, ?_, ?_, ?_, nodup_requires_ofArchitecture s a⟩,
    fun p => mem_keys_ofArchitecture_iff⟩
  · intro p f q hf hq
    exact mem_keys_of_mentions s a ⟨p, f, hf, Or.inr hq⟩
  · intro p q
    exact ⟨mem_accepts_symm s a, mem_accepts_symm s a⟩
  · intro p option hoption q hq
    obtain ⟨c, hc, e, others, hstands, hp, hmem⟩ := mem_requires_ofArchitecture_iff.1 hoption
    exact mem_accepts_ofArchitecture_iff.2
      ⟨c, hc, e, others, hstands, hp, mem_accepted_of_mem_options hstands hmem hq⟩
  · intro p hp
    obtain ⟨c, hc, e, he, hport⟩ := mem_keys_ofArchitecture_iff.1 hp
    obtain ⟨others, hstands⟩ := exists_standsAmong he
    obtain ⟨option, hoption⟩ := exists_mem_options e (triggersOf (endsOf s a c)) others
    exact ⟨option, mem_requires_ofArchitecture_iff.2 ⟨c, hc, e, others, hstands, hport, hoption⟩⟩

end

end Rendezvous.Glue
