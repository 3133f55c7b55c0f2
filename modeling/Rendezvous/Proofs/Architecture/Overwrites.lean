import Rendezvous.Proofs.Architecture.Ports

/-!
# Connections in any order

Deriving cardinalities lets every connection overwrite its end with what its target has at that time,
so the order of connections can decide the result, in two ways: two connections from one end can bring
different cardinalities, and what a connection leads to can be overwritten before or after it is
read.  `Coherent` excludes both, and `foldl_takeCardinality_perm_iff` says that nothing else has to
be excluded: the result is the same for all orders exactly when the connections are coherent.
-/

namespace Rendezvous.Architecture

/-! ## What a connection writes -/

/-- The end that a connection writes to.  A connection from a node to itself writes what is there. -/
def writtenEnd? (s : Store) (k : Path) : Option Path :=
  (connectionEnd? s k).filter fun e => connectionPort? s k ≠ some e

/-- The cardinality that a connection brings to its end. -/
def broughtCardinality? (s : Store) (f : Path → Option UInt32) (k : Path) : Option UInt32 :=
  (connectionPort? s k).bind f

/-- Connections bring the same cardinality when they write to one end, or when one writes to what
the other leads to. -/
def Coherent (s : Store) (ks : List Path) (f : Path → Option UInt32) : Prop :=
  ∀ k ∈ ks, ∀ k' ∈ ks, (writtenEnd? s k).isSome → (writtenEnd? s k').isSome →
    (writtenEnd? s k' = writtenEnd? s k ∨ writtenEnd? s k' = connectionPort? s k) →
      broughtCardinality? s f k' = broughtCardinality? s f k

instance (s : Store) (ks : List Path) (f : Path → Option UInt32) : Decidable (Coherent s ks f) := by
  unfold Coherent
  infer_instance

section
variable {s : Store} {ks : List Path} {f : Path → Option UInt32} {k e p q : Path}

theorem writtenEnd?_eq_some_iff :
    writtenEnd? s k = some e ↔ connectionEnd? s k = some e ∧ connectionPort? s k ≠ some e := by
  simp [writtenEnd?, Option.filter_eq_some_iff]

theorem takeCardinality_eq (s : Store) (f : Path → Option UInt32) (k e : Path) :
    takeCardinality s f k e =
      if writtenEnd? s k = some e then broughtCardinality? s f k else f e := by
  unfold takeCardinality broughtCardinality?
  rw [if_congr writtenEnd?_eq_some_iff rfl rfl]
  by_cases hend : connectionEnd? s k = some e
  · by_cases hport : connectionPort? s k = some e
    · simp [hend, hport]
    · simp [hend, hport]
  · simp [hend]

/-- What no connection writes to keeps its cardinality. -/
theorem foldl_takeCardinality_of_unwritten (h : ∀ k ∈ ks, writtenEnd? s k ≠ some p) :
    ks.foldl (takeCardinality s) f p = f p := by
  induction ks generalizing f with
  | nil => rfl
  | cons k ks ih =>
    obtain ⟨hk, hks⟩ := List.forall_mem_cons.1 h
    rw [List.foldl_cons, ih hks, takeCardinality_eq, if_neg hk]

/-! ## Coherent connections -/

/-- Where each connection of `done` left what it brings, the next one brings what it brought at the
start: its target has been overwritten by the like of it, or by nothing. -/
theorem Coherent.broughtCardinality?_foldl (h : Coherent s ks f) {done : List Path}
    (hdone : ∀ k ∈ done, k ∈ ks)
    (hleft : ∀ k ∈ done, ∀ e, writtenEnd? s k = some e →
      done.foldl (takeCardinality s) f e = broughtCardinality? s f k)
    (hk : k ∈ ks) (hwrites : (writtenEnd? s k).isSome) :
    broughtCardinality? s (done.foldl (takeCardinality s) f) k = broughtCardinality? s f k := by
  cases hport : connectionPort? s k with
  | none => simp [broughtCardinality?, hport]
  | some q =>
    by_cases hq : ∃ k' ∈ done, writtenEnd? s k' = some q
    · obtain ⟨k', hk', hwrites'⟩ := hq
      have hsame : broughtCardinality? s f k' = broughtCardinality? s f k :=
        h k hk k' (hdone k' hk') hwrites (by simp [hwrites']) (Or.inr (hwrites'.trans hport.symm))
      rw [← hsame, ← hleft k' hk' q hwrites', broughtCardinality?, hport]
      rfl
    · have hkeep : done.foldl (takeCardinality s) f q = f q :=
        foldl_takeCardinality_of_unwritten fun k' hk' hk'q => hq ⟨k', hk', hk'q⟩
      simp [broughtCardinality?, hport, hkeep]

/-- **In coherent connections every target still has the cardinality it started with**, as far as
that is taken from it: after any of them, in any order, an end has what its connections bring. -/
theorem Coherent.foldl_takeCardinality (h : Coherent s ks f) {done : List Path}
    (hdone : ∀ k ∈ done, k ∈ ks) :
    (∀ k ∈ done, writtenEnd? s k = some e →
        done.foldl (takeCardinality s) f e = broughtCardinality? s f k) ∧
      ((∀ k ∈ done, writtenEnd? s k ≠ some e) → done.foldl (takeCardinality s) f e = f e) := by
  refine ⟨?_, foldl_takeCardinality_of_unwritten⟩
  induction done using List.reverseRecOn generalizing e with
  | nil => exact fun k hk => absurd hk List.not_mem_nil
  | append_singleton done last ih =>
    obtain ⟨hdone, hlast⟩ : (∀ k ∈ done, k ∈ ks) ∧ last ∈ ks := by
      simpa [or_imp, forall_and] using hdone
    intro k hk hwrites
    rw [List.foldl_concat, takeCardinality_eq]
    split
    · next hwritten =>
      have hmem : k ∈ ks := by
        rcases List.mem_append.1 hk with hk | hk
        · exact hdone k hk
        · rw [List.mem_singleton.1 hk]
          exact hlast
      rw [h.broughtCardinality?_foldl hdone (fun k hk e => ih hdone k hk) hlast (by simp [hwritten])]
      exact h k hmem last hlast (by simp [hwrites]) (by simp [hwritten])
        (Or.inl (hwritten.trans hwrites.symm))
    · next hwritten =>
      rcases List.mem_append.1 hk with hk | hk
      · exact ih hdone k hk hwrites
      · rw [List.mem_singleton.1 hk] at hwrites
        exact absurd hwrites hwritten

/-- Coherent connections derive the same cardinalities in every order. -/
theorem Coherent.foldl_takeCardinality_perm (h : Coherent s ks f) {ks' : List Path}
    (hperm : ks'.Perm ks) :
    ks'.foldl (takeCardinality s) f = ks.foldl (takeCardinality s) f := by
  funext e
  obtain ⟨hwritten', hkeep'⟩ := h.foldl_takeCardinality (e := e) fun k hk => hperm.subset hk
  obtain ⟨hwritten, hkeep⟩ := h.foldl_takeCardinality (e := e) fun k hk => hk
  by_cases he : ∃ k ∈ ks, writtenEnd? s k = some e
  · obtain ⟨k, hk, hwrites⟩ := he
    rw [hwritten' k (hperm.symm.subset hk) hwrites, hwritten k hk hwrites]
  · have hnone : ∀ k ∈ ks, writtenEnd? s k ≠ some e := fun k hk hwrites => he ⟨k, hk, hwrites⟩
    rw [hkeep' fun k hk => hnone k (hperm.subset hk), hkeep hnone]

/-! ## Orders that tell connections apart -/

/-- The connections that write to one end can come first, a given one of them last. -/
theorem exists_perm_of_writtenEnd? (hk : k ∈ ks) (he : writtenEnd? s k = some e) :
    ∃ before after : List Path, (before ++ [k] ++ after).Perm ks ∧
      (∀ k' ∈ before, writtenEnd? s k' = some e) ∧ ∀ k' ∈ after, writtenEnd? s k' ≠ some e := by
  let writes : Path → Bool := fun k' => writtenEnd? s k' = some e
  refine ⟨(ks.filter writes).erase k, ks.filter fun k' => !writes k', ?_, fun k' hk' => ?_,
    fun k' hk' => ?_⟩
  · have hmem : k ∈ ks.filter writes := List.mem_filter.2 ⟨hk, by simpa [writes] using he⟩
    have hblock : ((ks.filter writes).erase k ++ [k]).Perm (ks.filter writes) :=
      (List.perm_append_singleton _ _).trans (List.perm_cons_erase hmem).symm
    exact (hblock.append_right _).trans (List.filter_append_perm writes ks)
  · simpa [writes] using (List.mem_filter.1 (List.mem_of_mem_erase hk')).2
  · simpa [writes] using (List.mem_filter.1 hk').2

/-- After connections that write to its end, a connection still brings what it brought before. -/
theorem foldl_takeCardinality_block (hbefore : ∀ k' ∈ ks, writtenEnd? s k' = some e)
    (he : writtenEnd? s k = some e) :
    (ks ++ [k]).foldl (takeCardinality s) f e = broughtCardinality? s f k := by
  rw [List.foldl_concat, takeCardinality_eq, if_pos he, broughtCardinality?, broughtCardinality?]
  refine Option.bind_congr fun q hq => foldl_takeCardinality_of_unwritten fun k' hk' hwrites => ?_
  rw [hbefore k' hk', ← hq] at hwrites
  exact (writtenEnd?_eq_some_iff.1 he).2 hwrites.symm

/-- In some order an end gets what a given connection brings to it. -/
theorem exists_perm_brought (hk : k ∈ ks) (he : writtenEnd? s k = some e) :
    ∃ ks' : List Path, ks'.Perm ks ∧
      ks'.foldl (takeCardinality s) f e = broughtCardinality? s f k := by
  obtain ⟨before, after, hperm, hbefore, hafter⟩ := exists_perm_of_writtenEnd? hk he
  refine ⟨_, hperm, ?_⟩
  rw [List.foldl_append, foldl_takeCardinality_of_unwritten hafter]
  exact foldl_takeCardinality_block hbefore he

/-- In some order an end gets what a connection brings to the target of its own connection. -/
theorem exists_perm_brought_target {k' : Path} (hk : k ∈ ks) (he : writtenEnd? s k = some e)
    (hq : connectionPort? s k = some q) (hk' : k' ∈ ks) (hq' : writtenEnd? s k' = some q) :
    ∃ ks' : List Path, ks'.Perm ks ∧
      ks'.foldl (takeCardinality s) f e = broughtCardinality? s f k' := by
  obtain ⟨before, after, hperm, hbefore, -⟩ := exists_perm_of_writtenEnd? hk' hq'
  have hne : some e ≠ some q := by
    rw [← hq]
    exact (writtenEnd?_eq_some_iff.1 he).2.symm
  have hmem : k ∈ after := by
    have hall : k ∈ before ++ [k'] ++ after := hperm.symm.subset hk
    rw [List.mem_append, List.mem_append, List.mem_singleton] at hall
    rcases hall with (hleft | rfl) | hright
    · exact absurd (he.symm.trans (hbefore k hleft)) hne
    · exact absurd (he.symm.trans hq') hne
    · exact hright
  obtain ⟨after', hperm', hbrought⟩ := exists_perm_brought
    (f := (before ++ [k']).foldl (takeCardinality s) f) hmem he
  refine ⟨before ++ [k'] ++ after', (hperm'.append_left _).trans hperm, ?_⟩
  rw [List.foldl_append, hbrought, broughtCardinality?, hq]
  exact foldl_takeCardinality_block hbefore hq'

/-- **The order of connections does not matter exactly when they are coherent.** -/
theorem foldl_takeCardinality_perm_iff (s : Store) (ks : List Path) (f : Path → Option UInt32) :
    (∀ ks' : List Path, ks'.Perm ks → ∀ e,
      ks'.foldl (takeCardinality s) f e = ks.foldl (takeCardinality s) f e) ↔ Coherent s ks f := by
  constructor
  · intro h k hk k' hk' hwrites hwrites' hmeet
    obtain ⟨e, he⟩ := Option.isSome_iff_exists.1 hwrites
    obtain ⟨e', he'⟩ := Option.isSome_iff_exists.1 hwrites'
    obtain ⟨ks₁, hperm₁, hbrought₁⟩ := exists_perm_brought (f := f) hk he
    rw [← hbrought₁, h ks₁ hperm₁]
    rcases hmeet with hsame | htarget
    · rw [he, he'] at hsame
      cases hsame
      obtain ⟨ks₂, hperm₂, hbrought₂⟩ := exists_perm_brought (f := f) hk' he'
      rw [← hbrought₂, h ks₂ hperm₂]
    · obtain ⟨ks₂, hperm₂, hbrought₂⟩ :=
        exists_perm_brought_target (f := f) hk he (htarget.symm.trans he') hk' he'
      rw [← hbrought₂, h ks₂ hperm₂]
  · intro h ks' hperm e
    rw [h.foldl_takeCardinality_perm hperm]

end

end Rendezvous.Architecture
