import Mathlib.Data.List.Nodup
import Rendezvous.Glue.Basic

/-!
# What accumulates along a fold

A view that no step changes is not changed by the whole run (`view_foldl`).  Glues and lists of ends
are built by steps that only add to what is there: a fact that each step either finds or brings was
there at the start or has been brought by one of the steps (`foldl_iff_or_exists`).  What a step brings
may depend on the elements before its own; these are told by its turn, and elements that can be told
apart have one turn each (`turn_unique`).  Appending without repetition (`insertNew`) is the smallest
step that adds: it keeps what is there, in its order, and never repeats it.
-/

namespace Rendezvous

section
variable {σ α : Type} {step : σ → α → σ}

/-- Steps that keep a view keep it however many there are. -/
theorem view_foldl {β : Type} (view : σ → β) (hstep : ∀ x a, view (step x a) = view x)
    (xs : List α) (x : σ) : view (xs.foldl step x) = view x := by
  induction xs generalizing x with
  | nil => rfl
  | cons a xs ih => rw [List.foldl_cons, ih, hstep]

/-- A fact about the result of a fold was there before, or comes from one of its steps. -/
theorem foldl_iff_or_exists {P : σ → Prop} {Q : α → Prop}
    (hstep : ∀ x a, P (step x a) ↔ P x ∨ Q a) (xs : List α) (x : σ) :
    P (xs.foldl step x) ↔ P x ∨ ∃ a ∈ xs, Q a := by
  induction xs generalizing x with
  | nil => simp
  | cons a xs ih => rw [List.foldl_cons, ih, hstep, or_assoc, List.exists_mem_cons_iff]

/-- Steps that put elements of a kind at the end of a list collect them all, in order. -/
theorem view_foldl_filter {β : Type} (view : σ → List β) (isKind : α → Bool) (f : α → β)
    (hstep : ∀ x a, view (step x a) = if isKind a then view x ++ [f a] else view x)
    (xs : List α) (x : σ) : view (xs.foldl step x) = view x ++ (xs.filter isKind).map f := by
  induction xs generalizing x with
  | nil => simp
  | cons a xs ih =>
    rw [List.foldl_cons, ih, hstep, List.filter_cons]
    split <;> simp

end

/-! ## Turns

`before ++ [a] <+: xs` says that it is the turn of `a` after those `before` it. -/

section
variable {α : Type} {before before' done xs : List α} {a a' last : α}

/-- A turn among `done` and one more is a turn among `done`, or the last. -/
theorem exists_turn_concat_iff {P : List α → α → Prop} :
    (∃ before a, before ++ [a] <+: done ++ [last] ∧ P before a) ↔
      (∃ before a, before ++ [a] <+: done ∧ P before a) ∨ P done last := by
  constructor
  · rintro ⟨before, a, hbefore, hturn⟩
    rcases List.prefix_concat_iff.1 hbefore with heq | hbefore
    · obtain ⟨rfl, hlast⟩ := List.append_inj' heq rfl
      cases hlast
      exact Or.inr hturn
    · exact Or.inl ⟨before, a, hbefore, hturn⟩
  · rintro (⟨before, a, hbefore, hturn⟩ | hturn)
    · exact ⟨before, a, hbefore.trans (List.prefix_append _ _), hturn⟩
    · exact ⟨done, last, List.prefix_rfl, hturn⟩

/-- Every element has a turn. -/
theorem exists_turn_iff_mem : (∃ before, before ++ [a] <+: xs) ↔ a ∈ xs := by
  constructor
  · rintro ⟨before, hturn⟩
    exact hturn.subset (List.mem_append_right before (List.mem_singleton_self a))
  · intro h
    obtain ⟨before, after, rfl⟩ := List.append_of_mem h
    exact ⟨before, after, by simp⟩

/-- Of two different elements, one has its turn after the other. -/
theorem exists_turn_after (ha : a ∈ xs) (ha' : a' ∈ xs) (hne : a ≠ a') :
    (∃ before, before ++ [a'] <+: xs ∧ a ∈ before) ∨ ∃ before, before ++ [a] <+: xs ∧ a' ∈ before := by
  obtain ⟨before, hturn⟩ := exists_turn_iff_mem.2 ha
  obtain ⟨before', hturn'⟩ := exists_turn_iff_mem.2 ha'
  have hafter : ∀ {before before' : List α} {a a' : α}, a ≠ a' →
      before ++ [a] <+: before' ++ [a'] → a ∈ before' := by
    intro before before' a a' hne hprefix
    rcases List.prefix_concat_iff.1 hprefix with heq | hprefix
    · exact absurd (List.singleton_inj.1 (List.append_inj_right' heq rfl)) hne
    · exact hprefix.subset (List.mem_append_right before (List.mem_singleton_self a))
  rcases List.prefix_or_prefix_of_prefix hturn hturn' with h | h
  · exact Or.inl ⟨before', hturn', hafter hne h⟩
  · exact Or.inr ⟨before, hturn, hafter hne.symm h⟩

/-- Elements that can be told apart have one turn each. -/
theorem turn_unique {β : Type} {place : α → β} (hnodup : (xs.map place).Nodup)
    (h : before ++ [a] <+: xs) (h' : before' ++ [a'] <+: xs) (hplace : place a = place a') :
    before = before' ∧ a = a' := by
  have hget : ∀ {before : List α} {a : α}, before ++ [a] <+: xs →
      (xs.map place)[before.length]? = some (place a) := by
    rintro before a ⟨after, rfl⟩
    simp
  have hlength : before.length = before'.length := by
    have hle := h.length_le
    rw [List.length_append, List.length_singleton] at hle
    have hlt : before.length < (xs.map place).length := by
      rw [List.length_map]
      omega
    apply (List.getElem?_inj hlt hnodup).1
    rw [hget h, hget h', hplace]
  have heq : before ++ [a] = before' ++ [a'] :=
    (List.prefix_of_prefix_length_le h h' (by simp [hlength])).eq_of_length (by simp [hlength])
  exact ⟨List.append_inj_left heq hlength, List.singleton_inj.1 (List.append_inj_right heq hlength)⟩

end

/-! ## Appending without repetition -/

section
variable {α : Type} [DecidableEq α] {xs ys : List α} {x y : α}

theorem insertNew_of_mem (h : x ∈ xs) : insertNew xs x = xs :=
  if_pos h

theorem insertNew_of_not_mem (h : x ∉ xs) : insertNew xs x = xs ++ [x] :=
  if_neg h

theorem mem_insertNew : y ∈ insertNew xs x ↔ y ∈ xs ∨ y = x := by
  by_cases h : x ∈ xs
  · rw [insertNew_of_mem h, or_iff_left_of_imp]
    rintro rfl
    exact h
  · rw [insertNew_of_not_mem h, List.mem_append, List.mem_singleton]

theorem nodup_insertNew (h : xs.Nodup) : (insertNew xs x).Nodup := by
  by_cases hx : x ∈ xs
  · rw [insertNew_of_mem hx]
    exact h
  · rw [insertNew_of_not_mem hx]
    exact h.append (List.nodup_singleton x) (List.disjoint_singleton.2 hx)

theorem mem_foldl_insertNew : y ∈ ys.foldl insertNew xs ↔ y ∈ xs ∨ y ∈ ys := by
  have hstep : ∀ (zs : List α) (x : α), y ∈ insertNew zs x ↔ y ∈ zs ∨ y = x :=
    fun _ _ => mem_insertNew
  rw [foldl_iff_or_exists (P := (y ∈ ·)) hstep, exists_eq_right']

theorem nodup_foldl_insertNew (h : xs.Nodup) : (ys.foldl insertNew xs).Nodup :=
  List.foldlRecOn ys insertNew h fun _ hzs _ _ => nodup_insertNew hzs

/-- What is there already is not appended again. -/
theorem foldl_insertNew_of_subset (h : ∀ y ∈ ys, y ∈ xs) : ys.foldl insertNew xs = xs := by
  induction ys with
  | nil => rfl
  | cons y ys ih =>
    obtain ⟨hy, hys⟩ := List.forall_mem_cons.1 h
    rw [List.foldl_cons, insertNew_of_mem hy, ih hys]

end

end Rendezvous
