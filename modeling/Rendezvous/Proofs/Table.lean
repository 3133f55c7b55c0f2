import Mathlib.Data.List.Nodup
import Rendezvous.Table

/-!
# Tables as lists of pairs

A list of pairs with distinct keys is the list of entries of the table that it describes
(`entries_ofList`), and a look-up finds each entry (`get?_of_mem_entries`).  Binding a key makes a
table longer exactly when the key is new (`size_insert`), and binding it twice is binding it to the
second value (`insert_insert`).
-/

namespace Rendezvous

variable {κ ν : Type} [DecidableEq κ]

namespace Entries

variable {k : κ} {v : ν} {es es' : List (κ × ν)}

theorem find?_eq_some_of_mem (nodup : (es.map Prod.fst).Nodup) (h : (k, v) ∈ es) :
    find? k es = some v := by
  induction es with
  | nil => exact absurd h List.not_mem_nil
  | cons e rest ih =>
    rw [List.map_cons, List.nodup_cons] at nodup
    rcases List.mem_cons.1 h with rfl | h
    · simp [find?]
    · have hne : e.1 ≠ k := fun he => nodup.1 (List.mem_map.2 ⟨(k, v), h, he.symm⟩)
      rw [find?, if_neg hne, ih nodup.2 h]

theorem find?_append : find? k (es ++ es') = (find? k es).or (find? k es') := by
  induction es with
  | nil => rfl
  | cons e rest ih => by_cases h : e.1 = k <;> simp [find?, h, ih]

/-- Other keys can be left out. -/
theorem find?_filter_of_pos (p : κ → Bool) (h : p k = true) :
    find? k (es.filter fun e => p e.1) = find? k es :=
  find?_filter.trans (if_pos h)

theorem put_of_not_mem (h : k ∉ es.map Prod.fst) : put k v es = es ++ [(k, v)] := by
  induction es with
  | nil => rfl
  | cons e rest ih =>
    rw [List.map_cons, List.mem_cons, not_or] at h
    rw [put, if_neg (Ne.symm h.1), ih h.2, List.cons_append]

/-- Putting what is there already changes nothing. -/
theorem put_eq_self (h : find? k es = some v) : put k v es = es := by
  induction es with
  | nil => cases h
  | cons e rest ih =>
    by_cases hk : e.1 = k
    · rw [find?, if_pos hk] at h
      obtain rfl := Option.some.inj h
      rw [put, if_pos hk, ← hk]
    · rw [find?, if_neg hk] at h
      rw [put, if_neg hk, ih h]

/-- Of two values put under one key the second remains, in the place of the first. -/
theorem put_put (v' : ν) : put k v' (put k v es) = put k v' es := by
  induction es with
  | nil => simp [put]
  | cons e rest ih => by_cases hk : e.1 = k <;> simp [put, hk, ih]

theorem length_put :
    (put k v es).length = if k ∈ es.map Prod.fst then es.length else es.length + 1 := by
  induction es with
  | nil => rfl
  | cons e rest ih =>
    by_cases hk : e.1 = k
    · simp [put, hk]
    · simp only [put, if_neg hk, List.length_cons, ih, List.map_cons, List.mem_cons,
        Ne.symm hk, false_or]
      split <;> rfl

end Entries

namespace Table

variable {t : Table κ ν} {pairs : List (κ × ν)} {k : κ} {v : ν}

theorem ext_entries {t u : Table κ ν} (h : t.entries = u.entries) : t = u := by
  cases t
  cases u
  simpa using h

theorem get?_of_mem_entries (h : (k, v) ∈ t.entries) : t.get? k = some v :=
  Entries.find?_eq_some_of_mem t.nodup h

theorem insert_eq_self (h : t.get? k = some v) : t.insert k v = t :=
  ext_entries (Entries.put_eq_self h)

theorem insert_insert (v' : ν) : (t.insert k v).insert k v' = t.insert k v' :=
  ext_entries (Entries.put_put v')

theorem size_insert : (t.insert k v).size = if k ∈ t.keys then t.size else t.size + 1 :=
  Entries.length_put

theorem mem_keys_insertMany :
    k ∈ (t.insertMany pairs).keys ↔ k ∈ t.keys ∨ k ∈ pairs.map Prod.fst := by
  induction pairs generalizing t with
  | nil => simp [insertMany]
  | cons e pairs ih =>
    have hcons : t.insertMany (e :: pairs) = (t.insert e.1 e.2).insertMany pairs := rfl
    rw [hcons, ih, mem_keys_insert, List.map_cons, List.mem_cons, or_assoc, or_left_comm]

theorem mem_keys_ofList : k ∈ (ofList pairs).keys ↔ k ∈ pairs.map Prod.fst :=
  mem_keys_insertMany.trans (or_iff_right List.not_mem_nil)

theorem insertMany_append {more : List (κ × ν)} :
    t.insertMany (pairs ++ more) = (t.insertMany pairs).insertMany more :=
  List.foldl_append

/-- Pairs with distinct new keys follow the entries. -/
theorem entries_insertMany (h : ((t.entries ++ pairs).map Prod.fst).Nodup) :
    (t.insertMany pairs).entries = t.entries ++ pairs := by
  induction pairs generalizing t with
  | nil => rw [List.append_nil]; rfl
  | cons e pairs ih =>
    have hnew : (t.insert e.1 e.2).entries = t.entries ++ [e] := by
      refine Entries.put_of_not_mem fun hmem => ?_
      rw [List.map_append, List.nodup_append] at h
      exact h.2.2 e.1 hmem e.1 (List.mem_map.2 ⟨e, .head _, rfl⟩) rfl
    rw [List.append_cons, ← hnew] at h ⊢
    exact ih h

theorem entries_ofList (nodup : (pairs.map Prod.fst).Nodup) : (ofList pairs).entries = pairs :=
  entries_insertMany (t := empty) nodup

@[simp] theorem ofList_entries : ofList t.entries = t :=
  ext_entries (entries_ofList t.nodup)

end Table

end Rendezvous
