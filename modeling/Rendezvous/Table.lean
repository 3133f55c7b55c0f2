/-!
# Tables that remember the order of insertion

A table pairs distinct keys with values and lists its entries in the order in which the keys first
appeared.  Writing to a key that is present keeps its position and takes the new value; removing a
key closes the gap.  The view of a table is its lookup `get?`; `get?_insert` and `get?_erase` say
what each operation does to it.
-/

namespace Rendezvous

variable {κ ν : Type} [DecidableEq κ]

/-! ## Entry lists -/

namespace Entries

/-- The value of the first entry with key `k`. -/
def find? (k : κ) : List (κ × ν) → Option ν
  | [] => none
  | e :: rest => if e.1 = k then some e.2 else find? k rest

/-- The entries with `k` bound to `v`: in place when `k` is present, at the end when it is not. -/
def put (k : κ) (v : ν) : List (κ × ν) → List (κ × ν)
  | [] => [(k, v)]
  | e :: rest => if e.1 = k then (k, v) :: rest else e :: put k v rest

/-- The entries whose key is not `k`. -/
def remove (k : κ) (es : List (κ × ν)) : List (κ × ν) :=
  es.filter fun e => e.1 ≠ k

theorem mem_keys_put {k k' : κ} {v : ν} {es : List (κ × ν)} :
    k' ∈ (put k v es).map Prod.fst ↔ k' = k ∨ k' ∈ es.map Prod.fst := by
  induction es with
  | nil => simp [put]
  | cons e rest ih =>
    by_cases h : e.1 = k
    · simp [put, h]
    · simp only [put, if_neg h, List.map_cons, List.mem_cons, ih]
      constructor
      · rintro (h | h | h) <;> simp [h]
      · rintro (h | h | h) <;> simp [h]

theorem nodup_put {k : κ} {v : ν} {es : List (κ × ν)} (h : (es.map Prod.fst).Nodup) :
    ((put k v es).map Prod.fst).Nodup := by
  induction es with
  | nil => simp [put]
  | cons e rest ih =>
    simp only [List.map_cons, List.nodup_cons] at h
    by_cases hk : e.1 = k
    · subst hk
      simpa [put] using h
    · simp only [put, if_neg hk, List.map_cons, List.nodup_cons, mem_keys_put, not_or]
      exact ⟨⟨hk, h.1⟩, ih h.2⟩

theorem nodup_remove {k : κ} {es : List (κ × ν)} (h : (es.map Prod.fst).Nodup) :
    ((remove k es).map Prod.fst).Nodup :=
  h.sublist (List.filter_sublist.map _)

theorem find?_put {k k' : κ} {v : ν} {es : List (κ × ν)} :
    find? k' (put k v es) = if k = k' then some v else find? k' es := by
  induction es with
  | nil => simp [put, find?]
  | cons e rest ih => grind [put, find?]

theorem find?_filter {p : κ → Bool} {k : κ} {es : List (κ × ν)} :
    find? k (es.filter fun e => p e.1) = if p k then find? k es else none := by
  induction es with
  | nil => simp [find?]
  | cons e rest ih => grind [find?]

theorem find?_remove {k k' : κ} {es : List (κ × ν)} :
    find? k' (remove k es) = if k = k' then none else find? k' es := by
  have hfilter : find? k' (remove k es) = if decide (k' ≠ k) then find? k' es else none :=
    find?_filter (p := fun e => decide (e ≠ k))
  by_cases h : k = k'
  · simpa [h] using hfilter
  · simpa [h, Ne.symm h] using hfilter

theorem find?_map {ω : Type} {f : κ → ν → ω} {k : κ} {es : List (κ × ν)} :
    find? k (es.map fun e => (e.1, f e.1 e.2)) = (find? k es).map (f k) := by
  induction es with
  | nil => rfl
  | cons e rest ih => by_cases h : e.1 = k <;> simp [find?, h, ih]

theorem mem_keys_iff {k : κ} {es : List (κ × ν)} :
    k ∈ es.map Prod.fst ↔ (find? k es).isSome := by
  induction es with
  | nil => simp [find?]
  | cons e rest ih =>
    by_cases h : e.1 = k
    · simp [find?, h]
    · simp only [List.map_cons, List.mem_cons, find?, if_neg h, ih]
      exact ⟨fun hk => hk.resolve_left fun he => h he.symm, Or.inr⟩

end Entries

/-! ## Tables -/

/-- Entries with distinct keys, in order of insertion. -/
structure Table (κ ν : Type) [DecidableEq κ] where
  entries : List (κ × ν)
  nodup : (entries.map Prod.fst).Nodup

namespace Table

instance [DecidableEq ν] : DecidableEq (Table κ ν) := fun s t =>
  if h : s.entries = t.entries then isTrue (by cases s; cases t; simp_all)
  else isFalse fun e => h (by rw [e])

/-- The table without entries. -/
def empty : Table κ ν := ⟨[], by simp⟩

instance : Inhabited (Table κ ν) := ⟨empty⟩

/-- Binds `k` to `v`, keeping the position of a key that is present. -/
def insert (t : Table κ ν) (k : κ) (v : ν) : Table κ ν :=
  ⟨Entries.put k v t.entries, Entries.nodup_put t.nodup⟩

/-- Removes the entry of `k`, if any. -/
def erase (t : Table κ ν) (k : κ) : Table κ ν :=
  ⟨Entries.remove k t.entries, Entries.nodup_remove t.nodup⟩

/-- Removes the entries whose keys `p` does not hold of. -/
def filterKeys (t : Table κ ν) (p : κ → Bool) : Table κ ν :=
  ⟨t.entries.filter fun e => p e.1, t.nodup.sublist (List.filter_sublist.map _)⟩

/-- The value bound to `k`. -/
def get? (t : Table κ ν) (k : κ) : Option ν :=
  Entries.find? k t.entries

/-- Whether `k` is bound. -/
def contains (t : Table κ ν) (k : κ) : Bool :=
  (t.get? k).isSome

/-- Binds every pair of a list in order. -/
def insertMany (t : Table κ ν) (pairs : List (κ × ν)) : Table κ ν :=
  pairs.foldl (fun t e => t.insert e.1 e.2) t

/-- The table that a list of pairs describes: first positions, last values. -/
def ofList (pairs : List (κ × ν)) : Table κ ν :=
  empty.insertMany pairs

/-- Replaces the value `v` of `k` by `f v`, starting from `initial` when `k` is not bound. -/
def update (t : Table κ ν) (k : κ) (initial : ν) (f : ν → ν) : Table κ ν :=
  t.insert k (f ((t.get? k).getD initial))

/-- The keys, in order of insertion. -/
def keys (t : Table κ ν) : List κ :=
  t.entries.map Prod.fst

/-- The values, in order of insertion. -/
def values (t : Table κ ν) : List ν :=
  t.entries.map Prod.snd

/-- The number of entries. -/
def size (t : Table κ ν) : Nat :=
  t.entries.length

/-- Whether there is no entry. -/
def isEmpty (t : Table κ ν) : Bool :=
  t.entries.isEmpty

/-- Applies a function to every key and its value, leaving the keys alone. -/
def mapEntries {ω : Type} (f : κ → ν → ω) (t : Table κ ν) : Table κ ω :=
  ⟨t.entries.map fun e => (e.1, f e.1 e.2),
    by simpa [List.map_map, Function.comp_def] using t.nodup⟩

/-- Applies a function to every value, leaving the keys alone. -/
def mapValues {ω : Type} (f : ν → ω) (t : Table κ ν) : Table κ ω :=
  t.mapEntries fun _ => f

/-! ## The lookup view -/

@[simp] theorem get?_empty (k : κ) : (empty : Table κ ν).get? k = none := rfl

@[simp] theorem get?_insert (t : Table κ ν) (k k' : κ) (v : ν) :
    (t.insert k v).get? k' = if k = k' then some v else t.get? k' :=
  Entries.find?_put

@[simp] theorem get?_erase (t : Table κ ν) (k k' : κ) :
    (t.erase k).get? k' = if k = k' then none else t.get? k' :=
  Entries.find?_remove

@[simp] theorem get?_filterKeys (t : Table κ ν) (p : κ → Bool) (k : κ) :
    (t.filterKeys p).get? k = if p k then t.get? k else none :=
  Entries.find?_filter

@[simp] theorem get?_update (t : Table κ ν) (k k' : κ) (initial : ν) (f : ν → ν) :
    (t.update k initial f).get? k' =
      if k = k' then some (f ((t.get? k).getD initial)) else t.get? k' := by
  simp [update]

@[simp] theorem get?_mapEntries {ω : Type} (f : κ → ν → ω) (t : Table κ ν) (k : κ) :
    (t.mapEntries f).get? k = (t.get? k).map (f k) :=
  Entries.find?_map

@[simp] theorem get?_mapValues {ω : Type} (f : ν → ω) (t : Table κ ν) (k : κ) :
    (t.mapValues f).get? k = (t.get? k).map f :=
  t.get?_mapEntries (fun _ => f) k

theorem mem_keys_iff (t : Table κ ν) (k : κ) : k ∈ t.keys ↔ (t.get? k).isSome :=
  Entries.mem_keys_iff

@[simp] theorem mem_keys_insert (t : Table κ ν) (k k' : κ) (v : ν) :
    k' ∈ (t.insert k v).keys ↔ k' = k ∨ k' ∈ t.keys :=
  Entries.mem_keys_put

end Table

end Rendezvous
