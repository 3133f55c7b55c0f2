import Mathlib.Data.List.Perm.Basic
import Rendezvous.Proofs.Store.Instances

/-!
# The same nodes in another order

Nodes with distinct paths are kept as they are loaded (`entries_addMany`).  Two stores that hold the
same nodes in different orders (`Reorders`) answer every query about one node alike, and what they
list are permutations of each other.  The instances of a kind can come in any order
(`exists_reorders`).
-/

namespace Rendezvous

/-! ## Tables with the same entries -/

namespace Table

variable {κ ν : Type} [DecidableEq κ] {t u : Table κ ν} {k : κ} {v : ν}

theorem mem_entries_of_get? (h : t.get? k = some v) : (k, v) ∈ t.entries := by
  have hfind : ∀ es : List (κ × ν), Entries.find? k es = some v → (k, v) ∈ es := by
    intro es
    induction es with
    | nil => exact fun h => nomatch h
    | cons e rest ih =>
      intro h
      rw [Entries.find?] at h
      split at h
      · next hk =>
        rw [← hk, ← Option.some.inj h]
        exact List.mem_cons_self
      · exact List.mem_cons_of_mem e (ih h)
  exact hfind t.entries h

theorem get?_eq_of_perm (h : t.entries.Perm u.entries) : t.get? = u.get? := by
  funext k
  refine Option.ext fun v => ?_
  constructor
  · exact fun hv => get?_of_mem_entries (h.subset (mem_entries_of_get? hv))
  · exact fun hv => get?_of_mem_entries (h.symm.subset (mem_entries_of_get? hv))

end Table

namespace Store

/-! ## Queries -/

/-- The same nodes, loaded in another order. -/
def Reorders (s t : Store) : Prop :=
  s.loaded.entries.Perm t.loaded.entries

namespace Reorders

variable {s t : Store} (h : s.Reorders t)
include h

theorem symm : t.Reorders s :=
  List.Perm.symm h

theorem node?_eq : s.node? = t.node? :=
  Table.get?_eq_of_perm h

theorem pointer?_eq : s.pointer? = t.pointer? := by
  funext p name
  rw [s.pointer?_eq, h.node?_eq, t.pointer?_eq]

theorem attributeText_eq : s.attributeText = t.attributeText := by
  funext p name
  rw [attributeText, s.attributeAt?_eq, h.node?_eq, attributeText, t.attributeAt?_eq]

theorem parent?_eq : s.parent? = t.parent? := by
  funext p
  rw [s.parent?_eq, h.node?_eq, t.parent?_eq]

theorem metaType?_eq : s.metaType? = t.metaType? := by
  funext p
  rw [s.metaType?_eq, h.node?_eq, t.metaType?_eq]

theorem isA_eq : s.isA = t.isA := by
  funext p m
  rw [isA, h.metaType?_eq, isA]

theorem isInstance_eq : s.isInstance = t.isInstance := by
  funext p
  rw [isInstance, s.isMetaNode_eq, isTemplate, s.parent?_eq, h.node?_eq, h.metaType?_eq, isInstance,
    t.isMetaNode_eq, isTemplate, t.parent?_eq]

theorem instanceType?_eq : s.instanceType? = t.instanceType? := by
  funext p
  rw [instanceType?, h.isInstance_eq, h.metaType?_eq, instanceType?]

theorem paths_perm : s.paths.Perm t.paths := by
  rw [← s.keys_loaded, ← t.keys_loaded]
  exact h.map Prod.fst

theorem children_perm (p : Path) : (s.children p).Perm (t.children p) := by
  rw [s.children_eq_filter, t.children_eq_filter, h.parent?_eq]
  exact h.paths_perm.filter _

theorem instancesWhere_perm (isWanted : MetaType → Bool) :
    (s.instancesWhere isWanted).Perm (t.instancesWhere isWanted) := by
  rw [instancesWhere, h.isInstance_eq, h.metaType?_eq]
  exact h.paths_perm.filter _

end Reorders

/-! ## Loading in another order -/

section
variable {nodes nodes' : List (Path × Node)}

theorem entries_add_of_not_mem {s : Store} {path : Path} {node : Node} (h : path ∉ s.paths) :
    (s.add path node).loaded.entries = s.loaded.entries ++ [(path, node)] := by
  have hremove : Entries.remove path s.loaded.entries = s.loaded.entries := by
    refine List.filter_eq_self.2 fun e he => ?_
    simp only [ne_eq, decide_eq_true_eq]
    rintro rfl
    exact h (s.keys_loaded ▸ List.mem_map_of_mem he)
  rw [entries_loaded_add, hremove]

/-- Nodes with distinct new paths follow what is loaded. -/
theorem entries_addMany_append {s : Store}
    (h : ((s.loaded.entries ++ nodes).map Prod.fst).Nodup) :
    (s.addMany nodes).loaded.entries = s.loaded.entries ++ nodes := by
  induction nodes generalizing s with
  | nil => rw [List.append_nil]; rfl
  | cons e nodes ih =>
    have hadd : (s.add e.1 e.2).loaded.entries = s.loaded.entries ++ [e] := by
      refine entries_add_of_not_mem fun hmem => ?_
      rw [List.map_append, List.nodup_append] at h
      rw [← s.keys_loaded] at hmem
      exact h.2.2 e.1 hmem e.1 (by simp) rfl
    rw [List.append_cons, ← hadd] at h ⊢
    exact ih h

/-- **Nodes with distinct paths are kept as they are loaded.** -/
theorem entries_addMany (h : (nodes.map Prod.fst).Nodup) :
    (empty.addMany nodes).loaded.entries = nodes :=
  entries_addMany_append (s := empty) h

theorem reorders_addMany (h : (nodes.map Prod.fst).Nodup) (hperm : nodes'.Perm nodes) :
    (empty.addMany nodes').Reorders (empty.addMany nodes) := by
  have h' : (nodes'.map Prod.fst).Nodup := (hperm.map Prod.fst).nodup_iff.2 h
  rw [Reorders, entries_addMany h, entries_addMany h']
  exact hperm

end

/-! ## Choosing the order of some nodes -/

/-- Some members of a list can be put in any order. -/
theorem exists_perm_filter {α : Type} {l xs : List α} {p : α → Bool}
    (h : xs.Perm (l.filter p)) : ∃ l' : List α, l'.Perm l ∧ l'.filter p = xs := by
  have hxs : ∀ x ∈ xs, p x = true := fun x hx => (List.mem_filter.1 (h.subset hx)).2
  refine ⟨xs ++ l.filter fun x => !p x, ?_, ?_⟩
  · exact (h.append_right _).trans (List.filter_append_perm p l)
  · simp [List.filter_append, List.filter_eq_self.2 hxs]

/-- The instances of a kind can be loaded in any order. -/
theorem exists_reorders {nodes : List (Path × Node)} (h : (nodes.map Prod.fst).Nodup)
    {isWanted : MetaType → Bool} {ks : List Path}
    (hks : ks.Perm ((empty.addMany nodes).instancesWhere isWanted)) :
    ∃ nodes' : List (Path × Node), nodes'.Perm nodes ∧
      (empty.addMany nodes').instancesWhere isWanted = ks := by
  let s := empty.addMany nodes
  let isOne : Path × Node → Bool := fun e =>
    s.isInstance e.1 && ((s.metaType? e.1).map isWanted).getD false
  have hinstances : ∀ {nodes'}, nodes'.Perm nodes →
      (empty.addMany nodes').instancesWhere isWanted = (nodes'.filter isOne).map Prod.fst := by
    intro nodes' hperm
    have h' : (nodes'.map Prod.fst).Nodup := (hperm.map Prod.fst).nodup_iff.2 h
    have hreorders : (empty.addMany nodes').Reorders s := reorders_addMany h hperm
    rw [instancesWhere, hreorders.isInstance_eq, hreorders.metaType?_eq, ← keys_loaded, Table.keys,
      entries_addMany h', List.filter_map]
    rfl
  rw [hinstances (.refl nodes)] at hks
  -- the entries of the wanted nodes in the wanted order, and then all entries around them
  obtain ⟨es, rfl, hes⟩ : ∃ es : List (Path × Node), ks = es.map Prod.fst ∧
      es.Perm (nodes.filter isOne) := by
    have hcomp := congrFun₂ (List.eq_map_comp_perm (@Prod.fst Path Node)) ks (nodes.filter isOne)
    exact hcomp.mpr hks
  obtain ⟨nodes', hperm, hfilter⟩ := exists_perm_filter hes
  exact ⟨nodes', hperm, by rw [hinstances hperm, hfilter]⟩

end Store

end Rendezvous
