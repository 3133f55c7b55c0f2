import Rendezvous.Check.Parameters
import Rendezvous.Proofs.Table

/-!
# Nodes that take part in an architecture

Look-ups in a store, read the other way round: a node with a meta-type is loaded, a listed child
names its parent, and the instances of a kind are the nodes with that `instanceType?`.
-/

namespace Rendezvous

/-! ## Nodes of a store -/

/-- The meta-type of a node that takes part in the architecture. -/
def Store.instanceType? (s : Store) (p : Path) : Option MetaType :=
  if s.isInstance p then s.metaType? p else none

theorem Store.mem_paths_of_metaType? {s : Store} {p : Path} {m : MetaType}
    (h : s.metaType? p = some m) : p ∈ s.paths := by
  rw [Store.paths, Table.mem_keys_iff]
  obtain ⟨n, hn, -⟩ := Option.map_eq_some_iff.1 h
  exact Option.isSome_iff_exists.2 ⟨n, hn⟩

theorem Store.instanceType?_eq_some_iff {s : Store} {p : Path} {m : MetaType} :
    s.instanceType? p = some m ↔ s.isInstance p = true ∧ s.metaType? p = some m := by
  unfold Store.instanceType?
  split <;> simp_all

theorem Store.mem_instancesWhere {s : Store} {p : Path} {isWanted : MetaType → Bool} :
    p ∈ s.instancesWhere isWanted ↔ ∃ m, s.instanceType? p = some m ∧ isWanted m = true := by
  simp only [Store.instancesWhere, List.mem_filter, Bool.and_eq_true,
    Store.instanceType?_eq_some_iff]
  constructor
  · rintro ⟨-, hi, hw⟩
    cases hm : s.metaType? p with
    | none => simp [hm] at hw
    | some m => exact ⟨m, ⟨hi, rfl⟩, by simpa [hm] using hw⟩
  · rintro ⟨m, ⟨hi, hm⟩, hw⟩
    exact ⟨Store.mem_paths_of_metaType? hm, hi, by simpa [hm] using hw⟩

theorem Store.nodup_instancesWhere (s : Store) (isWanted : MetaType → Bool) :
    (s.instancesWhere isWanted).Nodup :=
  s.nodes.nodup.filter _

/-- The children of a path are the loaded nodes that name it as their parent, in load order. -/
theorem Store.children_eq_filter (s : Store) (p : Path) :
    s.children p = s.paths.filter fun c => s.parent? c = some p := by
  rw [children_eq, childrenIn, paths, Table.keys, List.filter_map]
  congr 1
  apply List.filter_congr
  intro e he
  have hframe : s.frame? e.1 = some e.2 := Table.get?_of_mem_entries he
  simp [parent?, hframe]

theorem Store.nodup_children (s : Store) (p : Path) : (s.children p).Nodup := by
  rw [children_eq_filter]
  exact s.nodes.nodup.filter _

/-- The children that a store lists for a node name it as their parent. -/
theorem Store.parent?_of_mem_children {s : Store} {t p : Path} (h : p ∈ s.children t) :
    s.parent? p = some t := by
  rw [children_eq_filter] at h
  exact of_decide_eq_true (List.mem_filter.1 h).2

end Rendezvous
