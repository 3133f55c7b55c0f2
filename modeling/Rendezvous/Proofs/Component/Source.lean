import Rendezvous.Component.Source
import Rendezvous.Proofs.Store.Instances

/-!
# What class sources declare

The source of a component type has one declaration for every port of its state machine
(`hasLine_source_of_mem_ports`), and component types of distinct names keep their sources apart
(`get?_componentSources`).
-/

namespace Rendezvous

/-! ## Lines of a source -/

namespace Source

/-- A line occurs in a source. -/
def HasLine (source line : String) : Prop :=
  ∃ before after, source = render (before ++ line :: after)

theorem hasLine_render {ls : List String} {line : String} (h : line ∈ ls) :
    HasLine (render ls) line := by
  obtain ⟨before, after, rfl⟩ := List.append_of_mem h
  exact ⟨before, after, rfl⟩

end Source

namespace Component

open Source Text

/-- The declaration of a port, with what separates it from the next one. -/
def portLine (name : String) (kind : TransitionKind) (separator : String) : String :=
  indented 1 ("@Port(name = " ++ literal name ++ ", type = PortType." ++ kind.portType ++ ")"
    ++ separator)

theorem exists_mem_portLines {t : ComponentTransition} {ts : List ComponentTransition}
    (h : t ∈ ts) : ∃ separator ∈ ["", ","], portLine t.name t.kind separator ∈ portLines ts := by
  induction ts with
  | nil => exact absurd h List.not_mem_nil
  | cons u ts ih =>
    rcases List.mem_cons.1 h with rfl | h
    · refine ⟨if ts.isEmpty then "" else ",", ?_, .head _⟩
      split <;> simp
    · obtain ⟨separator, hseparator, hline⟩ := ih h
      exact ⟨separator, hseparator, .tail _ hline⟩

/-- **The class of a component type declares each of its ports**, with its kind. -/
theorem hasLine_source_of_mem_ports {c : Component} {t : ComponentTransition} (h : t ∈ c.ports) :
    ∃ separator ∈ ["", ","], HasLine c.source (portLine t.name t.kind separator) := by
  obtain ⟨separator, hseparator, hline⟩ := exists_mem_portLines h
  refine ⟨separator, hseparator, hasLine_render ?_⟩
  have hports : c.ports.isEmpty = false := by
    rw [List.isEmpty_eq_false_iff_exists_mem]
    exact ⟨t, h⟩
  simp [headerLines, portsLines, hports, hline]

/-- An enforceable transition below a component type is a port of its state machine. -/
theorem exists_mem_ports {s : Store} {t p : Path} (h : p ∈ s.children t)
    (hmeta : s.metaType? p = some .enforceableTransition) :
    ∃ tr ∈ (ofStore s t).ports, tr.name = s.nameOf p ∧ tr.kind = .enforceable := by
  have htransition : ∃ tr, transition? s p = some tr ∧ tr.name = s.nameOf p ∧
      tr.kind = .enforceable := by
    unfold transition?
    rw [hmeta]
    exact ⟨_, rfl, rfl, rfl⟩
  obtain ⟨tr, htr, hname, hkind⟩ := htransition
  refine ⟨tr, List.mem_filter.2 ⟨List.mem_filterMap.2 ⟨p, h, htr⟩, ?_⟩, hname, hkind⟩
  rw [hkind]
  rfl

theorem sourceFile_inj {a b : String} : sourceFile a = sourceFile b ↔ a = b :=
  String.append_left_inj _

end Component

theorem Store.mem_componentTypes {s : Store} {t : Path} :
    t ∈ s.componentTypes ↔ s.instanceType? t = some .componentType := by
  rw [Store.componentTypes, List.mem_filter, Bool.and_eq_true, beq_iff_eq,
    Store.instanceType?_eq_some_iff]
  exact and_iff_right_of_imp fun h => Store.mem_paths_of_metaType? h.2

theorem Store.instancesWhere_componentType (s : Store) :
    s.instancesWhere (· == .componentType) = s.componentTypes := by
  rw [Store.instancesWhere, Store.componentTypes]
  refine List.filter_congr fun p _ => ?_
  cases s.metaType? p <;> rfl

/-- The file of the class of a component type. -/
def Component.sourceEntry (s : Store) (t : Path) : String × String :=
  (sourceFile (s.nameOf t), (ofStore s t).source)

theorem Component.map_fst_sourceEntry (s : Store) (types : List Path) :
    (types.map (sourceEntry s)).map Prod.fst = (types.map s.nameOf).map sourceFile := by
  rw [List.map_map, List.map_map]
  rfl

section
variable {s : Store} {types : List Path} (nodup : (types.map s.nameOf).Nodup)
include nodup

/-- Component types of distinct names have a file each. -/
theorem Store.entries_componentSources :
    (s.componentSources types).entries = types.map (Component.sourceEntry s) := by
  refine Table.entries_ofList ?_
  have hfiles := nodup.map fun _ _ => Component.sourceFile_inj.1
  rwa [← Component.map_fst_sourceEntry] at hfiles

theorem Store.keys_componentSources :
    (s.componentSources types).keys = (types.map s.nameOf).map Component.sourceFile := by
  rw [Table.keys, entries_componentSources nodup, Component.map_fst_sourceEntry]

/-- Component types of distinct names have their own sources. -/
theorem Store.get?_componentSources {t : Path} (h : t ∈ types) :
    (s.componentSources types).get? (Component.sourceFile (s.nameOf t)) =
      some (Component.ofStore s t).source := by
  refine Table.get?_of_mem_entries ?_
  rw [entries_componentSources nodup]
  exact List.mem_map.2 ⟨t, h, rfl⟩

end

end Rendezvous
