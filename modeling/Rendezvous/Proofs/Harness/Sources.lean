import Rendezvous.Proofs.Harness.Counts

/-!
# Harness and class sources

Building collects the component types of an architecture one node at a time, while class sources are
generated for the loaded nodes that pass a filter.  Both find the same types in the same order, and
neither resolving motifs nor checking connectors changes the list.  An accepted model gives its
component types distinct names that can name classes, so no source takes the place of another:
every class that the harness registers has a source of its own
(`componentSources_match_harness`).
-/

namespace Rendezvous

open Architecture

/-- The sources are, in order, those of the classes that the harness registers: distinct names that
can name classes. -/
structure Harness.MatchesSources (h : Harness) (sources : Table String String) : Prop where
  files : sources.keys = (h.instances.map Prod.fst).map Component.sourceFile
  distinct : (h.instances.map Prod.fst).Nodup
  classNames : ∀ name ∈ h.instances.map Prod.fst, isClassName name = true

namespace Accepted

variable {s : Store} {config : Config} {m : CheckedModel} (h : Accepted s config m)
include h

/-- Component types have names that can name classes. -/
theorem isClassName_of_mem {t : Path} (ht : t ∈ s.componentTypes) :
    isClassName (s.nameOf t) = true :=
  ((checkBehavior_violations_eq_nil_iff.1 h.behavior).2 t ht).1

/-- The harness registers the component types in load order. -/
theorem map_fst_instances (node : Path) (root : String) :
    (Harness.ofArchitecture s node m.architecture config root).instances.map Prod.fst =
      s.componentTypes.map s.nameOf := by
  rw [Harness.ofArchitecture, h.architecture_componentTypes, List.map_map]
  rfl

theorem matchesSources (node : Path) (root : String) :
    (Harness.ofArchitecture s node m.architecture config root).MatchesSources
      (s.componentSources m.componentTypes) := by
  have hnames := h.map_fst_instances node root
  refine ⟨?_, ?_, ?_⟩
  · rw [hnames, h.componentTypes_eq]
    exact Store.keys_componentSources h.names_nodup
  · rw [hnames]
    exact h.names_nodup
  · rw [hnames]
    intro name hname
    obtain ⟨t, ht, rfl⟩ := List.mem_map.1 hname
    exact h.isClassName_of_mem ht

end Accepted

/-- **The harness registers exactly the classes that have sources.**  At every stage an architecture
lists the component types that sources are generated for, and for an accepted model the files of the
sources are, in order, those of the registered classes, whose names are distinct class names; each
file holds the source of its component type. -/
theorem componentSources_match_harness (s : Store) (config : Config) :
    (∀ report report' : Report,
      let built := build s config
      let resolved := (resolveMotifs s built report).1
      built.componentTypes = s.componentTypes ∧ resolved.componentTypes = s.componentTypes ∧
        (checkConnectors s config resolved report').1.componentTypes = s.componentTypes) ∧
    ∀ m, config.check s = .ok m → ∀ node root,
      (Harness.ofArchitecture s node m.architecture config root).MatchesSources
        (s.componentSources m.componentTypes) ∧
      ∀ t ∈ m.componentTypes, (s.componentSources m.componentTypes).get?
        (Component.sourceFile (s.nameOf t)) = some (Component.ofStore s t).source := by
  constructor
  · intro report report' built resolved
    have hbuilt : built.componentTypes = s.componentTypes :=
      (componentTypes_build s config).trans s.instancesWhere_componentType
    have hresolved : resolved.componentTypes = s.componentTypes :=
      (componentTypes_resolveMotifs s built report).trans hbuilt
    exact ⟨hbuilt, hresolved, hresolved⟩
  · intro m hcheck node root
    have hacc : Accepted s config m := check_eq_ok_iff.1 hcheck
    refine ⟨hacc.matchesSources node root, fun t ht => ?_⟩
    rw [hacc.componentTypes_eq] at ht ⊢
    exact Store.get?_componentSources hacc.names_nodup ht

/-- Two component types, `A` and `B`, with their sources in this order. -/
theorem componentSources_match_harness_twoTypes :
    let s := connectedType "1"
    let m := checkedModel s .empty
    Config.empty.check s = .ok m ∧
      (s.componentSources m.componentTypes).keys = ["A.java", "B.java"] ∧
      (Harness.ofArchitecture s "/m" m.architecture .empty ".").MatchesSources
        (s.componentSources m.componentTypes) := by
  intro s m
  have hcheck : Config.empty.check s = .ok m := by decide +kernel
  obtain ⟨-, hmatches⟩ := componentSources_match_harness s .empty
  exact ⟨hcheck, by decide +kernel, (hmatches m hcheck "/m" ".").1⟩

end Rendezvous
