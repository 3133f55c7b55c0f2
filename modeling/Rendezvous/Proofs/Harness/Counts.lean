import Rendezvous.Proofs.Architecture.Parts
import Rendezvous.Proofs.Check.Acceptance
import Rendezvous.Proofs.Check.Gate
import Rendezvous.Proofs.Component.Source

/-!
# The numbers of instances in the harness

The harness reads the number of instances of a component type from the derived values, where building
has put what its cardinality text denotes.  Resolving motifs then writes a cardinality to the source
of every connection, whatever that source is.  So an accepted component type has its own count
unless a connection starts at it (`Accepted.cardinality?_of_type`), and with such connections exactly
when the last of them brings the same number (`check_countsTypes_iff`).
-/

namespace Rendezvous

open Architecture

/-- The harness lists the component types of a model in load order, each with the number of instances
that its cardinality denotes. -/
def Harness.CountsTypes (h : Harness) (s : Store) (config : Config) : Prop :=
  h.instances.map (fun e => (e.1, some e.2)) =
    s.componentTypes.map fun t => (s.nameOf t, configuredCardinality s config t)

namespace Accepted

variable {s : Store} {config : Config} {m : CheckedModel} (h : Accepted s config m)
include h

/-- The gates neither add nor drop component types. -/
theorem architecture_componentTypes : m.architecture.componentTypes = s.componentTypes := by
  have hcheck : m.architecture.componentTypes =
      (resolveMotifs s (build s config) (.empty .architecture)).1.componentTypes := by
    rw [h.architecture_eq]
    rfl
  rw [hcheck, componentTypes_resolveMotifs, componentTypes_build,
    Store.instancesWhere_componentType]

/-- Cardinalities are those that resolving motifs has left. -/
theorem cardinality?_eq : m.architecture.cardinality? =
    (build s config).connections.foldl (takeCardinality s) (build s config).cardinality? := by
  rw [← cardinality?_resolveMotifs s (build s config) (.empty .architecture), h.architecture_eq]
  exact (keeps_foldl_checkConnector s _ ⟨_, _⟩ _).cardinality?_eq

/-- The count of a component type is known. -/
theorem exists_configuredCardinality {t : Path} (ht : t ∈ s.componentTypes) :
    ∃ n, configuredCardinality s config t = some n := by
  have htype := Store.mem_componentTypes.1 ht
  have hsome := ((gate_agrees h.parameters).1 t htype).1
  rw [cardinality?_build_of_type htype (Or.inl rfl)] at hsome
  exact Option.isSome_iff_exists.1 hsome

/-- A component type that no connection starts at keeps its count. -/
theorem cardinality?_of_type {t : Path} (ht : t ∈ s.componentTypes)
    (hnone : ∀ k ∈ (build s config).connections, connectionEnd? s k ≠ some t) :
    m.architecture.cardinality? t = configuredCardinality s config t := by
  rw [h.cardinality?_eq, foldl_takeCardinality_of_none hnone]
  exact cardinality?_build_of_type (Store.mem_componentTypes.1 ht) (Or.inl rfl)

/-- The harness counts component types rightly exactly when it does so one by one. -/
theorem countsTypes_iff (node : Path) (root : String) :
    (Harness.ofArchitecture s node m.architecture config root).CountsTypes s config ↔
      ∀ t ∈ s.componentTypes,
        some ((m.architecture.cardinality? t).getD 1) = configuredCardinality s config t := by
  rw [Harness.CountsTypes, Harness.ofArchitecture, h.architecture_componentTypes]
  simp

/-- Without connections that start at component types, the harness counts them rightly. -/
theorem countsTypes_of_ends (node : Path) (root : String)
    (hends : ∀ t ∈ s.componentTypes, ∀ k ∈ (build s config).connections,
      connectionEnd? s k ≠ some t) :
    (Harness.ofArchitecture s node m.architecture config root).CountsTypes s config := by
  refine (h.countsTypes_iff node root).2 fun t ht => ?_
  obtain ⟨n, hn⟩ := h.exists_configuredCardinality ht
  rw [h.cardinality?_of_type ht (hends t ht), hn, Option.getD_some]

end Accepted

/-- **When the harness instantiates what the model says.**  For an accepted model, exactly when
every component type that connections start at is brought its own count by the last of them: by what
that connection leads to, as it was when the connection was read, or by a single instance when there
is no count to bring.  If what component types are connected to is not the source of a connection
itself, this is a matter of the counts after building. -/
theorem check_countsTypes_iff {s : Store} {config : Config} {m : CheckedModel}
    (h : config.check s = .ok m) (node : Path) (root : String) :
    let a := build s config
    let harness := Harness.ofArchitecture s node m.architecture config root
    (harness.CountsTypes s config ↔ ∀ t ∈ s.componentTypes, ∀ before last after,
      LastFrom s a.connections t before last after →
        some (((connectionPort? s last).bind
          (before.foldl (takeCardinality s) a.cardinality?)).getD 1) =
            configuredCardinality s config t) ∧
    ((∀ t ∈ s.componentTypes, LeadsToPorts s a.connections t) →
      (harness.CountsTypes s config ↔ ∀ t ∈ s.componentTypes, ∀ before last after,
        LastFrom s a.connections t before last after →
          some (((connectionPort? s last).bind a.cardinality?).getD 1) =
            configuredCardinality s config t)) := by
  intro a harness
  have hacc : Accepted s config m := check_eq_ok_iff.1 h
  have hmain : harness.CountsTypes s config ↔ ∀ t ∈ s.componentTypes, ∀ before last after,
      LastFrom s a.connections t before last after →
        some ((m.architecture.cardinality? t).getD 1) = configuredCardinality s config t := by
    refine (hacc.countsTypes_iff node root).trans ⟨fun hall t ht _ _ _ _ => hall t ht, ?_⟩
    intro hlast t ht
    by_cases hstarts : ∃ k ∈ a.connections, connectionEnd? s k = some t
    · obtain ⟨before, last, after, hsplit⟩ := exists_lastFrom hstarts
      exact hlast t ht before last after hsplit
    · obtain ⟨n, hn⟩ := hacc.exists_configuredCardinality ht
      have hkeep : m.architecture.cardinality? t = configuredCardinality s config t :=
        hacc.cardinality?_of_type ht fun k hk hend => hstarts ⟨k, hk, hend⟩
      rw [hkeep, hn, Option.getD_some]
  refine ⟨hmain.trans ?_, fun hports => hmain.trans ?_⟩
  · refine forall₂_congr fun t _ => forall₄_congr fun before last after hsplit => ?_
    rw [hacc.cardinality?_eq, hsplit.cardinality_eq]
  · refine forall₂_congr fun t ht => forall₄_congr fun before last after hsplit => ?_
    rw [hacc.cardinality?_eq, hsplit.cardinality_eq_of_ports (hports t ht)]

/-! ## A connection that starts at a component type -/

/-- Next to the component type `/a` with one instance, a component type `/b` that is connected to the
port of `/a` itself. -/
def connectedType (cardinality : String) : Store :=
  Store.empty.addMany (onePortType ++ [
    ("/b", namedNode .componentType none "B" Attribute.cardinality cardinality),
    ("/b/s", ⟨.initialState, false, some "/b", .ofList [(Attribute.name, "s")], .empty⟩),
    ("/l", bareNode .connection [(Pointer.source, "/b"), (Pointer.destination, "/a/p")])])

theorem check_countsTypes_iff_connectedType :
    let s := connectedType "1"
    let a := build s .empty
    Config.empty.check s = .ok (checkedModel s .empty) ∧
      (∀ t ∈ s.componentTypes, LeadsToPorts s a.connections t) ∧
      (Harness.ofArchitecture s "/m" (checkedModel s .empty).architecture .empty ".").CountsTypes
        s .empty := by
  intro s a
  have hcheck : Config.empty.check s = .ok (checkedModel s .empty) := by decide +kernel
  have hports : ∀ t ∈ s.componentTypes, LeadsToPorts s a.connections t := by
    unfold LeadsToPorts
    decide +kernel
  have hbrings : ∀ t ∈ s.componentTypes, ∀ k ∈ a.connections, connectionEnd? s k = some t →
      some (((connectionPort? s k).bind a.cardinality?).getD 1) =
        configuredCardinality s .empty t := by
    decide +kernel
  obtain ⟨-, hcounts⟩ := check_countsTypes_iff hcheck "/m" "."
  refine ⟨hcheck, hports, (hcounts hports).2 fun t ht before last after hlast => ?_⟩
  refine hbrings t ht last ?_ hlast.starts
  rw [hlast.split]
  simp

/-- With three instances in the model, the harness has one. -/
theorem not_countsTypes_connectedType :
    ¬ ∀ m, Config.empty.check (connectedType "3") = .ok m →
      (Harness.ofArchitecture (connectedType "3") "/m" m.architecture .empty ".").CountsTypes
        (connectedType "3") .empty := by
  intro h
  have hcheck : Config.empty.check (connectedType "3") =
      .ok (checkedModel (connectedType "3") .empty) := by
    decide +kernel
  have hcounts := h _ hcheck
  unfold Harness.CountsTypes at hcounts
  exact absurd hcounts (by decide +kernel)

end Rendezvous
