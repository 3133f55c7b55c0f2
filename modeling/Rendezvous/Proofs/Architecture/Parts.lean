import Rendezvous.Proofs.Architecture.Ports

/-!
# The parts of an architecture

Building lists the instance nodes of each kind in load order: component types and connections as
they are, connectors apart by whether they extend another connector.  So the parts are filters of
what the store has loaded, and no part is listed twice.
-/

namespace Rendezvous

namespace Architecture

section
variable {s : Store} {config : Config}

/-- A list of parts that the nodes of one kind join, on a condition, lists these nodes in load
order. -/
theorem parts_build {m : MetaType} (hm : m = .componentType ∨ m = .connector ∨ m = .connection)
    (joins : Path → Bool) (parts : Architecture → List Path) (hempty : parts empty = [])
    (htype : ∀ a p, parts (addComponentType s config a p) =
      if m = .componentType ∧ joins p then parts a ++ [p] else parts a)
    (hconnector : ∀ a p, parts (addConnector s a p) =
      if m = .connector ∧ joins p then parts a ++ [p] else parts a)
    (hconnection : ∀ a p, parts (addConnection s a p) =
      if m = .connection ∧ joins p then parts a ++ [p] else parts a) :
    parts (build s config) = (s.instancesWhere (· == m)).filter joins := by
  have hnode : ∀ a p, parts (addNode s config a p) =
      if s.instanceType? p = some m then if joins p then parts a ++ [p] else parts a
      else parts a := by
    intro a p
    rw [addNode_eq]
    split
    · next h => simp only [htype, h, Option.some.injEq, ite_and, eq_comm]
    · next h => simp only [hconnector, h, Option.some.injEq, ite_and, eq_comm]
    · next h => simp only [hconnection, h, Option.some.injEq, ite_and, eq_comm]
    · next htype hconnector hconnection =>
      rw [if_neg]
      rcases hm with rfl | rfl | rfl <;> assumption
  have hfold : parts (build s config) = (s.instancesWhere (· == m)).foldl
      (fun ps p => if joins p then ps ++ [p] else ps) (parts empty) :=
    view_build m parts hnode
  rw [hfold, hempty, ← List.foldl_filter, List.foldl_append_eq_append, ← List.flatMap_def,
    List.flatMap_singleton', List.nil_append]

end

section
variable (s : Store) (config : Config)

theorem componentTypes_build :
    (build s config).componentTypes = s.instancesWhere (· == .componentType) := by
  have hfilter : (build s config).componentTypes =
      (s.instancesWhere (· == .componentType)).filter fun _ => true := by
    refine parts_build (by decide) _ Architecture.componentTypes rfl (fun _ _ => rfl) ?_ ?_
    · intro a p
      unfold addConnector
      split <;> rfl
    · intro a p
      unfold addConnection
      split <;> rfl
  rw [hfilter, List.filter_true]

/-- Resolving motifs neither adds nor drops component types. -/
theorem componentTypes_resolveMotifs (a : Architecture) (report : Report) :
    (resolveMotifs s a report).1.componentTypes = a.componentTypes := by
  refine view_resolveMotifs Architecture.componentTypes (fun r sub => ?_) a report
  obtain ⟨t, hfst, -⟩ := attachSubConnector_fst s r sub
  rw [hfst]

/-- The ports are the enforceable transitions among the children of component types. -/
theorem mem_ports_build {p : Path} : p ∈ (build s config).ports ↔
    ∃ t, s.instanceType? t = some .componentType ∧ p ∈ enforceablePorts s t := by
  have hports : (build s config).ports =
      (s.instancesWhere (· == .componentType)).foldl (fun ps t => ps ++ enforceablePorts s t) [] := by
    refine typeView_build Architecture.ports (fun _ _ => rfl) ?_ ?_
    · intro a q
      unfold addConnector
      split <;> rfl
    · intro a q
      unfold addConnection
      split <;> rfl
  rw [hports, List.foldl_append_eq_append, List.nil_append, ← List.flatMap_def, List.mem_flatMap]
  simp only [Store.mem_instancesWhere, beq_iff_eq, exists_eq_right]

/-- Resolving motifs neither adds nor drops ports. -/
theorem ports_resolveMotifs (a : Architecture) (report : Report) :
    (resolveMotifs s a report).1.ports = a.ports := by
  refine view_resolveMotifs Architecture.ports (fun r sub => ?_) a report
  obtain ⟨t, hfst, -⟩ := attachSubConnector_fst s r sub
  rw [hfst]

theorem connections_build :
    (build s config).connections = s.instancesWhere (· == .connection) := by
  have hfilter : (build s config).connections =
      (s.instancesWhere (· == .connection)).filter fun _ => true := by
    refine parts_build (by decide) _ Architecture.connections rfl (fun _ _ => rfl) ?_ ?_
    · exact connections_addConnector s
    · intro a p
      unfold addConnection
      split <;> rfl
  rw [hfilter, List.filter_true]

theorem connectors_build_eq_filter :
    (build s config).connectors =
      (s.instancesWhere (· == .connector)).filter fun p => !isSubConnector s p := by
  refine parts_build (by decide) _ Architecture.connectors rfl (fun _ _ => rfl) ?_ ?_
  · intro a p
    rw [connectors_addConnector]
    split
    · next h => simp [h]
    · next h => simp [h]
  · intro a p
    unfold addConnection
    split <;> rfl

theorem subConnectors_build :
    (build s config).subConnectors =
      (s.instancesWhere (· == .connector)).filter (isSubConnector s) := by
  refine parts_build (by decide) _ Architecture.subConnectors rfl (fun _ _ => rfl) ?_ ?_
  · intro a p
    unfold addConnector
    split
    · next h => simp [h]
    · next h => simp [h]
  · intro a p
    unfold addConnection
    split <;> rfl

theorem nodup_subConnectors_build : (build s config).subConnectors.Nodup := by
  rw [subConnectors_build]
  exact (s.nodup_instancesWhere _).filter _

end

end Architecture

end Rendezvous
