import Rendezvous.Proofs.Check.Acceptance
import Rendezvous.Proofs.Component.Source
import Rendezvous.Proofs.Glue.Mentions

/-!
# The ports of accepted models

A real port is an enforceable transition of a component type, and the class of that type declares it
(`IsPort.isDeclared`).  The gates ask the end of a connector for a cardinality, which a component
type has as well as a port.  So an accepted model can connect an end to a component type, whose name
the glue then takes for a port, or have a component type as an end, which the glue leaves out;
`check_wiresPorts_iff` says when it does neither, and `wiresPorts_of_wellTyped` that it does not when
ends are synchrons or triggers and connections lead to ports.
-/

namespace Rendezvous

namespace Glue

open Architecture

/-! ## Real ports -/

/-- The names of a component type and of one of its enforceable transitions. -/
def IsPort (s : Store) (q : Port) : Prop :=
  ∃ t, s.instanceType? t = some .componentType ∧
    ∃ p ∈ enforceablePorts s t, q = ⟨s.nameOf t, s.nameOf p⟩

/-- A generated class has the name of a port's component type and declares the port. -/
def IsDeclared (s : Store) (types : List Path) (q : Port) : Prop :=
  ∃ source, (s.componentSources types).get? (Component.sourceFile q.specType) = some source ∧
    Source.HasLine source ("public class " ++ q.specType ++ " \x7b") ∧
    ∃ separator ∈ ["", ","],
      Source.HasLine source (Component.portLine q.id .enforceable separator)

theorem hasLine_className (c : Component) :
    Source.HasLine c.source ("public class " ++ c.name ++ " \x7b") :=
  Source.hasLine_render (by simp [Component.headerLines])

section
variable {s : Store} {t p : Path}

theorem metaType?_of_mem_enforceablePorts (h : p ∈ enforceablePorts s t) :
    s.metaType? p = some .enforceableTransition := by
  obtain ⟨m, hm, hisA⟩ : ∃ m, s.metaType? p = some m ∧ m.isA .enforceableTransition = true := by
    have hp := (List.mem_filter.1 h).2
    unfold Store.isA at hp
    cases hm : s.metaType? p with
    | none => simp [hm] at hp
    | some m => exact ⟨m, rfl, by simpa [hm] using hp⟩
  cases m <;> first | exact hm | cases hisA

/-- The glue names a child of a component type by the names of the two. -/
theorem portOfNode_of_mem_children (h : p ∈ s.children t) :
    portOfNode s p = ⟨s.nameOf t, s.nameOf p⟩ := by
  rw [portOfNode, Store.parent?_of_mem_children h]
  rfl

/-- The glue names an enforceable transition by its component type. -/
theorem isPort_portOfNode (ht : s.instanceType? t = some .componentType)
    (hp : p ∈ enforceablePorts s t) : IsPort s (portOfNode s p) :=
  ⟨t, ht, p, hp, portOfNode_of_mem_children (List.mem_filter.1 hp).1⟩

/-- **Real ports are declared**, as the classes of different component types have different names. -/
theorem IsPort.isDeclared {q : Port} (h : IsPort s q)
    (hnames : (s.componentTypes.map s.nameOf).Nodup) : IsDeclared s s.componentTypes q := by
  obtain ⟨t, ht, p, hp, rfl⟩ := h
  obtain ⟨tr, htr, hname, hkind⟩ := Component.exists_mem_ports (List.mem_filter.1 hp).1
    (metaType?_of_mem_enforceablePorts hp)
  obtain ⟨separator, hseparator, hline⟩ := Component.hasLine_source_of_mem_ports htr
  rw [hname, hkind] at hline
  exact ⟨_, Store.get?_componentSources hnames (Store.mem_componentTypes.2 ht),
    hasLine_className (Component.ofStore s t), separator, hseparator, hline⟩

end

/-! ## Ends of accepted models -/

/-- Every end of every connector contributes to the glue, which mentions real ports only. -/
structure WiresPorts (s : Store) (m : CheckedModel) : Prop where
  contributes : ∀ c ∈ m.architecture.connectors, ∀ e ∈ m.architecture.ends c,
    (end? s m.architecture e).isSome
  isPort : ∀ q, (ofArchitecture s m.architecture).Mentions q → IsPort s q

section
variable {s : Store} {config : Config} {m : CheckedModel}

/-- In an accepted model the ends without a connection, and only these, are left out. -/
theorem isSome_end?_iff (h : Accepted s config m) {c e : Path}
    (hc : c ∈ m.architecture.connectors) (he : e ∈ m.architecture.ends c) :
    (end? s m.architecture e).isSome ↔
      ∃ k ∈ (build s config).connections, connectionEnd? s k = some e := by
  rw [end?, Option.isSome_map, Option.isSome_iff_exists]
  constructor
  · rintro ⟨p, hp⟩
    rw [h.portOf?_eq] at hp
    obtain ⟨k, hk, hend, -⟩ := exists_connection_of_connectedPort? hp
    exact ⟨k, hk, hend⟩
  · rintro ⟨k, hk, hend⟩
    exact h.exists_port hc he hk hend

/-- A model wires ports exactly when every end has one. -/
theorem wiresPorts_iff : WiresPorts s m ↔
    ∀ c ∈ m.architecture.connectors, ∀ e ∈ m.architecture.ends c,
      ∃ p, m.architecture.annotations.portOf? e = some p ∧ IsPort s (portOfNode s p) := by
  constructor
  · intro h c hc e he
    have hsome := h.contributes c hc e he
    rw [end?, Option.isSome_map, Option.isSome_iff_exists] at hsome
    obtain ⟨p, hp⟩ := hsome
    exact ⟨p, hp, h.isPort _ (mentions_ofArchitecture_iff.2 ⟨c, hc, e, he, p, hp, rfl⟩)⟩
  · intro h
    constructor
    · intro c hc e he
      obtain ⟨p, hp, -⟩ := h c hc e he
      rw [end?, hp]
      rfl
    · intro q hq
      obtain ⟨c, hc, e, he, p, hp, rfl⟩ := mentions_ofArchitecture_iff.1 hq
      obtain ⟨p', hp', hport⟩ := h c hc e he
      rw [hp] at hp'
      obtain rfl := Option.some.inj hp'
      exact hport

/-- **When an accepted model only wires real ports.**  Whatever is accepted, an end is left out of
the glue only when no connection starts from it, and then it is a component type or a port of one
itself; and a real port is declared by the class of its component type.  All ends take part with real
ports exactly when the first connection that leads anywhere from each of them leads to what the names
of a real port denote. -/
theorem check_wiresPorts_iff (h : config.check s = .ok m) :
    let ks := (build s config).connections
    (∀ c ∈ m.architecture.connectors, ∀ e ∈ m.architecture.ends c,
      ((end? s m.architecture e).isSome ↔ ∃ k ∈ ks, connectionEnd? s k = some e) ∧
      (end? s m.architecture e = none →
        ∃ t, s.instanceType? t = some .componentType ∧ HasCardinalityOf s t e)) ∧
    (∀ q, IsPort s q → IsDeclared s m.componentTypes q) ∧
    (WiresPorts s m ↔ ∀ c ∈ m.architecture.connectors, ∀ e ∈ m.architecture.ends c,
      ∃ p, connectedPort? s ks e = some p ∧ IsPort s (portOfNode s p)) := by
  intro ks
  have hacc : Accepted s config m := check_eq_ok_iff.1 h
  refine ⟨fun c hc e he => ⟨isSome_end?_iff hacc hc he, fun hnone => ?_⟩, fun q hq => ?_, ?_⟩
  · exact hacc.exists_type_of_portOf?_eq_none hc he (Option.map_eq_none_iff.1 hnone)
  · rw [hacc.componentTypes_eq]
    exact hq.isDeclared hacc.names_nodup
  · rw [wiresPorts_iff, hacc.portOf?_eq]

/-- **Synchrons and triggers that are connected to ports only wire real ports.** -/
theorem wiresPorts_of_wellTyped (h : Accepted s config m)
    (hends : ∀ c ∈ m.architecture.connectors, ∀ e ∈ m.architecture.ends c,
      s.metaType? e = some .synchron ∨ s.metaType? e = some .trigger)
    (hconnections : ∀ k ∈ (build s config).connections, ∀ p, connectionPort? s k = some p →
      ∃ t, s.instanceType? t = some .componentType ∧ p ∈ enforceablePorts s t) :
    WiresPorts s m := by
  refine wiresPorts_iff.2 fun c hc e he => ?_
  cases hport : m.architecture.annotations.portOf? e with
  | none =>
    -- such an end would be a component type or a port
    obtain ⟨t, ht, hp⟩ := h.exists_type_of_portOf?_eq_none hc he hport
    have hmeta : s.metaType? e = some .componentType ∨
        s.metaType? e = some .enforceableTransition := by
      rcases hp with rfl | hp
      · exact Or.inl (Store.instanceType?_eq_some_iff.1 ht).2
      · exact Or.inr (metaType?_of_mem_enforceablePorts hp)
    rcases hends c hc e he with hend | hend <;> simp [hend] at hmeta
  | some p =>
    rw [h.portOf?_eq] at hport
    obtain ⟨k, hk, -, hp⟩ := exists_connection_of_connectedPort? hport
    obtain ⟨t, ht, hmem⟩ := hconnections k hk p hp
    exact ⟨p, rfl, isPort_portOfNode ht hmem⟩

end

/-! ## A component type in the place of a port -/

/-- A synchron end that takes part once. -/
def singleEnd : Node :=
  ⟨.synchron, false, none, .ofList [(Attribute.degree, "1"), (Attribute.multiplicity, "1")], .empty⟩

/-- A connector between `/e`, which is connected to the port `/a/p`, and `/f`, which is connected to
the component type `/a`. -/
def typeAsPort : Store :=
  Store.empty.addMany [
    ("/a", ⟨.componentType, false, none,
      .ofList [(Attribute.name, "A"), (Attribute.cardinality, "1")], .empty⟩),
    ("/a/s", ⟨.initialState, false, some "/a", .ofList [(Attribute.name, "s")], .empty⟩),
    ("/a/p", ⟨.enforceableTransition, false, some "/a",
      .ofList [(Attribute.name, "p"), (Attribute.transitionMethod, "void p() \x7b\x7d")],
      .ofList [(Pointer.source, "/a/s"), (Pointer.destination, "/a/s")]⟩),
    ("/e", singleEnd), ("/f", singleEnd),
    ("/k", bareNode .connection [(Pointer.source, "/e"), (Pointer.destination, "/a/p")]),
    ("/l", bareNode .connection [(Pointer.source, "/f"), (Pointer.destination, "/a")]),
    ("/c", bareNode .connector [(Pointer.source, "/e"), (Pointer.destination, "/f")])]

/-- The model that the gates make of it. -/
def typeAsPortModel : CheckedModel :=
  ⟨((build typeAsPort .empty).checkConsistency typeAsPort .empty).1, ["/a"]⟩

theorem check_typeAsPort : Config.empty.check typeAsPort = .ok typeAsPortModel := by
  decide

/-- Both ends take part in the glue. -/
theorem check_wiresPorts_iff_typeAsPort :
    Config.empty.check typeAsPort = .ok typeAsPortModel ∧
      (end? typeAsPort typeAsPortModel.architecture "/f").isSome ∧
      IsDeclared typeAsPort typeAsPortModel.componentTypes ⟨"A", "p"⟩ := by
  obtain ⟨hends, hdeclared, -⟩ := check_wiresPorts_iff check_typeAsPort
  refine ⟨check_typeAsPort, ?_, hdeclared _ ⟨"/a", by decide, "/a/p", by decide, by decide⟩⟩
  exact (hends "/c" (by decide) "/f" (by decide)).1.2 ⟨"/l", by decide, by decide⟩

/-- The glue mentions the component type as a port, which no component type has. -/
theorem not_wiresPorts_typeAsPort :
    ¬ ∀ m, Config.empty.check typeAsPort = .ok m → WiresPorts typeAsPort m := by
  intro h
  obtain ⟨p, hp, t, ht, q, -, hq⟩ := wiresPorts_iff.1 (h _ check_typeAsPort) "/c" (by decide) "/f"
    (by decide)
  have hrecorded : typeAsPortModel.architecture.annotations.portOf? "/f" = some "/a" := by decide
  obtain rfl : p = "/a" := Option.some.inj (hp.symm.trans hrecorded)
  -- the type has no parent, so the glue names no component type
  have hspecType : "" = typeAsPort.nameOf t := congrArg Port.specType hq
  have htypes : typeAsPort.componentTypes = ["/a"] := by decide
  rw [← Store.mem_componentTypes, htypes, List.mem_singleton] at ht
  subst ht
  exact absurd hspecType (by decide)

end Glue

end Rendezvous
