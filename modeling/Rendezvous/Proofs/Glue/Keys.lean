import Rendezvous.Proofs.Architecture.Parts
import Rendezvous.Proofs.Check.Machines
import Rendezvous.Proofs.Glue.Contributions
import Rendezvous.Proofs.Glue.Ports

/-!
# The names of ports

A glue knows a port by two names: that of its parent and its own.  What is said about nodes with the
same two names is merged (`mem_accepts_iff_exists_node`).  Ports of an accepted model never share both:
component types have distinct names, each tells its ports apart, and the parent of a port is the
component type whose children made it one (`Accepted.portOfNode_injOn`).
-/

namespace Rendezvous

open Architecture Glue

namespace Glue

/-! ## What a glue says about a node -/

/-- An end of a connector, as the glue sees it, is connected to a node. -/
def Connects (s : Store) (a : Architecture) (c : Path) (e : GlueEnd) (r : Path) : Prop :=
  ∃ n ∈ a.ends c, a.annotations.portOf? n = some r ∧ end? s a n = some e

/-- An end that is connected to a node accepts a port. -/
def AcceptsAt (s : Store) (a : Architecture) (r : Path) (q : Port) : Prop :=
  ∃ c ∈ a.connectors, ∃ e others, Connects s a c e r ∧
    StandsAmong (endsOf s a c) e others ∧ q ∈ accepted e others

/-- An end that is connected to a node has an option of what it requires. -/
def RequiresAt (s : Store) (a : Architecture) (r : Path) (option : List Port) : Prop :=
  ∃ c ∈ a.connectors, ∃ e others, Connects s a c e r ∧
    StandsAmong (endsOf s a c) e others ∧ option ∈ options e (triggersOf (endsOf s a c)) others

section
variable {s : Store} {a : Architecture} {c r : Path} {e : GlueEnd} {p : Port}

theorem Connects.port_eq (h : Connects s a c e r) : e.port = portOfNode s r := by
  obtain ⟨n, -, hport, hend⟩ := h
  rw [end?, hport, Option.map_some] at hend
  rw [← Option.some.inj hend]

theorem exists_connects (h : e ∈ endsOf s a c) : ∃ r, Connects s a c e r := by
  obtain ⟨n, hn, hend⟩ := List.mem_filterMap.1 h
  obtain ⟨r, hport, -⟩ := Option.map_eq_some_iff.1 hend
  exact ⟨r, n, hn, hport, hend⟩

/-- What a key of the glue stands for is what the ends at the nodes with its names bring. -/
theorem exists_end_iff_exists_node {Q : Path → GlueEnd → List GlueEnd → Prop} :
    (∃ c ∈ a.connectors, ∃ e others, StandsAmong (endsOf s a c) e others ∧ e.port = p ∧
      Q c e others) ↔
    ∃ r, portOfNode s r = p ∧ ∃ c ∈ a.connectors, ∃ e others, Connects s a c e r ∧
      StandsAmong (endsOf s a c) e others ∧ Q c e others := by
  constructor
  · rintro ⟨c, hc, e, others, hstands, rfl, hq⟩
    obtain ⟨r, hr⟩ := exists_connects hstands.mem
    exact ⟨r, hr.port_eq.symm, c, hc, e, others, hr, hstands, hq⟩
  · rintro ⟨r, rfl, c, hc, e, others, hr, hstands, hq⟩
    exact ⟨c, hc, e, others, hstands, hr.port_eq, hq⟩

theorem mem_accepts_iff_exists_node {q : Port} :
    q ∈ (ofArchitecture s a).accepts p ↔ ∃ r, portOfNode s r = p ∧ AcceptsAt s a r q :=
  mem_accepts_ofArchitecture_iff.trans exists_end_iff_exists_node

theorem mem_requires_iff_exists_node {option : List Port} :
    option ∈ (ofArchitecture s a).requires p ↔
      ∃ r, portOfNode s r = p ∧ RequiresAt s a r option :=
  mem_requires_ofArchitecture_iff.trans exists_end_iff_exists_node

theorem isPort_of_mem_enforceablePorts {t q : Path} (h : q ∈ enforceablePorts s t) :
    s.isPort q = true := by
  rw [Store.isPort, metaType?_of_mem_enforceablePorts h]
  rfl

end

end Glue

/-! ## Ports of accepted models -/

namespace Accepted

variable {s : Store} {config : Config} {m : CheckedModel} (h : Accepted s config m)
include h

theorem mem_ports_iff {p : Path} : p ∈ m.architecture.ports ↔
    ∃ t, s.instanceType? t = some .componentType ∧ p ∈ enforceablePorts s t := by
  have hports : m.architecture.ports = (build s config).ports := by
    rw [h.architecture_eq]
    exact ports_resolveMotifs s (build s config) (.empty .architecture)
  rw [hports, mem_ports_build]

/-- **Ports with the same two names are the same port.** -/
theorem portOfNode_injOn {p q : Path} (hp : p ∈ m.architecture.ports)
    (hq : q ∈ m.architecture.ports) (heq : portOfNode s p = portOfNode s q) : p = q := by
  obtain ⟨t, ht, hp⟩ := h.mem_ports_iff.1 hp
  obtain ⟨u, hu, hq⟩ := h.mem_ports_iff.1 hq
  have hpt : p ∈ s.children t := (List.mem_filter.1 hp).1
  have hqu : q ∈ s.children u := (List.mem_filter.1 hq).1
  rw [portOfNode_of_mem_children hpt, portOfNode_of_mem_children hqu, Port.mk.injEq] at heq
  obtain ⟨htypes, hname⟩ := heq
  have ht : t ∈ s.componentTypes := Store.mem_componentTypes.2 ht
  have hu : u ∈ s.componentTypes := Store.mem_componentTypes.2 hu
  obtain rfl : t = u := List.inj_on_of_nodup_map h.names_nodup ht hu htypes
  exact Behavior.port_eq_of_nameOf_eq (h.checkMachine_eq ht) hpt hqu
    (isPort_of_mem_enforceablePorts hp) (isPort_of_mem_enforceablePorts hq) hname

end Accepted

namespace Glue

/-- A node that the glue does not tell from a port `p`, and that is no other port. -/
def StandsFor (s : Store) (a : Architecture) (r p : Path) : Prop :=
  portOfNode s r = portOfNode s p ∧ (r ∈ a.ports → r = p)

/-- **Ports are never confused.**  Two ports of a model that passes the checks have different names
in the glue.  What the glue says about a port is therefore brought by ends that are connected to it,
or to a node with its names that is no port, and by no end that is connected to another port. -/
theorem check_tells_ports_apart {s : Store} {config : Config} {m : CheckedModel}
    (h : config.check s = .ok m) :
    let a := m.architecture
    (∀ p ∈ a.ports, ∀ q ∈ a.ports, p ≠ q → portOfNode s p ≠ portOfNode s q) ∧
    ∀ p ∈ a.ports,
      (∀ q, q ∈ (ofArchitecture s a).accepts (portOfNode s p) ↔
        ∃ r, StandsFor s a r p ∧ AcceptsAt s a r q) ∧
      (∀ option, option ∈ (ofArchitecture s a).requires (portOfNode s p) ↔
        ∃ r, StandsFor s a r p ∧ RequiresAt s a r option) := by
  intro a
  have hacc : Accepted s config m := check_eq_ok_iff.1 h
  have hstands : ∀ p ∈ a.ports, ∀ r, StandsFor s a r p ↔ portOfNode s r = portOfNode s p :=
    fun p hp r => and_iff_left_of_imp fun heq hr => hacc.portOfNode_injOn hr hp heq
  refine ⟨fun p hp q hq hne heq => hne (hacc.portOfNode_injOn hp hq heq), fun p hp => ⟨?_, ?_⟩⟩
  · intro q
    simp only [hstands p hp]
    exact mem_accepts_iff_exists_node
  · intro option
    simp only [hstands p hp]
    exact mem_requires_iff_exists_node

/-- An enforceable transition that begins and ends in a state. -/
def loopOf (parent state : Path) (name : String) : Node :=
  ⟨.enforceableTransition, false, some parent,
    .ofList [(Attribute.name, name), (Attribute.transitionMethod, "void p() \x7b\x7d")],
    .ofList [(Pointer.source, state), (Pointer.destination, state)]⟩

/-- Two component types whose ports have the same name, with a connector between these. -/
def samePortNames : Store :=
  Store.empty.addMany [
    ("/a", ⟨.componentType, false, none,
      .ofList [(Attribute.name, "A"), (Attribute.cardinality, "1")], .empty⟩),
    ("/a/s", ⟨.initialState, false, some "/a", .ofList [(Attribute.name, "s")], .empty⟩),
    ("/a/p", loopOf "/a" "/a/s" "p"),
    ("/b", ⟨.componentType, false, none,
      .ofList [(Attribute.name, "B"), (Attribute.cardinality, "1")], .empty⟩),
    ("/b/s", ⟨.initialState, false, some "/b", .ofList [(Attribute.name, "s")], .empty⟩),
    ("/b/p", loopOf "/b" "/b/s" "p"),
    ("/e", singleEnd), ("/f", singleEnd),
    ("/k", bareNode .connection [(Pointer.source, "/e"), (Pointer.destination, "/a/p")]),
    ("/l", bareNode .connection [(Pointer.source, "/f"), (Pointer.destination, "/b/p")]),
    ("/c", bareNode .connector [(Pointer.source, "/e"), (Pointer.destination, "/f")])]

/-- The ports keep their own effects: that of `/a/p` comes from an end at `/a/p`. -/
theorem check_tells_ports_apart_samePortNames :
    ∃ m, Config.empty.check samePortNames = .ok m ∧
      "/a/p" ∈ m.architecture.ports ∧ "/b/p" ∈ m.architecture.ports ∧
      portOfNode samePortNames "/a/p" ≠ portOfNode samePortNames "/b/p" ∧
      ∃ r, StandsFor samePortNames m.architecture r "/a/p" ∧
        AcceptsAt samePortNames m.architecture r ⟨"B", "p"⟩ := by
  have hcheck : Config.empty.check samePortNames =
      .ok ⟨((build samePortNames .empty).checkConsistency samePortNames .empty).1, ["/a", "/b"]⟩ := by
    decide
  obtain ⟨hnames, heffects⟩ := check_tells_ports_apart hcheck
  refine ⟨_, hcheck, by decide, by decide, ?_, ?_⟩
  · exact hnames "/a/p" (by decide) "/b/p" (by decide) (by decide)
  · exact ((heffects "/a/p" (by decide)).1 ⟨"B", "p"⟩).1 (by decide)

end Glue

end Rendezvous
