import Rendezvous.Proofs.Architecture.Ownership
import Rendezvous.Proofs.Architecture.Types

/-!
# Ports and cardinalities of connected ends

A connection gives its end a port while an architecture is built, and a cardinality when motifs are
resolved.  Building keeps the first port that it finds for an end (`portOf?_build`); resolving lets
every connection overwrite the cardinality (`cardinality?_resolveMotifs`), so that the last one stays
(`LastFrom.cardinality_eq`).  An end of several connections can therefore be checked with the
cardinality of one port and take part in the glue with another; `cardinality?_eq_port_iff` says when
the two agree.
-/

namespace Rendezvous

/-! ## Writes that keep ports -/

namespace Annotations

@[simp] theorem portOf?_setCardinality (a : Annotations) (p : Path) (value : Option UInt32) :
    (a.setCardinality p value).portOf? = a.portOf? :=
  funext fun q => view_modify Derived.port (by intro _; rfl) a p q

@[simp] theorem portOf?_touch (a : Annotations) (p : Path) : (a.touch p).portOf? = a.portOf? :=
  funext fun q => view_modify Derived.port (by intro _; rfl) a p q

@[simp] theorem portOf?_attach (a : Annotations) (connector e : Path) :
    (a.attach connector e).portOf? = a.portOf? := by
  funext p
  rw [portOf?, get_attach]
  split <;> rfl

end Annotations

namespace Architecture

/-! ## The port of an end -/

/-- What a connection leads to. -/
def connectionPort? (s : Store) (k : Path) : Option Path :=
  s.pointer? k Pointer.destination

/-- The port of an end: what the first connection from it leads to, of those that lead anywhere. -/
def connectedPort? (s : Store) (ks : List Path) (e : Path) : Option Path :=
  ks.findSome? fun k => if connectionEnd? s k = some e then connectionPort? s k else none

theorem connectedPort?_concat (s : Store) (ks : List Path) (k e : Path) :
    connectedPort? s (ks ++ [k]) e =
      if connectionEnd? s k = some e then (connectedPort? s ks e).or (connectionPort? s k)
      else connectedPort? s ks e := by
  rw [connectedPort?, List.findSome?_append, ← connectedPort?]
  split
  · next h => simp [h]
  · next h => simp [h]

/-- A port comes from a connection. -/
theorem exists_connection_of_connectedPort? {s : Store} {ks : List Path} {e p : Path}
    (h : connectedPort? s ks e = some p) :
    ∃ k ∈ ks, connectionEnd? s k = some e ∧ connectionPort? s k = some p := by
  obtain ⟨before, k, after, rfl, hk, -⟩ := List.findSome?_eq_some_iff.1 h
  split at hk
  · next hend => exact ⟨k, by simp, hend, hk⟩
  · cases hk

section
variable (s : Store) (config : Config) (a : Architecture) (node : Path)

theorem portOf?_addComponentType :
    (addComponentType s config a node).annotations.portOf? = a.annotations.portOf? := by
  simp only [addComponentType]
  rw [view_foldl Annotations.portOf?
    fun t p => Annotations.portOf?_setCardinality t p _]
  exact funext fun q => Annotations.view_modify Derived.port (by intro _; rfl) _ node q

theorem portOf?_addConnector :
    (addConnector s a node).annotations.portOf? = a.annotations.portOf? := by
  unfold addConnector
  split
  · rfl
  · simp only [Annotations.portOf?_touch]
    rw [view_foldl Annotations.portOf? fun t e => Annotations.portOf?_attach t node e]

theorem portOf?_annotateEnd (e p : Path) (port : Option Path) (t : Annotations) :
    (annotateEnd s e port t).portOf? p = if e = p then (t.portOf? p).or port else t.portOf? p := by
  rw [annotateEnd, Annotations.portOf?, Annotations.get_modify]
  split
  · next h =>
    subst h
    dsimp only
    rw [← Annotations.portOf?]
    cases t.portOf? e <;> rfl
  · rfl

theorem connections_addConnector : (addConnector s a node).connections = a.connections := by
  unfold addConnector
  split <;> rfl

theorem connections_addConnection :
    (addConnection s a node).connections = a.connections ++ [node] := by
  unfold addConnection
  split <;> rfl

theorem portOf?_addConnection (e : Path) :
    (addConnection s a node).annotations.portOf? e =
      if connectionEnd? s node = some e then
        (a.annotations.portOf? e).or (connectionPort? s node)
      else a.annotations.portOf? e := by
  unfold addConnection
  split
  · next h => simp [h]
  · next e' h =>
    simp only [portOf?_annotateEnd, h, Option.some.injEq]
    rfl

end

/-- **Building records the first port of every end.** -/
theorem portOf?_build (s : Store) (config : Config) :
    (build s config).annotations.portOf? = connectedPort? s (build s config).connections := by
  refine build_induction (P := fun a => a.annotations.portOf? = connectedPort? s a.connections)
    rfl ?_ ?_ ?_
  · intro a p _ h
    rw [portOf?_addComponentType, h]
    rfl
  · intro a p _ h
    rw [portOf?_addConnector, connections_addConnector, h]
  · intro a p _ h
    funext e
    rw [portOf?_addConnection, connections_addConnection, connectedPort?_concat, h]

/-! ## The cardinality of an end -/

/-- A connection gives its end the cardinality of what it leads to. -/
def takeCardinality (s : Store) (f : Path → Option UInt32) (k : Path) : Path → Option UInt32 :=
  fun e => if connectionEnd? s k = some e then (connectionPort? s k).bind f else f e

theorem cardinality?_deriveCardinality (s : Store) (t : Annotations) (k : Path) :
    (deriveCardinality s t k).cardinality? = takeCardinality s t.cardinality? k := by
  funext e
  unfold deriveCardinality takeCardinality
  split
  · next h => simp [h]
  · next e' h =>
    simp only [Annotations.cardinality?_setCardinality, h, Option.some.injEq, connectionPort?]

theorem cardinality?_attachSubConnector (s : Store) (r : Architecture × Report) (sub : Path) :
    (attachSubConnector s r sub).1.cardinality? = r.1.cardinality? := by
  obtain ⟨t, hfst, rfl | ⟨c, e, -, -, -, rfl⟩⟩ := attachSubConnector_fst s r sub
  · rw [hfst]
  · rw [hfst]
    exact Annotations.cardinality?_attach _ c e

theorem portOf?_attachSubConnector (s : Store) (r : Architecture × Report) (sub : Path) :
    (attachSubConnector s r sub).1.annotations.portOf? = r.1.annotations.portOf? := by
  obtain ⟨t, hfst, rfl | ⟨c, e, -, -, -, rfl⟩⟩ := attachSubConnector_fst s r sub
  · rw [hfst]
  · rw [hfst, Annotations.portOf?_attach]

/-- What attaching keeps is what deriving cardinalities left. -/
theorem view_resolveMotifs {s : Store} {α : Type} (view : Architecture → α)
    (hview : ∀ r sub, view (attachSubConnector s r sub).1 = view r.1) (a : Architecture)
    (report : Report) : view (resolveMotifs s a report).1 = view (deriveCardinalities s a) :=
  view_foldl (fun r => view r.1) hview a.subConnectors (deriveCardinalities s a, report)

section
variable (s : Store) (a : Architecture) (report : Report)

/-- **Resolving lets every connection overwrite the cardinality of its end.** -/
theorem cardinality?_resolveMotifs :
    (resolveMotifs s a report).1.cardinality? =
      a.connections.foldl (takeCardinality s) a.cardinality? := by
  rw [view_resolveMotifs Architecture.cardinality? (cardinality?_attachSubConnector s)]
  exact (List.foldl_hom Annotations.cardinality? fun t k =>
    (cardinality?_deriveCardinality s t k).symm).symm

/-- Resolving keeps the ports. -/
theorem portOf?_resolveMotifs :
    (resolveMotifs s a report).1.annotations.portOf? = a.annotations.portOf? := by
  rw [view_resolveMotifs (fun b => b.annotations.portOf?) (portOf?_attachSubConnector s)]
  refine view_foldl Annotations.portOf? (fun t k => ?_) _ _
  unfold deriveCardinality
  split
  · rfl
  · exact Annotations.portOf?_setCardinality t _ _

end

/-- `last` is the last of the connections `ks` that starts at `e`. -/
structure LastFrom (s : Store) (ks : List Path) (e : Path) (before : List Path) (last : Path)
    (after : List Path) : Prop where
  split : ks = before ++ last :: after
  starts : connectionEnd? s last = some e
  others : ∀ k ∈ after, connectionEnd? s k ≠ some e

/-- What an end is connected to is not the end of a connection itself. -/
def LeadsToPorts (s : Store) (ks : List Path) (e : Path) : Prop :=
  ∀ k ∈ ks, connectionEnd? s k = some e → ∀ q ∈ connectionPort? s k,
    ∀ k' ∈ ks, connectionEnd? s k' ≠ some q

section
variable {s : Store} {ks before after : List Path} {e last : Path}

theorem exists_lastFrom (h : ∃ k ∈ ks, connectionEnd? s k = some e) :
    ∃ before last after, LastFrom s ks e before last after := by
  induction ks with
  | nil =>
    obtain ⟨k, hk, -⟩ := h
    exact absurd hk List.not_mem_nil
  | cons k ks ih =>
    by_cases hks : ∃ k ∈ ks, connectionEnd? s k = some e
    · obtain ⟨before, last, after, hlast⟩ := ih hks
      exact ⟨k :: before, last, after, by rw [hlast.split, List.cons_append], hlast.starts,
        hlast.others⟩
    · have hothers : ∀ k' ∈ ks, connectionEnd? s k' ≠ some e :=
        fun k' hk' hend => hks ⟨k', hk', hend⟩
      obtain ⟨k', hk', hend⟩ := h
      rcases List.mem_cons.1 hk' with rfl | hk'
      · exact ⟨[], k', ks, rfl, hend, hothers⟩
      · exact absurd hend (hothers k' hk')

/-- Connections from other nodes leave the cardinality of a node alone. -/
theorem foldl_takeCardinality_of_none (h : ∀ k ∈ ks, connectionEnd? s k ≠ some e)
    (f : Path → Option UInt32) : ks.foldl (takeCardinality s) f e = f e := by
  induction ks generalizing f with
  | nil => rfl
  | cons k ks ih =>
    obtain ⟨hk, hks⟩ := List.forall_mem_cons.1 h
    rw [List.foldl_cons, ih hks, takeCardinality, if_neg hk]

/-- **The last connection of an end decides its cardinality**, by what its target had before. -/
theorem LastFrom.cardinality_eq (h : LastFrom s ks e before last after)
    (f : Path → Option UInt32) :
    ks.foldl (takeCardinality s) f e =
      (connectionPort? s last).bind (before.foldl (takeCardinality s) f) := by
  rw [h.split, List.foldl_append, List.foldl_cons, foldl_takeCardinality_of_none h.others,
    takeCardinality, if_pos h.starts]

/-- In front of ports, the order of connections does not matter for what is taken from them. -/
theorem LastFrom.cardinality_eq_of_ports (h : LastFrom s ks e before last after)
    (hports : LeadsToPorts s ks e) (f : Path → Option UInt32) :
    ks.foldl (takeCardinality s) f e = (connectionPort? s last).bind f := by
  rw [h.cardinality_eq]
  cases hlast : connectionPort? s last with
  | none => rfl
  | some q =>
    have hmem : last ∈ ks := by rw [h.split]; simp
    refine foldl_takeCardinality_of_none (fun k hk => ?_) f
    refine hports last hmem h.starts q hlast k ?_
    rw [h.split]
    exact List.mem_append_left _ hk

end

/-! ## Where the two agree -/

/-- **When an end has the cardinality of its port.**  The port is what the first connection of the
end leads to, so the end has its cardinality exactly when the target of the last connection had the
same, at the time when that connection was read.  For an end that leads to ports this is the
cardinality that the target was built with. -/
theorem cardinality?_eq_port_iff {s : Store} {config : Config} {report : Report} {e p : Path}
    (hport : (resolveMotifs s (build s config) report).1.annotations.portOf? e = some p) :
    let a := build s config
    let r := (resolveMotifs s a report).1
    ∃ before last after, LastFrom s a.connections e before last after ∧
      (r.cardinality? e = r.cardinality? p ↔
        (connectionPort? s last).bind (before.foldl (takeCardinality s) a.cardinality?) =
          r.cardinality? p) ∧
      (LeadsToPorts s a.connections e → (r.cardinality? e = r.cardinality? p ↔
        (connectionPort? s last).bind a.cardinality? = a.cardinality? p)) := by
  intro a r
  have hconnected : connectedPort? s a.connections e = some p := by
    rw [← portOf?_build, ← portOf?_resolveMotifs s a report]
    exact hport
  obtain ⟨k, hk, hend, hp⟩ := exists_connection_of_connectedPort? hconnected
  obtain ⟨before, last, after, hlast⟩ := exists_lastFrom ⟨k, hk, hend⟩
  refine ⟨before, last, after, hlast, ?_, fun hports => ?_⟩
  · rw [cardinality?_resolveMotifs, hlast.cardinality_eq]
  · rw [cardinality?_resolveMotifs, hlast.cardinality_eq_of_ports hports,
      foldl_takeCardinality_of_none (hports k hk hend p hp)]

/-! ## An end of two connections -/

/-- A component type with a cardinality. -/
def countedType (cardinality : String) : Node :=
  ⟨.componentType, false, none, .ofList [(Attribute.cardinality, cardinality)], .empty⟩

/-- A port of a component type. -/
def portNode (type : Path) : Node :=
  ⟨.enforceableTransition, false, some type, .empty, .empty⟩

/-- An end `/e` with connections to a port of two instances and to a port of three. -/
def twoPorts : Store :=
  Store.empty.addMany [
    ("/a", countedType "2"), ("/a/p", portNode "/a"),
    ("/b", countedType "3"), ("/b/q", portNode "/b"),
    ("/e", bareNode .synchron []), ("/f", bareNode .synchron []),
    ("/k", bareNode .connection [(Pointer.source, "/e"), (Pointer.destination, "/a/p")]),
    ("/l", bareNode .connection [(Pointer.source, "/e"), (Pointer.destination, "/b/q")]),
    ("/c", bareNode .connector [(Pointer.source, "/e"), (Pointer.destination, "/f")])]

theorem cardinality?_eq_port_iff_twoPorts :
    let a := build twoPorts .empty
    let r := (resolveMotifs twoPorts a (.empty .architecture)).1
    r.annotations.portOf? "/e" = some "/a/p" ∧ LeadsToPorts twoPorts a.connections "/e" ∧
      ∃ before last after, LastFrom twoPorts a.connections "/e" before last after ∧
        (r.cardinality? "/e" = r.cardinality? "/a/p" ↔
          (connectionPort? twoPorts last).bind a.cardinality? = a.cardinality? "/a/p") := by
  intro a r
  have hport : r.annotations.portOf? "/e" = some "/a/p" := by decide
  have hports : LeadsToPorts twoPorts a.connections "/e" := by
    unfold LeadsToPorts
    decide
  obtain ⟨before, last, after, hlast, -, hiff⟩ := cardinality?_eq_port_iff hport
  exact ⟨hport, hports, before, last, after, hlast, hiff hports⟩

/-- The end has three instances, and its port two. -/
theorem not_cardinality?_eq_port_twoPorts :
    ¬ ∀ e ∈ (resolveMotifs twoPorts (build twoPorts .empty) (.empty .architecture)).1.connectorEnds,
      ∀ p, (resolveMotifs twoPorts (build twoPorts .empty)
          (.empty .architecture)).1.annotations.portOf? e = some p →
        (resolveMotifs twoPorts (build twoPorts .empty) (.empty .architecture)).1.cardinality? e =
          (resolveMotifs twoPorts (build twoPorts .empty)
            (.empty .architecture)).1.cardinality? p := by
  intro h
  have heq := h "/e" (by decide) "/a/p" (by decide)
  exact absurd heq (by decide)

end Architecture

end Rendezvous
