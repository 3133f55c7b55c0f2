import Mathlib.Data.List.Nodup
import Rendezvous.Proofs.Architecture.Motifs

/-!
# Which ends belong to one connector

Binary connectors list the targets of their pointers without looking at each other, so two of them
can list one end, which then names only the later one as its connector.  Sub-connectors never
share: they attach an end only where no connector has it.  After resolving motifs a node therefore
belongs to one connector, in both directions, exactly when no two binary connectors point at it
(`ownedOnce_resolveMotifs_iff`).
-/

namespace Rendezvous.Architecture

/-! ## Binary connectors -/

/-- A connector that takes part in the architecture and extends no other connector. -/
def IsBinary (s : Store) (c : Path) : Prop :=
  s.instanceType? c = some .connector ∧ isSubConnector s c = false

theorem connectors_addConnector (s : Store) (a : Architecture) (p : Path) :
    (addConnector s a p).connectors =
      if isSubConnector s p then a.connectors else a.connectors ++ [p] := by
  unfold addConnector
  split <;> rfl

/-- Building lists the connectors that are not sub-connectors. -/
theorem connectors_build (s : Store) (config : Config) :
    (build s config).connectors =
      (s.instancesWhere (· == .connector)).foldl
        (fun cs p => if isSubConnector s p then cs else cs ++ [p]) [] := by
  refine view_build .connector Architecture.connectors fun a p => ?_
  rw [addNode_eq]
  split
  · next h => simp [h, addComponentType]
  · next h => rw [if_pos h, connectors_addConnector]
  · next h =>
    rw [if_neg (by simp [h]), addConnection]
    split <;> rfl
  · next h _ => rw [if_neg h]

theorem mem_connectors_build {s : Store} {config : Config} {c : Path} :
    c ∈ (build s config).connectors ↔ IsBinary s c := by
  have hstep : ∀ (cs : List Path) (p : Path),
      c ∈ (if isSubConnector s p then cs else cs ++ [p]) ↔
        c ∈ cs ∨ (c = p ∧ isSubConnector s p = false) := by
    intro cs p
    split
    · next hsub => simp [hsub]
    · next hsub => simp [hsub]
  rw [connectors_build, foldl_iff_or_exists (P := (c ∈ ·)) hstep, IsBinary]
  simp [Store.mem_instancesWhere]

/-! ## Ends of one connector -/

/-- A node is an end of one connector at most, and that is the connector it names. -/
structure OwnedOnce (a : Architecture) (e : Path) : Prop where
  unique : ∀ c c', c ∈ a.connectors → c' ∈ a.connectors → e ∈ a.ends c → e ∈ a.ends c' → c = c'
  connectorOf?_iff : ∀ c, c ∈ a.connectors → (a.connectorOf? e = some c ↔ e ∈ a.ends c)

section
variable {s : Store} {done : List Path} {start now : Architecture} {log : List (Path × Path)}
  {e c c' : Path}

/-- An end is attached to one connector only. -/
theorem Growth.log_unique (h : Growth s done start now log) (hc : (c, e) ∈ log)
    (hc' : (c', e) ∈ log) : c = c' :=
  congrArg Prod.fst (List.inj_on_of_nodup_map h.once hc hc' rfl)

/-- Growing lists share an end only where they shared it at the start. -/
theorem Growth.ends_unique (h : Growth s done start now log)
    (hstart : e ∈ start.ends c → e ∈ start.ends c' → c = c') (hc : e ∈ now.ends c)
    (hc' : e ∈ now.ends c') : c = c' := by
  rcases h.mem_ends_iff.1 hc with hc | hc <;> rcases h.mem_ends_iff.1 hc' with hc' | hc'
  · exact hstart hc hc'
  · exact absurd hc (h.fresh c' e hc' c)
  · exact absurd hc' (h.fresh c e hc c')
  · exact h.log_unique hc hc'

end

/-- **A node belongs to one connector exactly when no two binary connectors point at it.**  Then
no two lists of ends hold it, and the connector it names is the one that lists it. -/
theorem ownedOnce_resolveMotifs_iff (s : Store) (config : Config) (report : Report) (e : Path) :
    OwnedOnce (resolveMotifs s (build s config) report).1 e ↔
      ∀ c c', IsBinary s c → IsBinary s c' → e ∈ connectorTargets s c →
        e ∈ connectorTargets s c' → c = c' := by
  have hresolved := resolving_resolveMotifs s config report
  obtain ⟨log, hgrowth⟩ := hresolved.growth
  have hwired : ∀ {c}, e ∈ (build s config).ends c ↔ IsBinary s c ∧ e ∈ connectorTargets s c := by
    intro c
    rw [(wired_build s config).mem_ends_iff, mem_connectors_build]
  constructor
  · intro h c c' hc hc' he he'
    have hmem : ∀ {c}, IsBinary s c →
        c ∈ (resolveMotifs s (build s config) report).1.connectors := by
      intro c hc
      rw [hresolved.connectors_eq]
      exact mem_connectors_build.2 hc
    exact h.unique c c' (hmem hc) (hmem hc')
      (hgrowth.mem_ends_iff.2 (Or.inl (hwired.2 ⟨hc, he⟩)))
      (hgrowth.mem_ends_iff.2 (Or.inl (hwired.2 ⟨hc', he'⟩)))
  · intro h
    have hunique : ∀ c c', e ∈ (resolveMotifs s (build s config) report).1.ends c →
        e ∈ (resolveMotifs s (build s config) report).1.ends c' → c = c' := by
      intro c c'
      refine hgrowth.ends_unique fun he he' => ?_
      obtain ⟨hc, he⟩ := hwired.1 he
      obtain ⟨hc', he'⟩ := hwired.1 he'
      exact h c c' hc hc' he he'
    refine ⟨fun c c' _ _ => hunique c c', fun c _ => ?_⟩
    exact hresolved.owned.linked.connectorOf?_eq_some_iff fun c' he he' =>
      (hunique c c' he he').symm

/-! ## A shared end -/

/-- A node without attributes. -/
def bareNode (kind : MetaType) (ptrs : List (String × Path)) : Node :=
  ⟨kind, false, none, .empty, .ofList ptrs⟩

/-- A node with a name and one more attribute. -/
def namedNode (kind : MetaType) (parent : Option Path) (name key value : String) : Node :=
  ⟨kind, false, parent, .ofList [(Attribute.name, name), (key, value)], .empty⟩

/-- An end with a degree and a multiplicity. -/
def weightedEnd (kind : MetaType) (degree multiplicity : String) : Node :=
  ⟨kind, false, none,
    .ofList [(Attribute.degree, degree), (Attribute.multiplicity, multiplicity)], .empty⟩

/-- A component type `/a` called `A`, with one state and one port. -/
def onePortType : List (Path × Node) := [
  ("/a", namedNode .componentType none "A" Attribute.cardinality "1"),
  ("/a/s", ⟨.initialState, false, some "/a", .ofList [(Attribute.name, "s")], .empty⟩),
  ("/a/p", ⟨.enforceableTransition, false, some "/a",
    .ofList [(Attribute.name, "p"), (Attribute.transitionMethod, "void p() \x7b\x7d")],
    .ofList [(Pointer.source, "/a/s"), (Pointer.destination, "/a/s")]⟩)]

/-- Two binary connectors `/c` and `/d` that start at the same end. -/
def sharedEnd : Store :=
  Store.empty.addMany [
    ("/e", bareNode .synchron []), ("/f", bareNode .synchron []), ("/g", bareNode .synchron []),
    ("/c", bareNode .connector [(Pointer.source, "/e"), (Pointer.destination, "/f")]),
    ("/d", bareNode .connector [(Pointer.source, "/e"), (Pointer.destination, "/g")])]

/-- The shared end is in both lists. -/
theorem not_ownedOnce_sharedEnd :
    ¬ OwnedOnce (resolveMotifs sharedEnd (build sharedEnd .empty) (.empty .architecture)).1
      "/e" := by
  intro h
  have heq : "/c" = "/d" := h.unique "/c" "/d" (by decide) (by decide) (by decide) (by decide)
  exact absurd heq (by decide)

end Rendezvous.Architecture
