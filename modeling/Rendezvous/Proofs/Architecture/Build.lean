import Rendezvous.Proofs.Architecture.Links
import Rendezvous.Proofs.Store.Instances

/-!
# What building an architecture establishes

Building reads every node once, in load order.  A fact about the result is proved as an invariant
of the three ways in which a node can join an architecture (`build_induction`), or, where only
component types matter, as a fold over the component types (`typeView_build`).  The ends of a
binary connector are the targets of its two pointers and nothing else, in a table that is linked
(`wired_build`), and the texts recorded for an end are those of the store (`faithful_build`).
-/

namespace Rendezvous

namespace Architecture

/-! ## Induction over the nodes read -/

section
variable {s : Store} {config : Config}

theorem addNode_eq (a : Architecture) (p : Path) :
    addNode s config a p =
      match s.instanceType? p with
      | some .componentType => addComponentType s config a p
      | some .connector => addConnector s a p
      | some .connection => addConnection s a p
      | _ => a := by
  unfold addNode Store.instanceType?
  split <;> rfl

/-- A property that each way of joining an architecture keeps holds of what is built. -/
theorem build_induction {P : Architecture → Prop} (hempty : P empty)
    (htype : ∀ a p, s.instanceType? p = some .componentType → P a →
      P (addComponentType s config a p))
    (hconnector : ∀ a p, s.instanceType? p = some .connector → P a → P (addConnector s a p))
    (hconnection : ∀ a p, s.instanceType? p = some .connection → P a → P (addConnection s a p)) :
    P (build s config) := by
  refine List.foldlRecOn s.paths _ hempty fun a ha p _ => ?_
  rw [addNode_eq]
  split
  · next h => exact htype a p h ha
  · next h => exact hconnector a p h ha
  · next h => exact hconnection a p h ha
  · exact ha

/-- The instances of one kind, as a test on nodes. -/
theorem isInstanceOf_iff {m : MetaType} {p : Path} :
    (s.isInstance p && ((s.metaType? p).map (· == m)).getD false) = true ↔
      s.instanceType? p = some m := by
  rw [Store.instanceType?_eq_some_iff, Bool.and_eq_true]
  cases s.metaType? p <;> simp

/-- What only nodes of one kind change is folded over the nodes of that kind. -/
theorem view_build {α : Type} (m : MetaType) (view : Architecture → α) {step : α → Path → α}
    (hview : ∀ a p, view (addNode s config a p) =
      if s.instanceType? p = some m then step (view a) p else view a) :
    view (build s config) = (s.instancesWhere (· == m)).foldl step (view empty) := by
  unfold build Store.instancesWhere
  rw [List.foldl_filter]
  refine (List.foldl_hom view fun a p => ?_).symm
  simp only [isInstanceOf_iff]
  exact (hview a p).symm

/-- What only component types change is folded over the component types. -/
theorem typeView_build {α : Type} (view : Architecture → α) {step : α → Path → α}
    (htype : ∀ a p, view (addComponentType s config a p) = step (view a) p)
    (hconnector : ∀ a p, view (addConnector s a p) = view a)
    (hconnection : ∀ a p, view (addConnection s a p) = view a) :
    view (build s config) =
      (s.instancesWhere (· == .componentType)).foldl step (view empty) := by
  refine view_build .componentType view fun a p => ?_
  rw [addNode_eq]
  split
  · next h => rw [if_pos h, htype]
  · next h => rw [if_neg (by simp [h]), hconnector]
  · next h => rw [if_neg (by simp [h]), hconnection]
  · next h _ _ => rw [if_neg h]

end

/-! ## What each way of joining writes -/

section
variable (s : Store) (config : Config) (a : Architecture) (node : Path)

theorem links_addComponentType :
    (addComponentType s config a node).annotations.links = a.annotations.links := by
  simp only [addComponentType]
  rw [view_foldl Annotations.links
    fun t p => Annotations.links_setCardinality t p _, links_annotateType]

theorem texts_addComponentType :
    (addComponentType s config a node).annotations.texts = a.annotations.texts := by
  simp only [addComponentType]
  rw [view_foldl Annotations.texts
    fun t p => Annotations.texts_setCardinality t p _, texts_annotateType]

theorem cardinality?_addComponentType (q : Path) :
    (addComponentType s config a node).cardinality? q =
      if q = node ∨ q ∈ enforceablePorts s node then
        (Cardinality.read (s.attributeText node Attribute.cardinality)).resolve config
      else a.cardinality? q := by
  simp only [addComponentType, cardinality?]
  rw [Annotations.cardinality?_setAll, cardinality?_annotateType]
  by_cases hp : q ∈ enforceablePorts s node
  · simp [hp]
  · simp [hp, eq_comm]

theorem cardinality?_addConnector : (addConnector s a node).cardinality? = a.cardinality? := by
  unfold addConnector cardinality?
  split
  · rfl
  · simp only [Annotations.cardinality?_touch]
    rw [view_foldl Annotations.cardinality?
      fun t e => Annotations.cardinality?_attach t node e]

theorem texts_addConnector :
    (addConnector s a node).annotations.texts = a.annotations.texts := by
  unfold addConnector
  split
  · rfl
  · simp only [Annotations.texts_touch]
    rw [view_foldl Annotations.texts fun t e => Annotations.texts_attach t node e]

theorem links_addConnection :
    (addConnection s a node).annotations.links = a.annotations.links := by
  unfold addConnection
  split
  · rfl
  · exact links_annotateEnd s _ _ _

theorem cardinality?_addConnection : (addConnection s a node).cardinality? = a.cardinality? := by
  unfold addConnection cardinality?
  split
  · rfl
  · exact cardinality?_annotateEnd s _ _ _

end

/-! ## Links -/

section
variable {s : Store} {config : Config} {a : Architecture} {node : Path}

theorem linked_addConnector (h : a.annotations.Linked) :
    (addConnector s a node).annotations.Linked := by
  unfold addConnector
  split
  · exact h
  · exact Annotations.linked_of_links (Annotations.links_touch _ _)
      (Annotations.linked_attachAll h node _)

/-- Adding a binary connector lists its targets, in its own list only. -/
theorem mem_ends_addConnector (hbinary : isSubConnector s node = false) {c e : Path} :
    e ∈ (addConnector s a node).ends c ↔
      e ∈ a.ends c ∨ (node = c ∧ e ∈ connectorTargets s node) := by
  unfold addConnector ends
  rw [if_neg (by simp [hbinary])]
  simp only
  rw [Annotations.ends_eq_of_links (Annotations.links_touch _ _), Annotations.mem_ends_attachAll]

/-- The table of an architecture under construction: linked, with the targets of each binary
connector as its ends. -/
structure Wired (s : Store) (a : Architecture) : Prop where
  linked : a.annotations.Linked
  mem_ends_iff : ∀ {c e : Path}, e ∈ a.ends c ↔ c ∈ a.connectors ∧ e ∈ connectorTargets s c

theorem wired_empty : Wired s empty where
  linked := Annotations.linked_empty
  mem_ends_iff := ⟨fun h => (List.not_mem_nil h).elim, fun h => (List.not_mem_nil h.1).elim⟩

/-- Joining without a new connector and without new links. -/
theorem wired_of_links {b : Architecture} (h : Wired s a)
    (hlinks : b.annotations.links = a.annotations.links)
    (hconnectors : b.connectors = a.connectors) :
    Wired s b where
  linked := Annotations.linked_of_links hlinks h.linked
  mem_ends_iff {c e} := by
    rw [ends, Annotations.ends_eq_of_links hlinks, hconnectors]
    exact h.mem_ends_iff

theorem wired_addConnector (h : Wired s a) : Wired s (addConnector s a node) := by
  by_cases hsub : isSubConnector s node = true
  · refine wired_of_links h ?_ ?_ <;> rw [addConnector, if_pos hsub]
  · have hbinary : isSubConnector s node = false := by simpa using hsub
    have hconnectors : (addConnector s a node).connectors = a.connectors ++ [node] := by
      rw [addConnector, if_neg hsub]
    refine ⟨linked_addConnector h.linked, fun {c e} => ?_⟩
    rw [mem_ends_addConnector hbinary, h.mem_ends_iff, hconnectors, List.mem_append,
      List.mem_singleton]
    constructor
    · rintro (⟨hc, he⟩ | ⟨rfl, he⟩)
      · exact ⟨Or.inl hc, he⟩
      · exact ⟨Or.inr rfl, he⟩
    · rintro ⟨hc | rfl, he⟩
      · exact Or.inl ⟨hc, he⟩
      · exact Or.inr ⟨rfl, he⟩

theorem wired_build (s : Store) (config : Config) : Wired s (build s config) := by
  refine build_induction wired_empty ?_ ?_ ?_
  · intro a p _ h
    exact wired_of_links h (links_addComponentType s config a p) rfl
  · intro a p _ h
    exact wired_addConnector h
  · intro a p _ h
    refine wired_of_links h (links_addConnection s a p) ?_
    unfold addConnection
    split <;> rfl

end

/-! ## Recorded texts -/

/-- Where the texts of an end are recorded, they are those of the store. -/
def Faithful (s : Store) (t : Annotations) : Prop :=
  ∀ e, t.texts e = (none, none) ∨ t.texts e =
    (some (s.attributeText e Attribute.degree), some (s.attributeText e Attribute.multiplicity))

theorem faithful_of_texts {s : Store} {t u : Annotations} (h : Faithful s t)
    (htexts : u.texts = t.texts) : Faithful s u := by
  intro e
  rw [htexts]
  exact h e

theorem faithful_build (s : Store) (config : Config) :
    Faithful s (build s config).annotations := by
  refine build_induction (P := fun a => Faithful s a.annotations) (fun _ => Or.inl rfl) ?_ ?_ ?_
  · intro a p _ h
    exact faithful_of_texts h (texts_addComponentType s config a p)
  · intro a p _ h
    exact faithful_of_texts h (texts_addConnector s a p)
  · intro a p _ h
    unfold addConnection
    split
    · exact h
    · next e _ =>
      intro q
      simp only [texts_annotateEnd]
      split
      · next hq => exact Or.inr (by rw [hq])
      · exact h q

end Architecture

end Rendezvous
