import Rendezvous.Proofs.Table
import Rendezvous.Store.Basic

/-!
# Writing one attribute

A write changes the attribute that it names at the node that it names (`writes_of_setAttribute`).
All other attributes, and everything that is no attribute, read as before.
-/

namespace Rendezvous

/-- `s'` is `s` with one attribute of one node written. -/
structure Store.Writes (s s' : Store) (p : Path) (name value : String) : Prop where
  paths_eq : s'.paths = s.paths
  children_eq : s'.children = s.children
  parent?_eq : s'.parent? = s.parent?
  pointer?_eq : s'.pointer? = s.pointer?
  metaType?_eq : s'.metaType? = s.metaType?
  isMetaNode_eq : s'.isMetaNode = s.isMetaNode
  attributeAt?_eq : ∀ q key, s'.attributeAt? q key =
    if p = q ∧ name = key then some value else s.attributeAt? q key

/-- A write refuses a path that is not loaded, and changes nothing but the attributes of any other. -/
theorem Store.setAttribute_cases (s : Store) (p : Path) (name value : String) :
    (s.node? p = none ∧ s.setAttribute p name value = .error (.unknownNode p)) ∨
      ∃ n s', s.node? p = some n ∧ s.setAttribute p name value = .ok s' ∧ s'.nodes = s.nodes ∧
        s'.childIndex = s.childIndex := by
  have hcontains : s.contains p = (s.node? p).isSome := by
    rw [node?_eq, Option.isSome_map]
    rfl
  unfold setAttribute
  cases hn : s.node? p with
  | none =>
    have hunknown : ¬ s.contains p = true := by simp [hcontains, hn]
    exact Or.inl ⟨rfl, dif_neg hunknown⟩
  | some n =>
    have hloaded : s.contains p = true := by simp [hcontains, hn]
    exact Or.inr ⟨n, _, rfl, dif_pos hloaded, rfl, rfl⟩

theorem Store.writes_of_setAttribute {s s' : Store} {p : Path} {name value : String}
    (h : s.setAttribute p name value = .ok s') : s.Writes s' p name value := by
  obtain ⟨hnodes, hindex⟩ : s'.nodes = s.nodes ∧ s'.childIndex = s.childIndex := by
    obtain ⟨-, herror⟩ | ⟨n, t, hn, hok, hnodes, hindex⟩ := s.setAttribute_cases p name value
    · rw [herror] at h
      cases h
    · obtain rfl : t = s' := Except.ok.inj (hok.symm.trans h)
      exact ⟨hnodes, hindex⟩
  have hframe : s'.frame? = s.frame? := by
    funext q
    rw [frame?, hnodes, frame?]
  refine ⟨?_, ?_, ?_, ?_, ?_, ?_, ?_⟩
  · rw [paths, hnodes, paths]
  · funext q
    rw [children_eq, hnodes, children_eq]
  · funext q
    rw [parent?, hframe, parent?]
  · funext q key
    rw [pointer?, hframe, pointer?]
  · funext q
    rw [metaType?, hframe, metaType?]
  · funext q
    rw [isMetaNode, hframe, isMetaNode]
  · intro q key
    rw [attributeAt?_eq, node?_setAttribute h, attributeAt?_eq]
    by_cases hq : p = q
    · subst hq
      obtain ⟨-, herror⟩ | ⟨n, t, hn, -⟩ := s.setAttribute_cases p name value
      · cases herror.symm.trans h
      · simp [hn, withAttribute]
    · simp [hq]

end Rendezvous
