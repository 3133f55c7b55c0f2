import Rendezvous.Proofs.Accumulation
import Rendezvous.Proofs.Architecture.Ownership

/-!
# The first ends of binary connectors

A binary connector begins with what its pointers lead to, source first (`ends_build`), and
sub-connectors only append to that (`ends_resolveMotifs`).  A pointer that is not set gives no end,
and two pointers to one node give one; so a connector begins with two ends exactly when its pointers
lead to two different nodes (`connects_iff`).
-/

namespace Rendezvous

/-! ## Attaching ends in order -/

namespace Annotations

/-- Attaching an end appends it to the list of the connector, unless it is there. -/
theorem ends_attach_eq (a : Annotations) (connector e p : Path) :
    (a.attach connector e).ends p =
      if connector = p then insertNew (a.ends p) e else a.ends p := by
  rw [ends_attach]
  by_cases hp : connector = p
  · by_cases he : e ∈ a.ends p
    · simp [hp, he, insertNew_of_mem]
    · simp [hp, he, insertNew_of_not_mem]
  · simp [hp]

theorem ends_attachAll (connector p : Path) (es : List Path) (a : Annotations) :
    (es.foldl (fun t e => t.attach connector e) a).ends p =
      if connector = p then es.foldl insertNew (a.ends p) else a.ends p := by
  induction es generalizing a with
  | nil => simp
  | cons e es ih =>
    rw [List.foldl_cons, ih, ends_attach_eq, List.foldl_cons]
    split <;> rfl

end Annotations

namespace Architecture

/-! ## What the pointers give -/

/-- The ends that the pointers of a connector give it. -/
def pointedEnds (s : Store) (c : Path) : List Path :=
  (connectorTargets s c).foldl insertNew []

section
variable {s : Store} {config : Config} {a : Architecture} {c e f node : Path}

theorem mem_pointedEnds : e ∈ pointedEnds s c ↔ e ∈ connectorTargets s c := by
  rw [pointedEnds, mem_foldl_insertNew, or_iff_right List.not_mem_nil]

theorem pointedEnds_eq_pair (he : s.pointer? c Pointer.source = some e)
    (hf : s.pointer? c Pointer.destination = some f) (hne : e ≠ f) :
    pointedEnds s c = [e, f] := by
  simp [pointedEnds, connectorTargets, he, hf, insertNew, hne.symm]

theorem ends_addConnector (hbinary : isSubConnector s node = false) :
    (addConnector s a node).ends c =
      if node = c then (connectorTargets s node).foldl insertNew (a.ends c) else a.ends c := by
  unfold addConnector ends
  rw [if_neg (by simp [hbinary])]
  simp only
  rw [Annotations.ends_eq_of_links (Annotations.links_touch _ _), Annotations.ends_attachAll]

/-- Every connector of an architecture lists what its pointers give, and nothing else is listed. -/
def ListsPointedEnds (s : Store) (a : Architecture) : Prop :=
  ∀ c, a.ends c = if c ∈ a.connectors then pointedEnds s c else []

theorem listsPointedEnds_of_links {b : Architecture} (h : ListsPointedEnds s a)
    (hlinks : b.annotations.links = a.annotations.links)
    (hconnectors : b.connectors = a.connectors) : ListsPointedEnds s b := by
  intro c
  rw [ends, Annotations.ends_eq_of_links hlinks, hconnectors]
  exact h c

theorem listsPointedEnds_addConnector (h : ListsPointedEnds s a) :
    ListsPointedEnds s (addConnector s a node) := by
  by_cases hsub : isSubConnector s node = true
  · refine listsPointedEnds_of_links h ?_ ?_ <;> rw [addConnector, if_pos hsub]
  · intro c
    rw [ends_addConnector (by simpa using hsub), connectors_addConnector, if_neg hsub, h c]
    by_cases hc : node = c
    · subst hc
      have hmem : node ∈ a.connectors ++ [node] := by simp
      rw [if_pos rfl, if_pos hmem]
      split
      · -- a connector that is read once more already lists its targets
        exact foldl_insertNew_of_subset fun e he => mem_pointedEnds.2 he
      · rfl
    · simp [hc, eq_comm]

/-- **Building lists the targets of every binary connector, source first.** -/
theorem ends_build (hc : c ∈ (build s config).connectors) :
    (build s config).ends c = pointedEnds s c := by
  have hlists : ListsPointedEnds s (build s config) := by
    refine build_induction (fun _ => rfl) ?_ ?_ ?_
    · intro a p _ h
      exact listsPointedEnds_of_links h (links_addComponentType s config a p) rfl
    · intro a p _ h
      exact listsPointedEnds_addConnector h
    · intro a p _ h
      refine listsPointedEnds_of_links h (links_addConnection s a p) ?_
      unfold addConnection
      split <;> rfl
  rw [hlists c, if_pos hc]

/-- **Resolving motifs only appends to what the pointers give**, and only sources of
sub-connectors. -/
theorem ends_resolveMotifs (report : Report) (hc : c ∈ (build s config).connectors) :
    ∃ added, (resolveMotifs s (build s config) report).1.ends c = pointedEnds s c ++ added ∧
      ∀ e ∈ added, ∃ sub ∈ (build s config).subConnectors,
        s.pointer? sub Pointer.source = some e := by
  obtain ⟨log, hgrowth⟩ := (resolving_resolveMotifs s config report).growth
  refine ⟨appendedTo log c, ?_, fun e he => hgrowth.source c e (mem_appendedTo.1 he)⟩
  rw [hgrowth.ends_eq, ends_build hc]

end

/-! ## Connectors of two ends -/

/-- A connector begins with two different ends, which its source and its destination lead to. -/
def Connects (s : Store) (a : Architecture) (c : Path) : Prop :=
  ∃ e f, e ≠ f ∧ s.pointer? c Pointer.source = some e ∧
    s.pointer? c Pointer.destination = some f ∧ [e, f] <+: a.ends c

theorem connects_iff {s : Store} {a : Architecture} {c : Path} {added : List Path}
    (h : a.ends c = pointedEnds s c ++ added) :
    Connects s a c ↔ ∃ e f, e ≠ f ∧ s.pointer? c Pointer.source = some e ∧
      s.pointer? c Pointer.destination = some f := by
  constructor
  · rintro ⟨e, f, hne, he, hf, -⟩
    exact ⟨e, f, hne, he, hf⟩
  · rintro ⟨e, f, hne, he, hf⟩
    refine ⟨e, f, hne, he, hf, ?_⟩
    rw [h, pointedEnds_eq_pair he hf hne]
    exact List.prefix_append _ _

end Architecture

end Rendezvous
