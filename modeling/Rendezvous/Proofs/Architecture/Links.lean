import Mathlib.Data.List.Nodup
import Rendezvous.Proofs.Architecture.Records

/-!
# Ends and connectors point at each other

A side table holds each attachment twice: the connector lists the end, and the end names its
connector.  `Linked` says how the two agree when nothing but `attach` writes them: no list repeats
an end, a named connector lists the end, and a listed end names some connector.  It does not say
that the named connector is the only one that lists the end; for an end in one list only, the two
directions determine each other (`connectorOf?_eq_some_iff`).
-/

namespace Rendezvous.Annotations

/-- The two directions of every attachment agree. -/
structure Linked (a : Annotations) : Prop where
  nodup : ∀ c, (a.ends c).Nodup
  mem_of_connectorOf? : ∀ {e c : Path}, a.connectorOf? e = some c → e ∈ a.ends c
  isSome_of_mem : ∀ {e c : Path}, e ∈ a.ends c → (a.connectorOf? e).isSome

theorem linked_empty : Linked empty where
  nodup _ := List.nodup_nil
  mem_of_connectorOf? h := nomatch h
  isSome_of_mem h := nomatch h

/-- Being linked is a matter of links alone. -/
theorem linked_of_links {a b : Annotations} (h : a.links = b.links) (hb : b.Linked) : a.Linked := by
  have hends : a.ends = b.ends := ends_eq_of_links h
  have hconnector : a.connectorOf? = b.connectorOf? := connectorOf?_eq_of_links h
  constructor
  · intro c
    rw [hends]
    exact hb.nodup c
  · intro e c
    rw [hends, hconnector]
    exact hb.mem_of_connectorOf?
  · intro e c
    rw [hends, hconnector]
    exact hb.isSome_of_mem

/-! ## What a linked table says about an end -/

section
variable {a : Annotations} {e c : Path}

theorem Linked.isSome_iff (h : a.Linked) : (a.connectorOf? e).isSome ↔ ∃ c, e ∈ a.ends c := by
  constructor
  · intro hs
    obtain ⟨c, hc⟩ := Option.isSome_iff_exists.1 hs
    exact ⟨c, h.mem_of_connectorOf? hc⟩
  · rintro ⟨c, hc⟩
    exact h.isSome_of_mem hc

theorem Linked.eq_none_iff (h : a.Linked) : a.connectorOf? e = none ↔ ∀ c, e ∉ a.ends c := by
  rw [← Option.not_isSome_iff_eq_none, h.isSome_iff, not_exists]

/-- Of an end that one list holds at most, the two directions say the same. -/
theorem Linked.connectorOf?_eq_some_iff (h : a.Linked)
    (hunique : ∀ c', e ∈ a.ends c → e ∈ a.ends c' → c' = c) :
    a.connectorOf? e = some c ↔ e ∈ a.ends c := by
  refine ⟨h.mem_of_connectorOf?, fun hc => ?_⟩
  obtain ⟨c', hc'⟩ := Option.isSome_iff_exists.1 (h.isSome_of_mem hc)
  rw [hc', hunique c' hc (h.mem_of_connectorOf? hc')]

end

/-! ## Attaching keeps tables linked -/

theorem linked_attach {a : Annotations} (h : a.Linked) (connector e : Path) :
    (a.attach connector e).Linked := by
  constructor
  · intro c
    rw [ends_attach]
    split
    · next hc =>
      refine List.Nodup.append (h.nodup c) (List.nodup_singleton e) ?_
      exact List.disjoint_singleton.2 hc.2
    · exact h.nodup c
  · intro x c hx
    rw [connectorOf?_attach] at hx
    rw [mem_ends_attach]
    split at hx
    · next he => exact Or.inr ⟨Option.some.inj hx, he.2.symm⟩
    · exact Or.inl (h.mem_of_connectorOf? hx)
  · intro x c hx
    rw [connectorOf?_attach]
    split
    · rfl
    · next he =>
      rcases mem_ends_attach.1 hx with hx | ⟨rfl, rfl⟩
      · exact h.isSome_of_mem hx
      · -- the end was listed before, or it would name `connector` now
        exact h.isSome_of_mem (Decidable.byContradiction fun hc => he ⟨hc, rfl⟩)

/-! ## Attaching several ends to one connector -/

theorem linked_attachAll {a : Annotations} (h : a.Linked) (connector : Path) (es : List Path) :
    (es.foldl (fun t e => t.attach connector e) a).Linked :=
  List.foldlRecOn es _ h fun _ ht e _ => linked_attach ht connector e

theorem mem_ends_attachAll {connector p x : Path} {es : List Path} {a : Annotations} :
    x ∈ (es.foldl (fun t e => t.attach connector e) a).ends p ↔
      x ∈ a.ends p ∨ (connector = p ∧ x ∈ es) := by
  have hstep : ∀ (t : Annotations) (e : Path),
      x ∈ (t.attach connector e).ends p ↔ x ∈ t.ends p ∨ (connector = p ∧ x = e) :=
    fun _ _ => mem_ends_attach
  rw [foldl_iff_or_exists (P := (x ∈ Annotations.ends · p)) hstep]
  simp [and_comm]

end Rendezvous.Annotations
