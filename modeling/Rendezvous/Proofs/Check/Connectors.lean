import Rendezvous.Proofs.Architecture.Binary
import Rendezvous.Proofs.Check.Acceptance

/-!
# Connectors of accepted models

Building tolerates connectors whose pointers are not set, and no gate asks for them afterwards.  An
accepted connector therefore connects its source to its destination exactly when its pointers lead to
two different nodes (`check_connects_iff`); one that has lost a pointer is accepted with the end that
is left (`not_connects_halfConnector`), whose port then fires alone.
-/

namespace Rendezvous

open Architecture

/-- **When an accepted connector connects.**  Its ends are different nodes, those that its pointers
lead to and then sources of sub-connectors.  The first two are the targets of its source and of its
destination exactly when both pointers are set and lead to different nodes. -/
theorem check_connects_iff {s : Store} {config : Config} {m : CheckedModel}
    (h : config.check s = .ok m) {c : Path} (hc : c ∈ m.architecture.connectors) :
    (∃ added, m.architecture.ends c = pointedEnds s c ++ added ∧
      (m.architecture.ends c).Nodup ∧
      ∀ e ∈ added, ∃ sub ∈ (build s config).subConnectors,
        s.pointer? sub Pointer.source = some e) ∧
    (Connects s m.architecture c ↔ ∃ e f, e ≠ f ∧ s.pointer? c Pointer.source = some e ∧
      s.pointer? c Pointer.destination = some f) := by
  have hacc : Accepted s config m := check_eq_ok_iff.1 h
  rw [hacc.connectors_eq] at hc
  obtain ⟨added, hends, hsources⟩ := ends_resolveMotifs (.empty .architecture) hc
  have hnodup := (resolving_resolveMotifs s config (.empty .architecture)).owned.linked.nodup c
  rw [← ends, ← hacc.ends_eq] at hnodup
  rw [← hacc.ends_eq] at hends
  exact ⟨⟨added, hends, hnodup, hsources⟩, connects_iff hends⟩

/-! ## A connector without a destination -/

/-- The end `/e`, which is connected to the only port. -/
def onePort : List (Path × Node) := onePortType ++ [
  ("/e", weightedEnd .synchron "1" "1"),
  ("/k", bareNode .connection [(Pointer.source, "/e"), (Pointer.destination, "/a/p")])]

/-- Three ends at the port, two of them joined by `/c` and the third added by `/d`. -/
def threeEnds : Store :=
  Store.empty.addMany (onePort ++ [
    ("/f", weightedEnd .synchron "1" "1"), ("/g", weightedEnd .synchron "1" "1"),
    ("/l", bareNode .connection [(Pointer.source, "/f"), (Pointer.destination, "/a/p")]),
    ("/m", bareNode .connection [(Pointer.source, "/g"), (Pointer.destination, "/a/p")]),
    ("/d", bareNode .connector [(Pointer.source, "/g"), (Pointer.destination, "/c")]),
    ("/c", bareNode .connector [(Pointer.source, "/e"), (Pointer.destination, "/f")])])

/-- The end alone, at a connector that leads nowhere. -/
def halfConnector : Store :=
  Store.empty.addMany (onePort ++ [("/c", bareNode .connector [(Pointer.source, "/e")])])

theorem check_connects_iff_threeEnds :
    Config.empty.check threeEnds = .ok (checkedModel threeEnds .empty) ∧
      "/c" ∈ (checkedModel threeEnds .empty).architecture.connectors ∧
      Connects threeEnds (checkedModel threeEnds .empty).architecture "/c" := by
  have hcheck : Config.empty.check threeEnds = .ok (checkedModel threeEnds .empty) := by
    decide +kernel
  have hc : "/c" ∈ (checkedModel threeEnds .empty).architecture.connectors := by decide +kernel
  obtain ⟨-, hconnects⟩ := check_connects_iff hcheck hc
  exact ⟨hcheck, hc, hconnects.2 ⟨"/e", "/f", by decide, by decide, by decide⟩⟩

/-- The connector is accepted, and has no destination. -/
theorem not_connects_halfConnector :
    ¬ ∀ m, Config.empty.check halfConnector = .ok m →
      ∀ c ∈ m.architecture.connectors, Connects halfConnector m.architecture c := by
  intro h
  have hcheck : Config.empty.check halfConnector = .ok (checkedModel halfConnector .empty) := by
    decide
  obtain ⟨e, f, -, -, hf, -⟩ := h _ hcheck "/c" (by decide)
  have hnone : halfConnector.pointer? "/c" Pointer.destination = none := by decide
  rw [hnone] at hf
  cases hf

end Rendezvous
