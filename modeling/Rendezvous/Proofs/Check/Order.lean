import Rendezvous.Proofs.Architecture.Ambiguity
import Rendezvous.Proofs.Architecture.Overwrites

/-!
# The verdict in another order

The same nodes can be loaded in any order.  What checking the consistency of an architecture derives
and reports then depends on the order in two places: connections overwrite each other's cardinalities,
and sub-connectors look for their motifs in what the earlier ones have attached.  The cardinalities
are the same in all orders exactly when the connections are coherent, and the ends of the connectors
and the orphans exactly when the sub-connectors are unambiguous.  Then so is the verdict
(`checkConsistency_perm`).  Two connections from one end to ports of different cardinalities are
accepted in one order and rejected in the other (`not_checkConsistency_perm_doubled`).
-/

namespace Rendezvous.Architecture

open Arithmetic

/-- The cardinalities that checking a store derives. -/
def derivedCardinality? (s : Store) (config : Config) : Path → Option UInt32 :=
  ((build s config).checkConsistency s config).1.cardinality?

/-- Checking a store reports nothing. -/
def IsConsistent (s : Store) (config : Config) : Prop :=
  ((build s config).checkConsistency s config).2.violations = []

instance (s : Store) (config : Config) : Decidable (IsConsistent s config) :=
  inferInstanceAs (Decidable (_ = _))

/-! ## Cardinality and verdict by what was built -/

section
variable {s : Store} {config : Config}

theorem derivedCardinality?_eq (s : Store) (config : Config) :
    derivedCardinality? s config =
      (build s config).connections.foldl (takeCardinality s) (build s config).cardinality? := by
  rw [← cardinality?_resolveMotifs s (build s config) (.empty .architecture)]
  exact (keeps_foldl_checkConnector s _ ⟨_, _⟩ _).cardinality?_eq

/-- **What makes a store consistent.**  There are no orphans, and the ends of every connector have one
factor. -/
theorem isConsistent_iff (s : Store) (config : Config) :
    let r := resolveMotifs s (build s config) (.empty .architecture)
    IsConsistent s config ↔ (∀ e, ¬ r.2.Cites Code.orphanedEnd e) ∧
      ∀ c ∈ r.1.connectors, ∃ F, ∀ e ∈ r.1.ends c, ∃ k d m,
        Balanced s (r.1.evaluator config) r.1.annotations e k d m F := by
  intro r
  have hresolve : (Report.empty .architecture).Extends r.2 := extends_resolveMotifs _ _ _
  have hcheck : r.2.Extends (checkConnectors s config r.1 r.2).2 :=
    (keeps_foldl_checkConnector s (r.1.evaluator config) ⟨r.1.annotations, r.2⟩
      r.1.connectors).extends_report
  have hsplit : IsConsistent s config ↔
      r.2 = .empty .architecture ∧ (checkConnectors s config r.1 r.2).2 = r.2 :=
    (hresolve.trans hcheck).violations_eq_nil_iff.trans (hresolve.eq_iff hcheck)
  rw [hsplit, ← hresolve.violations_eq_nil_iff]
  exact and_congr violations_resolvedUpTo_eq_nil_iff
    (checkConnectors_eq_iff_balanced s config _ r.2).1

end

/-! ## Another order -/

section
variable {s t : Store} (h : s.Reorders t) (config : Config)
include h

theorem derivedCardinality?_eq_of_coherent
    (hcoherent : Coherent s (build s config).connections (build s config).cardinality?) :
    derivedCardinality? t config = derivedCardinality? s config := by
  rw [derivedCardinality?_eq, derivedCardinality?_eq, ← cardinality?_build_eq_of_reorders h,
    ← takeCardinality_eq_of_reorders h]
  exact hcoherent.foldl_takeCardinality_perm (connections_build_perm h config).symm

theorem evaluator_eq_of_reorders :
    (resolveMotifs s (build s config) (.empty .architecture)).1.evaluator config =
      (resolveMotifs t (build t config) (.empty .architecture)).1.evaluator config := by
  rw [evaluator, evaluator, (resolving_resolveMotifs s config _).parameters_eq,
    (resolving_resolveMotifs t config _).parameters_eq, parameters_build_eq_of_reorders h]

/-- The same values balance an end in every order that gives it the same cardinality. -/
theorem Balanced.of_reorders {ev : Evaluator} {a b : Annotations} {e : Path} {k : UInt32}
    {d m F : Nat} (hbalanced : Balanced s ev a e k d m F)
    (hcardinality : a.cardinality? = b.cardinality?) : Balanced t ev b e k d m F where
  cardinality_eq := by rw [← hcardinality, hbalanced.cardinality_eq]
  degree := by
    rw [← h.attributeText_eq]
    exact hbalanced.degree
  multiplicity := by
    rw [← h.attributeText_eq]
    exact hbalanced.multiplicity
  pos := hbalanced.pos
  le_cardinality := by
    rw [← h.attributeText_eq]
    exact hbalanced.le_cardinality
  fits := hbalanced.fits
  balance := hbalanced.balance

/-- Consistency is passed on to every order that gives the same cardinalities. -/
theorem IsConsistent.of_reorders (hconsistent : IsConsistent s config)
    (hcardinality : derivedCardinality? t config = derivedCardinality? s config)
    (hunambiguous : Unambiguous s (build s config)) : IsConsistent t config := by
  have hcardinality' : (resolveMotifs s (build s config) (.empty .architecture)).1.cardinality? =
      (resolveMotifs t (build t config) (.empty .architecture)).1.cardinality? := by
    rw [cardinality?_resolveMotifs, cardinality?_resolveMotifs, ← derivedCardinality?_eq,
      ← derivedCardinality?_eq, hcardinality]
  obtain ⟨hends, hcites⟩ := sameAttachments_of_reorders h config hunambiguous
  obtain ⟨horphans, hbalanced⟩ := (isConsistent_iff s config).1 hconsistent
  refine (isConsistent_iff t config).2 ⟨fun e => by rw [← hcites]; exact horphans e, ?_⟩
  intro c hc
  rw [(resolving_resolveMotifs t config _).connectors_eq, ← mem_connectors_build_iff h,
    ← (resolving_resolveMotifs s config (.empty .architecture)).connectors_eq] at hc
  obtain ⟨F, hF⟩ := hbalanced c hc
  refine ⟨F, fun e he => ?_⟩
  obtain ⟨k, d, m, hend⟩ := hF e ((hends c e).2 he)
  rw [evaluator_eq_of_reorders h] at hend
  exact ⟨k, d, m, hend.of_reorders h hcardinality'⟩

end

/-- **When the verdict does not depend on load order.**  Loading the same nodes in any order derives
the same cardinalities exactly when the connections are coherent, and attaches the same ends and
reports the same orphans exactly when the sub-connectors are unambiguous.  With both, either all
orders are accepted or none is. -/
theorem checkConsistency_perm {nodes : List (Path × Node)} (hdistinct : (nodes.map Prod.fst).Nodup)
    (config : Config) :
    let s := Store.empty.addMany nodes
    let a := build s config
    ((∀ nodes' : List (Path × Node), nodes'.Perm nodes → ∀ e,
        derivedCardinality? (.addMany .empty nodes') config e = derivedCardinality? s config e) ↔
      Coherent s a.connections a.cardinality?) ∧
    ((∀ nodes' : List (Path × Node), nodes'.Perm nodes →
        SameAttachments s (.addMany .empty nodes') config) ↔ Unambiguous s a) ∧
    (Coherent s a.connections a.cardinality? → Unambiguous s a →
      ∀ nodes' : List (Path × Node), nodes'.Perm nodes →
        (IsConsistent (.addMany .empty nodes') config ↔ IsConsistent s config)) := by
  intro s a
  have hreorders : ∀ {nodes' : List (Path × Node)}, nodes'.Perm nodes →
      s.Reorders (Store.empty.addMany nodes') := fun hperm =>
    (Store.reorders_addMany hdistinct hperm).symm
  refine ⟨⟨fun hsame => ?_, fun hcoherent nodes' hperm e => ?_⟩,
    sameAttachments_perm_iff hdistinct config, ?_⟩
  · -- every order of the connections is the order of some list of the nodes
    refine (foldl_takeCardinality_perm_iff s a.connections a.cardinality?).1 fun ks hks e => ?_
    rw [connections_build] at hks
    obtain ⟨nodes', hperm, hinstances⟩ := Store.exists_reorders hdistinct hks
    have he := hsame nodes' hperm e
    rw [derivedCardinality?_eq, derivedCardinality?_eq, connections_build, hinstances,
      ← takeCardinality_eq_of_reorders (hreorders hperm),
      ← cardinality?_build_eq_of_reorders (hreorders hperm)] at he
    exact he
  · rw [derivedCardinality?_eq_of_coherent (hreorders hperm) config hcoherent]
  · intro hcoherent hunambiguous nodes' hperm
    have hcardinality := derivedCardinality?_eq_of_coherent (hreorders hperm) config hcoherent
    constructor
    · intro hconsistent
      exact hconsistent.of_reorders (hreorders hperm).symm config hcardinality.symm
        (unambiguous_of_reorders (hreorders hperm) config hunambiguous)
    · intro hconsistent
      exact hconsistent.of_reorders (hreorders hperm) config hcardinality hunambiguous

/-! ## An end with two connections -/

/-- A connection from an end to a port. -/
def connect (k e p : Path) : Path × Node :=
  (k, bareNode .connection [(Pointer.source, e), (Pointer.destination, p)])

/-- Ports of two and of three instances, and a connector of three ends at the first of them, one of
which has two connections. -/
def doubled (connections : List (Path × Node)) : List (Path × Node) := [
    ("/a", countedType "2"), ("/a/p", portNode "/a"),
    ("/b", countedType "3"), ("/b/q", portNode "/b"),
    ("/e", weightedEnd .synchron "1" "1"), ("/f", weightedEnd .synchron "1" "1"),
    ("/g", weightedEnd .synchron "1" "1")] ++ connections ++ [
    connect "/m" "/f" "/a/p", connect "/n" "/g" "/a/p",
    ("/c", bareNode .connector [(Pointer.source, "/e"), (Pointer.destination, "/f")]),
    ("/d", bareNode .connector [(Pointer.source, "/g"), (Pointer.destination, "/c")])]

/-- With both connections to one port, the order is irrelevant. -/
theorem checkConsistency_perm_doubled :
    let nodes := doubled [connect "/k" "/e" "/a/p", connect "/l" "/e" "/a/p"]
    let s := Store.empty.addMany nodes
    let a := build s .empty
    (nodes.map Prod.fst).Nodup ∧ Coherent s a.connections a.cardinality? ∧ Unambiguous s a ∧
      derivedCardinality? (.addMany .empty nodes.reverse) .empty "/e" =
        derivedCardinality? s .empty "/e" ∧
      SameAttachments s (.addMany .empty nodes.reverse) .empty ∧
      (IsConsistent (.addMany .empty nodes.reverse) .empty ↔ IsConsistent s .empty) := by
  intro nodes s a
  have hdistinct : (nodes.map Prod.fst).Nodup := by decide
  have hcoherent : Coherent s a.connections a.cardinality? := by decide +kernel
  have hunambiguous : Unambiguous s a := by
    refine unambiguous_of_chains ?_ ?_
    · decide +kernel
    · decide +kernel
  obtain ⟨hcardinality, hattachments, hverdict⟩ := checkConsistency_perm hdistinct .empty
  exact ⟨hdistinct, hcoherent, hunambiguous,
    hcardinality.2 hcoherent _ nodes.reverse_perm "/e",
    hattachments.2 hunambiguous _ nodes.reverse_perm,
    hverdict hcoherent hunambiguous _ nodes.reverse_perm⟩

/-- With connections to ports of different cardinalities, the last of them decides the cardinality of
the end, and with it the verdict. -/
theorem not_checkConsistency_perm_doubled :
    let nodes := doubled [connect "/k" "/e" "/a/p", connect "/l" "/e" "/b/q"]
    let nodes' := doubled [connect "/l" "/e" "/b/q", connect "/k" "/e" "/a/p"]
    (nodes.map Prod.fst).Nodup ∧ nodes'.Perm nodes ∧
      ¬ (∀ e, derivedCardinality? (.addMany .empty nodes') .empty e =
        derivedCardinality? (.addMany .empty nodes) .empty e) ∧
      ¬ (IsConsistent (.addMany .empty nodes') .empty ↔
        IsConsistent (.addMany .empty nodes) .empty) := by
  intro nodes nodes'
  refine ⟨by decide, by decide, fun hcardinality => ?_, by decide +kernel⟩
  exact absurd (hcardinality "/e") (by decide +kernel)

end Rendezvous.Architecture
