import Rendezvous.Architecture.Factor
import Rendezvous.Proofs.Architecture.Ownership
import Rendezvous.Proofs.Glue.Contributions

/-!
# The interactions that connectors ask for

An interaction of a connector without triggers takes every end's port as often as its multiplicity
says.  Each end asks for it from where it stands: whatever the end's port requires, together with the
port itself, is that interaction (`cons_synchronOption_perm`).  Triggers need nobody, and every other
end around them is content with any of them.  As glues only grow, this is still among the options of
the ports when all connectors have been merged (`requires_interaction_of_connector`).
-/

namespace Rendezvous.Glue

open scoped List

/-- The ports that take part in an interaction of some ends, each as often as its end says. -/
def interaction (ends : List GlueEnd) : List Port :=
  ends.flatMap fun e => List.replicate e.multiplicity e.port

theorem interaction_append (ends ends' : List GlueEnd) :
    interaction (ends ++ ends') = interaction ends ++ interaction ends' :=
  List.flatMap_append

theorem interaction_cons (e : GlueEnd) (ends : List GlueEnd) :
    interaction (e :: ends) = List.replicate e.multiplicity e.port ++ interaction ends :=
  List.flatMap_cons

section
variable {ends others : List GlueEnd} {e : GlueEnd}

/-- **What an end requires completes its port to the interaction of all ends.** -/
theorem cons_synchronOption_perm (h : StandsAmong ends e others) (hpos : 1 ≤ e.multiplicity) :
    (e.port :: synchronOption e others).Perm (interaction ends) := by
  obtain ⟨l, r, rfl, rfl⟩ := standsAmong_iff.1 h
  have hcopies : List.replicate e.multiplicity e.port =
      e.port :: List.replicate (e.multiplicity - 1) e.port := by
    rw [← List.replicate_succ, Nat.sub_add_cancel hpos]
  calc e.port :: synchronOption e (l ++ r)
      ~ interaction (l ++ r) ++ List.replicate e.multiplicity e.port := by
        rw [hcopies]
        exact List.perm_middle.symm
    _ = interaction l ++ (interaction r ++ List.replicate e.multiplicity e.port) := by
        rw [interaction_append, List.append_assoc]
    _ ~ interaction l ++ (List.replicate e.multiplicity e.port ++ interaction r) :=
        List.perm_append_comm.append_left _
    _ = interaction (l ++ e :: r) := by
        rw [interaction_append, interaction_cons]

theorem options_of_trigger (h : e.isTrigger = true) (triggers : List Port) :
    options e triggers others = [[]] := by
  rw [options, if_pos h]

theorem options_of_synchron (h : e.isTrigger = false)
    (hends : ∀ x ∈ ends, x.isTrigger = false) :
    options e (triggersOf ends) others = [synchronOption e others] := by
  simp [options, h, triggersOf_eq_nil_iff.2 hends]

theorem mem_options_of_trigger_around (h : e.isTrigger = false) {t : GlueEnd} (ht : t ∈ ends)
    (htrigger : t.isTrigger = true) : [t.port] ∈ options e (triggersOf ends) others := by
  have hmem : t.port ∈ triggersOf ends := mem_triggersOf.2 ⟨t, ht, htrigger, rfl⟩
  have hne : (triggersOf ends).isEmpty = false :=
    List.isEmpty_eq_false_iff_exists_mem.2 ⟨t.port, hmem⟩
  simp only [options, h, hne, Bool.false_eq_true, if_false]
  exact List.mem_map_of_mem hmem

end

/-- The options of an end are options of its port, whatever other ends contribute to it. -/
theorem mem_requires_of_mem_ends {s : Store} {a : Architecture} {c : Path}
    (hc : c ∈ a.connectors) {e : GlueEnd} {others : List GlueEnd}
    (h : StandsAmong (endsOf s a c) e others) {option : List Port}
    (hoption : option ∈ options e (triggersOf (endsOf s a c)) others) :
    option ∈ (ofArchitecture s a).requires e.port :=
  mem_requires_ofArchitecture_iff.2 ⟨c, hc, e, others, h, rfl, hoption⟩

/-- **All ends of a connector require the same interaction.**  Without triggers, every end that takes
part has an option that, with its port, is the interaction of all ends.  With triggers, each of them
has the option of firing alone, and every other end the option of following it. -/
theorem requires_interaction_of_connector {s : Store} {a : Architecture} {c : Path}
    (hc : c ∈ a.connectors) :
    let ends := endsOf s a c
    let g := ofArchitecture s a
    ((∀ e ∈ ends, e.isTrigger = false) → ∀ e ∈ ends, 1 ≤ e.multiplicity →
      ∃ option ∈ g.requires e.port, (e.port :: option).Perm (interaction ends)) ∧
    ∀ t ∈ ends, t.isTrigger = true →
      [] ∈ g.requires t.port ∧
        ∀ e ∈ ends, e.isTrigger = false → [t.port] ∈ g.requires e.port := by
  intro ends g
  constructor
  · intro hsynchrons e he hpos
    obtain ⟨others, hstands⟩ := exists_standsAmong he
    refine ⟨synchronOption e others, ?_, cons_synchronOption_perm hstands hpos⟩
    refine mem_requires_of_mem_ends hc hstands ?_
    rw [options_of_synchron (hsynchrons e he) hsynchrons]
    exact List.mem_singleton_self _
  · intro t ht htrigger
    constructor
    · obtain ⟨others, hstands⟩ := exists_standsAmong ht
      refine mem_requires_of_mem_ends hc hstands ?_
      rw [options_of_trigger htrigger]
      exact List.mem_singleton_self _
    · intro e he hsynchron
      obtain ⟨others, hstands⟩ := exists_standsAmong he
      exact mem_requires_of_mem_ends hc hstands
        (mem_options_of_trigger_around hsynchron ht htrigger)

/-! ## Two connectors at the same ports -/

open Architecture (bareNode namedNode weightedEnd)

/-- Two instances of `A` and three of `B`, whose ports meet at `/c` all together and at `/d` whenever
some `A` calls. -/
def twoConnectors : Store :=
  Store.empty.addMany [
    ("/a", namedNode .componentType none "A" Attribute.cardinality "2"),
    ("/a/p", namedNode .enforceableTransition (some "/a") "p" Attribute.transitionMethod "p"),
    ("/b", namedNode .componentType none "B" Attribute.cardinality "3"),
    ("/b/q", namedNode .enforceableTransition (some "/b") "q" Attribute.transitionMethod "q"),
    ("/e", weightedEnd .synchron "1" "2"), ("/f", weightedEnd .synchron "1" "3"),
    ("/t", weightedEnd .trigger "1" "1"), ("/u", weightedEnd .synchron "2" "3"),
    ("/k", bareNode .connection [(Pointer.source, "/e"), (Pointer.destination, "/a/p")]),
    ("/l", bareNode .connection [(Pointer.source, "/f"), (Pointer.destination, "/b/q")]),
    ("/m", bareNode .connection [(Pointer.source, "/t"), (Pointer.destination, "/a/p")]),
    ("/n", bareNode .connection [(Pointer.source, "/u"), (Pointer.destination, "/b/q")]),
    ("/c", bareNode .connector [(Pointer.source, "/e"), (Pointer.destination, "/f")]),
    ("/d", bareNode .connector [(Pointer.source, "/t"), (Pointer.destination, "/u")])]

theorem requires_interaction_of_connector_twoConnectors :
    let a := ((Architecture.build twoConnectors .empty).checkConsistency twoConnectors .empty).1
    let g := ofArchitecture twoConnectors a
    let p : Port := ⟨"A", "p"⟩
    let q : Port := ⟨"B", "q"⟩
    ("/c" ∈ a.connectors ∧ "/d" ∈ a.connectors) ∧
      (∃ option ∈ g.requires p, (p :: option).Perm [p, p, q, q, q]) ∧
      [] ∈ g.requires p ∧ [p] ∈ g.requires q := by
  intro a g p q
  have hc : "/c" ∈ a.connectors := by decide
  have hd : "/d" ∈ a.connectors := by decide
  obtain ⟨hsynchrons, -⟩ := requires_interaction_of_connector (s := twoConnectors) hc
  obtain ⟨-, htriggers⟩ := requires_interaction_of_connector (s := twoConnectors) hd
  obtain ⟨halone, hfollow⟩ := htriggers ⟨p, 1, true⟩ (by decide) rfl
  refine ⟨⟨hc, hd⟩, ?_, halone, hfollow ⟨q, 3, false⟩ (by decide) rfl⟩
  exact hsynchrons (by decide) ⟨p, 2, false⟩ (by decide) (by decide)

end Rendezvous.Glue
