import Rendezvous.Proofs.Glue.Coherence
import Rendezvous.Proofs.Glue.Interactions

/-!
# The order of connectors

A glue is grown connector by connector, and two connectors may add to the same effect.  Whoever comes
first decides where things stand, but not what is there: every fact that connectors bring is brought by
one of them (`ofArchitecture_iff_exists`), whichever others came before.  As nothing is listed twice,
the lists of a glue are the same up to their order for all orders of the connectors
(`ofArchitecture_perm`).
-/

namespace Rendezvous.Glue

open scoped List

/-- Adding ends never repeats an accepted port. -/
theorem nodup_accepts_ofArchitecture (s : Store) (a : Architecture) (p : Port) :
    ((ofArchitecture s a).accepts p).Nodup := by
  refine ofArchitecture_induction (P := fun g => (g.accepts p).Nodup) List.nodup_nil ?_ s a
  intro triggers g e others hg
  rw [accepts_addEnd]
  split
  · exact nodup_foldl_insertNew hg
  · exact hg

/-- What single ends bring does not depend on the order of the connectors. -/
theorem ofArchitecture_iff_of_perm {P : Glue → Prop}
    {Q : List Port → GlueEnd → List GlueEnd → Prop} (hempty : ¬ P empty)
    (hstep : ∀ triggers g e others,
      P (addEnd triggers g e others) ↔ P g ∨ Q triggers e others)
    (s : Store) {a : Architecture} {connectors : List Path} (h : connectors ~ a.connectors) :
    P (ofArchitecture s { a with connectors := connectors }) ↔ P (ofArchitecture s a) := by
  rw [ofArchitecture_iff_exists hempty hstep, ofArchitecture_iff_exists hempty hstep]
  -- the ends of a connector are read off the table, which both architectures share
  exact exists_congr fun c => and_congr_left fun _ => h.mem_iff

/-- **The glue does not depend on the order of the connectors.**  With the connectors in another order
it has the same effects, and each of them accepts the same ports and has the same options. -/
theorem ofArchitecture_perm (s : Store) {a : Architecture} {connectors : List Path}
    (h : connectors ~ a.connectors) :
    let g := ofArchitecture s a
    let g' := ofArchitecture s { a with connectors := connectors }
    g'.effects.keys ~ g.effects.keys ∧
      ∀ p, g'.accepts p ~ g.accepts p ∧ g'.requires p ~ g.requires p := by
  intro g g'
  refine ⟨?_, fun p => ⟨?_, ?_⟩⟩
  · refine (List.perm_ext_iff_of_nodup g'.effects.nodup g.effects.nodup).2 fun p => ?_
    exact ofArchitecture_iff_of_perm (P := (p ∈ ·.effects.keys)) List.not_mem_nil
      (fun triggers g e others => mem_keys_addEnd triggers g e others p) s h
  · refine (List.perm_ext_iff_of_nodup (nodup_accepts_ofArchitecture s _ p)
      (nodup_accepts_ofArchitecture s a p)).2 fun q => ?_
    exact ofArchitecture_iff_of_perm (P := (q ∈ ·.accepts p)) List.not_mem_nil
      (fun triggers g e others => mem_accepts_addEnd triggers g e others p q) s h
  · refine (List.perm_ext_iff_of_nodup (nodup_requires_ofArchitecture s _ p)
      (nodup_requires_ofArchitecture s a p)).2 fun option => ?_
    exact ofArchitecture_iff_of_perm (P := (option ∈ ·.requires p)) List.not_mem_nil
      (fun triggers g e others => mem_requires_addEnd triggers g e others p option) s h

/-- Reading `/d` before `/c` lists the options of `q` the other way round, and they are the same. -/
theorem ofArchitecture_perm_twoConnectors :
    let a := ((Architecture.build twoConnectors .empty).checkConsistency twoConnectors .empty).1
    let g := ofArchitecture twoConnectors a
    let g' := ofArchitecture twoConnectors { a with connectors := ["/d", "/c"] }
    let p : Port := ⟨"A", "p"⟩
    let q : Port := ⟨"B", "q"⟩
    ["/d", "/c"] ~ a.connectors ∧
      (g.requires q = [[p, p, q, q], [p]] ∧ g'.requires q = [[p], [p, p, q, q]]) ∧
      g'.effects.keys ~ g.effects.keys ∧
      ∀ p, g'.accepts p ~ g.accepts p ∧ g'.requires p ~ g.requires p := by
  intro a g g' p q
  have horder : ["/d", "/c"] ~ a.connectors := by
    have hconnectors : a.connectors = ["/c", "/d"] := by decide
    rw [hconnectors]
    exact List.Perm.swap _ _ _
  exact ⟨horder, by decide, ofArchitecture_perm twoConnectors horder⟩

end Rendezvous.Glue
