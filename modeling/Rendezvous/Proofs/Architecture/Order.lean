import Mathlib.Data.Char
import Mathlib.Data.List.Sort
import Rendezvous.Proofs.Architecture.Parts
import Rendezvous.Proofs.Check.Acceptance
import Rendezvous.Proofs.Store.Order

/-!
# Building from nodes in another order

What building finds out is not a matter of the order in which nodes were loaded: the parts are
permutations of each other, and cardinalities, letters, ends and the connectors that chains of
destinations reach are the same.
-/

namespace Rendezvous

open Arithmetic

theorem Arithmetic.Parameters.ext_mem {ps qs : Parameters}
    (h : ∀ c, c ∈ ps.letters ↔ c ∈ qs.letters) : ps = qs := by
  have hletters : ps.letters = qs.letters := List.Pairwise.eq_of_mem_iff ps.sorted qs.sorted h
  cases ps
  cases qs
  simpa using hletters

namespace Architecture

/-! ## Chains -/

/-- Where a chain ends is a matter of which nodes there are, not of their order. -/
theorem followChain_congr {s t : Store} (hpointer : s.pointer? = t.pointer?)
    {connectors connectors' fresh fresh' : List Path} {target : Path}
    (hconnectors : ∀ p, p ∈ connectors ↔ p ∈ connectors') (hfresh : ∀ p, p ∈ fresh ↔ p ∈ fresh') :
    followChain s connectors fresh target = followChain t connectors' fresh' target := by
  fun_induction followChain s connectors fresh target generalizing fresh' with
  | case1 fresh target hc =>
    rw [followChain, if_pos]
    simpa [← hconnectors] using hc
  | case2 fresh target hc hmem next hnext ih =>
    rw [hpointer] at hnext
    have hstep : followChain t connectors' fresh' target =
        followChain t connectors' (without fresh' target) next := by
      rw [followChain, if_neg (by simpa [← hconnectors] using hc),
        dif_pos ((hfresh target).1 hmem)]
      simp only [hnext]
    rw [hstep]
    exact ih fun p => by simp [without, hfresh]
  | case3 fresh target hc hmem hnext =>
    rw [followChain, if_neg (by simpa [← hconnectors] using hc), dif_pos ((hfresh target).1 hmem)]
    rw [hpointer] at hnext
    simp only [hnext]
  | case4 fresh target hc hmem =>
    rw [followChain, if_neg (by simpa [← hconnectors] using hc),
      dif_neg fun h => hmem ((hfresh target).2 h)]

/-! ## Parts -/

section
variable {s t : Store} (h : s.Reorders t)
include h

theorem isSubConnector_eq_of_reorders : isSubConnector s = isSubConnector t := by
  funext p
  rw [isSubConnector, h.pointer?_eq, h.isA_eq, isSubConnector]

theorem connectorTargets_eq_of_reorders : connectorTargets s = connectorTargets t := by
  funext p
  rw [connectorTargets, h.pointer?_eq, connectorTargets]

theorem connectionEnd?_eq_of_reorders : connectionEnd? s = connectionEnd? t := by
  funext k
  rw [connectionEnd?, h.pointer?_eq, h.isA_eq, connectionEnd?]

theorem connectionPort?_eq_of_reorders : connectionPort? s = connectionPort? t := by
  funext k
  rw [connectionPort?, h.pointer?_eq, connectionPort?]

theorem takeCardinality_eq_of_reorders : takeCardinality s = takeCardinality t := by
  funext f k e
  rw [takeCardinality, connectionEnd?_eq_of_reorders h, connectionPort?_eq_of_reorders h,
    takeCardinality]

variable (config : Config)

theorem connections_build_perm :
    (build s config).connections.Perm (build t config).connections := by
  rw [connections_build, connections_build]
  exact h.instancesWhere_perm _

theorem mem_connectors_build_iff {c : Path} :
    c ∈ (build s config).connectors ↔ c ∈ (build t config).connectors := by
  rw [mem_connectors_build, mem_connectors_build, IsBinary, IsBinary, h.instanceType?_eq,
    isSubConnector_eq_of_reorders h]

theorem mem_subConnectors_build_iff {sub : Path} :
    sub ∈ (build s config).subConnectors ↔ sub ∈ (build t config).subConnectors := by
  rw [subConnectors_build, subConnectors_build, isSubConnector_eq_of_reorders h]
  exact ((h.instancesWhere_perm _).filter _).mem_iff

theorem mem_ends_build_iff {c e : Path} :
    e ∈ (build s config).ends c ↔ e ∈ (build t config).ends c := by
  rw [(wired_build s config).mem_ends_iff, (wired_build t config).mem_ends_iff,
    mem_connectors_build_iff h, connectorTargets_eq_of_reorders h]

/-! ## Derived values -/

theorem hasCardinalityOf_iff_of_reorders {u p : Path} :
    HasCardinalityOf s u p ↔ HasCardinalityOf t u p := by
  rw [HasCardinalityOf, HasCardinalityOf, enforceablePorts, enforceablePorts, h.isA_eq]
  exact or_congr_right ((h.children_perm u).filter _).mem_iff

theorem configuredCardinality_eq_of_reorders :
    configuredCardinality s config = configuredCardinality t config := by
  funext u
  rw [configuredCardinality, h.attributeText_eq, configuredCardinality]

/-- **Building gives every node the same cardinality in every order.** -/
theorem cardinality?_build_eq_of_reorders :
    (build s config).cardinality? = (build t config).cardinality? := by
  funext p
  by_cases htype : ∃ u, s.instanceType? u = some .componentType ∧ HasCardinalityOf s u p
  · obtain ⟨u, hu, hp⟩ := htype
    rw [cardinality?_build_of_type hu hp, configuredCardinality_eq_of_reorders h]
    rw [h.instanceType?_eq] at hu
    exact (cardinality?_build_of_type hu ((hasCardinalityOf_iff_of_reorders h).1 hp)).symm
  · have hnone : ∀ {r : Store}, r.Reorders s → (build r config).cardinality? p = none := by
      intro r hr
      refine Option.eq_none_iff_forall_ne_some.2 fun k hk => htype ?_
      obtain ⟨u, hu, hp⟩ := exists_type_of_cardinality?_build hk
      rw [hr.instanceType?_eq] at hu
      exact ⟨u, hu, (hasCardinalityOf_iff_of_reorders hr).1 hp⟩
    rw [hnone (.refl _), hnone h.symm]

theorem parameters_build_eq_of_reorders :
    (build s config).parameters = (build t config).parameters := by
  refine Parameters.ext_mem fun c => ?_
  rw [mem_parameters_build, mem_parameters_build, h.instanceType?_eq, h.attributeText_eq]

end

end Architecture

end Rendezvous
