import Rendezvous.Architecture.Motif

/-!
# Chains of sub-connectors

The motif of a sub-connector is found by following destinations until a binary connector is met.
`Leads` says where a chain goes without saying how it is followed: it has no list of visited
nodes, and a chain that runs in a circle leads nowhere.  Following a chain with a list of nodes
not yet visited always ends, and it ends at a connector exactly when the chain leads there
(`followChain_eq_connector_iff`), within as many links as there are nodes to visit.
-/

namespace Rendezvous.Architecture

/-- `Leads s connectors subs n t c`: from `t`, following `n` destinations of nodes in `subs`, the
first node of `connectors` is `c`. -/
inductive Leads (s : Store) (connectors subs : List Path) : Nat → Path → Path → Prop
  | head {c : Path} : c ∈ connectors → Leads s connectors subs 0 c c
  | link {n : Nat} {t next c : Path} : t ∉ connectors → t ∈ subs →
      s.pointer? t Pointer.destination = some next → Leads s connectors subs n next c →
      Leads s connectors subs (n + 1) t c

/-- The destinations from a sub-connector lead through sub-connectors to the binary connector `c`.
-/
def LeadsTo (s : Store) (a : Architecture) (sub c : Path) : Prop :=
  ∃ t n, s.pointer? sub Pointer.destination = some t ∧ Leads s a.connectors a.subConnectors n t c

section
variable {s : Store} {connectors subs : List Path}

theorem Leads.mem_connectors {n : Nat} {t c : Path} (h : Leads s connectors subs n t c) :
    c ∈ connectors := by
  induction h with
  | head hc => exact hc
  | link _ _ _ _ ih => exact ih

/-- A node is one distance away from the connector it leads to. -/
theorem Leads.length_unique {n m : Nat} {t c c' : Path} (h : Leads s connectors subs n t c)
    (h' : Leads s connectors subs m t c') : n = m := by
  induction h generalizing m c' with
  | head hc =>
    cases h' with
    | head _ => rfl
    | link hc' _ _ _ => exact absurd hc hc'
  | link ht _ hnext _ ih =>
    cases h' with
    | head hc' => exact absurd hc' ht
    | link _ _ hnext' h' =>
      rw [hnext] at hnext'
      cases hnext'
      rw [ih h']

/-! ## Following a chain -/

/-- What following finds is where the chain leads. -/
theorem leads_of_followChain {fresh : List Path} {t c : Path} (hfresh : fresh ⊆ subs)
    (h : followChain s connectors fresh t = .connector c) :
    ∃ n, n ≤ fresh.length ∧ Leads s connectors subs n t c := by
  fun_induction followChain s connectors fresh t with
  | case1 fresh t hc =>
    cases h
    exact ⟨0, Nat.zero_le _, .head (by simpa using hc)⟩
  | case2 fresh t hc hmem next hnext ih =>
    obtain ⟨n, hn, hleads⟩ := ih (fun p hp => hfresh (List.mem_filter.1 hp).1) h
    have hlt := length_without_lt hmem
    exact ⟨n + 1, by omega, .link (by simpa using hc) (hfresh hmem) hnext hleads⟩
  | case3 => cases h
  | case4 => cases h

/-- A chain that leads somewhere is followed to its end, as long as no node on it counts as visited.
The visited nodes are those from which the connector is farther away. -/
theorem followChain_of_leads {n : Nat} {t c : Path} (h : Leads s connectors subs n t c)
    {fresh : List Path} (hvisited : ∀ p ∈ subs, p ∉ fresh → p ∉ connectors →
      ∀ m c', Leads s connectors subs m p c' → n < m) :
    followChain s connectors fresh t = .connector c := by
  induction h generalizing fresh with
  | head hc =>
    rw [followChain, if_pos (by simpa using hc)]
  | @link n t next c ht hsub hnext hleads ih =>
    have hself : Leads s connectors subs (n + 1) t c := .link ht hsub hnext hleads
    have hmem : t ∈ fresh := Decidable.byContradiction fun hfresh =>
      Nat.lt_irrefl _ (hvisited t hsub hfresh ht (n + 1) c hself)
    rw [followChain, if_neg (by simpa using ht), dif_pos hmem]
    simp only [hnext]
    refine ih fun p hp hfresh hc m c' hm => ?_
    by_cases hpt : p = t
    · -- the node just left is one link farther away than the next one
      subst hpt
      have := hself.length_unique hm
      omega
    · have hnotFresh : p ∉ fresh := fun hpf =>
        hfresh (List.mem_filter.2 ⟨hpf, by simpa using hpt⟩)
      have := hvisited p hp hnotFresh hc m c' hm
      omega

/-- Following the chain of a sub-connector finds a connector exactly when the chain leads there,
circles or no circles. -/
theorem followChain_eq_connector_iff {sub t c : Path}
    (hnext : s.pointer? sub Pointer.destination = some t) :
    followChain s connectors (without subs sub) t = .connector c ↔
      ∃ n, Leads s connectors subs n t c := by
  constructor
  · intro h
    obtain ⟨n, -, hleads⟩ := leads_of_followChain (fun p hp => (List.mem_filter.1 hp).1) h
    exact ⟨n, hleads⟩
  · rintro ⟨n, hleads⟩
    refine followChain_of_leads hleads fun p hp hfresh hc m c' hm => ?_
    have hpsub : p = sub := Decidable.byContradiction fun hne =>
      hfresh (List.mem_filter.2 ⟨hp, by simpa using hne⟩)
    subst hpsub
    cases hm with
    | head hc' => exact absurd hc' hc
    | link _ _ hnext' hleads' =>
      rw [hnext] at hnext'
      cases hnext'
      have := hleads.length_unique hleads'
      omega

end

/-! ## The motif of a sub-connector -/

section
variable {s : Store} {a : Architecture} {sub c : Path}

/-- Every motif is headed by a binary connector of the architecture. -/
theorem mem_connectors_of_motifOf? (h : motifOf? s a sub = some c) : c ∈ a.connectors := by
  obtain ⟨t, hnext, ht⟩ := Option.bind_eq_some_iff.1 h
  cases hend : followChain s a.connectors (without a.subConnectors sub) t with
  | connector d =>
    rw [hend] at ht
    cases ht
    obtain ⟨n, hleads⟩ := (followChain_eq_connector_iff hnext).1 hend
    exact hleads.mem_connectors
  | stuck node =>
    rw [hend] at ht
    obtain ⟨e, -, he⟩ := Option.bind_eq_some_iff.1 ht
    exact List.mem_of_find?_eq_some he
  | broken =>
    rw [hend] at ht
    cases ht

/-- Where the chain leads, there is the motif. -/
theorem motifOf?_of_leadsTo (h : LeadsTo s a sub c) : motifOf? s a sub = some c := by
  obtain ⟨t, n, ht, hleads⟩ := h
  rw [motifOf?, ht, Option.bind_some, (followChain_eq_connector_iff ht).2 ⟨n, hleads⟩]

end

end Rendezvous.Architecture
