import Rendezvous.Pipeline
import Rendezvous.Proofs.Architecture.Balance
import Rendezvous.Proofs.Architecture.Ports
import Rendezvous.Proofs.Check.Behavior

/-!
# Accepted models

A model is accepted when its configuration is valid and no gate has anything to report
(`check_eq_ok_iff`).  Of the architecture that the gates hand on, the checks have not changed the
ends of connectors or their ports, and every end is balanced.  So every end has a cardinality
(`Accepted.exists_cardinality`): it was taken from a port, or the end is a component type itself or a
port of one (`Accepted.exists_type_of_portOf?_eq_none`).
-/

namespace Rendezvous

open Architecture Arithmetic

/-! ## The gates -/

/-- The model that the gates make of a store, if all of them let it pass. -/
def checkedModel (s : Store) (config : Config) : CheckedModel :=
  ⟨((build s config).checkConsistency s config).1, s.componentTypes⟩

/-- A configuration and a store that every gate lets pass, with the model that they give. -/
structure Accepted (s : Store) (config : Config) (m : CheckedModel) : Prop where
  valid : config.validate = .ok ()
  parameters : (checkParameters s config).violations = []
  consistency : ((build s config).checkConsistency s config).2.violations = []
  behavior : (checkBehavior s s.componentTypes).violations = []
  architecture_eq : m.architecture = ((build s config).checkConsistency s config).1
  componentTypes_eq : m.componentTypes = s.componentTypes

theorem bind_eq_ok_iff {ε α β : Type} {x : Except ε α} {f : α → Except ε β} {b : β} :
    x >>= f = .ok b ↔ ∃ a, x = .ok a ∧ f a = .ok b := by
  cases x <;> simp [bind, Except.bind]

theorem mapError_eq_ok_iff {ε ε' α : Type} {f : ε → ε'} {x : Except ε α} {a : α} :
    x.mapError f = .ok a ↔ x = .ok a := by
  cases x <;> simp [Except.mapError]

theorem gate_eq_ok_iff {stage : Stage} {report : Report} {u : Unit} :
    gate stage report = .ok u ↔ report.violations = [] := by
  unfold gate Report.isEmpty
  cases report.violations <;> simp

/-- **A model is accepted exactly when no gate reports anything.** -/
theorem check_eq_ok_iff {s : Store} {config : Config} {m : CheckedModel} :
    config.check s = .ok m ↔ Accepted s config m := by
  unfold Config.check
  simp only [bind_eq_ok_iff, mapError_eq_ok_iff, gate_eq_ok_iff]
  constructor
  · rintro ⟨_, hvalid, _, hparameters, _, hconsistency, _, hbehavior, hm⟩
    obtain rfl := Except.ok.inj hm
    exact ⟨hvalid, hparameters, hconsistency, hbehavior, rfl, rfl⟩
  · rintro ⟨hvalid, hparameters, hconsistency, hbehavior, harchitecture, htypes⟩
    refine ⟨(), hvalid, (), hparameters, (), hconsistency, (), hbehavior, ?_⟩
    rw [← harchitecture, ← htypes]
    rfl

/-! ## What checking connectors keeps -/

namespace Architecture

/-- Resolving motifs only adds to a report. -/
theorem extends_resolveMotifs (s : Store) (a : Architecture) (report : Report) :
    report.Extends (resolveMotifs s a report).2 := by
  have hstep : ∀ (r : Architecture × Report) (sub : Path),
      r.2.Extends (attachSubConnector s r sub).2 := by
    intro r sub
    unfold attachSubConnector
    split
    · exact Report.extends_refl _
    · split
      · exact Report.extends_refl _
      · split
        · exact Report.extends_refl _
        · exact Report.extends_add _ _ _ _
  exact Report.extends_foldl Prod.snd hstep a.subConnectors (deriveCardinalities s a, report)

/-- Only component types and their ports have a cardinality after building. -/
theorem exists_type_of_cardinality?_build {s : Store} {config : Config} {p : Path} {k : UInt32}
    (h : (build s config).cardinality? p = some k) :
    ∃ t, s.instanceType? t = some .componentType ∧ HasCardinalityOf s t p := by
  have hfold : ∀ (types : List Path) (f : Path → Option UInt32),
      types.foldl (writeCardinality s config) f p = some k →
        f p = some k ∨ ∃ t ∈ types, HasCardinalityOf s t p := by
    intro types
    induction types with
    | nil => exact fun f hf => Or.inl hf
    | cons t types ih =>
      intro f hf
      rcases ih _ hf with hwrite | ⟨u, hu, hp⟩
      · unfold writeCardinality at hwrite
        split at hwrite
        · next hp => exact Or.inr ⟨t, .head types, hp⟩
        · exact Or.inl hwrite
      · exact Or.inr ⟨u, .tail t hu, hp⟩
  rw [cardinality?_build] at h
  rcases hfold _ _ h with hnone | ⟨t, ht, hp⟩
  · cases hnone
  · obtain ⟨m, hm, hw⟩ := Store.mem_instancesWhere.1 ht
    exact ⟨t, by rw [hm, beq_iff_eq.1 hw], hp⟩

section
variable {s : Store} {ev : Evaluator} {p : Progress}

theorem portOf?_settleFactor (e : Path) (d : Nat) (k : UInt32) (m : Nat) :
    (settleFactor e d k m p).2.annotations.portOf? = p.annotations.portOf? := by
  have hkeep : ∀ {f : Derived → Derived}, (∀ d, (f d).port = d.port) → ∀ t : Annotations,
      (t.modify e f).portOf? = t.portOf? :=
    fun hf t => funext fun q => Annotations.view_modify Derived.port hf t e q
  unfold settleFactor
  dsimp only
  split
  · rw [hkeep (by intro _; rfl), hkeep (by intro _; rfl)]
  · rw [hkeep (by intro _; rfl)]

theorem portOf?_checkEnd (e : Path) :
    (checkEnd s ev e p).2.annotations.portOf? = p.annotations.portOf? := by
  unfold checkEnd
  split
  · rfl
  · unfold checkResolvedEnd
    dsimp only
    split
    · exact portOf?_settleFactor e _ _ _
    · rfl

theorem portOf?_checkEnds {c : Path} {reference : Option Nat} {es : List Path} :
    (checkEnds s ev c reference es p).annotations.portOf? = p.annotations.portOf? := by
  induction es generalizing reference p with
  | nil => rfl
  | cons e es ih =>
    rcases checkEnds_cons_cases s ev c e reference es p with ⟨reference', h⟩ | ⟨code, message, h⟩
    · rw [h, ih, portOf?_checkEnd]
    · rw [h]
      exact portOf?_checkEnd e

end

/-- Checking connectors keeps the ports. -/
theorem portOf?_checkConnectors (s : Store) (config : Config) (a : Architecture) (report : Report) :
    (checkConnectors s config a report).1.annotations.portOf? = a.annotations.portOf? :=
  view_foldl (fun p : Progress => p.annotations.portOf?) (fun _ _ => portOf?_checkEnds)
    a.connectors (Progress.mk a.annotations report)

end Architecture

/-! ## Ends of accepted models -/

namespace Accepted

variable {s : Store} {config : Config} {m : CheckedModel} (h : Accepted s config m)
include h

/-- Neither resolving motifs nor checking connectors reports anything. -/
theorem silent :
    let r := resolveMotifs s (build s config) (.empty .architecture)
    r.2 = .empty .architecture ∧ (checkConnectors s config r.1 r.2).2 = r.2 := by
  intro r
  have hresolve : (Report.empty .architecture).Extends r.2 := extends_resolveMotifs _ _ _
  have hcheck : r.2.Extends (checkConnectors s config r.1 r.2).2 :=
    (keeps_foldl_checkConnector s (r.1.evaluator config) ⟨r.1.annotations, r.2⟩
      r.1.connectors).extends_report
  exact (hresolve.eq_iff hcheck).1 ((hresolve.trans hcheck).violations_eq_nil_iff.1 h.consistency)

/-- Component types have distinct names. -/
theorem names_nodup : (s.componentTypes.map s.nameOf).Nodup :=
  (checkBehavior_violations_eq_nil_iff.1 h.behavior).1

/-- The machine of a component type has passed by itself. -/
theorem checkMachine_eq {t : Path} (ht : t ∈ s.componentTypes) :
    Behavior.checkMachine s t (s.nameOf t) (.empty .behavior) = .empty .behavior :=
  ((checkBehavior_violations_eq_nil_iff.1 h.behavior).2 t ht).2

theorem connectors_eq : m.architecture.connectors = (build s config).connectors := by
  rw [h.architecture_eq]
  exact (resolving_resolveMotifs s config _).connectors_eq

theorem ends_eq : m.architecture.ends =
    (resolveMotifs s (build s config) (.empty .architecture)).1.ends := by
  rw [h.architecture_eq]
  exact ends_eq_of_keeps (keeps_foldl_checkConnector _ _ ⟨_, _⟩ _)

/-- The port of an end is what building has recorded. -/
theorem portOf?_eq :
    m.architecture.annotations.portOf? = connectedPort? s (build s config).connections := by
  rw [h.architecture_eq, ← portOf?_build, ← portOf?_resolveMotifs s (build s config) (.empty _)]
  exact portOf?_checkConnectors s config _ _

/-- Every end has a cardinality. -/
theorem exists_cardinality {c e : Path} (hc : c ∈ m.architecture.connectors)
    (he : e ∈ m.architecture.ends c) :
    ∃ k, (resolveMotifs s (build s config) (.empty .architecture)).1.cardinality? e = some k := by
  obtain ⟨-, hsilent⟩ := h.silent
  have hresolved := resolving_resolveMotifs s config (.empty .architecture)
  have hfaithful := faithful_of_texts (faithful_build s config) hresolved.texts_eq
  rw [h.connectors_eq, ← hresolved.connectors_eq] at hc
  rw [h.ends_eq] at he
  obtain ⟨F, hF⟩ := (foldl_checkConnector_eq_iff (p := ⟨_, _⟩) hfaithful).1 hsilent c hc
  obtain ⟨k, d, m, hbalanced⟩ := hF e he
  exact ⟨k, hbalanced.cardinality_eq⟩

/-- An end that a connection starts from has a port. -/
theorem exists_port {c e k : Path} (hc : c ∈ m.architecture.connectors)
    (he : e ∈ m.architecture.ends c) (hk : k ∈ (build s config).connections)
    (hend : connectionEnd? s k = some e) :
    ∃ p, m.architecture.annotations.portOf? e = some p := by
  obtain ⟨n, hn⟩ := h.exists_cardinality hc he
  obtain ⟨before, last, after, hlast⟩ := exists_lastFrom ⟨k, hk, hend⟩
  rw [cardinality?_resolveMotifs, hlast.cardinality_eq] at hn
  -- the cardinality was taken from what the last connection leads to
  obtain ⟨q, hq, -⟩ := Option.bind_eq_some_iff.1 hn
  rw [h.portOf?_eq]
  refine Option.isSome_iff_exists.1 (List.findSome?_isSome_iff.2 ⟨last, ?_, ?_⟩)
  · rw [hlast.split]
    simp
  · rw [if_pos hlast.starts, hq]
    rfl

/-- **An end without a port is a component type itself, or a port of one.** -/
theorem exists_type_of_portOf?_eq_none {c e : Path} (hc : c ∈ m.architecture.connectors)
    (he : e ∈ m.architecture.ends c) (hnone : m.architecture.annotations.portOf? e = none) :
    ∃ t, s.instanceType? t = some .componentType ∧ HasCardinalityOf s t e := by
  obtain ⟨n, hn⟩ := h.exists_cardinality hc he
  rw [cardinality?_resolveMotifs, foldl_takeCardinality_of_none] at hn
  · exact exists_type_of_cardinality?_build hn
  · intro k hk hend
    obtain ⟨p, hp⟩ := h.exists_port hc he hk hend
    rw [hnone] at hp
    cases hp

end Accepted

end Rendezvous
