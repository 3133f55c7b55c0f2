import Rendezvous.Proofs.Check.Acceptance
import Rendezvous.Proofs.Check.Machines

/-!
# Closed state machines

A state machine is closed when it has an initial state and its transitions connect its own states.
The gates see to the initial state, and to it that every transition has its two pointers, but not
to where these lead: the target may be no state of the component type, or no loaded node at all.  So
the machine of an accepted component type is closed exactly when the endpoints of its transitions
have the names of its states (`check_isClosed_iff`), and a dangling pointer gives a transition from a
state without a name (`not_isClosed_danglingSource`).
-/

namespace Rendezvous

namespace Component

/-- A state machine has an initial state, and its transitions connect its own states. -/
structure IsClosed (c : Component) : Prop where
  initial : c.initialState?.isSome = true
  sources : ∀ tr ∈ c.transitions, tr.source ∈ c.states.map ComponentState.name
  targets : ∀ tr ∈ c.transitions, tr.target ∈ c.states.map ComponentState.name

/-- What the transitions of a component type start from and lead to. -/
def endpoints (s : Store) (t : Path) : List Path :=
  ((s.children t).filter s.isTransition).flatMap fun p =>
    (s.pointer? p Pointer.source).toList ++ (s.pointer? p Pointer.destination).toList

/-! ## States and transitions of a component type -/

section
variable {s : Store} {t p : Path}

theorem state?_eq_some_iff {st : ComponentState} : state? s p = some st ↔
    s.isA p .state = true ∧ st = ⟨p, s.nameOf p, s.metaType? p = some .initialState⟩ := by
  unfold state? Store.isA
  cases s.metaType? p with
  | none => simp
  | some m =>
    simp only [Option.bind_some, Option.map_some, Option.getD_some, Option.some.injEq]
    split
    · next hstate => simp only [hstate, Option.some.injEq, true_and, eq_comm]
    · next hstate => simp only [hstate, reduceCtorEq, false_and]

theorem mem_map_name_states {name : String} :
    name ∈ (ofStore s t).states.map ComponentState.name ↔
      ∃ u ∈ s.children t, s.isA u .state = true ∧ s.nameOf u = name := by
  simp only [ofStore, List.mem_map, List.mem_filterMap, state?_eq_some_iff]
  constructor
  · rintro ⟨_, ⟨u, hu, hstate, rfl⟩, rfl⟩
    exact ⟨u, hu, hstate, rfl⟩
  · rintro ⟨u, hu, hstate, rfl⟩
    exact ⟨_, ⟨u, hu, hstate, rfl⟩, rfl⟩

/-- A component type with an initial state among its children has one. -/
theorem isSome_initialState? (hp : p ∈ s.children t)
    (hmeta : s.metaType? p = some .initialState) :
    (ofStore s t).initialState?.isSome = true := by
  have hstate : state? s p = some ⟨p, s.nameOf p, true⟩ := by
    unfold state?
    rw [hmeta]
    rfl
  rw [initialState?, Option.isSome_map, List.find?_isSome]
  exact ⟨_, List.mem_filterMap.2 ⟨p, hp, hstate⟩, rfl⟩

/-- The transitions of a component type are those of its children. -/
theorem forall_transitions_iff {P : String → String → Prop} :
    (∀ tr ∈ (ofStore s t).transitions, P tr.source tr.target) ↔
      ∀ p ∈ s.children t, s.isTransition p = true →
        P (targetName s p Pointer.source) (targetName s p Pointer.destination) := by
  have hkind : ∀ p, ((s.metaType? p).bind TransitionKind.ofMetaType?).isSome =
      s.isTransition p := by
    intro p
    unfold Store.isTransition
    cases s.metaType? p with
    | none => rfl
    | some m => cases m <;> rfl
  simp only [ofStore, List.mem_filterMap, transition?, Option.map_eq_some_iff, ← hkind,
    Option.isSome_iff_exists]
  constructor
  · rintro h p hp ⟨kind, hkind⟩
    exact h _ ⟨p, hp, kind, hkind, rfl⟩
  · rintro h _ ⟨p, hp, kind, hkind, rfl⟩
    exact h p hp ⟨kind, hkind⟩

theorem mem_endpoints {q : Path} : q ∈ endpoints s t ↔
    ∃ p ∈ s.children t, s.isTransition p = true ∧
      (s.pointer? p Pointer.source = some q ∨ s.pointer? p Pointer.destination = some q) := by
  simp [endpoints, and_assoc]

end

/-- With both pointers in place, the states that transitions name are the endpoints' names. -/
theorem isClosed_iff_endpoints {s : Store} {t : Path}
    (hinitial : (ofStore s t).initialState?.isSome = true)
    (hpointers : ∀ p ∈ s.children t, s.isTransition p = true →
      (s.pointer? p Pointer.source).isSome = true ∧
        (s.pointer? p Pointer.destination).isSome = true) :
    (ofStore s t).IsClosed ↔
      ∀ q ∈ endpoints s t, s.nameOf q ∈ (ofStore s t).states.map ComponentState.name := by
  have hname : ∀ {p q : Path} {pointer : String}, s.pointer? p pointer = some q →
      targetName s p pointer = s.nameOf q := by
    intro p q pointer h
    rw [targetName, h]
    rfl
  have hclosed : (ofStore s t).IsClosed ↔ ∀ p ∈ s.children t, s.isTransition p = true →
      targetName s p Pointer.source ∈ (ofStore s t).states.map ComponentState.name ∧
        targetName s p Pointer.destination ∈ (ofStore s t).states.map ComponentState.name := by
    rw [← forall_transitions_iff (P := fun source target =>
      source ∈ (ofStore s t).states.map ComponentState.name ∧
        target ∈ (ofStore s t).states.map ComponentState.name)]
    exact ⟨fun h tr htr => ⟨h.sources tr htr, h.targets tr htr⟩,
      fun h => ⟨hinitial, fun tr htr => (h tr htr).1, fun tr htr => (h tr htr).2⟩⟩
  rw [hclosed]
  constructor
  · intro h q hq
    obtain ⟨p, hp, htransition, hsource | hdestination⟩ := mem_endpoints.1 hq
    · rw [← hname hsource]
      exact (h p hp htransition).1
    · rw [← hname hdestination]
      exact (h p hp htransition).2
  · intro h p hp htransition
    obtain ⟨hsource, hdestination⟩ := hpointers p hp htransition
    obtain ⟨q, hq⟩ := Option.isSome_iff_exists.1 hsource
    obtain ⟨r, hr⟩ := Option.isSome_iff_exists.1 hdestination
    rw [hname hq, hname hr]
    exact ⟨h q (mem_endpoints.2 ⟨p, hp, htransition, Or.inl hq⟩),
      h r (mem_endpoints.2 ⟨p, hp, htransition, Or.inr hr⟩)⟩

end Component

/-! ## Accepted machines -/

open Component (IsClosed endpoints ofStore)

/-- **When an accepted state machine is closed.**  It has an initial state, and all its transitions
have a source and a destination.  It is closed exactly when these have the names of its states, and
in particular when they are states among its own children. -/
theorem check_isClosed_iff {s : Store} {config : Config} {m : CheckedModel}
    (h : config.check s = .ok m) {t : Path} (ht : t ∈ m.componentTypes) :
    (ofStore s t).initialState?.isSome = true ∧
    (∀ p ∈ s.children t, s.isTransition p = true →
      (s.pointer? p Pointer.source).isSome = true ∧
        (s.pointer? p Pointer.destination).isSome = true) ∧
    ((ofStore s t).IsClosed ↔ ∀ q ∈ endpoints s t,
      ∃ u ∈ s.children t, s.isA u .state = true ∧ s.nameOf u = s.nameOf q) ∧
    ((∀ q ∈ endpoints s t, q ∈ s.children t ∧ s.isA q .state = true) →
      (ofStore s t).IsClosed) := by
  have hacc : Accepted s config m := check_eq_ok_iff.1 h
  have hmachine := hacc.checkMachine_eq (hacc.componentTypes_eq ▸ ht)
  obtain ⟨c, hc, hmeta⟩ := Behavior.exists_initialState_of_checkMachine hmachine
  have hinitial := Component.isSome_initialState? hc hmeta
  have hpointers := fun p (hp : p ∈ s.children t) =>
    Behavior.isSome_pointer?_of_checkMachine hmachine hp
  have hclosed := Component.isClosed_iff_endpoints hinitial hpointers
  simp only [Component.mem_map_name_states] at hclosed
  refine ⟨hinitial, hpointers, hclosed, fun hstates => hclosed.2 fun q hq => ?_⟩
  obtain ⟨hchild, hstate⟩ := hstates q hq
  exact ⟨q, hchild, hstate, rfl⟩

/-! ## A transition that starts nowhere -/

/-- A component type `/a` with one state `/a/s` and one transition to it, from `source`. -/
def transitionFrom (source : Path) : Store :=
  Store.empty.addMany [
    ("/a", Architecture.namedNode .componentType none "A" Attribute.cardinality "1"),
    ("/a/s", ⟨.initialState, false, some "/a", .ofList [(Attribute.name, "s")], .empty⟩),
    ("/a/p", ⟨.enforceableTransition, false, some "/a",
      .ofList [(Attribute.name, "p"), (Attribute.transitionMethod, "void p() \x7b\x7d")],
      .ofList [(Pointer.source, source), (Pointer.destination, "/a/s")]⟩)]

theorem check_isClosed_iff_ownState :
    Config.empty.check (transitionFrom "/a/s") =
      .ok (checkedModel (transitionFrom "/a/s") .empty) ∧
    "/a" ∈ (checkedModel (transitionFrom "/a/s") .empty).componentTypes ∧
    (ofStore (transitionFrom "/a/s") "/a").IsClosed := by
  have hcheck : Config.empty.check (transitionFrom "/a/s") =
      .ok (checkedModel (transitionFrom "/a/s") .empty) := by
    decide +kernel
  have htype : "/a" ∈ (checkedModel (transitionFrom "/a/s") .empty).componentTypes := by decide
  obtain ⟨-, -, -, hclosed⟩ := check_isClosed_iff hcheck htype
  exact ⟨hcheck, htype, hclosed (by decide +kernel)⟩

/-- A source that is not loaded is accepted, and no state of the machine has its name. -/
theorem not_isClosed_danglingSource :
    ¬ ∀ m, Config.empty.check (transitionFrom "/x") = .ok m →
      ∀ t ∈ m.componentTypes, (ofStore (transitionFrom "/x") t).IsClosed := by
  intro h
  have hcheck : Config.empty.check (transitionFrom "/x") =
      .ok (checkedModel (transitionFrom "/x") .empty) := by
    decide +kernel
  have hclosed := h _ hcheck "/a" (by decide)
  exact absurd hclosed.sources (by decide +kernel)

end Rendezvous
