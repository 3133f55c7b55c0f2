import Rendezvous.Proofs.Store.Instances
import Rendezvous.Proofs.Store.Writes

/-!
# The store as a plain list of nodes

What a store holds after any history of loads and writes is a list of nodes: a load takes out the
node under the same path, with its attributes, and puts the new one at the end; a write changes one
attribute of a listed node in its place and refuses any other path.  The store keeps the nodes, the
index of children and the attributes in three tables and changes each by hand, yet all three stay
those of the list (`Store.Holds`), and every query gives the answer that can be read off it
(`answers_replay`).
-/

namespace Rendezvous

/-! ## Changes -/

/-- A call that changes a store. -/
inductive Change where
  | load (path : Path) (node : Node)
  | write (path : Path) (name value : String)

/-- Makes a change, or says why it cannot be made. -/
def Store.change (s : Store) : Change → Except StoreError Store
  | .load path node => .ok (s.add path node)
  | .write path name value => s.setAttribute path name value

/-- What a history of changes has come to: what each call answered, and the last state. -/
structure History (σ : Type) where
  outcomes : List (Except StoreError Unit)
  state : σ

/-- Makes changes in order.  One that cannot be made leaves the state as it is. -/
def replay {σ : Type} (change : σ → Change → Except StoreError σ) (x : σ) :
    List Change → History σ
  | [] => ⟨[], x⟩
  | c :: cs =>
    match change x c with
    | .ok y => let rest := replay change y cs; ⟨.ok () :: rest.outcomes, rest.state⟩
    | .error e => let rest := replay change x cs; ⟨.error e :: rest.outcomes, rest.state⟩

/-- What can be asked about the nodes of a model. -/
@[ext] structure Answers where
  paths : List Path
  contains : Path → Bool
  node? : Path → Option Node
  attributeAt? : Path → String → Option String
  attributeText : Path → String → String
  nameOf : Path → String
  parent? : Path → Option Path
  children : Path → List Path
  pointer? : Path → String → Option Path
  metaType? : Path → Option MetaType
  isMetaNode : Path → Bool
  isA : Path → MetaType → Bool
  isTemplate : Path → Bool
  isInstance : Path → Bool

/-- What a store answers. -/
def Store.answers (s : Store) : Answers where
  paths := s.paths
  contains := s.contains
  node? := s.node?
  attributeAt? := s.attributeAt?
  attributeText := s.attributeText
  nameOf := s.nameOf
  parent? := s.parent?
  children := s.children
  pointer? := s.pointer?
  metaType? := s.metaType?
  isMetaNode := s.isMetaNode
  isA := s.isA
  isTemplate := s.isTemplate
  isInstance := s.isInstance

/-! ## The list -/

/-- Nodes with their paths, in order. -/
abbrev Listing := List (Path × Node)

namespace Listing

/-- Makes a change to a list of nodes. -/
def change (l : Listing) : Change → Except StoreError Listing
  | .load path node => .ok (l.filter (fun e => e.1 ≠ path) ++ [(path, node)])
  | .write path name value =>
    if path ∈ l.map Prod.fst then
      .ok (l.map fun e => if e.1 = path then (e.1, Store.withAttribute e.2 name value) else e)
    else .error (.unknownNode path)

/-- The first node under a path. -/
def node? (l : Listing) (p : Path) : Option Node :=
  (l.find? fun e => e.1 = p).map Prod.snd

/-- What a list answers: it is searched for one path, or its nodes are passed through in order. -/
def answers (l : Listing) : Answers where
  paths := l.map Prod.fst
  contains p := p ∈ l.map Prod.fst
  node? := l.node?
  attributeAt? p name := (l.node? p).bind fun n => n.attributes.get? name
  attributeText p name := ((l.node? p).bind fun n => n.attributes.get? name).getD ""
  nameOf p := ((l.node? p).bind fun n => n.attributes.get? Attribute.name).getD ""
  parent? p := (l.node? p).bind Node.parent
  children p := (l.filter fun e => e.2.parent = some p).map Prod.fst
  pointer? p name := (l.node? p).bind fun n => n.pointers.get? name
  metaType? p := (l.node? p).map Node.metaType
  isMetaNode p := (l.node? p).any Node.isMetaNode
  isA p m := (l.node? p).any fun n => n.metaType.isA m
  isTemplate p :=
    (((l.node? p).bind Node.parent).bind l.node?).any fun n => n.metaType.isTemplateContainer
  isInstance p :=
    !((l.node? p).any Node.isMetaNode) &&
      !(((l.node? p).bind Node.parent).bind l.node?).any fun n => n.metaType.isTemplateContainer

end Listing

/-! ## Entries as a list -/

namespace Entries

variable {κ ν : Type} [DecidableEq κ] {k : κ} {es : List (κ × ν)}

theorem find?_eq_find? : find? k es = (es.find? fun e => e.1 = k).map Prod.snd := by
  induction es with
  | nil => rfl
  | cons e rest ih =>
    by_cases h : e.1 = k
    · simp [find?, h]
    · simp [find?, h, ih]

end Entries

/-! ## One change -/

/-- A store holds the nodes of a list, in its order: what they are, who their children are and what
attributes they have, each in a table of its own.  A path that is not listed has no attributes. -/
structure Store.Holds (s : Store) (l : Listing) : Prop where
  nodes : s.nodes.entries = l.map fun e => (e.1, e.2.frame)
  children : ∀ p, listed s.childIndex p = (l.filter fun e => e.2.parent = some p).map Prod.fst
  attributes : ∀ p, s.attributes.get? p = (l.node? p).map Node.attributes

namespace Store

variable {s : Store} {l : Listing}

theorem node?_loaded (p : Path) : s.node? p = Listing.node? s.loaded.entries p :=
  Entries.find?_eq_find?

/-- The tables are those of the nodes that are read from them. -/
theorem holds_loaded : s.Holds s.loaded.entries := by
  have hnodes : s.loaded.entries.map (fun e => (e.1, e.2.frame)) = s.nodes.entries := by
    simp [loaded, Table.mapEntries, Function.comp_def]
  refine ⟨hnodes.symm, fun p => ?_, fun p => ?_⟩
  · rw [s.index_eq, childrenIn, ← hnodes, List.filter_map, List.map_map]
    rfl
  · rw [attributes_get?_eq, node?_loaded]

namespace Holds

variable (h : s.Holds l)
include h

/-- What is read from the tables is the list. -/
theorem loaded_eq : s.loaded.entries = l := by
  have nodup : (l.map Prod.fst).Nodup := by
    have hkeys := s.nodes.nodup
    rwa [h.nodes, List.map_map] at hkeys
  show s.nodes.entries.map _ = l
  rw [h.nodes, List.map_map]
  refine (List.map_congr_left fun e he => ?_).trans (List.map_id' l)
  -- no other listed node has the path, so the attributes found under it are those of the node
  have hlisted : l.node? e.1 = some e.2 := by
    rw [Listing.node?, ← Entries.find?_eq_find?]
    exact Entries.find?_eq_some_of_mem nodup he
  have hattributes : s.attributesOf e.1 = e.2.attributes := by
    rw [attributesOf, h.attributes, hlisted]
    rfl
  simp [hattributes]

theorem node?_eq (p : Path) : s.node? p = l.node? p := by
  rw [node?_loaded, h.loaded_eq]

theorem paths_eq : s.paths = l.map Prod.fst := by
  rw [← keys_loaded, Table.keys, h.loaded_eq]

/-- A store answers as the list of its nodes. -/
theorem answers_eq : s.answers = l.answers := by
  have hparent : s.parent? = fun p => (l.node? p).bind Node.parent := by
    funext p
    rw [parent?_eq, h.node?_eq]
  have hmeta : s.metaType? = fun p => (l.node? p).map Node.metaType := by
    funext p
    rw [metaType?_eq, h.node?_eq]
  have hattribute : s.attributeAt? = fun p name =>
      (l.node? p).bind fun n => n.attributes.get? name := by
    funext p name
    rw [attributeAt?, h.attributes, Option.bind_map]
    rfl
  have hmetaNode : s.isMetaNode = fun p => (l.node? p).any Node.isMetaNode := by
    funext p
    rw [isMetaNode_eq, h.node?_eq]
    cases l.node? p <;> rfl
  have htemplate : s.isTemplate = fun p =>
      (((l.node? p).bind Node.parent).bind l.node?).any fun n =>
        n.metaType.isTemplateContainer := by
    funext p
    simp only [isTemplate, hparent, hmeta]
    cases (l.node? p).bind Node.parent with
    | none => rfl
    | some q => cases hq : l.node? q <;> simp [hq]
  apply Answers.ext
  case paths => exact h.paths_eq
  case contains =>
    funext p
    have hmem : s.contains p = true ↔ p ∈ l.map Prod.fst := by
      rw [← h.paths_eq]
      exact (s.nodes.mem_keys_iff p).symm
    show s.contains p = decide (p ∈ l.map Prod.fst)
    simp [← hmem]
  case node? => exact funext h.node?_eq
  case attributeAt? => exact hattribute
  case attributeText =>
    funext p name
    exact congrArg (Option.getD · "") (congrFun₂ hattribute p name)
  case nameOf =>
    funext p
    exact congrArg (Option.getD · "") (congrFun₂ hattribute p Attribute.name)
  case parent? => exact hparent
  case children =>
    funext p
    show s.children p = _
    rw [children_eq, ← s.index_eq, h.children]
    rfl
  case pointer? =>
    funext p name
    show s.pointer? p name = _
    rw [pointer?_eq, h.node?_eq]
    rfl
  case metaType? => exact hmeta
  case isMetaNode => exact hmetaNode
  case isA =>
    funext p m
    show s.isA p m = _
    rw [isA, hmeta]
    cases hp : l.node? p <;> simp [Listing.answers, hp]
  case isTemplate => exact htemplate
  case isInstance =>
    funext p
    show s.isInstance p = _
    rw [isInstance, hmetaNode, htemplate]
    rfl

end Holds

/-- A node of a store is loaded under its path. -/
theorem mem_paths_iff {p : Path} : p ∈ s.paths ↔ (s.node? p).isSome = true := by
  rw [← keys_loaded]
  exact s.loaded.mem_keys_iff p

end Store

/-- **A change of a store is the change of its list**: both can be made, or neither, for the same
reason. -/
theorem Store.Holds.change {s : Store} {l : Listing} (h : s.Holds l) (c : Change) :
    (∃ s' l', s.change c = .ok s' ∧ l.change c = .ok l' ∧ s'.Holds l') ∨
      ∃ e, s.change c = .error e ∧ l.change c = .error e := by
  cases c with
  | load path node =>
    left
    refine ⟨s.add path node, l.filter (fun e => e.1 ≠ path) ++ [(path, node)], rfl, rfl, ?_⟩
    have hadd : (s.add path node).loaded.entries = l.filter (fun e => e.1 ≠ path) ++ [(path, node)] := by
      rw [← h.loaded_eq]
      exact s.entries_loaded_add path node
    rw [← hadd]
    exact holds_loaded
  | write path name value =>
    have hmem : path ∈ l.map Prod.fst ↔ (s.node? path).isSome = true := by
      rw [← h.paths_eq, mem_paths_iff]
    obtain ⟨hn, herror⟩ | ⟨n, s', hn, hok, -, -⟩ := s.setAttribute_cases path name value
    · right
      have habsent : path ∉ l.map Prod.fst := by simp [hmem, hn]
      exact ⟨_, herror, if_neg habsent⟩
    · left
      have hlisted : path ∈ l.map Prod.fst := by simp [hmem, hn]
      refine ⟨s', _, hok, if_pos hlisted, ?_⟩
      have hwritten : s'.loaded.entries =
          l.map fun e => if e.1 = path then (e.1, withAttribute e.2 name value) else e := by
        rw [loaded_setAttribute hok, ← h.loaded_eq]
        refine List.map_congr_left fun e _ => ?_
        by_cases hp : path = e.1
        · simp [hp]
        · simp [hp, Ne.symm hp]
      rw [← hwritten]
      exact holds_loaded

/-! ## Histories -/

/-- **What a change keeps, a history keeps**: the store still holds the list, and every call has
answered alike. -/
theorem Store.Holds.replay {s : Store} {l : Listing} (h : s.Holds l) (changes : List Change) :
    (replay Store.change s changes).outcomes = (replay Listing.change l changes).outcomes ∧
      (replay Store.change s changes).state.Holds (replay Listing.change l changes).state := by
  induction changes generalizing s l with
  | nil => exact ⟨rfl, h⟩
  | cons c changes ih =>
    obtain ⟨s', l', hs, hl, h'⟩ | ⟨e, hs, hl⟩ := h.change c
    · obtain ⟨houtcomes, hstate⟩ := ih h'
      simp only [Rendezvous.replay, hs, hl]
      exact ⟨congrArg _ houtcomes, hstate⟩
    · obtain ⟨houtcomes, hstate⟩ := ih h
      simp only [Rendezvous.replay, hs, hl]
      exact ⟨congrArg _ houtcomes, hstate⟩

/-- **The store is a plain list of nodes.**  After any history of loads and writes, each call has
answered what the list of nodes answers, and so does every query on what is loaded.  Paths do not
repeat, the children of any path are the loaded nodes with that parent in load order, and a write
changes one attribute of a loaded node and refuses every other path. -/
theorem answers_replay (changes : List Change) :
    let stored := replay Store.change .empty changes
    let listed := replay Listing.change [] changes
    stored.outcomes = listed.outcomes ∧ stored.state.answers = listed.state.answers ∧
      stored.state.paths.Nodup ∧
      (∀ p, stored.state.children p =
        stored.state.paths.filter fun c => stored.state.parent? c = some p) ∧
      ∀ p name value,
        (p ∈ stored.state.paths → ∃ s, stored.state.setAttribute p name value = .ok s ∧
          stored.state.Writes s p name value) ∧
        (p ∉ stored.state.paths →
          stored.state.setAttribute p name value = .error (.unknownNode p)) := by
  intro stored listed
  have hempty : Store.empty.Holds [] := Store.holds_loaded
  obtain ⟨houtcomes, hholds⟩ := hempty.replay changes
  refine ⟨houtcomes, hholds.answers_eq, stored.state.nodes.nodup, stored.state.children_eq_filter,
    fun p name value => ?_⟩
  rw [Store.mem_paths_iff]
  obtain ⟨hn, herror⟩ | ⟨n, s, hn, hok, -, -⟩ := stored.state.setAttribute_cases p name value
  · exact ⟨fun hsome => by simp [hn] at hsome, fun _ => herror⟩
  · exact ⟨fun _ => ⟨s, hok, Store.writes_of_setAttribute hok⟩, fun hnone => by simp [hn] at hnone⟩

end Rendezvous
