import Rendezvous.Table
import Rendezvous.Model.MetaType
import Rendezvous.Model.Vocabulary

/-!
# The store of model nodes

A model is a set of nodes, each under a path of its own, in the order in which they were loaded.  A
node knows its parent by path, whether or not that parent is loaded.  The store keeps three tables:
what the nodes are apart from their attributes, an index from parents to children, and the
attributes, which alone are written after loading.  `index_eq` says that the index lists exactly the
loaded nodes with a parent, in load order, and `attributes_eq` that the loaded nodes and no others have
attributes.  Loading a node under a path that is taken replaces the earlier node with its attributes
and moves it to the end.
-/

namespace Rendezvous

/-- The place of a node, which identifies it. -/
abbrev Path := String

/-- A node of a model. -/
structure Node where
  metaType : MetaType
  /-- Whether the node defines its own meta-type and is no part of the model. -/
  isMetaNode : Bool
  parent : Option Path
  attributes : Table String String
  pointers : Table String Path
  deriving DecidableEq, Inhabited

/-- What a node is apart from its attributes. -/
structure NodeFrame where
  metaType : MetaType
  isMetaNode : Bool
  parent : Option Path
  pointers : Table String Path
  deriving DecidableEq, Inhabited

/-- A node without its attributes. -/
def Node.frame (n : Node) : NodeFrame :=
  ⟨n.metaType, n.isMetaNode, n.parent, n.pointers⟩

/-- A node with these attributes. -/
def NodeFrame.node (f : NodeFrame) (attributes : Table String String) : Node :=
  ⟨f.metaType, f.isMetaNode, f.parent, attributes, f.pointers⟩

@[simp] theorem Node.frame_node (f : NodeFrame) (attributes : Table String String) :
    (f.node attributes).frame = f := rfl

@[simp] theorem NodeFrame.node_frame (n : Node) : n.frame.node n.attributes = n := rfl

/-- The paths of the nodes with a given parent. -/
def childrenIn (p : Path) (es : List (Path × NodeFrame)) : List Path :=
  (es.filter fun e => e.2.parent = some p).map Prod.fst

namespace Store

/-! ## The index of children -/

/-- The children that an index lists. -/
def listed (index : Table Path (List Path)) (p : Path) : List Path :=
  (index.get? p).getD []

/-- Takes a child from its parent's list. -/
def unlink (index : Table Path (List Path)) (child : Path) : Option Path → Table Path (List Path)
  | none => index
  | some p =>
    match index.get? p with
    | none => index
    | some siblings => index.insert p (siblings.filter (· ≠ child))

/-- Appends a child to its parent's list. -/
def link (index : Table Path (List Path)) (child : Path) : Option Path → Table Path (List Path)
  | none => index
  | some p => index.insert p (listed index p ++ [child])

theorem listed_unlink {index : Table Path (List Path)} {child : Path} {parent : Option Path}
    {p : Path} :
    listed (unlink index child parent) p =
      if parent = some p then (listed index p).filter (· ≠ child) else listed index p := by
  cases parent with
  | none => simp [unlink]
  | some q =>
    rw [unlink]
    by_cases h : q = p
    · subst h
      cases hq : index.get? q <;> simp [listed, hq]
    · cases hq : index.get? q <;> simp [listed, h]

theorem listed_link {index : Table Path (List Path)} {child : Path} {parent : Option Path}
    {p : Path} :
    listed (link index child parent) p =
      if parent = some p then listed index p ++ [child] else listed index p := by
  cases parent with
  | none => simp [link]
  | some q => by_cases h : q = p <;> simp [link, listed, h]

theorem childrenIn_append {p : Path} {es es' : List (Path × NodeFrame)} :
    childrenIn p (es ++ es') = childrenIn p es ++ childrenIn p es' := by
  simp [childrenIn]

theorem childrenIn_remove {p k : Path} {es : List (Path × NodeFrame)} :
    childrenIn p (Entries.remove k es) = (childrenIn p es).filter (· ≠ k) := by
  simp only [childrenIn, Entries.remove, List.filter_map, List.filter_filter]
  congr 1
  apply List.filter_congr
  intro e _
  simp [Bool.and_comm]

theorem put_remove {ν : Type} {k : Path} {v : ν} {es : List (Path × ν)} :
    Entries.put k v (Entries.remove k es) = Entries.remove k es ++ [(k, v)] := by
  induction es with
  | nil => rfl
  | cons e rest ih =>
    by_cases h : e.1 = k
    · simpa [Entries.remove, h] using ih
    · have hr : Entries.remove k (e :: rest) = e :: Entries.remove k rest := by
        simp [Entries.remove, h]
      rw [hr, Entries.put, if_neg h, ih, List.cons_append]

theorem not_mem_childrenIn {p k : Path} {es : List (Path × NodeFrame)}
    (nodup : (es.map Prod.fst).Nodup)
    (h : ∀ n, Entries.find? k es = some n → n.parent ≠ some p) : k ∉ childrenIn p es := by
  induction es with
  | nil => simp [childrenIn]
  | cons e rest ih =>
    simp only [List.map_cons, List.nodup_cons] at nodup
    by_cases hk : e.1 = k
    · have hp : e.2.parent ≠ some p := h e.2 (by simp [Entries.find?, hk])
      simp only [childrenIn, List.filter_cons, hp, decide_false, Bool.false_eq_true, if_false]
      intro hm
      obtain ⟨x, hx, rfl⟩ := List.mem_map.1 hm
      exact nodup.1 (List.mem_map.2 ⟨x, (List.mem_filter.1 hx).1, hk ▸ rfl⟩)
    · have hr := ih nodup.2 fun n hn => h n (by simp [Entries.find?, hk, hn])
      simp only [childrenIn, List.filter_cons] at hr ⊢
      split
      · simp only [List.map_cons, List.mem_cons, not_or]
        exact ⟨fun hx => hk hx.symm, hr⟩
      · exact hr

end Store

/-! ## The store -/

/-- The loaded nodes, in load order, with an index of children and a table of attributes. -/
structure Store where
  nodes : Table Path NodeFrame
  childIndex : Table Path (List Path)
  attributes : Table Path (Table String String)
  index_eq : ∀ p, Store.listed childIndex p = childrenIn p nodes.entries
  attributes_eq : ∀ p, attributes.contains p = nodes.contains p

/-- Why a node cannot be written. -/
inductive StoreError where
  | unknownNode (path : Path)
  deriving DecidableEq, Repr, Inhabited

/-- The message of a store error. -/
def StoreError.message : StoreError → String
  | unknownNode path => "Unknown node: " ++ path

namespace Store

/-- No node is loaded. -/
def empty : Store := ⟨.empty, .empty, .empty, fun _ => rfl, fun _ => rfl⟩

instance : Inhabited Store := ⟨empty⟩

/-- What the node loaded under a path is apart from its attributes. -/
def frame? (s : Store) (p : Path) : Option NodeFrame :=
  s.nodes.get? p

/-- Loads a node, replacing the one loaded under the same path. -/
def add (s : Store) (path : Path) (node : Node) : Store where
  nodes := (s.nodes.erase path).insert path node.frame
  childIndex := link (unlink s.childIndex path ((s.frame? path).bind NodeFrame.parent)) path node.parent
  attributes := s.attributes.insert path node.attributes
  index_eq p := by
    have hnodes : ((s.nodes.erase path).insert path node.frame).entries
        = Entries.remove path s.nodes.entries ++ [(path, node.frame)] := put_remove
    rw [hnodes, childrenIn_append, childrenIn_remove, listed_link, listed_unlink, s.index_eq]
    have hlast : childrenIn p [(path, node.frame)] = if node.parent = some p then [path] else [] := by
      by_cases h : node.parent = some p <;> simp [childrenIn, Node.frame, h]
    have hfilter : (if (s.frame? path).bind NodeFrame.parent = some p
        then (childrenIn p s.nodes.entries).filter (· ≠ path) else childrenIn p s.nodes.entries)
        = (childrenIn p s.nodes.entries).filter (· ≠ path) := by
      split
      · rfl
      · next hne =>
        have : path ∉ childrenIn p s.nodes.entries :=
          not_mem_childrenIn s.nodes.nodup fun n hn hp => hne (by
            have : s.frame? path = some n := hn
            simp [this, hp])
        refine (List.filter_eq_self.2 fun x hx => ?_).symm
        simp only [ne_eq, decide_eq_true_eq]
        rintro rfl
        exact this hx
    rw [hfilter, hlast]
    split <;> simp
  attributes_eq p := by
    have h := s.attributes_eq p
    simp only [Table.contains, Table.get?_insert, Table.get?_erase] at h ⊢
    split
    · rfl
    · exact h

/-- Loads nodes in order. -/
def addMany (s : Store) (nodes : List (Path × Node)) : Store :=
  nodes.foldl (fun s e => s.add e.1 e.2) s

/-! ## Queries -/

/-- The paths of the loaded nodes, in load order. -/
def paths (s : Store) : List Path :=
  s.nodes.keys

def size (s : Store) : Nat :=
  s.nodes.size

def contains (s : Store) (p : Path) : Bool :=
  s.nodes.contains p

def attributeAt? (s : Store) (p : Path) (name : String) : Option String :=
  (s.attributes.get? p).bind fun t => t.get? name

/-- An attribute, empty when it is missing. -/
def attributeText (s : Store) (p : Path) (name : String) : String :=
  (s.attributeAt? p name).getD ""

/-- The name of a node. -/
def nameOf (s : Store) (p : Path) : String :=
  s.attributeText p Attribute.name

def parent? (s : Store) (p : Path) : Option Path :=
  (s.frame? p).bind NodeFrame.parent

/-- The loaded nodes with this parent, in load order. -/
def children (s : Store) (p : Path) : List Path :=
  (listed s.childIndex p).filter s.contains

/-- The target of a pointer. -/
def pointer? (s : Store) (p : Path) (name : String) : Option Path :=
  (s.frame? p).bind fun f => f.pointers.get? name

def metaType? (s : Store) (p : Path) : Option MetaType :=
  (s.frame? p).map NodeFrame.metaType

def isMetaNode (s : Store) (p : Path) : Bool :=
  ((s.frame? p).map NodeFrame.isMetaNode).getD false

/-- Whether a loaded node is an instance of a meta-type. -/
def isA (s : Store) (p : Path) (m : MetaType) : Bool :=
  ((s.metaType? p).map fun own => own.isA m).getD false

/-- Whether a node stands directly in a container of templates. -/
def isTemplate (s : Store) (p : Path) : Bool :=
  (((s.parent? p).bind s.metaType?).map MetaType.isTemplateContainer).getD false

/-- Whether a node takes part in the architecture. -/
def isInstance (s : Store) (p : Path) : Bool :=
  !s.isMetaNode p && !s.isTemplate p

/-! ## Whole nodes -/

/-- All attributes of a node. -/
def attributesOf (s : Store) (p : Path) : Table String String :=
  (s.attributes.get? p).getD .empty

/-- The loaded nodes with their attributes, in load order. -/
def loaded (s : Store) : Table Path Node :=
  s.nodes.mapEntries fun p f => f.node (s.attributesOf p)

/-- The node loaded under a path, with its attributes. -/
def node? (s : Store) (p : Path) : Option Node :=
  s.loaded.get? p

/-! ## The view of queries -/

theorem children_eq (s : Store) (p : Path) : s.children p = childrenIn p s.nodes.entries := by
  rw [children, s.index_eq]
  refine List.filter_eq_self.2 fun c hc => (s.nodes.mem_keys_iff c).1 ?_
  obtain ⟨e, he, rfl⟩ := List.mem_map.1 hc
  exact List.mem_map_of_mem (List.mem_filter.1 he).1

theorem node?_eq (s : Store) (p : Path) :
    s.node? p = (s.frame? p).map fun f => f.node (s.attributesOf p) :=
  s.nodes.get?_mapEntries _ p

theorem frame?_eq (s : Store) (p : Path) : s.frame? p = (s.node? p).map Node.frame := by
  simp [node?_eq, Function.comp_def]

theorem keys_loaded (s : Store) : s.loaded.keys = s.paths := by
  simp [Table.keys, loaded, Table.mapEntries, paths, Function.comp_def]

/-- A path without a node has no attributes. -/
theorem attributes_get?_eq (s : Store) (p : Path) :
    s.attributes.get? p = (s.node? p).map Node.attributes := by
  have h := s.attributes_eq p
  rw [node?_eq, Option.map_map, attributesOf, frame?]
  simp only [Table.contains] at h
  cases hn : s.nodes.get? p with
  | none => simpa [hn] using h
  | some f =>
    obtain ⟨t, ht⟩ := Option.isSome_iff_exists.1 (h.trans (by rw [hn]; rfl))
    simp [ht, NodeFrame.node]

theorem parent?_eq (s : Store) (p : Path) : s.parent? p = (s.node? p).bind Node.parent := by
  rw [parent?, frame?_eq, Option.bind_map]
  rfl

theorem pointer?_eq (s : Store) (p : Path) (name : String) :
    s.pointer? p name = (s.node? p).bind fun n => n.pointers.get? name := by
  rw [pointer?, frame?_eq, Option.bind_map]
  rfl

theorem metaType?_eq (s : Store) (p : Path) : s.metaType? p = (s.node? p).map Node.metaType := by
  rw [metaType?, frame?_eq, Option.map_map]
  rfl

theorem isMetaNode_eq (s : Store) (p : Path) :
    s.isMetaNode p = ((s.node? p).map Node.isMetaNode).getD false := by
  rw [isMetaNode, frame?_eq, Option.map_map]
  rfl

theorem attributeAt?_eq (s : Store) (p : Path) (name : String) :
    s.attributeAt? p name = (s.node? p).bind fun n => n.attributes.get? name := by
  rw [attributeAt?, attributes_get?_eq, Option.bind_map]
  rfl

/-! ## Loading -/

theorem attributesOf_add (s : Store) (path p : Path) (node : Node) : (s.add path node).attributesOf p =
    if path = p then node.attributes else s.attributesOf p := by
  by_cases h : path = p <;> simp [attributesOf, add, h]

theorem node?_add (s : Store) (path p : Path) (node : Node) :
    (s.add path node).node? p = if path = p then some node else s.node? p := by
  rw [node?_eq, attributesOf_add, node?_eq]
  by_cases h : path = p <;> simp [frame?, add, h]

/-- A load takes out the node under the same path and puts the new one at the end. -/
theorem entries_loaded_add (s : Store) (path : Path) (node : Node) :
    (s.add path node).loaded.entries = Entries.remove path s.loaded.entries ++ [(path, node)] := by
  have hnodes : (s.add path node).nodes.entries =
      Entries.remove path s.nodes.entries ++ [(path, node.frame)] := put_remove
  simp only [loaded, Table.mapEntries, hnodes, List.map_append, attributesOf_add, Entries.remove,
    List.filter_map]
  congr 1
  · refine List.map_congr_left fun e he => ?_
    have hne : path ≠ e.1 := fun h => by simp [h] at he
    rw [if_neg hne]
  · simp

theorem paths_add (s : Store) (path : Path) (node : Node) :
    (s.add path node).paths = s.paths.filter (· ≠ path) ++ [path] := by
  simp only [← keys_loaded, Table.keys, entries_loaded_add, List.map_append, Entries.remove,
    List.filter_map]
  rfl

/-! ## Writing attributes -/

/-- A node with one attribute written. -/
def withAttribute (n : Node) (name value : String) : Node :=
  { n with attributes := n.attributes.insert name value }

/-- Writes an attribute of a loaded node. -/
def setAttribute (s : Store) (p : Path) (name value : String) : Except StoreError Store :=
  if h : s.contains p = true then
    .ok { s with
      attributes := s.attributes.update p .empty fun t => t.insert name value
      attributes_eq := fun q => by
        have hq := s.attributes_eq q
        have hp : s.nodes.contains p = true := h
        simp only [Table.contains, Table.get?_update] at hq hp ⊢
        split
        · next heq => rw [← heq, hp]; rfl
        · exact hq }
  else .error (.unknownNode p)

/-- A write changes the node under its path in its place. -/
theorem loaded_setAttribute {s t : Store} {p : Path} {name value : String}
    (h : s.setAttribute p name value = .ok t) : t.loaded =
      s.loaded.mapEntries fun q n => if p = q then withAttribute n name value else n := by
  unfold setAttribute at h
  split at h
  · obtain rfl := Except.ok.inj h
    simp only [loaded, Table.mapEntries, Table.mk.injEq, List.map_map, Function.comp_def]
    refine List.map_congr_left fun e _ => ?_
    by_cases hp : p = e.1 <;> simp [attributesOf, hp, withAttribute, NodeFrame.node]
  · cases h

theorem node?_setAttribute {s t : Store} {p q : Path} {name value : String}
    (h : s.setAttribute p name value = .ok t) :
    t.node? q = if p = q then (s.node? p).map (withAttribute · name value) else s.node? q := by
  rw [node?, loaded_setAttribute h, Table.get?_mapEntries]
  by_cases hp : p = q
  · simp [hp, node?]
  · simp [hp, node?]

end Store

end Rendezvous
