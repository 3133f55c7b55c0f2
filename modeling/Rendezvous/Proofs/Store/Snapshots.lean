import Mathlib.Data.List.Induction
import Rendezvous.Proofs.Store.Histories
import Rendezvous.Proofs.Store.Order
import Rendezvous.Store.Snapshot

/-!
# Loading snapshots and capturing stores

A snapshot loads exactly when its paths are distinct, and otherwise the first node that repeats a
path is reported (`ofSnapshot_cases`).  Loading normalizes: attributes become texts, unknown
meta-types become one, and empty parents and targets are left out.  Its results are plain
(`isPlain_toNode`), and a plain node is captured without loss (`toNode_ofNode`).  Writes keep a store
plain, so whatever is written after a load, a captured store loads as it was
(`snapshots_capture_the_store`).
-/

namespace Rendezvous

/-! ## Repeated paths -/

namespace Snapshot

/-- The paths of the nodes, in order. -/
def paths (x : Snapshot) : List Path :=
  x.nodes.map NodeSnapshot.path

/-- The nodes that a snapshot describes, with their paths. -/
def listing (x : Snapshot) : Listing :=
  x.nodes.map fun n => (n.path, n.toNode)

/-- The node repeats the path of an earlier one, and no node before it does. -/
def FirstRepeat (x : Snapshot) (n : NodeSnapshot) : Prop :=
  ∃ before after, x.nodes = before ++ n :: after ∧
    (before.map NodeSnapshot.path).Nodup ∧ n.path ∈ before.map NodeSnapshot.path

theorem map_fst_listing (x : Snapshot) : x.listing.map Prod.fst = x.paths := by
  simp [listing, paths]

theorem FirstRepeat.not_nodup {x : Snapshot} {n : NodeSnapshot} (h : x.FirstRepeat n) :
    ¬ x.paths.Nodup := by
  obtain ⟨before, after, hnodes, -, hmem⟩ := h
  rw [paths, hnodes, List.map_append, List.map_cons]
  exact fun nodup => (List.nodup_append.1 nodup).2.2 _ hmem _ List.mem_cons_self rfl

/-- Paths are distinct up to the first node that repeats one. -/
theorem nodup_or_exists_firstRepeat (x : Snapshot) :
    x.paths.Nodup ∨ ∃ n, x.FirstRepeat n := by
  obtain ⟨nodes⟩ := x
  induction nodes using List.reverseRecOn with
  | nil => exact Or.inl List.nodup_nil
  | append_singleton before n ih =>
    obtain nodup | ⟨m, earlier, later, hnodes, hrepeat⟩ := ih
    · by_cases hmem : n.path ∈ before.map NodeSnapshot.path
      · exact Or.inr ⟨n, before, [], rfl, nodup, hmem⟩
      · left
        show ((before ++ [n]).map NodeSnapshot.path).Nodup
        rw [List.map_append, List.map_singleton, ← List.concat_eq_append]
        exact nodup.concat hmem
    · right
      have hbefore : before = earlier ++ m :: later := hnodes
      exact ⟨m, earlier, later ++ [n], by simp [hbefore], hrepeat⟩

end Snapshot

/-! ## Loading -/

namespace Store

variable {s : Store} {l : Listing} {n : NodeSnapshot}

theorem load_of_mem (h : n.path ∈ s.paths) : s.load n = .error (.duplicatePath n.path) := by
  have hcontains : s.contains n.path = true := (s.nodes.mem_keys_iff n.path).1 h
  rw [load, if_pos hcontains]

theorem load_of_not_mem (h : n.path ∉ s.paths) : s.load n = .ok (s.add n.path n.toNode) := by
  have hcontains : ¬ s.contains n.path = true := fun hc => h ((s.nodes.mem_keys_iff n.path).2 hc)
  rw [load, if_neg hcontains]

/-- Nodes with new paths follow what is loaded. -/
theorem Holds.exists_foldlM_load {nodes : List NodeSnapshot} (h : s.Holds l)
    (nodup : ((l ++ (Snapshot.mk nodes).listing).map Prod.fst).Nodup) :
    ∃ t, nodes.foldlM load s = .ok t ∧ t.Holds (l ++ (Snapshot.mk nodes).listing) := by
  induction nodes generalizing s l with
  | nil => exact ⟨s, rfl, by simpa [Snapshot.listing] using h⟩
  | cons n nodes ih =>
    have hnew : n.path ∉ s.paths := by
      intro hmem
      rw [h.paths_eq] at hmem
      rw [List.map_append] at nodup
      exact (List.nodup_append.1 nodup).2.2 _ hmem _ List.mem_cons_self rfl
    have hadd : (s.add n.path n.toNode).Holds (l ++ [(n.path, n.toNode)]) := by
      rw [← h.loaded_eq, ← entries_add_of_not_mem hnew]
      exact holds_loaded
    have hlisting : l ++ (Snapshot.mk (n :: nodes)).listing =
        (l ++ [(n.path, n.toNode)]) ++ (Snapshot.mk nodes).listing :=
      List.append_cons l _ _
    rw [hlisting] at nodup ⊢
    obtain ⟨t, ht, holds⟩ := ih hadd nodup
    exact ⟨t, by rw [List.foldlM_cons, load_of_not_mem hnew]; exact ht, holds⟩

theorem exists_ofSnapshot {x : Snapshot} (nodup : x.paths.Nodup) :
    ∃ s, ofSnapshot x = .ok s ∧ s.Holds x.listing := by
  have hempty : empty.Holds [] := holds_loaded
  refine hempty.exists_foldlM_load ?_
  rw [List.nil_append, Snapshot.map_fst_listing]
  exact nodup

theorem ofSnapshot_of_firstRepeat {x : Snapshot} (h : x.FirstRepeat n) :
    ofSnapshot x = .error (.duplicatePath n.path) := by
  obtain ⟨before, after, hnodes, nodup, hmem⟩ := h
  obtain ⟨s, hs, holds⟩ := exists_ofSnapshot (x := ⟨before⟩) nodup
  have hloaded : n.path ∈ s.paths := by
    rw [holds.paths_eq, Snapshot.map_fst_listing]
    exact hmem
  have hbefore : before.foldlM load empty = .ok s := hs
  rw [ofSnapshot, hnodes, List.foldlM_append, hbefore]
  show (n :: after).foldlM load s = _
  rw [List.foldlM_cons, load_of_mem hloaded]
  rfl

/-- **A snapshot loads when its paths are distinct**, and otherwise the first repeated path is
reported. -/
theorem ofSnapshot_cases (x : Snapshot) :
    (x.paths.Nodup ∧ ∃ s, ofSnapshot x = .ok s ∧ s.Holds x.listing) ∨
      ¬ x.paths.Nodup ∧ ∃ n, x.FirstRepeat n ∧ ofSnapshot x = .error (.duplicatePath n.path) := by
  obtain nodup | ⟨n, hn⟩ := x.nodup_or_exists_firstRepeat
  · exact Or.inl ⟨nodup, exists_ofSnapshot nodup⟩
  · exact Or.inr ⟨hn.not_nodup, n, hn, ofSnapshot_of_firstRepeat hn⟩

theorem holds_of_ofSnapshot {x : Snapshot} (h : ofSnapshot x = .ok s) : s.Holds x.listing := by
  obtain ⟨-, t, ht, holds⟩ | ⟨-, n, -, herror⟩ := ofSnapshot_cases x
  · exact Except.ok.inj (ht.symm.trans h) ▸ holds
  · cases herror.symm.trans h

end Store

/-! ## Plain nodes -/

/-- Neither the parent nor a target is the empty path. -/
structure Node.IsPlain (n : Node) : Prop where
  parent : n.parent ≠ some ""
  targets : ∀ e ∈ n.pointers.entries, e.2 ≠ ""

theorem nonEmpty?_eq_some_iff {s : Option String} {t : String} :
    nonEmpty? s = some t ↔ s = some t ∧ t ≠ "" := by
  simp [nonEmpty?]

theorem nonEmpty?_of_ne {s : Option String} (h : s ≠ some "") : nonEmpty? s = s := by
  cases s with
  | none => rfl
  | some t => exact nonEmpty?_eq_some_iff.2 ⟨rfl, fun ht => h (ht ▸ rfl)⟩

/-- The pointers that are set to a target, in order. -/
theorem entries_pointers_toNode (n : NodeSnapshot) : n.toNode.pointers.entries =
    n.pointers.entries.filterMap fun e => (nonEmpty? e.2).map fun t => (e.1, t) := by
  refine Table.entries_ofList (n.pointers.nodup.sublist ?_)
  induction n.pointers.entries with
  | nil => exact List.Sublist.slnil
  | cons e rest ih =>
    cases h : nonEmpty? e.2 with
    | none =>
      rw [List.filterMap_cons_none (by rw [h]; rfl)]
      exact ih.cons _
    | some t =>
      rw [List.filterMap_cons_some (by rw [h]; rfl)]
      exact ih.cons_cons _

/-- What loading makes of a node is plain. -/
theorem isPlain_toNode (n : NodeSnapshot) : n.toNode.IsPlain where
  parent h := (nonEmpty?_eq_some_iff.1 h).2 rfl
  targets e he := by
    rw [entries_pointers_toNode, List.mem_filterMap] at he
    obtain ⟨f, -, hf⟩ := he
    obtain ⟨t, ht, rfl⟩ := Option.map_eq_some_iff.1 hf
    exact (nonEmpty?_eq_some_iff.1 ht).2

/-- **A plain node is captured without loss.** -/
theorem toNode_ofNode {n : Node} (h : n.IsPlain) (p : Path) :
    (NodeSnapshot.ofNode p n).toNode = n := by
  have hattributes : (n.attributes.mapValues .text).mapValues AttributeValue.toText
      = n.attributes := by
    refine Table.ext_entries ?_
    show (n.attributes.entries.map _).map _ = _
    rw [List.map_map]
    exact List.map_id' _
  have hpointers : (NodeSnapshot.ofNode p n).toNode.pointers = n.pointers := by
    refine Table.ext_entries ?_
    rw [entries_pointers_toNode]
    show (n.pointers.entries.map _).filterMap _ = _
    rw [List.filterMap_map]
    refine (List.filterMap_congr fun e he => ?_).trans List.filterMap_some
    have htarget : nonEmpty? (some e.2) = some e.2 :=
      nonEmpty?_eq_some_iff.2 ⟨rfl, h.targets e he⟩
    simp [htarget]
  cases n with
  | mk metaType isMetaNode parent attributes pointers =>
    show Node.mk (.ofName metaType.name) isMetaNode (nonEmpty? parent) _ _ = _
    rw [MetaType.ofName_name, nonEmpty?_of_ne h.parent]
    exact congrArg₂ (Node.mk metaType isMetaNode parent) hattributes hpointers

/-! ## Plain stores -/

/-- All nodes of a list are plain. -/
def Listing.IsPlain (l : Listing) : Prop :=
  ∀ e ∈ l, e.2.IsPlain

theorem Snapshot.isPlain_listing (x : Snapshot) : x.listing.IsPlain := by
  intro e he
  obtain ⟨n, -, rfl⟩ := List.mem_map.1 he
  exact isPlain_toNode n

/-- A write keeps nodes plain: it touches neither parents nor pointers. -/
theorem Listing.IsPlain.write {l l' : Listing} (h : l.IsPlain) {p : Path} {name value : String}
    (hl : l.change (.write p name value) = .ok l') : l'.IsPlain := by
  rw [Listing.change] at hl
  split at hl
  · obtain rfl := Except.ok.inj hl
    intro e he
    obtain ⟨f, hf, rfl⟩ := List.mem_map.1 he
    by_cases hp : f.1 = p
    · rw [if_pos hp]
      exact ⟨(h f hf).parent, (h f hf).targets⟩
    · rw [if_neg hp]
      exact h f hf
  · cases hl

/-- Attributes to write: the node, the name and the value of each. -/
abbrev Writings := List (Path × String × String)

/-- The writes as changes. -/
def Writings.changes (writes : Writings) : List Change :=
  writes.map fun w => .write w.1 w.2.1 w.2.2

/-- What a write keeps, a history of writes keeps. -/
theorem Listing.IsPlain.replay {l : Listing} (h : l.IsPlain) (writes : Writings) :
    Listing.IsPlain (replay Listing.change l writes.changes).state := by
  induction writes generalizing l with
  | nil => exact h
  | cons w writes ih =>
    simp only [Writings.changes, List.map_cons, Rendezvous.replay]
    split
    · next l' hl => exact ih (h.write hl)
    · exact ih h

/-! ## Capturing -/

namespace Store

/-- The store after writes in order.  A write that is refused changes nothing. -/
def writeAll (s : Store) (writes : Writings) : Store :=
  (replay Store.change s writes.changes).state

theorem listing_capture {s : Store} (h : Listing.IsPlain s.loaded.entries) :
    s.capture.listing = s.loaded.entries := by
  show (s.loaded.entries.map _).map _ = _
  rw [List.map_map]
  refine (List.map_congr_left fun e he => ?_).trans (List.map_id' _)
  exact congrArg (Prod.mk e.1) (toNode_ofNode (h e he) e.1)

/-- **A plain store is captured without loss.** -/
theorem exists_ofSnapshot_capture {s : Store} (h : Listing.IsPlain s.loaded.entries) :
    ∃ u, ofSnapshot s.capture = .ok u ∧ u.loaded = s.loaded := by
  have nodup : s.capture.paths.Nodup := by
    rw [← Snapshot.map_fst_listing, listing_capture h]
    exact s.loaded.nodup
  obtain ⟨u, hu, holds⟩ := exists_ofSnapshot nodup
  exact ⟨u, hu, Table.ext_entries (holds.loaded_eq.trans (listing_capture h))⟩

theorem answers_eq_of_loaded_eq {s u : Store} (h : u.loaded = s.loaded) : u.answers = s.answers := by
  have hu : u.Holds s.loaded.entries := h ▸ holds_loaded
  rw [hu.answers_eq, holds_loaded.answers_eq]

end Store

/-- **Snapshots capture the whole store.**  A snapshot loads exactly when its paths are distinct, and
otherwise the path of the first node that repeats one is reported.  Whatever is then written, the
captured store loads, the result answers every query alike, and it is captured as the same
snapshot. -/
theorem snapshots_capture_the_store (x : Snapshot) :
    ((∃ s, Store.ofSnapshot x = .ok s) ↔ x.paths.Nodup) ∧
      (∀ e, Store.ofSnapshot x = .error e ↔ ∃ n, x.FirstRepeat n ∧ e = .duplicatePath n.path) ∧
      ∀ s, Store.ofSnapshot x = .ok s → ∀ writes,
        ∃ u, Store.ofSnapshot (s.writeAll writes).capture = .ok u ∧
          u.answers = (s.writeAll writes).answers ∧ u.capture = (s.writeAll writes).capture := by
  refine ⟨⟨fun ⟨s, hs⟩ => ?_, fun nodup => ?_⟩, fun e => ⟨fun he => ?_, ?_⟩, fun s hs writes => ?_⟩
  · obtain ⟨nodup, -⟩ | ⟨-, n, -, herror⟩ := Store.ofSnapshot_cases x
    · exact nodup
    · cases herror.symm.trans hs
  · obtain ⟨s, hs, -⟩ := Store.exists_ofSnapshot nodup
    exact ⟨s, hs⟩
  · obtain ⟨-, s, hs, -⟩ | ⟨-, n, hn, herror⟩ := Store.ofSnapshot_cases x
    · cases hs.symm.trans he
    · exact ⟨n, hn, Except.error.inj (he.symm.trans herror)⟩
  · rintro ⟨n, hn, rfl⟩
    exact Store.ofSnapshot_of_firstRepeat hn
  · -- loading makes nodes plain, and writes keep them so
    have hstate := ((Store.holds_of_ofSnapshot hs).replay writes.changes).2
    have hplain : Listing.IsPlain (s.writeAll writes).loaded.entries := by
      rw [Store.writeAll, hstate.loaded_eq]
      exact x.isPlain_listing.replay writes
    obtain ⟨u, hu, hloaded⟩ := Store.exists_ofSnapshot_capture hplain
    refine ⟨u, hu, Store.answers_eq_of_loaded_eq hloaded, ?_⟩
    rw [Store.capture, hloaded, Store.capture]

theorem snapshots_capture_the_store_mixed :
    let node : NodeSnapshot := {
      path := "/a/t", metaName := "Lamp", isMetaNode := true, parent := some "/a"
      attributes := .ofList [("name", .text "Light"), ("count", .integer (-3)), ("on", .boolean true)]
      pointers := .ofList [("src", some ""), ("dst", none), ("home", some "/b")] }
    let root : NodeSnapshot := { node with path := "/a", parent := some "" }
    let writes : Writings := [("/a", "count", "4"), ("/b", "count", "5"), ("/a/t", "note", "")]
    ∃ s, Store.ofSnapshot ⟨[node, root]⟩ = .ok s ∧
      ∃ u, Store.ofSnapshot (s.writeAll writes).capture = .ok u ∧
        u.answers = (s.writeAll writes).answers ∧ u.capture = (s.writeAll writes).capture := by
  intro node root writes
  have hcapture := snapshots_capture_the_store ⟨[node, root]⟩
  obtain ⟨s, hs⟩ := hcapture.1.2 (by decide)
  exact ⟨s, hs, hcapture.2.2 s hs writes⟩

end Rendezvous
