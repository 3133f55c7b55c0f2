import Rendezvous.Proofs.Json.Normal
import Rendezvous.Proofs.Text.Utf8
import Rendezvous.Trace

/-!
# Cutting traces again

A trace that has been read without double-precision numbers is in normal form (`isNormal_of_read?`), and
so is the trace with fewer entries (`IsNormal.truncate`).  A trace in normal form is read back from its
document (`IsNormal.read?_document`), so that a document that has been cut can be cut again, and two
limits are as good as the smaller one (`truncations_compose`).
-/

namespace Rendezvous.Trace

open Json

/-- The value of a top-level field of a document, the last one if its key repeats. -/
def field? (source : Text.Decoded) (key : String) : Option Value :=
  match tree? source with
  | some (.object trees) => (fieldsOf? trees).bind fun fields => Entries.find? key fields.reverse
  | _ => none

/-- The fields of the document of a trace. -/
def fields (t : Trace) : List (String × Value) :=
  (outputKey, .array t.output) :: t.extra

variable {source : Text.Decoded} {t : Trace} {fs : List (String × Value)} {items : List Value}

/-! ## Fields of documents -/

/-- What a document has to be so that it describes a trace. -/
theorem read?_eq_some_iff : read? source = some t ↔ ∃ trees fs, tree? source = some (.object trees) ∧
    depth (.object trees) ≤ maxDepth ∧ fieldsOf? trees = some fs ∧ ofFields? fs = some t := by
  constructor
  · intro h
    obtain ⟨tree, htree, h⟩ := Option.bind_eq_some_iff.1 h
    cases tree with
    | object trees =>
      obtain ⟨hdepth, h⟩ := Option.ite_none_right_eq_some.1 h
      obtain ⟨fs, hfs, h⟩ := Option.bind_eq_some_iff.1 h
      exact ⟨trees, fs, htree, hdepth, hfs, h⟩
    | _ => cases h
  · rintro ⟨trees, fs, htree, hdepth, hfs, h⟩
    rw [read?, htree, Option.bind_some, ofTree?, if_pos hdepth, hfs, Option.bind_some, h]

theorem of_filter_eq_cons {p : String × Value → Bool} {f : String × Value}
    {rest : List (String × Value)} (h : fs.filter p = f :: rest) : f ∈ fs ∧ p f = true := by
  have hmem : f ∈ fs.filter p := by
    rw [h]
    exact .head rest
  exact List.mem_filter.1 hmem

/-- The entries are the only field `output`. -/
theorem output?_eq_some_iff : output? fs = some items ↔
    fs.filter (fun f => f.1 = outputKey) = [(outputKey, .array items)] := by
  constructor
  · intro h
    unfold output? at h
    split at h
    · next key vs hfilter =>
      cases h
      have hkey : key = outputKey := of_decide_eq_true (of_filter_eq_cons hfilter).2
      rw [hfilter, hkey]
    · cases h
  · intro h
    rw [output?, h]

/-- A trace has been read from fields if they hold its entries and the other ones are its own, in
order. -/
theorem ofFields?_eq_some_iff : ofFields? fs = some t ↔
    fs.filter (fun f => f.1 = outputKey) = [(outputKey, .array t.output)] ∧
      sortFields (fs.filter fun f => f.1 ≠ outputKey) = t.extra := by
  rw [← output?_eq_some_iff, ofFields?]
  constructor
  · intro h
    obtain ⟨items, hitems, rfl⟩ := Option.map_eq_some_iff.1 h
    exact ⟨hitems, rfl⟩
  · rintro ⟨hitems, hextra⟩
    rw [hitems, Option.map_some, hextra]

/-- The entries stand in the field `output` of the document, and the other fields of the trace are its
other fields. -/
theorem field?_of_read? (h : read? source = some t) (key : String) :
    field? source key =
      if key = outputKey then some (.array t.output) else Entries.find? key t.extra := by
  obtain ⟨trees, fs, htree, -, hfs, h⟩ := read?_eq_some_iff.1 h
  obtain ⟨houtput, hextra⟩ := ofFields?_eq_some_iff.1 h
  have hfield : field? source key = Entries.find? key fs.reverse := by
    rw [field?, htree]
    exact congrArg (Option.bind · fun fs => Entries.find? key fs.reverse) hfs
  rw [hfield]
  split
  · next hkey =>
    rw [← Entries.find?_filter_of_pos (fun k => k = outputKey) (decide_eq_true hkey), List.filter_reverse,
      houtput, hkey]
    rfl
  · next hkey =>
    rw [← Entries.find?_filter_of_pos (fun k => k ≠ outputKey) (decide_eq_true hkey), List.filter_reverse,
      ← find?_sortFields, hextra]

/-! ## Traces in normal form -/

/-- A trace as it is read: values in normal form, fields in order, and no deeper nested than can be
read. -/
structure IsNormal (t : Trace) : Prop where
  values : ∀ f ∈ t.fields, Json.IsNormal f.2
  order : InOrder t.extra
  apart : ∀ f ∈ t.extra, f.1 ≠ outputKey
  depth_lt : ∀ f ∈ t.fields, depth (treeOf f.2) < maxDepth

theorem mem_of_mem_fields (h : ofFields? fs = some t) {f : String × Value} (hf : f ∈ t.fields) :
    f ∈ fs := by
  obtain ⟨houtput, hextra⟩ := ofFields?_eq_some_iff.1 h
  rcases List.mem_cons.1 hf with rfl | hf
  · exact (of_filter_eq_cons houtput).1
  · rw [← hextra] at hf
    exact (List.mem_filter.1 (mem_sortFields hf)).1

/-- **A trace that has been read is in normal form**, if its document holds no double-precision
number. -/
theorem isNormal_of_read? (hsource : holdsDouble source = false) (h : read? source = some t) :
    t.IsNormal := by
  obtain ⟨trees, fs, htree, hdepth, hfs, h⟩ := read?_eq_some_iff.1 h
  obtain ⟨-, hextra⟩ := ofFields?_eq_some_iff.1 h
  have hwhole : ∀ g ∈ trees, IsWhole g.2 := by
    cases isWhole_of_tree? hsource htree with
    | object hwhole => exact hwhole
  -- every field of the trace has been read from a field of the document
  have hfield : ∀ f ∈ t.fields, ∃ g ∈ trees, valueOf? g.2 = some f.2 := fun f hf =>
    exists_of_mem_fields hfs (mem_of_mem_fields h hf)
  refine ⟨fun f hf => ?_, hextra ▸ inOrder_sortFields _, fun f hf => ?_, fun f hf => ?_⟩
  · obtain ⟨g, hg, hvalue⟩ := hfield f hf
    exact isNormal_of_valueOf? (hwhole g hg) hvalue
  · rw [← hextra] at hf
    exact of_decide_eq_true (List.mem_filter.1 (mem_sortFields hf)).2
  · obtain ⟨g, hg, hvalue⟩ := hfield f hf
    have hle := depthOfFields_le_iff.1 (Nat.le_refl _) g hg
    exact Nat.lt_of_le_of_lt (Nat.le_trans (depth_treeOf_le (hwhole g hg) hvalue) hle) hdepth

theorem IsNormal.truncate (h : t.IsNormal) (limit : Nat) : (t.truncate limit).IsNormal := by
  obtain ⟨hvalues, horder, hapart, hdepth⟩ := h
  obtain ⟨houtput, hextra⟩ := List.forall_mem_cons.1 hvalues
  obtain ⟨houtputDepth, hextraDepth⟩ := List.forall_mem_cons.1 hdepth
  refine ⟨List.forall_mem_cons.2 ⟨?_, hextra⟩, horder, hapart,
    List.forall_mem_cons.2 ⟨?_, hextraDepth⟩⟩
  · cases houtput with
    | array hitems => exact .array fun v hv => hitems v (List.mem_of_mem_take hv)
  · have hitems := depthOfItems_itemTrees_le_iff.1 (Nat.le_refl (depthOfItems (itemTrees t.output)))
    have hle : depthOfItems (itemTrees (t.output.take limit)) ≤ depthOfItems (itemTrees t.output) :=
      depthOfItems_itemTrees_le_iff.2 fun v hv => hitems v (List.mem_of_mem_take hv)
    exact Nat.lt_of_le_of_lt (Nat.succ_le_succ hle) houtputDepth

theorem ofFields?_fields (horder : InOrder t.extra) (hapart : ∀ f ∈ t.extra, f.1 ≠ outputKey) :
    ofFields? t.fields = some t := by
  have hnone : t.extra.filter (fun f => f.1 = outputKey) = [] :=
    List.filter_eq_nil_iff.2 fun f hf => by simpa using hapart f hf
  have hall : t.extra.filter (fun f => f.1 ≠ outputKey) = t.extra :=
    List.filter_eq_self.2 fun f hf => decide_eq_true (hapart f hf)
  refine ofFields?_eq_some_iff.2 ⟨?_, ?_⟩
  · rw [fields, List.filter_cons, hnone]
    rfl
  · rw [fields, List.filter_cons_of_neg (by simp), hall, sortFields_of_inOrder horder]

/-- **A trace in normal form is read back from its document.** -/
theorem IsNormal.read?_document (h : t.IsNormal) :
    read? (Text.decodeUtf8 (Text.utf8Bytes t.document)) = some t := by
  have hvalue : IsIntegral (.object t.fields) := .object fun f hf => (h.values f hf).isIntegral
  have htree : tree? (Text.decoded t.document) = some (.object (fieldTrees t.fields)) :=
    tree?_compact hvalue
  rw [Text.decodeUtf8_utf8Bytes]
  refine read?_eq_some_iff.2 ⟨fieldTrees t.fields, t.fields, htree, ?_, ?_, ?_⟩
  · have hdepth : depthOfFields (fieldTrees t.fields) ≤ maxDepth - 1 :=
      depthOfFields_fieldTrees_le_iff.2 fun f hf => Nat.le_pred_of_lt (h.depth_lt f hf)
    exact Nat.succ_le_succ hdepth
  · exact fieldsOf?_fieldTrees fun f hf => valueOf?_treeOf (h.values f hf)
  · exact ofFields?_fields h.order h.apart

/-! ## Cutting twice -/

theorem truncate_truncate (t : Trace) (a b : Nat) :
    (t.truncate a).truncate b = t.truncate (min a b) := by
  simp [truncate, List.take_take, Nat.min_comm]

/-- **A trace that has been cut can be cut again**, as if it had been cut once to the smaller limit.  If
a document without double-precision numbers is accepted, so is what becomes of it: it holds the first
entries, and all other fields as they were. -/
theorem truncations_compose {limit : Nat} (haccepted : truncateDocument? limit source ≠ none)
    (hsource : holdsDouble source = false) (a b : Nat) :
    ∃ d items, truncateDocument? a source = some d ∧
      let result := Text.decodeUtf8 (Text.utf8Bytes d)
      field? source outputKey = some (.array items) ∧
        field? result outputKey = some (.array (items.take a)) ∧
        (∀ key ≠ outputKey, field? result key = field? source key) ∧
        truncateDocument? b result ≠ none ∧
        truncateDocument? b result = truncateDocument? (min a b) source := by
  obtain ⟨d, hd⟩ := Option.ne_none_iff_exists'.1 haccepted
  obtain ⟨t, ht, -⟩ := Option.map_eq_some_iff.1 hd
  have hread := ((isNormal_of_read? hsource ht).truncate a).read?_document
  have hcut : ∀ n, truncateDocument? n source = some (t.truncate n).document := by
    intro n
    rw [truncateDocument?, ht, Option.map_some]
  have hagain : truncateDocument? b (Text.decodeUtf8 (Text.utf8Bytes (t.truncate a).document)) =
      some (t.truncate (min a b)).document := by
    rw [truncateDocument?, hread, Option.map_some, truncate_truncate]
  refine ⟨(t.truncate a).document, t.output, hcut a, ?_, ?_, fun key hkey => ?_, ?_, ?_⟩
  · rw [field?_of_read? ht, if_pos rfl]
  · rw [field?_of_read? hread, if_pos rfl]
    rfl
  · rw [field?_of_read? hread, field?_of_read? ht, if_neg hkey, if_neg hkey]
    rfl
  · rw [hagain]
    exact Option.some_ne_none _
  · rw [hagain, hcut]

/-- A trace with nested and repeated fields, and an escape. -/
def nested : Text.Decoded :=
  Text.decoded "\x7b\"steps\": [1], \"output\": [\x7b\"to\": \"\\u0041\\n\", \"at\": 0\x7d, [], null],
    \"peer\": \x7b\"b\": -2, \"a\": \x7b\x7d, \"b\": true\x7d, \"steps\": 3\x7d"

theorem truncations_compose_nested : truncateDocument? 3 nested ≠ none ∧ holdsDouble nested = false ∧
    ∃ d items, truncateDocument? 2 nested = some d ∧
      let result := Text.decodeUtf8 (Text.utf8Bytes d)
      field? nested outputKey = some (.array items) ∧
        field? result outputKey = some (.array (items.take 2)) ∧
        (∀ key ≠ outputKey, field? result key = field? nested key) ∧
        truncateDocument? 1 result ≠ none ∧
        truncateDocument? 1 result = truncateDocument? 1 nested := by
  have haccepted : truncateDocument? 3 nested ≠ none := by decide +kernel
  have hsource : holdsDouble nested = false := by decide +kernel
  exact ⟨haccepted, hsource, truncations_compose haccepted hsource 2 1⟩

end Rendezvous.Trace
