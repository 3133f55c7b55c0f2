import Rendezvous.Proofs.Json.Documents
import Rendezvous.Proofs.Table
import Rendezvous.Proofs.Text.Utf8
import Rendezvous.Store.Snapshot

/-!
# Snapshots as documents

Every snapshot is read back from its document (`document_lossless`).  A field that is left out has the
value that reading gives a missing field, and the fields that are written have distinct known keys, so
each of them is found under its key (`exists_recordFields?`).  The tables of a node are objects, whose
keys are distinct and keep their order (`table?_treeOf`), and the kind of an attribute is the kind of its
value in the document (`read?_attribute`).
-/

namespace Rendezvous

open Json

/-! ## Records -/

/-- Fields with distinct known keys, none of which a table has, are put at the end of the table. -/
theorem foldlM_known {known : List String} {fields : List (String × Value)} {t : Table String Tree}
    (hknown : ∀ f ∈ fields, f.1 ∈ known) (nodup : (fields.map Prod.fst).Nodup)
    (hnew : ∀ f ∈ fields, t.contains f.1 = false) :
    (fieldTrees fields).foldlM (fun (t : Table String Tree) f =>
        (textOf? f.1).bind fun key =>
          if known.contains key then if t.contains key then none else some (t.insert key f.2)
          else some t) t =
      some (t.insertMany (fields.map fun f => (f.1, treeOf f.2))) := by
  induction fields generalizing t with
  | nil => rfl
  | cons f fields ih =>
    obtain ⟨hf, hfields⟩ := List.forall_mem_cons.1 hknown
    obtain ⟨hfresh, hnew⟩ := List.forall_mem_cons.1 hnew
    obtain ⟨hother, nodup⟩ := List.nodup_cons.1 nodup
    have hnext : ∀ g ∈ fields, (t.insert f.1 (treeOf f.2)).contains g.1 = false := by
      intro g hg
      have hne : f.1 ≠ g.1 := fun h => hother (List.mem_map.2 ⟨g, hg, h.symm⟩)
      rw [Table.contains, Table.get?_insert, if_neg hne]
      exact hnew g hg
    rw [fieldTrees, List.foldlM_cons, textOf?_piecesOf, Option.bind_some,
      if_pos (List.contains_iff_mem.2 hf), hfresh, if_neg Bool.false_ne_true]
    exact ih hfields nodup hnext

/-- Fields with distinct known keys are found under their keys. -/
theorem exists_recordFields? {known : List String} {fields : List (String × Value)}
    (hkeys : (fields.map Prod.fst).Sublist known) (nodup : known.Nodup) :
    ∃ t, recordFields? known (treeOf (.object fields)) = some t ∧
      ∀ key, t.get? key = (Entries.find? key fields).map treeOf := by
  have hdistinct : (fields.map Prod.fst).Nodup := nodup.sublist hkeys
  refine ⟨.ofList (fields.map fun f => (f.1, treeOf f.2)), ?_, fun key => ?_⟩
  · exact foldlM_known (fun f hf => hkeys.subset (List.mem_map.2 ⟨f, hf, rfl⟩)) hdistinct
      fun _ _ => rfl
  · rw [Table.get?, Table.entries_ofList (by simpa [Function.comp_def] using hdistinct),
      Entries.find?_map (f := fun _ => treeOf)]

/-! ## Tables -/

/-- A table is read back from an object, in order. -/
theorem table?_treeOf {ν : Type} {toValue : ν → Value} {read? : Tree → Option ν}
    (hread : ∀ v, read? (treeOf (toValue v)) = some v) (t : Table String ν) :
    table? read? (treeOf (.object (t.entries.map fun e => (e.1, toValue e.2)))) = some t := by
  have hfold : ∀ (entries : List (String × ν)) (t : Table String ν),
      (fieldTrees (entries.map fun e => (e.1, toValue e.2))).foldlM (fun (t : Table String ν) f =>
          (textOf? f.1).bind fun key => (read? f.2).map fun v => t.insert key v) t =
        some (t.insertMany entries) := by
    intro entries
    induction entries with
    | nil => exact fun _ => rfl
    | cons e entries ih =>
      intro t
      rw [List.map_cons, fieldTrees, List.foldlM_cons, textOf?_piecesOf, Option.bind_some, hread]
      exact ih (t.insert e.1 e.2)
  rw [treeOf, table?, hfold]
  exact congrArg some Table.ofList_entries

/-! ## Values -/

theorem fitsNumber_toInt (z : Int64) : FitsNumber z.toInt := by
  have hmin := z.le_toInt
  have hmax := z.toInt_lt
  constructor <;> omega

theorem isIntegral_attribute (a : AttributeValue) : IsIntegral a.toValue := by
  cases a with
  | text s => exact .text s
  | integer z => exact .integer (fitsNumber_toInt z)
  | boolean b => exact .bool b

theorem isIntegral_target (target : Option String) : IsIntegral (targetValue target) := by
  cases target with
  | none => exact .null
  | some s => exact .text s

/-- An attribute is read back as the kind it was: texts, numbers and truth values are told apart. -/
theorem read?_attribute (a : AttributeValue) : AttributeValue.read? (treeOf a.toValue) = some a := by
  cases a with
  | text s => simp [AttributeValue.toValue, treeOf, AttributeValue.read?, textOf?_piecesOf]
  | boolean b => rfl
  | integer z =>
    have hread : Number.read? (Number.integer z.toInt).text.toList = some (.integer z.toInt) :=
      read?_integerChars (fitsNumber_toInt z)
    rw [AttributeValue.toValue, treeOf, AttributeValue.read?, hread]
    refine (if_pos ⟨z.minValue_le_toInt, z.toInt_le⟩).trans ?_
    rw [Int64.ofInt_toInt]

theorem optionalText?_text (s : String) : optionalText? (treeOf (.text s)) = some (some s) := by
  simp [treeOf, optionalText?, text?, textOf?_piecesOf]

/-- A pointer is read back with its target, or as unset. -/
theorem read?_target (target : Option String) :
    optionalText? (treeOf (targetValue target)) = some target := by
  cases target with
  | none => rfl
  | some s => exact optionalText?_text s

/-! ## Optional fields -/

/-- A field that is left out when it has no value. -/
def optionalField (key : String) (v : Option Value) : List (String × Value) :=
  (v.map fun v => (key, v)).toList

@[simp] theorem find?_optionalField (key other : String) (v : Option Value) :
    Entries.find? other (optionalField key v) = if key = other then v else none := by
  cases v with
  | none => simp [optionalField, Entries.find?]
  | some v => simp [optionalField, Entries.find?]

theorem keys_optionalField (key : String) (v : Option Value) :
    ((optionalField key v).map Prod.fst).Sublist [key] := by
  cases v with
  | none => exact List.nil_sublist _
  | some v => exact List.Sublist.refl _

/-- A truth value as it is written: only if it is true. -/
def flagValue? (b : Bool) : Option Value :=
  if b then some (.bool true) else none

/-- A table as it is written: only if it has entries. -/
def tableValue? {ν : Type} (toValue : ν → Value) (t : Table String ν) : Option Value :=
  if t.isEmpty then none else some (.object (t.entries.map fun e => (e.1, toValue e.2)))

theorem tableField_eq {ν : Type} (key : String) (toValue : ν → Value) (t : Table String ν) :
    tableField key toValue t = optionalField key (tableValue? toValue t) := by
  unfold tableField tableValue?
  split <;> rfl

theorem isIntegral_optionalField {key : String} {v : Option Value} (h : ∀ w, v = some w → IsIntegral w) :
    ∀ f ∈ optionalField key v, IsIntegral f.2 := by
  cases v with
  | none => exact List.forall_mem_nil _
  | some w => exact List.forall_mem_singleton.2 (h w rfl)

theorem isIntegral_flagValue? (b : Bool) : ∀ w, flagValue? b = some w → IsIntegral w := by
  intro w hw
  cases b with
  | false => cases hw
  | true =>
    cases hw
    exact .bool true

theorem isIntegral_tableValue? {ν : Type} {toValue : ν → Value} (h : ∀ v, IsIntegral (toValue v))
    (t : Table String ν) : ∀ w, tableValue? toValue t = some w → IsIntegral w := by
  intro w hw
  obtain ⟨-, hw⟩ := Option.ite_none_left_eq_some.1 hw
  obtain rfl := Option.some.inj hw
  refine .object fun f hf => ?_
  obtain ⟨e, -, rfl⟩ := List.mem_map.1 hf
  exact h e.2

section
variable {fields : Table String Tree} {key : String}

theorem fieldOr?_flag {b : Bool} (h : fields.get? key = (flagValue? b).map treeOf) :
    fieldOr? fields key false bool? = some b := by
  rw [fieldOr?, h]
  cases b <;> rfl

theorem fieldOr?_optionalText {s : Option String}
    (h : fields.get? key = (s.map Value.text).map treeOf) :
    fieldOr? fields key none optionalText? = some s := by
  rw [fieldOr?, h]
  cases s with
  | none => rfl
  | some s => exact optionalText?_text s

theorem fieldOr?_table {ν : Type} {toValue : ν → Value} {read? : Tree → Option ν}
    (hread : ∀ v, read? (treeOf (toValue v)) = some v) {t : Table String ν}
    (h : fields.get? key = (tableValue? toValue t).map treeOf) :
    fieldOr? fields key .empty (table? read?) = some t := by
  rw [fieldOr?, h, tableValue?]
  by_cases hempty : t.isEmpty = true
  · rw [if_pos hempty]
    exact congrArg some (Table.ext_entries (List.isEmpty_iff.1 hempty).symm)
  · rw [if_neg hempty]
    exact table?_treeOf hread t

end

/-! ## Nodes -/

namespace NodeSnapshot

/-- The fields of the document of a node. -/
def fields (n : NodeSnapshot) : List (String × Value) :=
  [("path", .text n.path), ("meta", .text n.metaName)]
    ++ optionalField "metaNode" (flagValue? n.isMetaNode)
    ++ optionalField "parent" (n.parent.map .text)
    ++ optionalField "attributes" (tableValue? AttributeValue.toValue n.attributes)
    ++ optionalField "pointers" (tableValue? targetValue n.pointers)

theorem toValue_eq (n : NodeSnapshot) : n.toValue = .object n.fields := by
  have hflag : (if n.isMetaNode then [("metaNode", Value.bool true)] else []) =
      optionalField "metaNode" (flagValue? n.isMetaNode) := by
    cases n.isMetaNode <;> rfl
  have hparent : (n.parent.map fun p => ("parent", Value.text p)).toList =
      optionalField "parent" (n.parent.map .text) := by
    cases n.parent <;> rfl
  rw [toValue, hflag, hparent, tableField_eq, tableField_eq, fields]

/-- The fields stand in the order of the keys. -/
theorem keys_fields (n : NodeSnapshot) : (n.fields.map Prod.fst).Sublist keys := by
  have hrequired : ([("path", Value.text n.path), ("meta", .text n.metaName)].map Prod.fst).Sublist
      ["path", "meta"] := List.Sublist.refl _
  simp only [fields, List.map_append]
  exact (((hrequired.append (keys_optionalField _ _)).append (keys_optionalField _ _)).append
    (keys_optionalField _ _)).append (keys_optionalField _ _)

/-- A node is read back. -/
theorem read?_toValue (n : NodeSnapshot) : read? (treeOf n.toValue) = some n := by
  obtain ⟨fs, hrecord, hget⟩ := exists_recordFields? n.keys_fields (by decide)
  have hpath : field? fs "path" text? = some n.path := by
    simp [field?, hget, fields, Entries.find?, treeOf, text?, textOf?_piecesOf]
  have hmeta : field? fs "meta" text? = some n.metaName := by
    simp [field?, hget, fields, Entries.find?, treeOf, text?, textOf?_piecesOf]
  have hflag : fieldOr? fs "metaNode" false bool? = some n.isMetaNode :=
    fieldOr?_flag (by simp [hget, fields, Entries.find?, Entries.find?_append])
  have hparent : fieldOr? fs "parent" none optionalText? = some n.parent :=
    fieldOr?_optionalText (by simp [hget, fields, Entries.find?, Entries.find?_append])
  have hattributes : fieldOr? fs "attributes" .empty (table? AttributeValue.read?) =
      some n.attributes :=
    fieldOr?_table read?_attribute (by simp [hget, fields, Entries.find?, Entries.find?_append])
  have hpointers : fieldOr? fs "pointers" .empty (table? optionalText?) = some n.pointers :=
    fieldOr?_table read?_target (by simp [hget, fields, Entries.find?, Entries.find?_append])
  rw [toValue_eq, read?, hrecord]
  simp [hpath, hmeta, hflag, hparent, hattributes, hpointers]

theorem isIntegral_toValue (n : NodeSnapshot) : IsIntegral n.toValue := by
  rw [toValue_eq, fields]
  refine .object ?_
  simp only [List.forall_mem_append]
  refine ⟨⟨⟨⟨?_, ?_⟩, ?_⟩, ?_⟩, ?_⟩
  · simp only [List.forall_mem_cons]
    exact ⟨.text _, .text _, List.forall_mem_nil _⟩
  · exact isIntegral_optionalField (isIntegral_flagValue? _)
  · refine isIntegral_optionalField fun w hw => ?_
    obtain ⟨s, -, rfl⟩ := Option.map_eq_some_iff.1 hw
    exact .text s
  · exact isIntegral_optionalField (isIntegral_tableValue? isIntegral_attribute _)
  · exact isIntegral_optionalField (isIntegral_tableValue? isIntegral_target _)

end NodeSnapshot

/-! ## Snapshots -/

namespace Snapshot

theorem isIntegral_toValue (x : Snapshot) : IsIntegral x.toValue := by
  refine .object (List.forall_mem_singleton.2 (.array fun v hv => ?_))
  obtain ⟨n, -, rfl⟩ := List.mem_map.1 hv
  exact n.isIntegral_toValue

/-- Nodes are read back in order. -/
theorem nodes?_treeOf (nodes : List NodeSnapshot) :
    nodes? (treeOf (.array (nodes.map NodeSnapshot.toValue))) = some nodes := by
  rw [treeOf, nodes?]
  induction nodes with
  | nil => rfl
  | cons n nodes ih => simp [itemTrees, List.mapM_cons, n.read?_toValue, ih]

/-- A snapshot is read back from the syntax tree of its document. -/
theorem ofTree?_toValue (x : Snapshot) : ofTree? (treeOf x.toValue) = some x := by
  have hkeys : ([("nodes", Value.array (x.nodes.map NodeSnapshot.toValue))].map Prod.fst).Sublist
      ["nodes"] := List.Sublist.refl _
  obtain ⟨fs, hrecord, hget⟩ := exists_recordFields? hkeys (by decide)
  have hnodes : fieldOr? fs "nodes" [] nodes? = some x.nodes := by
    rw [fieldOr?, hget, Entries.find?, if_pos rfl]
    exact nodes?_treeOf x.nodes
  rw [toValue, ofTree?, hrecord]
  simp [hnodes]

/-- **The document of a snapshot loses nothing.**  Whatever the snapshot holds, it is read back from the
bytes of its document: every text, number and truth value as what it was, absent, empty and unset
values told apart, and all tables in their order. -/
theorem document_lossless (x : Snapshot) :
    read (Text.decodeUtf8 (Text.utf8Bytes x.document)) = .ok x := by
  rw [Text.decodeUtf8_utf8Bytes, read, document, tree?_pretty x.isIntegral_toValue, Option.bind_some,
    ofTree?_toValue]

end Snapshot

end Rendezvous
