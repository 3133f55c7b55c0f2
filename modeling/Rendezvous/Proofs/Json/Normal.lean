import Mathlib.Data.List.Induction
import Rendezvous.Proofs.Json.Documents
import Rendezvous.Proofs.Json.Whole
import Rendezvous.Proofs.Table

/-!
# Values in normal form

Reading orders the fields of every object by key and drops all but the last of equal keys
(`inOrder_sortFields`, `find?_sortFields`).  Once in order, fields are left as they are
(`sortFields_of_inOrder`), so a value that has been read (`isNormal_of_valueOf?`) is read again as itself
(`valueOf?_treeOf`), and is nested no deeper than the tree that it was read from
(`depth_treeOf_le`).
-/

namespace Rendezvous.Json

variable {key : String} {v : Value} {fields : List (String × Value)}

/-! ## Fields in order -/

/-- Fields in the order of their keys, without repetition. -/
def InOrder (fields : List (String × Value)) : Prop :=
  fields.Pairwise fun f g => f.1 < g.1

theorem mem_insertField {f : String × Value} (h : f ∈ insertField key v fields) :
    f = (key, v) ∨ f ∈ fields := by
  induction fields with
  | nil => exact .inl (List.mem_singleton.1 h)
  | cons g fields ih =>
    rw [insertField] at h
    split at h
    · exact List.mem_cons.1 h
    · split at h
      · exact (List.mem_cons.1 h).imp_right (List.mem_cons_of_mem g)
      · rcases List.mem_cons.1 h with rfl | h
        · exact .inr (.head _)
        · exact (ih h).imp_right (List.mem_cons_of_mem g)

/-- A field is found under its key, and the others as before. -/
theorem find?_insertField (other : String) :
    Entries.find? other (insertField key v fields) =
      if key = other then some v else Entries.find? other fields := by
  induction fields with
  | nil => rfl
  | cons g fields ih =>
    rw [insertField]
    split
    · rfl
    · split
      · next hkey =>
        subst hkey
        simp only [Entries.find?]
        split <;> simp_all
      · next hkey =>
        rw [Entries.find?, ih, Entries.find?]
        split
        · next hg => rw [if_neg (fun h => hkey (h.trans hg.symm))]
        · rfl

theorem inOrder_insertField (h : InOrder fields) : InOrder (insertField key v fields) := by
  induction fields with
  | nil => exact List.pairwise_singleton _ _
  | cons g fields ih =>
    obtain ⟨hg, hfields⟩ := List.pairwise_cons.1 h
    rw [insertField]
    split
    · next hlt =>
      refine List.pairwise_cons.2 ⟨fun f hf => ?_, h⟩
      rcases List.mem_cons.1 hf with rfl | hf
      · exact hlt
      · exact String.lt_trans hlt (hg f hf)
    · next hlt =>
      split
      · next hkey =>
        subst hkey
        exact List.pairwise_cons.2 ⟨hg, hfields⟩
      · next hkey =>
        refine List.pairwise_cons.2 ⟨fun f hf => ?_, ih hfields⟩
        rcases mem_insertField hf with rfl | hf
        · exact Std.lt_of_le_of_ne (String.not_lt.1 hlt) (Ne.symm hkey)
        · exact hg f hf

/-- A field whose key is greater than all others is put at the end. -/
theorem insertField_of_forall_lt (h : ∀ f ∈ fields, f.1 < key) :
    insertField key v fields = fields ++ [(key, v)] := by
  induction fields with
  | nil => rfl
  | cons g fields ih =>
    obtain ⟨hg, hfields⟩ := List.forall_mem_cons.1 h
    rw [insertField, if_neg (String.lt_asymm hg), if_neg fun he => String.lt_irrefl _ (he ▸ hg),
      ih hfields, List.cons_append]

theorem sortFields_concat (f : String × Value) :
    sortFields (fields ++ [f]) = insertField f.1 f.2 (sortFields fields) := by
  rw [sortFields, List.foldl_append]
  rfl

theorem mem_sortFields {f : String × Value} (h : f ∈ sortFields fields) : f ∈ fields := by
  induction fields using List.reverseRecOn with
  | nil => exact h
  | append_singleton fields g ih =>
    rw [sortFields_concat] at h
    rcases mem_insertField h with rfl | h
    · exact List.mem_append_right _ (List.mem_singleton_self _)
    · exact List.mem_append_left _ (ih h)

theorem inOrder_sortFields (fields : List (String × Value)) : InOrder (sortFields fields) := by
  induction fields using List.reverseRecOn with
  | nil => exact .nil
  | append_singleton fields f ih =>
    rw [sortFields_concat]
    exact inOrder_insertField ih

/-- Of equal keys the last one counts. -/
theorem find?_sortFields (key : String) :
    Entries.find? key (sortFields fields) = Entries.find? key fields.reverse := by
  induction fields using List.reverseRecOn with
  | nil => rfl
  | append_singleton fields f ih =>
    rw [sortFields_concat, find?_insertField, ih, List.reverse_concat, Entries.find?]

/-- Fields in order are left as they are. -/
theorem sortFields_of_inOrder (h : InOrder fields) : sortFields fields = fields := by
  induction fields using List.reverseRecOn with
  | nil => rfl
  | append_singleton fields f ih =>
    obtain ⟨hfields, -, hlast⟩ := List.pairwise_append.1 h
    rw [sortFields_concat, ih hfields,
      insertField_of_forall_lt fun g hg => hlast g hg f (List.mem_singleton_self f)]

/-! ## Values -/

/-- A value without double-precision numbers whose objects have their fields in order. -/
inductive IsNormal : Value → Prop
  | null : IsNormal .null
  | bool (b : Bool) : IsNormal (.bool b)
  | integer {z : Int} (h : FitsNumber z) : IsNormal (.number (.integer z))
  | text (s : String) : IsNormal (.text s)
  | array {items : List Value} (h : ∀ v ∈ items, IsNormal v) : IsNormal (.array items)
  | object {fields : List (String × Value)} (h : ∀ f ∈ fields, IsNormal f.2)
      (order : InOrder fields) : IsNormal (.object fields)

theorem IsNormal.isIntegral (h : IsNormal v) : IsIntegral v := by
  induction h with
  | null => exact .null
  | bool b => exact .bool b
  | integer h => exact .integer h
  | text s => exact .text s
  | array _ ih => exact .array ih
  | object _ _ ih => exact .object ih

theorem itemsOf?_itemTrees {items : List Value} (h : ∀ v ∈ items, valueOf? (treeOf v) = some v) :
    itemsOf? (itemTrees items) = some items := by
  induction items with
  | nil => rfl
  | cons v items ih =>
    obtain ⟨hv, hitems⟩ := List.forall_mem_cons.1 h
    simp only [itemTrees, itemsOf?, hv, ih hitems]

theorem fieldsOf?_fieldTrees (h : ∀ f ∈ fields, valueOf? (treeOf f.2) = some f.2) :
    fieldsOf? (fieldTrees fields) = some fields := by
  induction fields with
  | nil => rfl
  | cons f fields ih =>
    obtain ⟨hf, hfields⟩ := List.forall_mem_cons.1 h
    simp only [fieldTrees, fieldsOf?, textOf?_piecesOf, hf, ih hfields]

/-- **A value in normal form is read again as itself.** -/
theorem valueOf?_treeOf (h : IsNormal v) : valueOf? (treeOf v) = some v := by
  induction h with
  | null => rfl
  | bool b => rfl
  | @integer z h =>
    have hread : Number.read? (Number.integer z).text.toList = some (.integer z) :=
      read?_integerChars h
    rw [treeOf, valueOf?, hread, Option.map_some]
  | text s => rw [treeOf, valueOf?, textOf?_piecesOf, Option.map_some]
  | array _ ih => rw [treeOf, valueOf?, itemsOf?_itemTrees ih, Option.map_some]
  | object _ order ih =>
    rw [treeOf, valueOf?, fieldsOf?_fieldTrees ih, Option.map_some, sortFields_of_inOrder order]

/-! ## Values that have been read -/

theorem exists_of_mem_items {items : List Tree} {vs : List Value} (h : itemsOf? items = some vs)
    (hv : v ∈ vs) : ∃ t ∈ items, valueOf? t = some v := by
  induction items generalizing vs with
  | nil =>
    cases h
    cases hv
  | cons t items ih =>
    rw [itemsOf?] at h
    split at h
    · next w ws hw hws =>
      cases h
      rcases List.mem_cons.1 hv with rfl | hv
      · exact ⟨t, .head _, hw⟩
      · obtain ⟨u, hu, hvalue⟩ := ih hws hv
        exact ⟨u, .tail _ hu, hvalue⟩
    · cases h

theorem exists_of_mem_fields {trees : List (List Piece × Tree)} (h : fieldsOf? trees = some fields)
    {f : String × Value} (hf : f ∈ fields) : ∃ g ∈ trees, valueOf? g.2 = some f.2 := by
  induction trees generalizing fields with
  | nil =>
    cases h
    cases hf
  | cons g trees ih =>
    obtain ⟨key, t⟩ := g
    rw [fieldsOf?] at h
    split at h
    · next k v fs hk hv hfs =>
      cases h
      rcases List.mem_cons.1 hf with rfl | hf
      · exact ⟨(key, t), .head _, hv⟩
      · obtain ⟨u, hu, hvalue⟩ := ih hfs hf
        exact ⟨u, .tail _ hu, hvalue⟩
    · cases h

theorem fitsNumber_of_integer? {n : Numeral} {z : Int} (h : n.integer? = some z) : FitsNumber z := by
  have hleast : Int64.minValue.toInt = -9223372036854775808 := rfl
  have hsize : UInt64.size = 18446744073709551616 := rfl
  simp only [Numeral.integer?] at h
  split at h
  · cases h
  split at h
  · obtain ⟨⟨hpos, hmin⟩, h⟩ := Option.ite_none_right_eq_some.1 h
    cases h
    constructor <;> omega
  · obtain ⟨hmax, h⟩ := Option.ite_none_right_eq_some.1 h
    cases h
    constructor <;> omega

theorem fitsNumber_of_read? {chars : List Char} {z : Int} (h : Number.read? chars = some (.integer z)) :
    FitsNumber z := by
  obtain ⟨n, -, h⟩ := Option.bind_eq_some_iff.1 h
  split at h
  · next hz =>
    cases h
    exact fitsNumber_of_integer? hz
  · obtain ⟨x, -, hx⟩ := Option.map_eq_some_iff.1 h
    cases hx

/-- **What is read is in normal form**, if no double-precision number is. -/
theorem isNormal_of_valueOf? {t : Tree} (ht : IsWhole t) (h : valueOf? t = some v) : IsNormal v := by
  induction ht generalizing v with
  | null =>
    cases h
    exact .null
  | bool b =>
    cases h
    exact .bool b
  | number hz =>
    rw [valueOf?, hz] at h
    cases h
    exact .integer (fitsNumber_of_read? hz)
  | string pieces =>
    obtain ⟨s, -, rfl⟩ := Option.map_eq_some_iff.1 h
    exact .text s
  | array _ ih =>
    obtain ⟨vs, hvs, rfl⟩ := Option.map_eq_some_iff.1 h
    refine .array fun w hw => ?_
    obtain ⟨t, ht, hvalue⟩ := exists_of_mem_items hvs hw
    exact ih t ht hvalue
  | object _ ih =>
    obtain ⟨fs, hfs, rfl⟩ := Option.map_eq_some_iff.1 h
    refine .object (fun f hf => ?_) (inOrder_sortFields fs)
    obtain ⟨g, hg, hvalue⟩ := exists_of_mem_fields hfs (mem_sortFields hf)
    exact ih g hg hvalue

/-! ## Nesting -/

theorem depthOfItems_le_iff {items : List Tree} {n : Nat} :
    depthOfItems items ≤ n ↔ ∀ t ∈ items, depth t ≤ n := by
  induction items with
  | nil => simp [depthOfItems]
  | cons t items ih => rw [depthOfItems, Nat.max_le, ih, List.forall_mem_cons]

theorem depthOfFields_le_iff {fields : List (List Piece × Tree)} {n : Nat} :
    depthOfFields fields ≤ n ↔ ∀ f ∈ fields, depth f.2 ≤ n := by
  induction fields with
  | nil => simp [depthOfFields]
  | cons f fields ih => rw [depthOfFields, Nat.max_le, ih, List.forall_mem_cons]

theorem itemTrees_eq_map (items : List Value) : itemTrees items = items.map treeOf := by
  induction items with
  | nil => rfl
  | cons v items ih => rw [itemTrees, ih, List.map_cons]

theorem fieldTrees_eq_map (fields : List (String × Value)) :
    fieldTrees fields = fields.map fun f => (piecesOf f.1, treeOf f.2) := by
  induction fields with
  | nil => rfl
  | cons f fields ih => rw [fieldTrees, ih, List.map_cons]

theorem depthOfItems_itemTrees_le_iff {items : List Value} {n : Nat} :
    depthOfItems (itemTrees items) ≤ n ↔ ∀ v ∈ items, depth (treeOf v) ≤ n := by
  rw [depthOfItems_le_iff, itemTrees_eq_map, List.forall_mem_map]

theorem depthOfFields_fieldTrees_le_iff {n : Nat} :
    depthOfFields (fieldTrees fields) ≤ n ↔ ∀ f ∈ fields, depth (treeOf f.2) ≤ n := by
  rw [depthOfFields_le_iff, fieldTrees_eq_map, List.forall_mem_map]

/-- **A value is nested no deeper than the tree that it was read from.** -/
theorem depth_treeOf_le {t : Tree} (ht : IsWhole t) (h : valueOf? t = some v) :
    depth (treeOf v) ≤ depth t := by
  induction ht generalizing v with
  | null =>
    cases h
    exact Nat.le_refl _
  | bool b =>
    cases h
    exact Nat.le_refl _
  | number hz =>
    rw [valueOf?, hz] at h
    cases h
    exact Nat.le_refl _
  | string pieces =>
    obtain ⟨s, -, rfl⟩ := Option.map_eq_some_iff.1 h
    exact Nat.le_refl _
  | array _ ih =>
    obtain ⟨vs, hvs, rfl⟩ := Option.map_eq_some_iff.1 h
    refine Nat.succ_le_succ (depthOfItems_itemTrees_le_iff.2 fun w hw => ?_)
    obtain ⟨t, ht, hvalue⟩ := exists_of_mem_items hvs hw
    exact Nat.le_trans (ih t ht hvalue) (depthOfItems_le_iff.1 (Nat.le_refl _) t ht)
  | object _ ih =>
    obtain ⟨fs, hfs, rfl⟩ := Option.map_eq_some_iff.1 h
    refine Nat.succ_le_succ (depthOfFields_fieldTrees_le_iff.2 fun f hf => ?_)
    obtain ⟨g, hg, hvalue⟩ := exists_of_mem_fields hfs (mem_sortFields hf)
    exact Nat.le_trans (ih g hg hvalue) (depthOfFields_le_iff.1 (Nat.le_refl _) g hg)

end Rendezvous.Json
