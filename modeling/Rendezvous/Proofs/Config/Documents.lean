import Rendezvous.Config.Document
import Rendezvous.Proofs.Json.Documents
import Rendezvous.Proofs.Table
import Rendezvous.Proofs.Text.Utf8

/-!
# Configurations as documents

The bound on transitions and the parameters share one object, so a parameter with the key of the bound
cannot be told from it: such a document has the field twice and is refused (`ofTree?_toValue`).  Every
other key is read back as it was, in its place, and only then the keys are checked.  A valid
configuration has no such key, because its keys are single letters, so the configurations that are
read back are the valid ones (`read_document_eq_ok_iff`).
-/

namespace Rendezvous.Config

open Json

variable {c : Config}

/-! ## Valid keys -/

/-- A configuration is valid when every key names a letter. -/
theorem validate_eq_ok_iff :
    c.validate = .ok () ↔ ∀ key ∈ c.parameters.keys, (parameterLetter? key).isSome = true := by
  unfold validate
  cases hfind : c.parameters.keys.find? fun key => (parameterLetter? key).isNone with
  | none => simpa [← Option.isSome_iff_ne_none] using List.find?_eq_none.1 hfind
  | some key =>
    refine iff_of_false (fun h => nomatch h) fun h => ?_
    have hsome := h key (List.mem_of_find?_eq_some hfind)
    have hnone := List.find?_some hfind
    rw [← Option.not_isSome, hsome] at hnone
    cases hnone

theorem parameterLetter?_transitionsKey : parameterLetter? transitionsKey = none := by
  decide

/-- The key of the bound is no letter, so that no parameter of a valid configuration has it. -/
theorem transitionsKey_not_mem_keys (h : c.validate = .ok ()) :
    transitionsKey ∉ c.parameters.keys := by
  intro hmem
  have hsome := validate_eq_ok_iff.1 h transitionsKey hmem
  rw [parameterLetter?_transitionsKey] at hsome
  cases hsome

/-! ## Written fields -/

/-- The value that a natural number is written as. -/
def writtenNatural (n : Nat) : Value :=
  .number (.integer n)

theorem fitsNumber_natCast {n : Nat} (h : n < UInt64.size) : FitsNumber n := by
  have hsize : UInt64.size = 18446744073709551616 := rfl
  constructor <;> omega

theorem isIntegral_toValue (c : Config) : IsIntegral c.toValue := by
  refine .object fun f hf => ?_
  rcases List.mem_cons.1 hf with rfl | hf
  · exact .integer (fitsNumber_natCast c.transitions.toNat_lt)
  · obtain ⟨e, -, rfl⟩ := List.mem_map.1 hf
    exact .integer (fitsNumber_natCast (Nat.lt_trans e.2.toNat_lt (by decide)))

/-- A written natural number below the bound is read as itself. -/
theorem naturalBelow?_treeOf {bound n : Nat} (hn : n < bound) (hbound : bound ≤ UInt64.size) :
    naturalBelow? bound (treeOf (writtenNatural n)) = some n := by
  have hread : Number.read? (Number.integer n).text.toList = some (.integer n) :=
    read?_integerChars (fitsNumber_natCast (Nat.lt_of_lt_of_le hn hbound))
  rw [writtenNatural, treeOf, naturalBelow?, hread]
  exact if_pos ⟨Int.natCast_nonneg n, Int.ofNat_lt.2 hn⟩

/-- The bound on transitions comes first. -/
theorem readField?_transitions (n : UInt64) :
    readField? ⟨none, .empty⟩ (piecesOf transitionsKey, treeOf (writtenNatural n.toNat)) =
      some ⟨some n, .empty⟩ := by
  have hn := naturalBelow?_treeOf n.toNat_lt (Nat.le_refl _)
  simp [readField?, textOf?_piecesOf, hn]

/-- A parameter is bound to its value, unless it has the key of the bound, which is there already. -/
theorem readField?_parameter (n : UInt64) (parameters : Table String UInt32) (key : String)
    (value : UInt32) :
    readField? ⟨some n, parameters⟩ (piecesOf key, treeOf (writtenNatural value.toNat)) =
      if key = transitionsKey then none else some ⟨some n, parameters.insert key value⟩ := by
  have hvalue := naturalBelow?_treeOf value.toNat_lt (by decide)
  simp [readField?, textOf?_piecesOf, hvalue]

theorem foldlM_readField? (n : UInt64) (parameters : Table String UInt32)
    (entries : List (String × UInt32)) :
    (fieldTrees (entries.map fun e => (e.1, writtenNatural e.2.toNat))).foldlM readField?
        ⟨some n, parameters⟩ =
      if transitionsKey ∈ entries.map Prod.fst then none
      else some ⟨some n, parameters.insertMany entries⟩ := by
  induction entries generalizing parameters with
  | nil => rfl
  | cons e entries ih =>
    rw [List.map_cons, fieldTrees, List.foldlM_cons, readField?_parameter]
    by_cases hkey : e.1 = transitionsKey
    · simp [hkey]
    · have hmem : transitionsKey ∈ (e :: entries).map Prod.fst ↔
          transitionsKey ∈ entries.map Prod.fst := by
        simp [Ne.symm hkey]
      rw [if_neg hkey, if_congr hmem rfl rfl]
      exact ih (parameters.insert e.1 e.2)

/-! ## Documents -/

/-- The document of a configuration describes it, unless a parameter has the key of the bound. -/
theorem ofTree?_toValue (c : Config) :
    ofTree? (treeOf c.toValue) = if transitionsKey ∈ c.parameters.keys then none else some c := by
  have hvalue : c.toValue = .object ((transitionsKey, writtenNatural c.transitions.toNat) ::
      c.parameters.entries.map fun e => (e.1, writtenNatural e.2.toNat)) := rfl
  have hparameters : Table.empty.insertMany c.parameters.entries = c.parameters :=
    Table.ofList_entries
  have hfold := foldlM_readField? c.transitions .empty c.parameters.entries
  rw [hparameters] at hfold
  rw [hvalue, treeOf, ofTree?, fieldTrees, List.foldlM_cons, readField?_transitions]
  show Option.map _ (List.foldlM readField? _ _) = _
  rw [hfold, Table.keys]
  split <;> rfl

/-- A document that describes a configuration is accepted when the keys are valid. -/
theorem read_eq_map_validate {source : Text.Decoded} (h : (tree? source).bind ofTree? = some c) :
    read source = c.validate.map fun _ => c := by
  rw [read, h]
  dsimp only
  cases c.validate <;> rfl

/-- What reading the document of a configuration gives. -/
theorem read_document (c : Config) :
    read (Text.decoded c.document) =
      if transitionsKey ∈ c.parameters.keys then .error .json else c.validate.map fun _ => c := by
  have htree : (tree? (Text.decoded c.document)).bind ofTree? =
      if transitionsKey ∈ c.parameters.keys then none else some c := by
    rw [document, tree?_pretty (isIntegral_toValue c), Option.bind_some, ofTree?_toValue]
  split
  · next hkey =>
    rw [if_pos hkey] at htree
    rw [read, htree]
  · next hkey =>
    rw [if_neg hkey] at htree
    exact read_eq_map_validate htree

/-- **Which configurations are read back**: the valid ones, with their parameters in order.  The
document of any other is refused. -/
theorem read_document_eq_ok_iff (c : Config) :
    (read (Text.decodeUtf8 (Text.utf8Bytes c.document)) = .ok c ↔ c.validate = .ok ()) ∧
      (c.validate ≠ .ok () →
        ∃ e, read (Text.decodeUtf8 (Text.utf8Bytes c.document)) = .error e) := by
  rw [Text.decodeUtf8_utf8Bytes, read_document]
  by_cases hkey : transitionsKey ∈ c.parameters.keys
  · have hinvalid : c.validate ≠ .ok () := fun hvalid => transitionsKey_not_mem_keys hvalid hkey
    rw [if_pos hkey]
    exact ⟨iff_of_false (fun h => nomatch h) hinvalid, fun _ => ⟨_, rfl⟩⟩
  · rw [if_neg hkey]
    cases c.validate with
    | ok => exact ⟨iff_of_true rfl rfl, fun h => absurd rfl h⟩
    | error e => exact ⟨iff_of_false (fun h => nomatch h) (fun h => nomatch h), fun _ => ⟨e, rfl⟩⟩

end Rendezvous.Config
