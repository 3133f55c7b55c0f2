import Rendezvous.Proofs.Json.Scalars

/-!
# Documents without double-precision numbers

Whether a document holds a double-precision number is seen from its tokens (`holdsDouble`).  If there is
none among them, there is none in what has been put together after any of them (`WholeSoFar.step`), and
in the end all numbers of the syntax tree are integers (`isWhole_of_tree?`).
-/

namespace Rendezvous.Json

/-- Whether a token is a number that is no integer of 64 bits. -/
def Token.isDouble : Token → Bool
  | .number chars =>
    match Number.read? chars with
    | some (.integer _) => false
    | _ => true
  | _ => false

/-- Whether a document holds a double-precision number. -/
def holdsDouble (source : Text.Decoded) : Bool :=
  ((tokens? source).getD []).any Token.isDouble

/-- A syntax tree whose numbers are integers of 64 bits. -/
inductive IsWhole : Tree → Prop
  | null : IsWhole .null
  | bool (b : Bool) : IsWhole (.bool b)
  | number {chars : List Char} {z : Int} (h : Number.read? chars = some (.integer z)) :
      IsWhole (.number chars)
  | string (pieces : List Piece) : IsWhole (.string pieces)
  | array {items : List Tree} (h : ∀ t ∈ items, IsWhole t) : IsWhole (.array items)
  | object {fields : List (List Piece × Tree)} (h : ∀ f ∈ fields, IsWhole f.2) :
      IsWhole (.object fields)

/-- The parts of an array or object that is still open are whole. -/
def Frame.IsWhole : Frame → Prop
  | .array items => ∀ t ∈ items, Json.IsWhole t
  | .object fields _ => ∀ f ∈ fields, Json.IsWhole f.2

/-- What has been read and waits for the next token is whole. -/
def Due.IsWhole : Due → Prop
  | .key fields | .colon fields _ => ∀ f ∈ fields, Json.IsWhole f.2
  | .after v => Json.IsWhole v
  | _ => True

/-- Whatever is still open and whatever waits for the next token is whole. -/
structure WholeSoFar (stack : List Frame) (due : Due) : Prop where
  stack : ∀ f ∈ stack, f.IsWhole
  due : due.IsWhole

theorem Token.exists_integer {chars : List Char} (h : (number chars).isDouble = false) :
    ∃ z, Number.read? chars = some (.integer z) := by
  simp only [isDouble] at h
  split at h
  · next z hz => exact ⟨z, hz⟩
  · cases h

section
variable {stack stack' : List Frame} {due due' : Due} {t : Token}

theorem isWhole_stepValue (ht : t.isDouble = false) (hstack : ∀ f ∈ stack, f.IsWhole)
    (h : stepValue stack t = some (stack', due')) : WholeSoFar stack' due' := by
  cases t with
  | null =>
    cases h
    exact ⟨hstack, .null⟩
  | bool b =>
    cases h
    exact ⟨hstack, .bool b⟩
  | number chars =>
    obtain ⟨z, hz⟩ := Token.exists_integer ht
    obtain ⟨-, h⟩ := Option.ite_none_right_eq_some.1 h
    cases h
    exact ⟨hstack, .number hz⟩
  | string pieces =>
    cases h
    exact ⟨hstack, .string pieces⟩
  | openBracket =>
    cases h
    exact ⟨List.forall_mem_cons.2 ⟨List.forall_mem_nil _, hstack⟩, trivial⟩
  | openBrace =>
    cases h
    exact ⟨hstack, trivial⟩
  | _ => cases h

theorem isWhole_stepAfter {v : Tree} (hv : IsWhole v) (hstack : ∀ f ∈ stack, f.IsWhole)
    (h : stepAfter v stack t = some (stack', due')) : WholeSoFar stack' due' := by
  cases stack with
  | nil => cases t <;> cases h
  | cons frame outer =>
    obtain ⟨hframe, houter⟩ := List.forall_mem_cons.1 hstack
    cases frame with
    | array items =>
      have hitems : ∀ t ∈ v :: items, IsWhole t := List.forall_mem_cons.2 ⟨hv, hframe⟩
      cases t with
      | comma =>
        cases h
        exact ⟨List.forall_mem_cons.2 ⟨hitems, houter⟩, trivial⟩
      | closeBracket =>
        cases h
        exact ⟨houter, .array fun t ht => hitems t (List.mem_reverse.1 ht)⟩
      | _ => cases h
    | object fields key =>
      have hfields : ∀ f ∈ (key, v) :: fields, IsWhole f.2 := List.forall_mem_cons.2 ⟨hv, hframe⟩
      cases t with
      | comma =>
        cases h
        exact ⟨houter, hfields⟩
      | closeBrace =>
        cases h
        exact ⟨houter, .object fun f hf => hfields f (List.mem_reverse.1 hf)⟩
      | _ => cases h

/-- A token that is no double-precision number keeps everything whole. -/
theorem WholeSoFar.step (hwhole : WholeSoFar stack due) (ht : t.isDouble = false)
    (h : stepToken stack due t = some (stack', due')) : WholeSoFar stack' due' := by
  obtain ⟨hstack, hdue⟩ := hwhole
  unfold stepToken at h
  split at h
  · exact isWhole_stepValue ht hstack h
  · split at h
    · cases h
      exact ⟨(List.forall_mem_cons.1 hstack).2, .array (List.forall_mem_nil _)⟩
    · cases h
  · exact isWhole_stepValue ht hstack h
  · cases h
    exact ⟨hstack, .object (List.forall_mem_nil _)⟩
  · cases h
    exact ⟨hstack, List.forall_mem_nil _⟩
  · cases h
    exact ⟨hstack, hdue⟩
  · cases h
    exact ⟨List.forall_mem_cons.2 ⟨hdue, hstack⟩, trivial⟩
  · exact isWhole_stepAfter hdue hstack h
  · cases h

/-- Tokens that are no double-precision numbers are put together to a whole tree. -/
theorem WholeSoFar.of_treeFrom (hwhole : WholeSoFar stack due) {ts : List Token}
    (hts : ∀ t ∈ ts, t.isDouble = false) {v : Tree} (h : treeFrom stack due ts = some v) :
    IsWhole v := by
  induction ts generalizing stack due with
  | nil =>
    unfold treeFrom finish? at h
    split at h
    · cases h
      exact hwhole.due
    · cases h
  | cons t ts ih =>
    obtain ⟨ht, hts⟩ := List.forall_mem_cons.1 hts
    rw [treeFrom] at h
    split at h
    · next stack' due' hstep => exact ih (hwhole.step ht hstep) hts h
    · cases h

end

/-- **A document without double-precision numbers is read as a tree without them.** -/
theorem isWhole_of_tree? {source : Text.Decoded} {v : Tree} (hsource : holdsDouble source = false)
    (h : tree? source = some v) : IsWhole v := by
  obtain ⟨ts, hts, h⟩ := Option.bind_eq_some_iff.1 h
  rw [holdsDouble, hts, Option.getD_some, List.any_eq_false] at hsource
  have hstart : WholeSoFar [] .value := ⟨List.forall_mem_nil _, trivial⟩
  exact hstart.of_treeFrom (fun t ht => Bool.eq_false_iff.2 (hsource t ht)) h

end Rendezvous.Json
