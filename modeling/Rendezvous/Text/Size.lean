/-!
# Text sizes

Places in a text and lengths of texts are numbers of bytes, and are kept in 32 bits.  From four
gibibytes on a number of bytes is no text size; then `size?` gives none, and `sizeOrZero` gives zero in
its stead.
-/

namespace Rendezvous.Text

/-- The number of bytes of a text. -/
def byteSize : List Char → Nat
  | [] => 0
  | c :: rest => c.utf8Size + byteSize rest

/-- A number of bytes as a text size, if 32 bits hold it. -/
def size? (n : Nat) : Option UInt32 :=
  if n < UInt32.size then some (UInt32.ofNat n) else none

/-- A number of bytes as a text size, or zero if 32 bits do not hold it. -/
def sizeOrZero (n : Nat) : UInt32 :=
  (size? n).getD 0

theorem size?_eq_some_iff {n : Nat} {size : UInt32} : size? n = some size ↔ size.toNat = n := by
  unfold size?
  split
  · next h =>
    rw [Option.some.injEq]
    constructor
    · rintro rfl
      exact UInt32.toNat_ofNat_of_lt' h
    · rintro rfl
      exact UInt32.ofNat_toNat
  · next h =>
    refine iff_of_false nofun ?_
    rintro rfl
    exact h size.toNat_lt

theorem size?_eq_none_iff {n : Nat} : size? n = none ↔ UInt32.size ≤ n := by
  unfold size?
  split <;> simp <;> omega

/-- The size stands for a number of bytes: it is this number, or zero where no size is. -/
def IsSizeOf (size : UInt32) (n : Nat) : Prop :=
  size.toNat = n ∨ UInt32.size ≤ n ∧ size = 0

theorem isSizeOf_iff {size : UInt32} {n : Nat} : IsSizeOf size n ↔ size = sizeOrZero n := by
  rw [IsSizeOf, ← size?_eq_some_iff, ← size?_eq_none_iff, sizeOrZero]
  cases size? n <;> simp [eq_comm]

theorem isSizeOf_sizeOrZero (n : Nat) : IsSizeOf (sizeOrZero n) n :=
  isSizeOf_iff.2 rfl

/-- Below four gibibytes a size is the number of bytes. -/
theorem IsSizeOf.toNat_eq {size : UInt32} {n : Nat} (h : IsSizeOf size n) (hn : n < UInt32.size) :
    size.toNat = n :=
  h.resolve_right fun hover => Nat.not_le_of_lt hn hover.1

theorem IsSizeOf.eq_zero {size : UInt32} {n : Nat} (h : IsSizeOf size n) (hn : UInt32.size ≤ n) :
    size = 0 := by
  obtain rfl | ⟨-, hzero⟩ := h
  · exact absurd size.toNat_lt (Nat.not_lt_of_le hn)
  · exact hzero

/-! ## Sizes of texts -/

theorem byteSize_append (cs ds : List Char) : byteSize (cs ++ ds) = byteSize cs + byteSize ds := by
  induction cs with
  | nil => exact (Nat.zero_add _).symm
  | cons c cs ih => rw [List.cons_append, byteSize, byteSize, ih, Nat.add_assoc]

theorem byteSize_pos {cs : List Char} (h : cs ≠ []) : 0 < byteSize cs := by
  cases cs with
  | nil => exact absurd rfl h
  | cons c cs => exact Nat.add_pos_left c.utf8Size_pos _

theorem byteSize_replicate (n : Nat) (c : Char) : byteSize (List.replicate n c) = n * c.utf8Size := by
  induction n with
  | zero => exact (Nat.zero_mul _).symm
  | succ n ih => rw [List.replicate_succ, byteSize, ih, Nat.succ_mul, Nat.add_comm]

end Rendezvous.Text
