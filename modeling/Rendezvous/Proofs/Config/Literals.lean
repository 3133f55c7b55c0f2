import Rendezvous.Proofs.Arithmetic.Grammar
import Rendezvous.Proofs.Config.Cardinality

/-!
# Counts in decimal

A count is well formed as a cardinality when its text is the one that the number is written with.
Digits after a positive number are its further digits (`toDigits_ofDigitChars`), so that a text of
digits without a leading zero is the decimal form of its value, and of no other number.
-/

namespace Rendezvous

namespace Arithmetic

/-- A digit is the character of its value. -/
theorem digitChar_of_isDigit {d : Char} (h : d.isDigit = true) :
    d.toNat - '0'.toNat < 10 ∧ Nat.digitChar (d.toNat - '0'.toNat) = d := by
  obtain ⟨hmin, hmax⟩ := Char.isDigit_iff_toNat.1 h
  have hzero : '0'.toNat = 48 := rfl
  have hnine : '9'.toNat = 57 := rfl
  have hlt : d.toNat - '0'.toNat < 10 := by omega
  refine ⟨hlt, Char.toNat_inj.1 ?_⟩
  rw [Nat.toNat_digitChar_of_lt_ten hlt]
  omega

/-- Digits after a positive number are the further digits of the number that they make with it. -/
theorem toDigits_ofDigitChars {n : Nat} (hn : 0 < n) {ds : List Char}
    (hdigits : ∀ d ∈ ds, d.isDigit = true) :
    Nat.toDigits 10 (Nat.ofDigitChars 10 ds n) = Nat.toDigits 10 n ++ ds := by
  induction ds generalizing n with
  | nil => exact (List.append_nil _).symm
  | cons d ds ih =>
    obtain ⟨hd, hds⟩ := List.forall_mem_cons.1 hdigits
    obtain ⟨hlt, hchar⟩ := digitChar_of_isDigit hd
    have hnext : Nat.toDigits 10 (10 * n + (d.toNat - '0'.toNat)) = Nat.toDigits 10 n ++ [d] := by
      rw [← Nat.toDigits_append_toDigits (by decide) hn hlt, Nat.toDigits_of_lt_base hlt, hchar]
    calc Nat.toDigits 10 (Nat.ofDigitChars 10 (d :: ds) n)
        = Nat.toDigits 10 (10 * n + (d.toNat - '0'.toNat)) ++ ds :=
          ih (Nat.add_pos_left (Nat.mul_pos (by decide) hn) _) hds
      _ = Nat.toDigits 10 n ++ d :: ds := by rw [hnext, List.append_assoc, List.singleton_append]

/-- Digits without a leading zero are those of their value, which is positive. -/
theorem toDigits_of_digits {ds : List Char} (hne : ds ≠ []) (hdigits : ∀ d ∈ ds, d.isDigit = true)
    (hzero : ds.head? ≠ some '0') :
    0 < Nat.ofDigitChars 10 ds 0 ∧ Nat.toDigits 10 (Nat.ofDigitChars 10 ds 0) = ds := by
  obtain ⟨d, rest, rfl⟩ := List.exists_cons_of_ne_nil hne
  obtain ⟨hd, hrest⟩ := List.forall_mem_cons.1 hdigits
  obtain ⟨hlt, hchar⟩ := digitChar_of_isDigit hd
  have hpos : 0 < d.toNat - '0'.toNat := by
    rw [Nat.pos_iff_ne_zero]
    intro hvalue
    rw [hvalue] at hchar
    exact hzero (congrArg some hchar.symm)
  have hfirst : Nat.ofDigitChars 10 (d :: rest) 0 =
      Nat.ofDigitChars 10 rest (d.toNat - '0'.toNat) := by
    rw [Nat.ofDigitChars_cons, Nat.mul_zero, Nat.zero_add]
  have hwhole : Nat.toDigits 10 (Nat.ofDigitChars 10 (d :: rest) 0) = d :: rest := by
    rw [hfirst, toDigits_ofDigitChars hpos hrest, Nat.toDigits_of_lt_base hlt, hchar]
    rfl
  refine ⟨Nat.pos_iff_ne_zero.2 fun hvalue => ?_, hwhole⟩
  rw [hvalue, Nat.toDigits_zero] at hwhole
  exact hzero (congrArg List.head? hwhole.symm)

/-- A positive number is written without a leading zero. -/
theorem head?_toDigits_ne {n : Nat} (hn : 0 < n) : (Nat.toDigits 10 n).head? ≠ some '0' := by
  induction n using Nat.strongRecOn with
  | _ n ih =>
    rw [Nat.toDigits_eq_if (by decide)]
    split
    · next hlt =>
      intro h
      have hvalue := congrArg Char.toNat (Option.some.inj h)
      rw [Nat.toNat_digitChar_of_lt_ten hlt] at hvalue
      have hzero : '0'.toNat = 48 := rfl
      omega
    · next hge =>
      obtain ⟨d, rest, hdigits⟩ := List.exists_cons_of_ne_nil (Nat.toDigits_ne_nil (n := n / 10) (b := 10))
      have hfirst := ih (n / 10) (by omega) (by omega)
      rw [hdigits] at hfirst ⊢
      exact hfirst

theorem isLiteral_iff {text : String} :
    isLiteral text = true ↔ text.toList ≠ [] ∧ ∀ d ∈ text.toList, d.isDigit = true := by
  simp [isLiteral]

end Arithmetic

namespace Cardinality

open Arithmetic

/-- A cardinality is a count exactly when its text is made of digits and their value fits. -/
theorem read_eq_literal_iff {raw : String} {count : UInt32} :
    read raw = .literal count ↔
      isLiteral raw = true ∧ Nat.ofDigitChars 10 raw.toList 0 = count.toNat := by
  unfold read
  cases hletter : Config.parameterLetter? raw with
  | some letter =>
    refine iff_of_false (fun h => nomatch h) fun h => ?_
    obtain ⟨hraw, hlower⟩ := Config.parameterLetter?_eq_some_iff.1 hletter
    obtain ⟨-, hdigits⟩ := isLiteral_iff.1 h.1
    have hdigit := hdigits letter (by rw [hraw]; exact List.mem_singleton_self letter)
    rw [isDigit_eq_false_of_isLower hlower] at hdigit
    cases hdigit
  | none =>
    by_cases hliteral : isLiteral raw = true
    · simp only [hliteral, if_true, true_and, ofDigits]
      by_cases hfits : Nat.ofDigitChars 10 raw.toList 0 < UInt32.size
      · rw [if_pos hfits, Cardinality.literal.injEq, ← UInt32.toNat_inj,
          UInt32.toNat_ofNat_of_lt' hfits]
      · rw [if_neg hfits]
        refine iff_of_false (fun h => nomatch h) fun h => hfits ?_
        rw [h]
        exact count.toNat_lt
    · simp [hliteral]

/-- **Which cardinalities are well formed**: the lower-case letters, and the decimal forms of the
positive numbers of 32 bits. -/
theorem isWellFormed_iff {raw : String} : isWellFormed raw = true ↔
    (∃ c, raw.toList = [c] ∧ c.isLower = true) ∨
      ∃ n : Nat, 0 < n ∧ n < UInt32.size ∧ raw = toString n := by
  constructor
  · intro h
    unfold isWellFormed at h
    cases hread : read raw with
    | parameter c => exact Or.inl ⟨c, read_eq_parameter_iff.1 hread⟩
    | literal count =>
      simp only [hread, Bool.and_eq_true, decide_eq_true_iff] at h
      obtain ⟨hliteral, hvalue⟩ := read_eq_literal_iff.1 hread
      obtain ⟨hne, hdigits⟩ := isLiteral_iff.1 hliteral
      obtain ⟨hpos, htext⟩ := toDigits_of_digits hne hdigits h.2
      rw [hvalue] at hpos htext
      refine Or.inr ⟨count.toNat, hpos, count.toNat_lt, ?_⟩
      rw [← String.toList_inj, Nat.toString_eq_repr, Nat.toList_repr, htext]
    | invalid text =>
      rw [hread] at h
      cases h
  · rintro (⟨c, hc⟩ | ⟨n, hpos, hfits, rfl⟩)
    · exact isWellFormed_of_parameter (read_eq_parameter_iff.2 hc)
    · have htext : (toString n).toList = Nat.toDigits 10 n := by
        rw [Nat.toString_eq_repr, Nat.toList_repr]
      have hread : read (toString n) = .literal n.toUInt32 := by
        rw [read_eq_literal_iff, isLiteral_iff, htext, Nat.ofDigitChars_ten_toDigits,
          UInt32.toNat_ofNat_of_lt' hfits]
        exact ⟨⟨Nat.toDigits_ne_nil, fun d => Nat.isDigit_of_mem_toDigits (by decide) (by decide)⟩, rfl⟩
      have hcount : n.toUInt32 ≠ 0 := by
        rw [ne_eq, ← UInt32.toNat_inj, UInt32.toNat_ofNat_of_lt' hfits]
        exact Nat.pos_iff_ne_zero.1 hpos
      simp only [isWellFormed, hread, htext, Bool.and_eq_true, decide_eq_true_iff]
      exact ⟨hcount, head?_toDigits_ne hpos⟩

end Cardinality

end Rendezvous
