import Rendezvous.Config.Cardinality

/-!
# Letters and counts

A cardinality text is a letter exactly when it is one lower-case character
(`read_eq_parameter_iff`), and a well-formed one has a value as soon as its letter, if it is one,
is configured (`isSome_resolve`).
-/

namespace Rendezvous

open Arithmetic

theorem Config.parameterLetter?_eq_some_iff {key : String} {c : Char} :
    Config.parameterLetter? key = some c ↔ key.toList = [c] ∧ c.isLower = true := by
  unfold Config.parameterLetter?
  split
  · next d hd =>
    rw [hd]
    by_cases hl : d.isLower = true
    · rw [if_pos hl]
      constructor
      · intro h
        cases h
        exact ⟨rfl, hl⟩
      · rintro ⟨h, -⟩
        rw [List.head_eq_of_cons_eq h]
    · rw [if_neg hl]
      constructor
      · intro h
        cases h
      · rintro ⟨h, hc⟩
        rw [List.head_eq_of_cons_eq h] at hl
        exact absurd hc hl
  · next hne =>
    constructor
    · intro h
      cases h
    · rintro ⟨h, -⟩
      exact absurd h (hne c)

namespace Cardinality

/-- A cardinality is a letter exactly when its text is one lower-case character. -/
theorem read_eq_parameter_iff {raw : String} {c : Char} :
    read raw = .parameter c ↔ raw.toList = [c] ∧ c.isLower = true := by
  rw [← Config.parameterLetter?_eq_some_iff, read]
  cases Config.parameterLetter? raw with
  | some letter => simp
  | none =>
    simp only [reduceCtorEq, iff_false]
    split
    · unfold ofDigits
      dsimp only
      split <;> simp
    · simp

/-- Letters are always well formed. -/
theorem isWellFormed_of_parameter {raw : String} {c : Char} (h : read raw = .parameter c) :
    isWellFormed raw = true := by
  rw [isWellFormed, h]

/-- A well-formed cardinality stands for a count, its letter being configured. -/
theorem isSome_resolve {raw : String} {config : Config} (hwell : isWellFormed raw = true)
    (hbound : ∀ c, read raw = .parameter c → (config.parameter? c).isSome) :
    ((read raw).resolve config).isSome := by
  unfold isWellFormed at hwell
  cases hr : read raw with
  | parameter c => exact hbound c hr
  | literal count => rfl
  | invalid text =>
    rw [hr] at hwell
    cases hwell

end Cardinality

/-! ## Declaring letters -/

theorem Arithmetic.Parameters.mem_insert {ps : Parameters} {c x : Char} :
    x ∈ (ps.insert c).letters ↔ x ∈ ps.letters ∨ (x = c ∧ c.isLower = true) := by
  unfold Parameters.insert
  split
  · next h =>
    rw [mem_insertLetter]
    simp [h, or_comm]
  · next h => simp [h]

end Rendezvous
