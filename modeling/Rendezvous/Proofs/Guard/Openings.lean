import Rendezvous.Proofs.Guard.Words

/-!
# Open negations and parentheses

Reading a text from left to right, a parenthesis is open until it is closed, and a negation until its
operand is complete, which is at the next word or at the end of the parenthesis that it negates.
`mostOpen` is how many of them a text has open at once.
-/

namespace Rendezvous.Guard

/-- How many negations and parentheses are open in front of the text of the innermost parenthesis,
given the negations in front of each open parenthesis. -/
def openAround : List Nat → Nat
  | [] => 0
  | n :: outer => openAround outer + n + 1

/-- What is open at a place of a text: the negations behind the innermost open parenthesis, and the
negations in front of each open parenthesis, from the inside out. -/
structure Opened where
  negations : Nat
  outer : List Nat
  deriving DecidableEq, Repr

namespace Opened

/-- How many negations and parentheses are open. -/
def count (o : Opened) : Nat :=
  openAround o.outer + o.negations

/-- What is open after one more character. -/
def step (o : Opened) (c : Char) : Opened :=
  match TokenKind.ofChar c with
  | .bang => ⟨o.negations + 1, o.outer⟩
  | .leftParen => ⟨0, o.negations :: o.outer⟩
  | .rightParen => ⟨0, o.outer.tail⟩
  | .word | .error => ⟨0, o.outer⟩
  | .amp | .pipe | .whitespace => o

/-- How many negations and parentheses are open at once somewhere in a text. -/
def most (o : Opened) : List Char → Nat
  | [] => o.count
  | c :: rest => max o.count ((o.step c).most rest)

theorem count_le_most (o : Opened) (text : List Char) : o.count ≤ o.most text := by
  cases text with
  | nil => exact Nat.le_refl _
  | cons c rest => exact Nat.le_max_left _ _

/-! ## Texts from parts -/

/-- Behind what `o` has open, the text completes an operand, and opens `n` at once on the way. -/
def Completes (o : Opened) (text : List Char) (n : Nat) : Prop :=
  ∀ rest, o.most (text ++ rest) = max (o.count + n) (most ⟨0, o.outer⟩ rest)

theorem completes_word {word : List Char} (h : IsWord word) (o : Opened) : o.Completes word 0 := by
  intro rest
  obtain ⟨hne, hchars⟩ := h
  induction word generalizing o with
  | nil => exact absurd rfl hne
  | cons c word ih =>
    obtain ⟨hc, hchars⟩ := List.forall_mem_cons.1 hchars
    have hstep : o.step c = ⟨0, o.outer⟩ := by rw [step, hc]
    rw [List.cons_append, most, hstep]
    cases word with
    | nil => rfl
    | cons c' word =>
      have hrest : count ⟨0, o.outer⟩ ≤ most ⟨0, o.outer⟩ rest := count_le_most _ rest
      have hword : most ⟨0, o.outer⟩ (c' :: word ++ rest) =
          max (count ⟨0, o.outer⟩ + 0) (most ⟨0, o.outer⟩ rest) :=
        ih _ (List.cons_ne_nil c' word) hchars
      rw [hword]
      omega

variable {o : Opened} {text text' : List Char} {n m : Nat}

/-- A negation before a text. -/
theorem Completes.negation (h : Completes ⟨o.negations + 1, o.outer⟩ text n) :
    o.Completes ('!' :: text) (n + 1) := by
  intro rest
  have hcount : count ⟨o.negations + 1, o.outer⟩ = o.count + 1 := rfl
  calc o.most ('!' :: text ++ rest)
    _ = max o.count (most ⟨o.negations + 1, o.outer⟩ (text ++ rest)) := rfl
    _ = max o.count (max (o.count + 1 + n) (most ⟨0, o.outer⟩ rest)) := by rw [h rest, hcount]
    _ = max (o.count + (n + 1)) (most ⟨0, o.outer⟩ rest) := by omega

/-- Parentheses around a text. -/
theorem Completes.group (h : Completes ⟨0, o.negations :: o.outer⟩ text n) :
    o.Completes ('(' :: (text ++ [')'])) (n + 1) := by
  intro rest
  have hcount : count ⟨0, o.negations :: o.outer⟩ = o.count + 1 := rfl
  calc o.most ('(' :: (text ++ [')']) ++ rest)
    _ = max o.count (most ⟨0, o.negations :: o.outer⟩ (text ++ (')' :: rest))) := by
      rw [List.cons_append, List.append_assoc]
      rfl
    _ = max o.count (max (o.count + 1 + n) (max (o.count + 1) (most ⟨0, o.outer⟩ rest))) := by
      rw [h, hcount, most, hcount]
      rfl
    _ = max (o.count + (n + 1)) (most ⟨0, o.outer⟩ rest) := by omega

/-- A binary operator between two texts, with a space on either side. -/
theorem Completes.spaced (h : o.Completes text n) (hnone : o.negations = 0) {c : Char}
    (hc : TokenKind.ofChar c = .amp ∨ TokenKind.ofChar c = .pipe) (h' : o.Completes text' m) :
    o.Completes (text ++ ' ' :: c :: ' ' :: text') (max n m) := by
  obtain ⟨negations, outer⟩ := o
  subst hnone
  have hskip : ∀ rest, most ⟨0, outer⟩ (c :: rest) =
      max (count ⟨0, outer⟩) (most ⟨0, outer⟩ rest) := by
    intro rest
    have hstep : step ⟨0, outer⟩ c = ⟨0, outer⟩ := by
      rcases hc with hc | hc
      · rw [step, hc]
      · rw [step, hc]
    rw [most, hstep]
  have hspace : ∀ rest, most ⟨0, outer⟩ (' ' :: rest) =
      max (count ⟨0, outer⟩) (most ⟨0, outer⟩ rest) := fun _ => rfl
  intro rest
  rw [List.append_assoc, h, List.cons_append, hspace, List.cons_append, hskip, List.cons_append,
    hspace, h' rest]
  omega

end Opened

/-- How many negations and parentheses a text has open at once. -/
def mostOpen (text : List Char) : Nat :=
  Opened.most ⟨0, []⟩ text

theorem mostOpen_of_completes {text : List Char} {n : Nat} (h : Opened.Completes ⟨0, []⟩ text n) :
    mostOpen text = n := by
  have hall := h []
  rw [List.append_nil] at hall
  rw [mostOpen, hall]
  simp [Opened.most, Opened.count, openAround]

end Rendezvous.Guard
