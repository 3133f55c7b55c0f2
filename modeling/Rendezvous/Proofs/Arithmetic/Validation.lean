import Rendezvous.Proofs.Arithmetic.Reading

/-!
# Why an expression text is rejected

Validating a text has three outcomes.  The allow-list decides first, and rejects empty texts and those
with a character that is not allowed; the grammar rejects what is left without a tree, always for a
place at which the text leaves it (`validate_cases`).  The two mechanisms share no error, so the error
tells which of them has rejected the text.
-/

namespace Rendezvous.Arithmetic

/-- An error of the allow-list.  Where the place of a character is no text size, the error is that of an
overflow. -/
def ExpressionError.IsUnlisted (err : ExpressionError) : Prop :=
  err = .empty ∨ (∃ c offset, err = .disallowedCharacter c offset) ∨ err = .overflow

/-- An error of the grammar. -/
def ExpressionError.IsMalformed (err : ExpressionError) : Prop :=
  ∃ offset expected, err = .malformed offset expected

/-! ## The allow-list -/

/-- The allow-list is a condition on texts, and rejects with errors of its own. -/
theorem check_cases (ps : Parameters) (text : List Char) :
    (ps.check text = .ok () ∧ text ≠ [] ∧ ∀ c ∈ text, ps.allows c = true) ∨
      ∃ err, ps.check text = .error err ∧ err.IsUnlisted ∧
        ¬ (text ≠ [] ∧ ∀ c ∈ text, ps.allows c = true) := by
  unfold Parameters.check
  by_cases hempty : text = []
  · subst hempty
    exact Or.inr ⟨.empty, rfl, Or.inl rfl, fun h => h.1 rfl⟩
  · rw [if_neg (by simpa using hempty)]
    cases hfirst : ps.firstDisallowed 0 text with
    | none => exact Or.inl ⟨rfl, hempty, firstDisallowed_eq_none_iff.1 hfirst⟩
    | some found =>
      have hnot : ¬ (text ≠ [] ∧ ∀ c ∈ text, ps.allows c = true) := by
        intro h
        rw [firstDisallowed_eq_none_iff.2 h.2] at hfirst
        cases hfirst
      dsimp only
      split
      · exact Or.inr ⟨_, rfl, Or.inr (Or.inl ⟨_, _, rfl⟩), hnot⟩
      · exact Or.inr ⟨_, rfl, Or.inr (Or.inr rfl), hnot⟩

theorem check_eq_ok_iff {ps : Parameters} {text : List Char} :
    ps.check text = .ok () ↔ text ≠ [] ∧ ∀ c ∈ text, ps.allows c = true := by
  obtain ⟨hcheck, hallowed⟩ | ⟨err, hcheck, -, hnot⟩ := check_cases ps text
  · exact iff_of_true hcheck hallowed
  · exact iff_of_false (fun hok => nomatch hcheck.symm.trans hok) hnot

/-! ## The grammar -/

/-- A lexeme is refused at its own place. -/
theorem malformed_of_readLexeme {r : Reading} {l : Lexeme} {err : ExpressionError}
    (h : readLexeme r l = .error err) : ∃ expected, err = malformedAt l.offset expected := by
  obtain ⟨outer, pending, position⟩ := r
  obtain ⟨offset, symbol⟩ := l
  cases position with
  | start | afterOperation =>
    cases symbol with
    | operation op | closing =>
      cases h
      exact ⟨_, rfl⟩
    | digits ds | letter c | opening => cases h
  | afterOperand e =>
    cases symbol with
    | digits ds | letter c | opening =>
      cases h
      exact ⟨_, rfl⟩
    | operation op => cases h
    | closing =>
      cases outer with
      | nil =>
        cases h
        exact ⟨_, rfl⟩
      | cons enclosing outer => cases h

/-- The end of a text is refused at its length. -/
theorem malformed_of_readFrom_nil {length : Nat} {r : Reading} {err : ExpressionError}
    (h : readFrom length r.outer r.pending r.position [] = .error err) :
    ∃ expected, err = malformedAt length expected := by
  obtain ⟨outer, pending, position⟩ := r
  cases position with
  | start | afterOperation =>
    cases outer <;> cases h <;> exact ⟨_, rfl⟩
  | afterOperand e =>
    cases outer with
    | nil => cases h
    | cons enclosing outer =>
      cases h
      exact ⟨_, rfl⟩

/-- Reading fails at the end of a text whose lexemes all fit, or at the first lexeme that does not. -/
theorem malformed_of_readFrom {length : Nat} {r : Reading} {ls : List Lexeme}
    {err : ExpressionError}
    (h : readFrom length r.outer r.pending r.position ls = .error err) :
    ∃ offset expected, err = malformedAt offset expected ∧
      (offset = length ∧ (∃ r', r.run (ls.map Lexeme.symbol) = some r') ∨
        ∃ before l after r', ls = before ++ l :: after ∧ offset = l.offset ∧
          r.run (before.map Lexeme.symbol) = some r' ∧ r'.step l.symbol = none) := by
  induction ls generalizing r with
  | nil =>
    obtain ⟨expected, rfl⟩ := malformed_of_readFrom_nil h
    exact ⟨length, expected, rfl, Or.inl ⟨rfl, r, rfl⟩⟩
  | cons l ls ih =>
    have hstep := r.step_symbol l
    rw [readFrom_cons] at h
    cases hread : readLexeme r l with
    | error err' =>
      rw [hread] at h hstep
      cases h
      obtain ⟨expected, rfl⟩ := malformed_of_readLexeme hread
      exact ⟨l.offset, expected, rfl, Or.inr ⟨[], l, ls, r, rfl, rfl, rfl, hstep⟩⟩
    | ok next =>
      rw [hread] at h hstep
      obtain ⟨offset, expected, rfl, hplace⟩ := ih h
      have hrun (ss : List Symbol) : r.run (l.symbol :: ss) = next.run ss := by
        rw [Reading.run_cons, hstep]
        rfl
      refine ⟨offset, expected, rfl, ?_⟩
      obtain ⟨hend, r', hall⟩ | ⟨before, l', after, r', rfl, hoffset, hbefore, hfails⟩ := hplace
      · exact Or.inl ⟨hend, r', (hrun _).trans hall⟩
      · exact Or.inr ⟨l :: before, l', after, r', rfl, hoffset, (hrun _).trans hbefore, hfails⟩

/-! ## Both -/

/-- **A text is valid, not allowed or not derivable**, and the error says which. -/
theorem validate_cases (ev : Evaluator) (raw : String) :
    let allowed := raw.toList ≠ [] ∧ ∀ c ∈ raw.toList, ev.parameters.allows c = true
    let derivable := ∃ e, Denotes .sum raw.toList e
    (ev.validate raw = .ok () ∧ allowed ∧ derivable) ∨
      ∃ err, ev.validate raw = .error err ∧
        (err.IsUnlisted ∧ ¬ allowed ∨ err.IsMalformed ∧ allowed ∧ ¬ derivable) := by
  intro allowed derivable
  rcases check_cases ev.parameters raw.toList with ⟨hcheck, hallowed⟩ | ⟨err, hcheck, herr, hnot⟩
  · cases hread : Expr.read raw.toList with
    | ok e =>
      have hvalid : ev.validate raw = .ok () :=
        validate_eq_ok_iff.2 ⟨e, read_eq_ok_iff.2 ⟨hcheck, hread⟩⟩
      exact Or.inl ⟨hvalid, hallowed, e, denotes_of_read hallowed.2 hread⟩
    | error err =>
      have hvalid : ev.validate raw = .error err := by
        rw [Evaluator.validate, Evaluator.read, hcheck, hread]
        rfl
      refine Or.inr ⟨err, hvalid, Or.inr ⟨?_, hallowed, ?_⟩⟩
      · obtain ⟨offset, expected, rfl, -⟩ := malformed_of_readFrom (r := .initial) hread
        exact ⟨_, expected, rfl⟩
      · rintro ⟨e, he⟩
        rw [read_of_denotes he] at hread
        cases hread
  · have hvalid : ev.validate raw = .error err := by
      rw [Evaluator.validate, Evaluator.read, hcheck]
      rfl
    exact Or.inr ⟨err, hvalid, Or.inl ⟨herr, hnot⟩⟩

end Rendezvous.Arithmetic
