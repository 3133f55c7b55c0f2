import Rendezvous.Arithmetic.Evaluator

/-!
# Letters of expressions

The allow-list lets only declared letters into a text, and reading a text puts only its letters
into the expression (`over_of_read`).  When the declared letters have values, an allowed text of
the grammar can therefore fail only where an operation fails: by dividing by zero or by leaving 64
bits (`errorsArithmetic_evaluate`).
-/

namespace Rendezvous.Arithmetic

/-! ## Expressions over some letters -/

/-- All parameters of an expression have a property. -/
def Expr.Over (P : Char → Prop) : Expr → Prop
  | .literal _ => True
  | .parameter c => P c
  | .binary _ lhs rhs => lhs.Over P ∧ rhs.Over P

/-- A left operand that waits, if there is one. -/
def Waiting.Over (P : Char → Prop) : Waiting → Prop
  | none => True
  | some (lhs, _) => lhs.Over P

/-- All operands that wait in a level. -/
structure Pending.Over (P : Char → Prop) (p : Pending) : Prop where
  sum : p.sum.Over P
  product : p.product.Over P

/-- The operand that a position ends with, if it ends with one. -/
def Position.Over (P : Char → Prop) : Position → Prop
  | .afterOperand e => e.Over P
  | _ => True

section
variable {P : Char → Prop} {p : Pending} {e : Expr}

theorem Expr.Over.mono {Q : Char → Prop} (h : e.Over P) (hPQ : ∀ c, P c → Q c) : e.Over Q := by
  induction e with
  | literal value => trivial
  | parameter c => exact hPQ c h
  | binary op lhs rhs ihl ihr => exact ⟨ihl h.1, ihr h.2⟩

theorem Waiting.Over.supply {w : Waiting} (hw : w.Over P) (he : e.Over P) :
    (w.supply e).Over P := by
  cases w with
  | none => exact he
  | some waiting => exact ⟨hw, he⟩

theorem Pending.over_none : Pending.none.Over P :=
  ⟨trivial, trivial⟩

theorem Pending.Over.extend (hp : p.Over P) (he : e.Over P) (op : Operation) :
    (p.extend e op).Over P := by
  unfold Pending.extend
  split
  · exact ⟨hp.sum, hp.product.supply he⟩
  · exact ⟨hp.sum.supply (hp.product.supply he), trivial⟩

theorem Pending.Over.close (hp : p.Over P) (he : e.Over P) : (p.close e).Over P :=
  hp.sum.supply (hp.product.supply he)

end

/-! ## Reading one lexeme -/

/-- How far a text has been read: what waits outside the innermost open parenthesis and inside it,
and what the text read so far ends with. -/
structure Reading where
  outer : List Pending
  pending : Pending
  position : Position

/-- Reads one lexeme. -/
def readLexeme (r : Reading) (l : Lexeme) : Except ExpressionError Reading :=
  match r.position, l.symbol with
  | .afterOperand e, .operation op => .ok ⟨r.outer, r.pending.extend e op, .afterOperation⟩
  | .afterOperand e, .closing =>
    match r.outer with
    | enclosing :: outer => .ok ⟨outer, enclosing, .afterOperand (r.pending.close e)⟩
    | [] => .error (malformedAt l.offset (r.position.expected 0))
  | .start, .digits ds | .afterOperation, .digits ds =>
    .ok ⟨r.outer, r.pending, .afterOperand (.literal (Nat.ofDigitChars 10 ds 0))⟩
  | .start, .letter c | .afterOperation, .letter c =>
    .ok ⟨r.outer, r.pending, .afterOperand (.parameter c)⟩
  | .start, .opening | .afterOperation, .opening => .ok ⟨r.pending :: r.outer, .none, .start⟩
  | position, _ => .error (malformedAt l.offset (position.expected r.outer.length))

/-- Lexemes are read one after the other. -/
theorem readFrom_cons (length : Nat) (r : Reading) (l : Lexeme) (ls : List Lexeme) :
    readFrom length r.outer r.pending r.position (l :: ls) =
      readLexeme r l >>= fun next => readFrom length next.outer next.pending next.position ls := by
  obtain ⟨outer, pending, position⟩ := r
  obtain ⟨offset, symbol⟩ := l
  cases position <;> cases symbol <;> first | rfl | (cases outer <;> rfl)

/-- A text ends with an operand, which closes what waits. -/
theorem close_of_readFrom_nil {length : Nat} {r : Reading} {e : Expr}
    (h : readFrom length r.outer r.pending r.position [] = .ok e) :
    ∃ operand, r.position = .afterOperand operand ∧ r.pending.close operand = e := by
  obtain ⟨outer, pending, position⟩ := r
  cases position with
  | start => cases outer <;> cases h
  | afterOperation => cases outer <;> cases h
  | afterOperand operand =>
    cases outer with
    | nil => exact ⟨operand, rfl, Except.ok.inj h⟩
    | cons enclosing outer => cases h

/-! ## Letters of what is read -/

/-- A lexeme brings no letter but those with a property. -/
def Lexeme.Over (P : Char → Prop) (l : Lexeme) : Prop :=
  ∀ c, l.symbol = .letter c → P c

/-- All operands read so far. -/
structure Reading.Over (P : Char → Prop) (r : Reading) : Prop where
  outer : ∀ p ∈ r.outer, p.Over P
  pending : r.pending.Over P
  position : r.position.Over P

section
variable {P : Char → Prop}

/-- Reading a lexeme adds no letter but its own. -/
theorem over_readLexeme {r next : Reading} {l : Lexeme} (hr : r.Over P) (hl : l.Over P)
    (h : readLexeme r l = .ok next) : next.Over P := by
  obtain ⟨outer, pending, position⟩ := r
  obtain ⟨offset, symbol⟩ := l
  obtain ⟨houter, hpending, hposition⟩ := hr
  cases position with
  | afterOperand operand =>
    cases symbol with
    | operation op =>
      cases h
      exact ⟨houter, hpending.extend hposition op, trivial⟩
    | closing =>
      cases outer with
      | nil => cases h
      | cons enclosing outer =>
        cases h
        obtain ⟨henclosing, houter⟩ := List.forall_mem_cons.1 houter
        exact ⟨houter, henclosing, hpending.close hposition⟩
    | digits ds => cases h
    | letter c => cases h
    | opening => cases h
  | start =>
    cases symbol with
    | digits ds =>
      cases h
      exact ⟨houter, hpending, trivial⟩
    | letter c =>
      cases h
      exact ⟨houter, hpending, hl c rfl⟩
    | opening =>
      cases h
      exact ⟨List.forall_mem_cons.2 ⟨hpending, houter⟩, Pending.over_none, trivial⟩
    | operation op => cases h
    | closing => cases h
  | afterOperation =>
    cases symbol with
    | digits ds =>
      cases h
      exact ⟨houter, hpending, trivial⟩
    | letter c =>
      cases h
      exact ⟨houter, hpending, hl c rfl⟩
    | opening =>
      cases h
      exact ⟨List.forall_mem_cons.2 ⟨hpending, houter⟩, Pending.over_none, trivial⟩
    | operation op => cases h
    | closing => cases h

/-- What is read from lexemes has only their letters. -/
theorem over_of_readFrom {length : Nat} {r : Reading} {ls : List Lexeme} {e : Expr}
    (hr : r.Over P) (hls : ∀ l ∈ ls, l.Over P)
    (h : readFrom length r.outer r.pending r.position ls = .ok e) : e.Over P := by
  induction ls generalizing r with
  | nil =>
    obtain ⟨operand, hoperand, rfl⟩ := close_of_readFrom_nil h
    have hposition := hr.position
    rw [hoperand] at hposition
    exact hr.pending.close hposition
  | cons l ls ih =>
    obtain ⟨hl, hls⟩ := List.forall_mem_cons.1 hls
    rw [readFrom_cons] at h
    cases hnext : readLexeme r l with
    | error err =>
      rw [hnext] at h
      cases h
    | ok next =>
      rw [hnext] at h
      exact ih (over_readLexeme hr hl hnext) hls h

end

/-- A character that is a letter is none of the other symbols. -/
theorem ofChar_eq_letter_iff {c d : Char} :
    Symbol.ofChar c = .letter d ↔ c = d ∧ c ∉ Parameters.punctuation := by
  unfold Symbol.ofChar
  split <;> simp_all [Parameters.punctuation]

/-- A digit brings no letter. -/
theorem over_consDigit {P : Char → Prop} {offset : Nat} {d : Char} {ls : List Lexeme}
    (h : ∀ l ∈ ls, l.Over P) : ∀ l ∈ consDigit offset d ls, l.Over P := by
  unfold consDigit
  split
  · next rest =>
    refine List.forall_mem_cons.2 ⟨?_, (List.forall_mem_cons.1 h).2⟩
    intro c hc
    cases hc
  · refine List.forall_mem_cons.2 ⟨?_, h⟩
    intro c hc
    cases hc

/-- The letters of the lexemes of a text are its characters, without digits and punctuation. -/
theorem over_lexemes {P : Char → Prop} {offset : Nat} {text : List Char}
    (h : ∀ c ∈ text, c.isDigit = false → c ∉ Parameters.punctuation → P c) :
    ∀ l ∈ lexemes offset text, l.Over P := by
  induction text generalizing offset with
  | nil => exact fun l hl => absurd hl List.not_mem_nil
  | cons c rest ih =>
    obtain ⟨hc, hrest⟩ := List.forall_mem_cons.1 h
    rw [lexemes]
    split
    · exact over_consDigit (ih hrest)
    · next hdigit =>
      refine List.forall_mem_cons.2 ⟨fun d hd => ?_, ih hrest⟩
      obtain ⟨rfl, hpunctuation⟩ := ofChar_eq_letter_iff.1 hd
      exact hc (by simpa using hdigit) hpunctuation

/-! ## The allow-list -/

theorem firstDisallowed_eq_none_iff {ps : Parameters} {offset : Nat} {text : List Char} :
    ps.firstDisallowed offset text = none ↔ ∀ c ∈ text, ps.allows c = true := by
  induction text generalizing offset with
  | nil => simp [Parameters.firstDisallowed]
  | cons c rest ih =>
    rw [Parameters.firstDisallowed, List.forall_mem_cons]
    split
    · next h => rw [ih, and_iff_right h]
    · next h => simp [h]

/-- An allowed character that is neither digit nor punctuation is a declared letter. -/
theorem mem_letters_of_allows {ps : Parameters} {c : Char} (h : ps.allows c = true)
    (hdigit : c.isDigit = false) (hpunctuation : c ∉ Parameters.punctuation) : c ∈ ps.letters := by
  unfold Parameters.allows at h
  rw [hdigit, Bool.false_or, Bool.or_eq_true] at h
  rcases h with h | h
  · exact absurd (List.contains_iff_mem.1 h) hpunctuation
  · exact List.contains_iff_mem.1 h

/-- The allow-list is a condition on characters. -/
theorem allows_of_check {ps : Parameters} {text : List Char} (h : ps.check text = .ok ()) :
    ∀ c ∈ text, ps.allows c = true := by
  unfold Parameters.check at h
  split at h
  · cases h
  · cases hd : ps.firstDisallowed 0 text with
    | none => exact firstDisallowed_eq_none_iff.1 hd
    | some found =>
      rw [hd] at h
      dsimp only at h
      split at h <;> cases h

/-- Reading checks the allow-list first. -/
theorem read_eq_ok_iff {ev : Evaluator} {raw : String} {e : Expr} :
    ev.read raw = .ok e ↔
      ev.parameters.check raw.toList = .ok () ∧ Expr.read raw.toList = .ok e := by
  unfold Evaluator.read
  cases ev.parameters.check raw.toList with
  | ok _ => exact (and_iff_right rfl).symm
  | error err =>
    constructor
    · intro h
      cases h
    · rintro ⟨h, -⟩
      cases h

/-- **Reading puts only declared letters into an expression.** -/
theorem over_of_read {ev : Evaluator} {raw : String} {e : Expr} (h : ev.read raw = .ok e) :
    e.Over (· ∈ ev.parameters.letters) := by
  obtain ⟨hcheck, hread⟩ := read_eq_ok_iff.1 h
  have hstart : Reading.Over (· ∈ ev.parameters.letters) ⟨[], .none, .start⟩ :=
    ⟨fun p hp => absurd hp List.not_mem_nil, Pending.over_none, trivial⟩
  exact over_of_readFrom hstart
    (over_lexemes fun c hc => mem_letters_of_allows (allows_of_check hcheck c hc)) hread

/-! ## Evaluation -/

/-- Whatever fails is an operation. -/
def ErrorsArithmetic {α : Type} (r : Except ExpressionError α) : Prop :=
  ∀ err, r = .error err → err = .divisionByZero ∨ err = .overflow

theorem errorsArithmetic_ok {α : Type} (x : α) : ErrorsArithmetic (.ok x) :=
  fun _ h => nomatch h

theorem errorsArithmetic_divisionByZero {α : Type} :
    ErrorsArithmetic (.error .divisionByZero : Except ExpressionError α) := by
  rintro err ⟨⟩
  exact Or.inl rfl

theorem errorsArithmetic_overflow {α : Type} :
    ErrorsArithmetic (.error .overflow : Except ExpressionError α) := by
  rintro err ⟨⟩
  exact Or.inr rfl

theorem ErrorsArithmetic.bind {α β : Type} {r : Except ExpressionError α}
    {f : α → Except ExpressionError β} (hr : ErrorsArithmetic r)
    (hf : ∀ x, ErrorsArithmetic (f x)) : ErrorsArithmetic (r >>= f) := by
  cases r with
  | ok x => exact hf x
  | error err =>
    rintro err' ⟨⟩
    exact hr err rfl

theorem errorsArithmetic_reduce (n : Int) (d : Nat) (hd : 0 < d) :
    ErrorsArithmetic (Fraction.reduce n d hd) := by
  unfold Fraction.reduce
  split
  · split
    · exact errorsArithmetic_ok _
    · exact errorsArithmetic_overflow
  · exact errorsArithmetic_overflow

/-- An operation on fractions divides by zero or overflows, if it fails. -/
theorem errorsArithmetic_apply (op : Operation) (a b : Fraction) :
    ErrorsArithmetic (op.apply a b) := by
  cases op with
  | add => exact errorsArithmetic_reduce _ _ (Nat.mul_pos a.denom_pos b.denom_pos)
  | subtract =>
    rw [Operation.apply, Fraction.sub]
    split
    · exact errorsArithmetic_reduce _ _ _
    · exact errorsArithmetic_overflow
  | multiply => exact errorsArithmetic_reduce _ _ (Nat.mul_pos a.denom_pos b.denom_pos)
  | divide =>
    rw [Operation.apply, Fraction.div]
    split
    · exact errorsArithmetic_divisionByZero
    · exact errorsArithmetic_reduce _ _ _

/-- Where all letters have values, only operations fail. -/
theorem errorsArithmetic_eval {bindings : Bindings} {e : Expr}
    (h : e.Over fun c => (bindings.get? c).isSome) : ErrorsArithmetic (e.eval bindings) := by
  induction e with
  | literal value =>
    rw [Expr.eval]
    split
    · exact errorsArithmetic_ok _
    · exact errorsArithmetic_overflow
  | parameter c =>
    obtain ⟨n, hn⟩ := Option.isSome_iff_exists.1 h
    rw [Expr.eval, hn]
    exact errorsArithmetic_ok _
  | binary op lhs rhs ihl ihr =>
    rw [Expr.eval]
    exact (ihl h.1).bind fun a => (ihr h.2).bind fun b => errorsArithmetic_apply op a b

theorem validate_eq_ok_iff {ev : Evaluator} {raw : String} :
    ev.validate raw = .ok () ↔ ∃ e, ev.read raw = .ok e := by
  unfold Evaluator.validate
  cases ev.read raw with
  | ok e => exact iff_of_true rfl ⟨e, rfl⟩
  | error err =>
    constructor
    · intro h
      cases h
    · rintro ⟨e, h⟩
      cases h

/-- **A validated text fails only by its arithmetic** when the declared letters have values.  The
evaluator that validates need only declare the same letters. -/
theorem errorsArithmetic_evaluate {checker ev : Evaluator} {raw : String}
    (hparameters : ev.parameters = checker.parameters) (hvalid : checker.validate raw = .ok ())
    (hbound : ∀ c ∈ ev.parameters.letters, (ev.bindings.get? c).isSome) :
    ErrorsArithmetic (ev.evaluate raw) := by
  obtain ⟨e, he⟩ := validate_eq_ok_iff.1 hvalid
  have hread : ev.read raw = .ok e := by
    rw [read_eq_ok_iff, hparameters]
    exact read_eq_ok_iff.1 he
  rw [Evaluator.evaluate, hread]
  exact errorsArithmetic_eval ((over_of_read hread).mono hbound)

end Rendezvous.Arithmetic
