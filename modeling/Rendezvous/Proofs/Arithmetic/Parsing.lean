import Rendezvous.Proofs.Arithmetic.Climbing
import Rendezvous.Proofs.Arithmetic.Matching
import Rendezvous.Proofs.Arithmetic.Viability

/-!
# One pass reads what the rules and the table say

Matching and reading go through a listed text side by side.  While the text fits, the pass is behind
each operand where the match of the operand ends, and holds what climbing over the pairs combines
(`OperandAgrees`, `TailAgrees`, `ExprAgrees`).  Where the text stops fitting, the pass reports an error
at once, whereas matching gives up the operation before that place and fails later, at the end or at a
closing parenthesis that is not there; but the furthest attempts are those that the error asks for, and
nothing that is tried afterwards gets further.

So for a text that passes the allow-list the pass gives the tree that the table makes of the pairs, or
the error at the furthest attempts (`read_eq_iff_grammarReads`).
-/

namespace Rendezvous.Arithmetic

open Text (byteSize byteSize_append)

/-! ## Lexemes by their sizes -/

section
variable {ps : Parameters} {c : Char} {rest : List Char}

theorem lexemes_cons (place : Nat) (hc : ps.Lists c) (hdigit : c.isDigit = false) :
    lexemes place (c :: rest) = ⟨place, .ofChar c⟩ :: lexemes (place + byteSize [c]) rest := by
  rw [lexemes, hdigit, if_neg Bool.false_ne_true, byteSize, byteSize, utf8Size_of_lists hc]

theorem consDigit_lexemes (place next : Nat) (d : Char) (hrest : Apart rest) :
    consDigit place d (lexemes next rest) = ⟨place, .digits [d]⟩ :: lexemes next rest := by
  cases rest with
  | nil => rfl
  | cons c rest =>
    rw [lexemes, hrest c rfl, if_neg Bool.false_ne_true, Symbol.ofChar.eq_def]
    split <;> rfl

theorem lexemes_digits_append {ds : List Char} (place : Nat) (hne : ds ≠ [])
    (hdigits : ∀ d ∈ ds, d.isDigit = true) (hrest : Apart rest) :
    lexemes place (ds ++ rest) = ⟨place, .digits ds⟩ :: lexemes (place + byteSize ds) rest := by
  induction ds generalizing place with
  | nil => exact absurd rfl hne
  | cons d ds ih =>
    obtain ⟨hd, hdigits⟩ := List.forall_mem_cons.1 hdigits
    have hsize : d.utf8Size = 1 := utf8Size_of_lists (Or.inl hd : Parameters.empty.Lists d)
    rw [List.cons_append, lexemes, if_pos hd, byteSize, hsize, ← Nat.add_assoc]
    cases ds with
    | nil => exact consDigit_lexemes place (place + 1) d hrest
    | cons d' ds =>
      rw [ih (place + 1) (List.cons_ne_nil d' ds) hdigits]
      rfl

/-- A text with a digit in front begins with a number. -/
theorem exists_number (hc : c.isDigit = true) (rest : List Char) : ∃ ds after,
    c :: rest = ds ++ after ∧ ds ≠ [] ∧ (∀ d ∈ ds, d.isDigit = true) ∧ Apart after := by
  refine ⟨(c :: rest).takeWhile Char.isDigit, (c :: rest).dropWhile Char.isDigit,
    List.takeWhile_append_dropWhile.symm, by simp [hc], List.all_eq_true.1 List.all_takeWhile,
    fun d hd => ?_⟩
  have hnot := List.head?_dropWhile_not Char.isDigit (c :: rest)
  rw [hd] at hnot
  simpa using hnot

/-- A character between operands is an operation or a parenthesis. -/
theorem mem_punctuation_cases (h : c ∈ Parameters.punctuation) :
    (∃ op : Operation, c = op.char) ∨ c = '(' ∨ c = ')' := by
  simp only [Parameters.punctuation, List.mem_cons, List.not_mem_nil, or_false] at h
  rcases h with rfl | rfl | rfl | rfl | h
  · exact .inl ⟨.add, rfl⟩
  · exact .inl ⟨.subtract, rfl⟩
  · exact .inl ⟨.multiply, rfl⟩
  · exact .inl ⟨.divide, rfl⟩
  · exact .inr h

end

theorem Operation.char_ne_closing (op : Operation) : op.char ≠ ')' := by
  cases op <;> decide

theorem Symbol.ofChar_char (op : Operation) : Symbol.ofChar op.char = .operation op := by
  cases op <;> rfl

/-! ## Steps of the pass -/

section
variable {length offset : Nat} {outer : List Pending} {pending : Pending} {position : Position}
  {ls : List Lexeme}

theorem readFrom_digits (h : position.Due) (ds : List Char) :
    readFrom length outer pending position (⟨offset, .digits ds⟩ :: ls) =
      readFrom length outer pending (.afterOperand (.literal (Nat.ofDigitChars 10 ds 0))) ls := by
  cases position with
  | start | afterOperation => cases outer <;> rfl
  | afterOperand e => cases h

theorem readFrom_letter (h : position.Due) (c : Char) :
    readFrom length outer pending position (⟨offset, .letter c⟩ :: ls) =
      readFrom length outer pending (.afterOperand (.parameter c)) ls := by
  cases position with
  | start | afterOperation => cases outer <;> rfl
  | afterOperand e => cases h

theorem readFrom_opening (h : position.Due) :
    readFrom length outer pending position (⟨offset, .opening⟩ :: ls) =
      readFrom length (pending :: outer) .none .start ls := by
  cases position with
  | start | afterOperation => cases outer <;> rfl
  | afterOperand e => cases h

theorem readFrom_operation (e : Expr) (op : Operation) :
    readFrom length outer pending (.afterOperand e) (⟨offset, .operation op⟩ :: ls) =
      readFrom length outer (pending.extend e op) .afterOperation ls := by
  cases outer <;> rfl

theorem readFrom_closing (e : Expr) (enclosing : Pending) :
    readFrom length (enclosing :: outer) pending (.afterOperand e) (⟨offset, .closing⟩ :: ls) =
      readFrom length outer enclosing (.afterOperand (pending.close e)) ls := rfl

/-- The text ends where an operand is due. -/
theorem readFrom_nil_of_due (h : position.Due) : readFrom length outer pending position [] =
    .error (malformedAt length (position.expected outer.length)) := by
  cases position with
  | start | afterOperation => cases outer <;> rfl
  | afterOperand e => cases h

/-- Neither an operation nor a closing parenthesis can stand where an operand is due. -/
theorem readFrom_of_due (h : position.Due) {s : Symbol}
    (hs : (∃ op, s = .operation op) ∨ s = .closing) :
    readFrom length outer pending position (⟨offset, s⟩ :: ls) =
      .error (malformedAt offset (position.expected outer.length)) := by
  obtain ⟨op, rfl⟩ | rfl := hs
  · cases position with
    | start | afterOperation => cases outer <;> rfl
    | afterOperand e => cases h
  · cases position with
    | start | afterOperation => cases outer <;> rfl
    | afterOperand e => cases h

/-- What begins an operand cannot stand behind one. -/
theorem readFrom_afterOperand (e : Expr) {s : Symbol} (hop : ∀ op, s ≠ .operation op)
    (hclosing : s = .closing → outer = []) :
    readFrom length outer pending (.afterOperand e) (⟨offset, s⟩ :: ls) =
      .error (malformedAt offset ((Position.afterOperand e).expected outer.length)) := by
  cases s with
  | digits | letter | opening => cases outer <;> rfl
  | operation op => exact absurd rfl (hop op)
  | closing =>
    obtain rfl := hclosing rfl
    rfl

end

/-! ## Matching and reading side by side -/

/-- Reading fails where the furthest attempts are, and asks for what was tried there. -/
def FailsAt (read : Except ExpressionError Expr) (a : Attempts) : Prop :=
  ∃ expected : Expected, read = .error (malformedAt a.place expected) ∧
    a.rules.Perm expected.rules

/-- The character in front of a text is an operation. -/
def BeginsWithOperation (cs : List Char) : Prop :=
  ∃ op : Operation, cs.head? = some op.char

/-- An operand is matched and read, or is not there, or is a parenthesis in which both fail. -/
inductive OperandAgrees (length place : Nat) (cs : List Char) (a : Attempts) (outer : List Pending)
    (pending : Pending) (position : Position) : Prop
  | matched {t rest : List Char} {pair : Pair} {e : Expr} {b : Attempts} (htext : cs = t ++ rest)
    (hne : t ≠ [])
    (hruns : (Peg.call .primary).Runs place cs a (some ⟨t, rest, [pair]⟩) b)
    (hpair : pair.operand? = some e) (hplace : b.place < place + byteSize t)
    (hread : readFrom length outer pending position (lexemes place cs) =
      readFrom length outer pending (.afterOperand e) (lexemes (place + byteSize t) rest))
  | absent (hruns : (Peg.call .primary).Runs place cs a none ⟨place, [.integer, .parameter]⟩)
    (hread : readFrom length outer pending position (lexemes place cs) =
      .error (malformedAt place (position.expected outer.length)))
  | stuck {b : Attempts} (hruns : (Peg.call .primary).Runs place cs a none b)
    (hplace : place < b.place)
    (hfails : FailsAt (readFrom length outer pending position (lexemes place cs)) b)

/-- The operations and operands behind an operand, as a repetition of the grammar. -/
def tailPeg : Peg := .many (.seq (.call .binOp) (.call .primary))

/-- Operations and operands are matched and read as far as there are any, or reading fails behind an
operation that matching has given up. -/
inductive TailAgrees (length place : Nat) (cs : List Char) (a : Attempts) (outer : List Pending)
    (pending : Pending) (e : Expr) : Prop
  | whole {t rest : List Char} {pairs : List Pair} {ops : List (Operation × Expr)}
    (htext : cs = t ++ rest)
    (hruns : tailPeg.Runs place cs a (some ⟨t, rest, pairs⟩) ⟨place + byteSize t, operationRules⟩)
    (htail : TailOf pairs ops) (hrest : ¬ BeginsWithOperation rest)
    (hread : readFrom length outer pending (.afterOperand e) (lexemes place cs) =
      readFrom length outer (pending.after e ops).1 (.afterOperand (pending.after e ops).2)
        (lexemes (place + byteSize t) rest))
  | stuck {t rest : List Char} {pairs : List Pair} {b : Attempts} (htext : cs = t ++ rest)
    (hruns : tailPeg.Runs place cs a (some ⟨t, rest, pairs⟩) b) (hrest : BeginsWithOperation rest)
    (hplace : place + byteSize t < b.place)
    (hfails : FailsAt (readFrom length outer pending (.afterOperand e) (lexemes place cs)) b)

/-- An expression is matched and read, or reading fails, and then matching fails or stops before an
operation. -/
inductive ExprAgrees (length place : Nat) (cs : List Char) (a : Attempts) (outer : List Pending) :
    Prop
  | whole {t rest : List Char} {pair : Pair} {pairs : List Pair} {pending : Pending} {e : Expr}
    (htext : cs = t ++ rest)
    (hruns : (Peg.call .expr).Runs place cs a (some ⟨t, rest, [.mk .expr t (pair :: pairs)]⟩)
      ⟨place + byteSize t, operationRules⟩)
    (htree : pair.tree? pairs = some (pending.close e)) (hrest : ¬ BeginsWithOperation rest)
    (hread : readFrom length outer .none .start (lexemes place cs) =
      readFrom length outer pending (.afterOperand e) (lexemes (place + byteSize t) rest))
  | stuck {result : Option Matched} {b : Attempts}
    (hruns : (Peg.call .expr).Runs place cs a result b) (hplace : place ≤ b.place)
    (hresult : ∀ m, result = some m → BeginsWithOperation m.rest ∧
      place + byteSize m.text < b.place)
    (hfails : FailsAt (readFrom length outer .none .start (lexemes place cs)) b)

section
variable {ps : Parameters} {length place : Nat} {cs : List Char} {a : Attempts}
  {outer : List Pending} {pending : Pending} {position : Position} {e : Expr}

/-- A text that does not go on with an operation or with the closing parenthesis of an open one is
refused behind an operand. -/
theorem readFrom_stops (hcs : ∀ c ∈ cs, ps.Lists c) (hop : ¬ BeginsWithOperation cs)
    (hclosing : cs.head? = some ')' → outer = []) (hend : cs = [] → outer ≠ [])
    (hlength : length = place + byteSize cs) :
    readFrom length outer pending (.afterOperand e) (lexemes place cs) =
      .error (malformedAt place ((Position.afterOperand e).expected outer.length)) := by
  cases cs with
  | nil =>
    cases outer with
    | nil => exact absurd rfl (hend rfl)
    | cons enclosing outer =>
      obtain rfl : length = place := hlength
      rfl
  | cons c rest =>
    cases hdigit : c.isDigit with
    | true =>
      obtain ⟨ds, after, htext, hne, hdigits, hafter⟩ := exists_number hdigit rest
      rw [htext, lexemes_digits_append place hne hdigits hafter]
      exact readFrom_afterOperand e nofun nofun
    | false =>
      rw [lexemes_cons place (hcs c List.mem_cons_self) hdigit]
      have htext := Symbol.text_ofChar c
      refine readFrom_afterOperand e (fun op hsymbol => hop ⟨op, ?_⟩) fun hsymbol => hclosing ?_
      · rw [hsymbol] at htext
        exact congrArg List.head? htext.symm
      · rw [hsymbol] at htext
        exact congrArg List.head? htext.symm

/-- A parenthesis agrees when the expression in it does. -/
theorem operandAgrees_of_group (hcs : ∀ c ∈ cs, ps.Lists c) (hdue : position.Due)
    (hfresh : a.Fresh place) (hlength : length = place + byteSize ('(' :: cs))
    (hexpr : ExprAgrees length (place + byteSize ['(']) cs ⟨place, [.integer, .parameter]⟩
      (pending :: outer)) :
    OperandAgrees length place ('(' :: cs) a outer pending position := by
  have hread : readFrom length outer pending position (lexemes place ('(' :: cs)) =
      readFrom length (pending :: outer) .none .start (lexemes (place + byteSize ['(']) cs) := by
    have hlists : Parameters.empty.Lists '(' := Or.inr (Or.inl (by decide))
    rw [lexemes_cons place hlists (by decide)]
    exact readFrom_opening hdue
  have hone : byteSize ['('] = 1 := rfl
  cases hexpr with
  | @whole t rest pair pairs inner x htext hruns htree hrest hinner =>
    by_cases hclosing : rest.head? = some ')'
    · obtain ⟨after, rfl⟩ := List.head?_eq_some_iff.1 hclosing
      have hmatch : (Peg.call .primary).Runs place ('(' :: cs) a
          (some ⟨'(' :: (t ++ [')']), after, [.mk .expr t (pair :: pairs)]⟩)
          ⟨place + byteSize ['('] + byteSize t, operationRules⟩ :=
        Peg.runs_primary_opening hfresh (hruns.seq Peg.runs_literal)
      have hsize : byteSize ('(' :: (t ++ [')'])) = byteSize ['('] + (byteSize t + byteSize [')']) := by
        rw [← byteSize_append, ← byteSize_append, List.singleton_append]
      have hclose : byteSize [')'] = 1 := rfl
      have hlists : Parameters.empty.Lists ')' := Or.inr (Or.inl (by decide))
      refine .matched (by simp [htext]) (List.cons_ne_nil _ _) hmatch
        (by rw [Pair.operand?, htree]) (by rw [hsize]; dsimp only; omega) ?_
      rw [hread, hinner, lexemes_cons _ hlists (by decide), hsize, ← Nat.add_assoc, ← Nat.add_assoc]
      exact readFrom_closing x pending
    · have hfails := Peg.runs_primary_opening hfresh (hruns.seq (Peg.runs_literal_none hclosing))
      refine .stuck hfails (by dsimp only; omega) ⟨.operator, ?_, List.Perm.refl _⟩
      rw [hread, hinner]
      refine readFrom_stops (fun c hc => hcs c ?_) hrest (fun h => absurd h hclosing)
        (fun _ => List.cons_ne_nil pending outer) ?_
      · rw [htext]
        exact List.mem_append_right t hc
      · rw [hlength, htext, byteSize, byteSize_append]
        have hopen : '('.utf8Size = 1 := rfl
        omega
  | @stuck result b hruns hplace hresult hfails =>
    have hfails' : FailsAt (readFrom length outer pending position (lexemes place ('(' :: cs))) b := by
      rw [hread]
      exact hfails
    cases result with
    | none => exact .stuck (Peg.runs_primary_opening hfresh hruns.seq_none) (by omega) hfails'
    | some m =>
      obtain ⟨⟨op, hop⟩, -⟩ := hresult m rfl
      have hclosing : m.rest.head? ≠ some ')' := by
        rw [hop]
        exact fun h => op.char_ne_closing (Option.some.inj h)
      have hnone := hruns.seq (Peg.runs_literal_none hclosing)
      exact .stuck (Peg.runs_primary_opening hfresh hnone) (by omega) hfails'

/-- An operand that is not there. -/
theorem operandAgrees_of_absent (hfresh : a.Fresh place) (hdigit : Apart cs)
    (hlower : ∀ c ∈ cs.head?, c.isLower = false) (hopening : cs.head? ≠ some '(')
    (hread : readFrom length outer pending position (lexemes place cs) =
      .error (malformedAt place (position.expected outer.length))) :
    OperandAgrees length place cs a outer pending position :=
  .absent (Peg.runs_primary_other hfresh hdigit hlower
    (Peg.Runs.seq_none (Peg.runs_literal_none hopening))) hread

/-- An operand agrees when the expression in its parenthesis does, if it is one. -/
theorem operandAgrees (hcs : ∀ c ∈ cs, ps.Lists c) (hdue : position.Due) (hfresh : a.Fresh place)
    (hlength : length = place + byteSize cs)
    (hexpr : ∀ rest, cs = '(' :: rest → ExprAgrees length (place + byteSize ['(']) rest
      ⟨place, [.integer, .parameter]⟩ (pending :: outer)) :
    OperandAgrees length place cs a outer pending position := by
  cases cs with
  | nil =>
    obtain rfl : length = place := hlength
    exact operandAgrees_of_absent hfresh apart_nil nofun nofun (readFrom_nil_of_due hdue)
  | cons c rest =>
    obtain ⟨hc, hrest⟩ := List.forall_mem_cons.1 hcs
    cases hdigit : c.isDigit with
    | true =>
      obtain ⟨ds, after, htext, hne, hdigits, hafter⟩ := exists_number hdigit rest
      have hsize := Text.byteSize_pos hne
      have hplace : a.place < place + byteSize ds := by
        have := hfresh.2
        omega
      rw [htext]
      refine .matched rfl hne (Peg.runs_primary_integer hne hdigits hafter) (by rw [Pair.operand?])
        hplace ?_
      rw [lexemes_digits_append place hne hdigits hafter]
      exact readFrom_digits hdue ds
    | false =>
      have hapart : Apart (c :: rest) := fun d hd => Option.some.inj hd ▸ hdigit
      rw [← Bool.not_eq_true] at hdigit
      rcases (hc.resolve_left hdigit).imp_left mem_punctuation_cases with
        (⟨op, rfl⟩ | rfl | rfl) | hletter
      · -- an operation
        refine operandAgrees_of_absent hfresh hapart (fun d hd => ?_) (fun h => ?_) ?_
        · obtain rfl := Option.some.inj hd
          exact isLower_eq_false_of_mem_punctuation op.char_mem_punctuation
        · cases op <;> exact absurd (Option.some.inj h) (by decide)
        · rw [lexemes_cons place hc (by simpa using hdigit), Symbol.ofChar_char]
          exact readFrom_of_due hdue (.inl ⟨op, rfl⟩)
      · exact operandAgrees_of_group hrest hdue hfresh hlength (hexpr rest rfl)
      · -- a closing parenthesis
        refine operandAgrees_of_absent hfresh hapart (by simp) (by simp) ?_
        rw [lexemes_cons place hc (by decide)]
        exact readFrom_of_due hdue (.inr rfl)
      · -- a letter
        have hlower := ps.lower c hletter
        have hplace : place < place + byteSize [c] := by
          have := Text.byteSize_pos (List.cons_ne_nil c [])
          omega
        refine .matched rfl (List.cons_ne_nil c []) (Peg.runs_primary_parameter hfresh hlower)
          (by rw [Pair.operand?]; rfl) hplace ?_
        rw [lexemes_cons place hc (by simpa using hdigit),
          ofChar_eq_letter_iff.2 ⟨rfl, not_mem_punctuation_of_isLower hlower⟩]
        exact readFrom_letter hdue c

/-- One more operation and its operand in front of a tail. -/
theorem TailAgrees.cons {front after : List Char} {p q : Pair} {op : Operation} {x : Expr}
    {b : Attempts} (htext : cs = front ++ after)
    (hruns : (Peg.seq (.call .binOp) (.call .primary)).Runs place cs a
      (some ⟨front, after, [p, q]⟩) b)
    (hop : p.operation? = some op) (hoperand : q.operand? = some x)
    (hread : readFrom length outer pending (.afterOperand e) (lexemes place cs) =
      readFrom length outer (pending.extend e op) (.afterOperand x)
        (lexemes (place + byteSize front) after))
    (h : TailAgrees length (place + byteSize front) after b outer (pending.extend e op) x) :
    TailAgrees length place cs a outer pending e := by
  cases h with
  | @whole t rest pairs ops htext' hmany hpairs hrest hlast =>
    have hend : place + byteSize front + byteSize t = place + byteSize (front ++ t) := by
      rw [byteSize_append, Nat.add_assoc]
    rw [hend] at hmany hlast
    refine .whole (by rw [htext, htext', List.append_assoc]) (hruns.many_cons hmany)
      (.cons hop hoperand hpairs) hrest ?_
    rw [hread, hlast]
    rfl
  | @stuck t rest pairs d htext' hmany hrest hplace hfails =>
    have hmany' : tailPeg.Runs place cs a (some ⟨front ++ t, rest, [p, q] ++ pairs⟩) d :=
      hruns.many_cons hmany
    refine .stuck (by rw [htext, htext', List.append_assoc]) hmany' hrest ?_ ?_
    · rwa [byteSize_append, ← Nat.add_assoc]
    · rw [hread]
      exact hfails

/-- Operations and operands behind an operand agree when the next operand does and what follows it. -/
theorem tailAgrees (hcs : ∀ c ∈ cs, ps.Lists c) (hfresh : a.Fresh place)
    (hoperand : ∀ (op : Operation) rest b, cs = op.char :: rest →
      b.Fresh (place + byteSize [op.char]) → OperandAgrees length (place + byteSize [op.char]) rest b
        outer (pending.extend e op) .afterOperation)
    (htail : ∀ t rest b pending e, cs = t ++ rest → t ≠ [] → b.Fresh (place + byteSize t) →
      TailAgrees length (place + byteSize t) rest b outer pending e) :
    TailAgrees length place cs a outer pending e := by
  by_cases hop : BeginsWithOperation cs
  · obtain ⟨op, hhead⟩ := hop
    obtain ⟨rest, rfl⟩ := List.head?_eq_some_iff.1 hhead
    obtain ⟨b, hb, hruns⟩ := Peg.runs_binOp hfresh op rest
    have hsize := Text.byteSize_pos (List.cons_ne_nil op.char [])
    have hread : readFrom length outer pending (.afterOperand e) (lexemes place (op.char :: rest)) =
        readFrom length outer (pending.extend e op) .afterOperation
          (lexemes (place + byteSize [op.char]) rest) := by
      have hdigit : op.char.isDigit = false := apart_operation op rest op.char rfl
      rw [lexemes_cons place (hcs op.char List.mem_cons_self) hdigit, Symbol.ofChar_char]
      exact readFrom_operation e op
    cases hoperand op rest b rfl (Attempts.fresh_of_lt (by omega)) with
    | @matched t after pair x d htext hne hmatched hpair hplace hnext =>
      have hstep : (Peg.seq (.call .binOp) (.call .primary)).Runs place (op.char :: rest) a
          (some ⟨op.char :: t, after, [.mk op.rule [op.char] [], pair]⟩) d :=
        hruns.seq hmatched
      have hfront : place + byteSize [op.char] + byteSize t = place + byteSize (op.char :: t) := by
        rw [Nat.add_assoc, ← byteSize_append, List.singleton_append]
      have hcs : op.char :: rest = op.char :: t ++ after := by rw [htext, List.cons_append]
      rw [hfront] at hplace hnext
      exact .cons hcs hstep (Pair.operation?_mk op [op.char] []) hpair (hread.trans hnext)
        (htail (op.char :: t) after d (pending.extend e op) x hcs (List.cons_ne_nil _ _)
          (Attempts.fresh_of_lt hplace))
    | absent hnone hnext =>
      have hstep := (hruns.seq hnone).many_nil
      refine .stuck rfl hstep ⟨op, rfl⟩ (Nat.add_lt_add_left hsize place) ⟨.operand, ?_, .refl _⟩
      rw [hread, hnext]
      rfl
    | @stuck d hnone hplace hfails =>
      have hstep := (hruns.seq hnone).many_nil
      refine .stuck rfl hstep ⟨op, rfl⟩ (Nat.lt_of_le_of_lt (Nat.le_add_right place _) hplace) ?_
      rw [hread]
      exact hfails
  · have hnone := (Peg.runs_binOp_none hfresh fun op h => hop ⟨op, h⟩).seq_none (q := .call .primary)
    exact .whole rfl hnone.many_nil .nil hop rfl

/-- An expression agrees when its first operand does and what follows it. -/
theorem exprAgrees (hfresh : a.Fresh place)
    (hoperand : OperandAgrees length place cs a outer .none .start)
    (htail : ∀ t rest b pending e, cs = t ++ rest → t ≠ [] → b.Fresh (place + byteSize t) →
      TailAgrees length (place + byteSize t) rest b outer pending e) :
    ExprAgrees length place cs a outer := by
  cases hoperand with
  | @matched t after pair x b htext hne hmatched hpair hplace hread =>
    cases htail t after b .none x htext hne (Attempts.fresh_of_lt hplace) with
    | @whole u rest pairs ops htext' hmany hpairs hrest hlast =>
      have hend : place + byteSize t + byteSize u = place + byteSize (t ++ u) := by
        rw [byteSize_append, Nat.add_assoc]
      rw [hend] at hmany hlast
      have hexpr : (Peg.call .expr).Runs place cs a
          (some ⟨t ++ u, rest, [.mk .expr (t ++ u) (pair :: pairs)]⟩)
          ⟨place + byteSize (t ++ u), operationRules⟩ :=
        Peg.Runs.call (r := .expr) (hmatched.seq hmany)
      refine .whole (by rw [htext, htext', List.append_assoc]) hexpr (Pair.tree?_eq hpair hpairs) hrest ?_
      rw [hread, hlast]
    | @stuck u rest pairs d htext' hmany hrest hplace' hfails =>
      have hexpr : (Peg.call .expr).Runs place cs a
          (some ⟨t ++ u, rest, [.mk .expr (t ++ u) (pair :: pairs)]⟩) d :=
        Peg.Runs.call (r := .expr) (hmatched.seq hmany)
      refine .stuck hexpr (by omega) (fun m hm => ?_) ?_
      · obtain rfl := Option.some.inj hm
        refine ⟨hrest, ?_⟩
        rwa [byteSize_append, ← Nat.add_assoc]
      · rw [hread]
        exact hfails
  | absent hnone hread =>
    -- the rule stands for both kinds of operands
    have hexpr := (Peg.Runs.call_none (r := .expr) hnone.seq_none).of_eq
      (Attempts.note_of_parts hfresh (by decide))
    exact .stuck hexpr (Nat.le_refl place) nofun ⟨.expression, hread, .refl _⟩
  | @stuck b hnone hplace hfails =>
    have hexpr := (Peg.Runs.call_none (r := .expr) hnone.seq_none).of_eq
      (Attempts.note_of_lt hplace)
    exact .stuck hexpr (Nat.le_of_lt hplace) nofun hfails

/-- Matching and reading agree on a text, wherever it stands. -/
structure Agrees (length : Nat) (cs : List Char) : Prop where
  operand : ∀ {place a outer pending position}, Position.Due position → Attempts.Fresh a place →
    length = place + byteSize cs → OperandAgrees length place cs a outer pending position
  tail : ∀ {place a outer pending e}, Attempts.Fresh a place → length = place + byteSize cs →
    TailAgrees length place cs a outer pending e
  expr : ∀ {place a outer}, Attempts.Fresh a place → length = place + byteSize cs →
    ExprAgrees length place cs a outer

end

/-- **Matching and reading agree.**  An operand is shorter than its text only by a parenthesis, and what
follows an operand is shorter than the text. -/
theorem agrees {ps : Parameters} {length : Nat} {cs : List Char} (hcs : ∀ c ∈ cs, ps.Lists c) :
    Agrees length cs := by
  have hshorter (t rest : List Char) (htext : cs = t ++ rest) (hne : t ≠ []) :
      Agrees length rest := by
    refine agrees fun c hc => hcs c ?_
    rw [htext]
    exact List.mem_append_right t hc
  have hbehind {t rest : List Char} {place : Nat} (htext : cs = t ++ rest)
      (hlength : length = place + byteSize cs) : length = place + byteSize t + byteSize rest := by
    rw [hlength, htext, byteSize_append, Nat.add_assoc]
  have hoperand {place : Nat} {a : Attempts} {outer : List Pending} {pending : Pending}
      {position : Position} (hdue : position.Due) (hfresh : a.Fresh place)
      (hlength : length = place + byteSize cs) :
      OperandAgrees length place cs a outer pending position := by
    refine operandAgrees hcs hdue hfresh hlength fun rest htext => ?_
    have htext' : cs = ['('] ++ rest := htext
    exact (hshorter _ rest htext' (List.cons_ne_nil _ _)).expr
      (Attempts.fresh_of_lt (Nat.lt_succ_self place)) (hbehind htext' hlength)
  refine ⟨hoperand, fun hfresh hlength => ?_, fun hfresh hlength => ?_⟩
  · refine tailAgrees hcs hfresh (fun op rest b htext hb => ?_) fun t rest b pending e htext hne hb => ?_
    · have htext' : cs = [op.char] ++ rest := htext
      exact (hshorter _ rest htext' (List.cons_ne_nil _ _)).operand trivial hb (hbehind htext' hlength)
    · exact (hshorter t rest htext hne).tail hb (hbehind htext hlength)
  · exact exprAgrees hfresh (hoperand trivial hfresh hlength) fun t rest b pending e htext hne hb =>
      (hshorter t rest htext hne).tail hb (hbehind htext hlength)
termination_by cs.length
decreasing_by
  have hpos := List.length_pos_iff.2 hne
  rw [htext, List.length_append]
  omega

/-! ## Whole texts -/

/-- What the rules and the table say about a text: the tree of its pairs, or the error at the furthest
attempts, which asks for the rules that were tried there. -/
inductive GrammarReads (text : List Char) : Except ExpressionError Expr → Prop
  | tree {pairs : List Pair} {e : Expr} (hparse : Peg.parse? text = some (.ok pairs))
    (htree : treeOfText? pairs = some e) : GrammarReads text (.ok e)
  | failure {a : Attempts} {expected : Expected} (hparse : Peg.parse? text = some (.error a))
    (hrules : a.rules.Perm expected.rules) :
    GrammarReads text (.error (malformedAt a.place expected))

theorem Expected.eq_of_perm {expected other : Expected} (h : expected.rules.Perm other.rules) :
    expected = other := by
  cases expected <;> cases other <;> first | rfl | exact absurd h (by decide)

/-- The rules and the table say one thing about a text. -/
theorem GrammarReads.unique {text : List Char} {r r' : Except ExpressionError Expr}
    (h : GrammarReads text r) (h' : GrammarReads text r') : r = r' := by
  cases h with
  | tree hparse htree =>
    cases h' with
    | tree hparse' htree' =>
      obtain rfl := Except.ok.inj (Option.some.inj (hparse.symm.trans hparse'))
      rw [Option.some.inj (htree.symm.trans htree')]
    | failure hparse' => cases hparse.symm.trans hparse'
  | failure hparse hrules =>
    cases h' with
    | tree hparse' => cases hparse.symm.trans hparse'
    | failure hparse' hrules' =>
      obtain rfl := Except.error.inj (Option.some.inj (hparse.symm.trans hparse'))
      rw [Expected.eq_of_perm (hrules.symm.trans hrules')]

/-- A text is parsed as the rule of expressions and the end of the text say. -/
theorem Peg.parse?_eq {text : List Char} {result : Option Matched} {b : Attempts}
    (h : (Peg.seq (.call .expr) (.call .eoi)).Runs 0 text ⟨0, []⟩ result b) :
    Peg.parse? text = some (match result with
      | some m => .ok m.pairs
      | none => .error b) := by
  have hstart : Peg.start.Runs 0 text ⟨0, []⟩ (some (.nothing text)) ⟨0, []⟩ := by
    rw [Runs, run, if_pos rfl]
  cases result with
  | some m =>
    have hcall := Runs.call (r := .expression) (hstart.seq h)
    rw [Runs] at hcall
    rw [parse?, hcall]
    rfl
  | none =>
    have hcall := Runs.call_none (r := .expression) (hstart.seq h)
    rw [Runs] at hcall
    rw [parse?, hcall]
    rfl

/-- A listed text is read as the rules and the table say. -/
theorem grammarReads_read {ps : Parameters} {text : List Char} (hlisted : ∀ c ∈ text, ps.Lists c) :
    GrammarReads text (Expr.read text) := by
  have hlength : text.length = 0 + byteSize text := by
    rw [Nat.zero_add, byteSize_of_lists hlisted]
  rw [Expr.read]
  cases (agrees hlisted).expr Attempts.fresh_start hlength with
  | @whole t rest pair pairs pending e htext hruns htree hrest hread =>
    rw [hread]
    cases rest with
    | nil =>
      have heoi : (Peg.call .eoi).Runs (0 + byteSize t) [] ⟨0 + byteSize t, operationRules⟩
          (some ⟨[], [], [.mk .eoi [] []]⟩) ⟨0 + byteSize t, operationRules⟩ :=
        Peg.Runs.call (r := .eoi) Peg.runs_finish
      have hexpr : (Pair.mk .expr t (pair :: pairs)).operand? = pair.tree? pairs := by
        rw [Pair.operand?]
      exact .tree (Peg.parse?_eq (hruns.seq heoi)) (hexpr.trans htree)
    | cons c rest =>
      have heoi : (Peg.call .eoi).Runs (0 + byteSize t) (c :: rest)
          ⟨0 + byteSize t, operationRules⟩ none ⟨0 + byteSize t, operationRules ++ [.eoi]⟩ :=
        (Peg.Runs.call_none (r := .eoi) (Peg.runs_finish_none (List.cons_ne_nil c rest))).of_eq
          Attempts.note_self
      have hrest' : ∀ d ∈ c :: rest, ps.Lists d := by
        rw [htext] at hlisted
        exact (List.forall_mem_append.1 hlisted).2
      rw [readFrom_stops hrest' hrest (fun _ => rfl) nofun
        (by rw [hlength, htext, byteSize_append, Nat.add_assoc])]
      refine .failure (Peg.parse?_eq (hruns.seq heoi)) ?_
      exact List.perm_append_singleton RuleName.eoi operationRules
  | @stuck result b hruns hplace hresult hfails =>
    obtain ⟨expected, hread, hrules⟩ := hfails
    rw [hread]
    cases result with
    | none => exact .failure (Peg.parse?_eq hruns.seq_none) hrules
    | some m =>
      obtain ⟨⟨op, hop⟩, hbefore⟩ := hresult m rfl
      have hne : m.rest ≠ [] := by
        intro hnil
        rw [hnil] at hop
        cases hop
      have heoi := (Peg.Runs.call_none (r := .eoi) (Peg.runs_finish_none hne)).of_eq
        (Attempts.note_of_lt hbefore)
      exact .failure (Peg.parse?_eq (hruns.seq heoi)) hrules

/-- **One pass reads what the rules and the table say** of a text that the allow-list lets pass, and
nothing else. -/
theorem read_eq_iff_grammarReads {ps : Parameters} {text : List Char} (h : ps.check text = .ok ())
    {r : Except ExpressionError Expr} : Expr.read text = r ↔ GrammarReads text r := by
  have hread : GrammarReads text (Expr.read text) :=
    grammarReads_read fun c hc => allows_iff_lists.1 (allows_of_check h c hc)
  constructor
  · rintro rfl
    exact hread
  · exact hread.unique

end Rendezvous.Arithmetic
