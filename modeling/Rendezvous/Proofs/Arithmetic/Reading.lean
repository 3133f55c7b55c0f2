import Rendezvous.Proofs.Arithmetic.Grammar

/-!
# Expressions are read by the grammar

Reading a symbol takes what was read so far to the next reading or fails (`Reading.step`).  A phrase
takes every reading that is due an operand to the same reading with that operand
(`runsAs_of_denotes`), and whatever was read is made of phrases and of the operations between them
(`reads_step`, `reads_run`).  So an allowed text has a tree exactly when the grammar gives it that
tree (`read_eq_ok_iff_denotes`), and the grammar gives it no other (`Denotes.unique`).
-/

namespace Rendezvous.Arithmetic

/-! ## Readings -/

/-- An operand is due. -/
def Position.Due : Position → Prop
  | afterOperand _ => False
  | _ => True

namespace Reading

/-- Nothing has been read. -/
def initial : Reading := ⟨[], .none, .start⟩

/-- Reads one symbol, if it fits. -/
def step (r : Reading) (s : Symbol) : Option Reading :=
  (readLexeme r ⟨0, s⟩).toOption

/-- Reads symbols one after the other. -/
def run (r : Reading) (ss : List Symbol) : Option Reading :=
  ss.foldlM step r

/-- The expression of what has been read, if it could end here. -/
def expr? : Reading → Option Expr
  | ⟨[], pending, .afterOperand e⟩ => some (pending.close e)
  | _ => none

@[simp] theorem run_nil (r : Reading) : r.run [] = some r := rfl

theorem run_cons (r : Reading) (s : Symbol) (ss : List Symbol) :
    r.run (s :: ss) = (r.step s).bind fun next => next.run ss := rfl

theorem run_append (r : Reading) (ss ss' : List Symbol) :
    r.run (ss ++ ss') = (r.run ss).bind fun next => next.run ss' :=
  List.foldlM_append

/-! ## One step, by the symbol -/

section
variable {outer : List Pending} {pending : Pending} {position : Position}

theorem step_digits (h : position.Due) (ds : List Char) :
    step ⟨outer, pending, position⟩ (.digits ds) =
      some ⟨outer, pending, .afterOperand (.literal (Nat.ofDigitChars 10 ds 0))⟩ := by
  cases position with
  | start | afterOperation => rfl
  | afterOperand e => cases h

theorem step_letter (h : position.Due) (c : Char) :
    step ⟨outer, pending, position⟩ (.letter c) =
      some ⟨outer, pending, .afterOperand (.parameter c)⟩ := by
  cases position with
  | start | afterOperation => rfl
  | afterOperand e => cases h

theorem step_opening (h : position.Due) :
    step ⟨outer, pending, position⟩ .opening = some ⟨pending :: outer, .none, .start⟩ := by
  cases position with
  | start | afterOperation => rfl
  | afterOperand e => cases h

theorem step_operation (e : Expr) (op : Operation) :
    step ⟨outer, pending, .afterOperand e⟩ (.operation op) =
      some ⟨outer, pending.extend e op, .afterOperation⟩ := rfl

theorem step_closing (enclosing : Pending) (e : Expr) :
    step ⟨enclosing :: outer, pending, .afterOperand e⟩ .closing =
      some ⟨outer, enclosing, .afterOperand (pending.close e)⟩ := rfl

end

/-- Everything that a step can do. -/
theorem step_cases {r next : Reading} {s : Symbol} (h : r.step s = some next) :
    (∃ ds, s = .digits ds ∧ r.position.Due ∧
        next = ⟨r.outer, r.pending, .afterOperand (.literal (Nat.ofDigitChars 10 ds 0))⟩) ∨
      (∃ c, s = .letter c ∧ r.position.Due ∧
        next = ⟨r.outer, r.pending, .afterOperand (.parameter c)⟩) ∨
      (s = .opening ∧ r.position.Due ∧ next = ⟨r.pending :: r.outer, .none, .start⟩) ∨
      (∃ op e, s = .operation op ∧ r.position = .afterOperand e ∧
        next = ⟨r.outer, r.pending.extend e op, .afterOperation⟩) ∨
      (∃ enclosing outer e, s = .closing ∧ r.outer = enclosing :: outer ∧
        r.position = .afterOperand e ∧
        next = ⟨outer, enclosing, .afterOperand (r.pending.close e)⟩) := by
  obtain ⟨outer, pending, position⟩ := r
  cases position with
  | start | afterOperation =>
    cases s with
    | digits ds => exact Or.inl ⟨ds, rfl, trivial, (Option.some.inj h).symm⟩
    | letter c => exact Or.inr (Or.inl ⟨c, rfl, trivial, (Option.some.inj h).symm⟩)
    | opening => exact Or.inr (Or.inr (Or.inl ⟨rfl, trivial, (Option.some.inj h).symm⟩))
    | operation op => cases h
    | closing => cases h
  | afterOperand e =>
    cases s with
    | digits ds => cases h
    | letter c => cases h
    | opening => cases h
    | operation op =>
      exact Or.inr (Or.inr (Or.inr (Or.inl ⟨op, e, rfl, rfl, (Option.some.inj h).symm⟩)))
    | closing =>
      cases outer with
      | nil => cases h
      | cons enclosing outer =>
        exact Or.inr (Or.inr (Or.inr (Or.inr
          ⟨enclosing, outer, e, rfl, rfl, rfl, (Option.some.inj h).symm⟩)))

/-- The offset of a lexeme matters to errors only. -/
theorem step_symbol (r : Reading) (l : Lexeme) : r.step l.symbol = (readLexeme r l).toOption := by
  obtain ⟨outer, pending, position⟩ := r
  obtain ⟨offset, symbol⟩ := l
  cases position <;> cases symbol <;> first | rfl | (cases outer <;> rfl)

/-- The end of a text. -/
theorem readFrom_nil_toOption (length : Nat) (r : Reading) :
    (readFrom length r.outer r.pending r.position []).toOption = r.expr? := by
  obtain ⟨outer, pending, position⟩ := r
  cases position <;> cases outer <;> rfl

/-- Reading lexemes is running over their symbols. -/
theorem readFrom_toOption (length : Nat) (r : Reading) (ls : List Lexeme) :
    (readFrom length r.outer r.pending r.position ls).toOption =
      (r.run (ls.map Lexeme.symbol)).bind expr? := by
  induction ls generalizing r with
  | nil => exact readFrom_nil_toOption length r
  | cons l ls ih =>
    rw [readFrom_cons, List.map_cons, run_cons, step_symbol]
    cases readLexeme r l with
    | error err => rfl
    | ok next => exact ih next

end Reading

/-- The tree of a text is the expression of its reading. -/
theorem read_eq_ok_iff_run {text : List Char} {e : Expr} :
    Expr.read text = .ok e ↔
      (Reading.initial.run (symbols text)).bind Reading.expr? = some e := by
  rw [← map_symbol_lexemes 0 text, ← Reading.readFrom_toOption text.length]
  change Expr.read text = .ok e ↔ (Expr.read text).toOption = some e
  cases Expr.read text <;> simp [Except.toOption]

open Reading (run run_cons)

/-! ## A phrase is read as its tree -/

/-- What reading the symbols of a phrase with the tree `e` does, wherever an operand is due. -/
def RunsAs : Phrase → List Char → Expr → Prop
  | .primary, cs, e => ∀ outer pending position rest, Position.Due position → Apart rest →
      run ⟨outer, pending, position⟩ (symbols (cs ++ rest)) =
        run ⟨outer, pending, .afterOperand e⟩ (symbols rest)
  | .product, cs, e => ∀ outer sum position rest, Position.Due position → Apart rest →
      ∃ w x, run ⟨outer, ⟨sum, .none⟩, position⟩ (symbols (cs ++ rest)) =
          run ⟨outer, ⟨sum, w⟩, .afterOperand x⟩ (symbols rest) ∧
        w.supply x = e
  | .sum, cs, e => ∀ outer position rest, Position.Due position → Apart rest →
      ∃ pending x, run ⟨outer, .none, position⟩ (symbols (cs ++ rest)) =
          run ⟨outer, pending, .afterOperand x⟩ (symbols rest) ∧
        pending.close x = e

/-- **Every phrase is read as its tree.** -/
theorem runsAs_of_denotes {p : Phrase} {cs : List Char} {e : Expr} (h : Denotes p cs e) :
    RunsAs p cs e := by
  induction h with
  | number hne hdigits =>
    intro outer pending position rest hdue hrest
    rw [symbols_digits_append hne hdigits hrest, run_cons, Reading.step_digits hdue]
    rfl
  | parameter hlower =>
    intro outer pending position rest hdue _
    rw [List.singleton_append, symbols_letter hlower, run_cons, Reading.step_letter hdue]
    rfl
  | @group cs e _ ih =>
    intro outer pending position rest hdue _
    obtain ⟨inner, x, hrun, rfl⟩ := ih (pending :: outer) .start (')' :: rest) trivial
      (apart_closing rest)
    rw [List.cons_append, List.append_assoc, List.singleton_append, symbols_opening, run_cons,
      Reading.step_opening hdue, Option.bind_some, hrun, symbols_closing, run_cons,
      Reading.step_closing, Option.bind_some]
  | primary _ ih =>
    intro outer sum position rest hdue hrest
    exact ⟨.none, _, ih outer ⟨sum, .none⟩ position rest hdue hrest, rfl⟩
  | @scale op cs ds a b _ htight _ iha ihb =>
    intro outer sum position rest hdue hrest
    obtain ⟨w, x, hrun, rfl⟩ := iha outer sum position (op.char :: (ds ++ rest)) hdue
      (apart_operation op _)
    refine ⟨some (w.supply x, op), b, ?_, rfl⟩
    rw [List.append_assoc, List.cons_append, hrun, symbols_operation, run_cons,
      Reading.step_operation, Option.bind_some, Pending.extend, if_pos htight]
    exact ihb outer ⟨sum, some (w.supply x, op)⟩ .afterOperation rest trivial hrest
  | product _ ih =>
    intro outer position rest hdue hrest
    obtain ⟨w, x, hrun, rfl⟩ := ih outer .none position rest hdue hrest
    exact ⟨⟨.none, w⟩, x, hrun, rfl⟩
  | @shift op cs ds a b _ hloose _ iha ihb =>
    intro outer position rest hdue hrest
    obtain ⟨pending, x, hrun, rfl⟩ := iha outer position (op.char :: (ds ++ rest)) hdue
      (apart_operation op _)
    obtain ⟨w, y, hright, rfl⟩ := ihb outer (some (pending.close x, op)) .afterOperation rest
      trivial hrest
    refine ⟨⟨some (pending.close x, op), w⟩, y, ?_, rfl⟩
    rw [List.append_assoc, List.cons_append, hrun, symbols_operation, run_cons,
      Reading.step_operation, Option.bind_some, Pending.extend, if_neg (by simp [hloose])]
    exact hright

/-! ## What a reading has read -/

/-- The text of a left operand that is a phrase `p` and of the operation after it, if one waits. -/
inductive Waits (p : Phrase) (tight : Bool) : Waiting → List Char → Prop
  | nothing : Waits p tight none []
  | operand {cs : List Char} {a : Expr} {op : Operation} : Denotes p cs a →
      op.bindsTightly = tight → Waits p tight (some (a, op)) (cs ++ [op.char])

/-- The text of the operations of one parenthesis level. -/
inductive PendingReads (p : Pending) : List Char → Prop
  | mk {us vs : List Char} : Waits .sum false p.sum us → Waits .product true p.product vs →
      PendingReads p (us ++ vs)

/-- The text of the levels around a parenthesis, up to the parenthesis. -/
inductive OuterReads : List Pending → List Char → Prop
  | outside : OuterReads [] []
  | inside {outer : List Pending} {p : Pending} {ts us : List Char} : OuterReads outer ts →
      PendingReads p us → OuterReads (p :: outer) (ts ++ (us ++ ['(']))

/-- The text of a reading. -/
inductive Reads : Reading → List Char → Prop
  | due {outer : List Pending} {p : Pending} {position : Position} {ts us : List Char} :
      OuterReads outer ts → PendingReads p us → position.Due →
      Reads ⟨outer, p, position⟩ (ts ++ us)
  | operand {outer : List Pending} {p : Pending} {e : Expr} {ts us vs : List Char} :
      OuterReads outer ts → PendingReads p us → Denotes .primary vs e →
      Reads ⟨outer, p, .afterOperand e⟩ (ts ++ (us ++ vs))

theorem pendingReads_none : PendingReads .none [] :=
  @PendingReads.mk .none [] [] .nothing .nothing

theorem reads_initial : Reads .initial [] :=
  .due .outside pendingReads_none trivial

/-- A product whose right operand is supplied. -/
theorem Waits.denotes_product {w : Waiting} {vs cs : List Char} {e : Expr}
    (h : Waits .product true w vs) (he : Denotes .primary cs e) :
    Denotes .product (vs ++ cs) (w.supply e) := by
  cases h with
  | nothing => exact .primary he
  | operand ha htight =>
    rw [List.append_assoc, List.singleton_append]
    exact .scale ha htight he

/-- A sum whose right operand is supplied. -/
theorem Waits.denotes_sum {w : Waiting} {us cs : List Char} {e : Expr}
    (h : Waits .sum false w us) (he : Denotes .product cs e) :
    Denotes .sum (us ++ cs) (w.supply e) := by
  cases h with
  | nothing => exact .product he
  | operand ha hloose =>
    rw [List.append_assoc, List.singleton_append]
    exact .shift ha hloose he

/-- An operand completes the sum of its level. -/
theorem PendingReads.denotes_close {p : Pending} {us cs : List Char} {e : Expr}
    (h : PendingReads p us) (he : Denotes .primary cs e) :
    Denotes .sum (us ++ cs) (p.close e) := by
  obtain ⟨hsum, hproduct⟩ := h
  rw [List.append_assoc]
  exact hsum.denotes_sum (hproduct.denotes_product he)

/-- An operation waits for its right operand. -/
theorem PendingReads.extend {p : Pending} {us cs : List Char} {e : Expr} (h : PendingReads p us)
    (he : Denotes .primary cs e) (op : Operation) :
    PendingReads (p.extend e op) (us ++ cs ++ [op.char]) := by
  unfold Pending.extend
  split
  · next htight =>
    obtain ⟨hsum, hproduct⟩ := h
    simpa using PendingReads.mk (p := ⟨p.sum, some (p.product.supply e, op)⟩) hsum
      (.operand (hproduct.denotes_product he) htight)
  · next hloose =>
    have hsum : Waits .sum false (some (p.close e, op)) (us ++ cs ++ [op.char]) :=
      .operand (h.denotes_close he) (by simpa using hloose)
    have hextended := PendingReads.mk (p := ⟨some (p.close e, op), .none⟩) hsum .nothing
    rwa [List.append_nil] at hextended

/-- **One step keeps a reading in line with the grammar.** -/
theorem reads_step {r next : Reading} {cs : List Char} {s : Symbol} (h : Reads r cs)
    (hs : s.Valid) (hstep : r.step s = some next) : Reads next (cs ++ s.text) := by
  rcases Reading.step_cases hstep with ⟨ds, rfl, hdue, rfl⟩ | ⟨c, rfl, hdue, rfl⟩ |
    ⟨rfl, hdue, rfl⟩ | ⟨op, e, rfl, hposition, rfl⟩ | ⟨enclosing, outer, e, rfl, houter, hposition, rfl⟩
  · -- a number
    obtain ⟨houter, hpending, _⟩ | _ := h
    · rw [List.append_assoc]
      exact .operand houter hpending (.number hs.1 hs.2)
    · exact absurd hdue id
  · -- a parameter
    obtain ⟨houter, hpending, _⟩ | _ := h
    · rw [List.append_assoc]
      exact .operand houter hpending (.parameter hs)
    · exact absurd hdue id
  · -- an opening parenthesis
    obtain @⟨outer, p, _, ts, us, houter, hpending, _⟩ | _ := h
    · have hreads : Reads ⟨p :: outer, .none, .start⟩ (ts ++ (us ++ ['(']) ++ []) :=
        .due (.inside houter hpending) pendingReads_none trivial
      simpa [Symbol.text] using hreads
    · exact absurd hdue id
  · -- an operation
    obtain ⟨_, _, hdue⟩ | @⟨outer, p, _, ts, us, vs, houter, hpending, he⟩ := h
    · subst hposition
      exact absurd hdue id
    · cases hposition
      have hreads : Reads ⟨outer, p.extend e op, .afterOperation⟩
          (ts ++ (us ++ vs ++ [op.char])) :=
        .due houter (hpending.extend he op) trivial
      simpa [Symbol.text] using hreads
  · -- a closing parenthesis
    obtain ⟨_, _, hdue⟩ | ⟨hparen, hpending, he⟩ := h
    · subst hposition
      exact absurd hdue id
    · cases hposition
      cases houter
      obtain _ | ⟨houter, henclosing⟩ := hparen
      simpa [Symbol.text] using Reads.operand houter henclosing (.group (hpending.denotes_close he))

/-- Reading valid symbols keeps a reading in line with the grammar. -/
theorem reads_run {r r' : Reading} {cs : List Char} {ss : List Symbol} (h : Reads r cs)
    (hvalid : ∀ s ∈ ss, s.Valid) (hrun : r.run ss = some r') :
    Reads r' (cs ++ ss.flatMap Symbol.text) := by
  induction ss generalizing r cs with
  | nil =>
    obtain rfl : r = r' := Option.some.inj hrun
    rwa [List.flatMap_nil, List.append_nil]
  | cons s ss ih =>
    obtain ⟨hs, hss⟩ := List.forall_mem_cons.1 hvalid
    rw [run_cons] at hrun
    obtain ⟨next, hstep, hrest⟩ := Option.bind_eq_some_iff.1 hrun
    rw [List.flatMap_cons, ← List.append_assoc]
    exact ih (reads_step h hs hstep) hss hrest

/-! ## Texts and their trees -/

/-- A text of the grammar is read as its tree. -/
theorem read_of_denotes {text : List Char} {e : Expr} (h : Denotes .sum text e) :
    Expr.read text = .ok e := by
  obtain ⟨pending, x, hrun, rfl⟩ := runsAs_of_denotes h [] .start [] trivial apart_nil
  rw [List.append_nil] at hrun
  rw [read_eq_ok_iff_run, Reading.initial, hrun]
  rfl

/-- A text of allowed characters has no tree but that of the grammar. -/
theorem denotes_of_read {ps : Parameters} {text : List Char}
    (hallowed : ∀ c ∈ text, ps.allows c = true) {e : Expr} (h : Expr.read text = .ok e) :
    Denotes .sum text e := by
  obtain ⟨r, hrun, hexpr⟩ := Option.bind_eq_some_iff.1 (read_eq_ok_iff_run.1 h)
  have hreads := reads_run reads_initial (valid_symbols hallowed) hrun
  rw [List.nil_append, flatMap_symbols] at hreads
  unfold Reading.expr? at hexpr
  split at hexpr
  · next pending operand =>
    obtain rfl := Option.some.inj hexpr
    cases hreads with
    | due _ _ hdue => exact absurd hdue id
    | operand houter hpending he =>
      cases houter
      exact hpending.denotes_close he
  · cases hexpr

/-- **A text has one tree.** -/
theorem Denotes.unique {text : List Char} {e e' : Expr} (h : Denotes .sum text e)
    (h' : Denotes .sum text e') : e = e' :=
  Except.ok.inj ((read_of_denotes h).symm.trans (read_of_denotes h'))

/-- **The texts that an evaluator reads are the allowed ones of the grammar**, each with its tree. -/
theorem read_eq_ok_iff_denotes {ev : Evaluator} {raw : String} {e : Expr} :
    ev.read raw = .ok e ↔
      ev.parameters.check raw.toList = .ok () ∧ Denotes .sum raw.toList e := by
  rw [read_eq_ok_iff]
  exact and_congr_right fun hcheck =>
    ⟨denotes_of_read (allows_of_check hcheck), read_of_denotes⟩

end Rendezvous.Arithmetic
