import Mathlib.Data.Bool.AllAny
import Rendezvous.Proofs.Arithmetic.Rejection

/-!
# Where malformed texts leave the grammar

A malformed text is rejected at an offset.  The characters before the offset can be completed to an
expression, and with the character at the offset they cannot (`malformed_at_longest_viable`): no
longer part of the text is the beginning of an expression.  The offset is a text size, and zero where
four gibibytes or more can be completed.

What has been read can be completed by supplying an operand where one is due and closing the open
parentheses (`Reads.exists_denotes_append`).  A lexeme that does not fit begins with a character that
does not fit either: whether a number, an operation or a parenthesis may follow does not depend on
the digits of the number or on what comes later (`step_eq_none_of_startsWith`).
-/

namespace Rendezvous.Arithmetic

/-- The beginnings of expressions over the listed characters. -/
def Parameters.Viable (ps : Parameters) (cs : List Char) : Prop :=
  ∃ rest, (∀ c ∈ cs ++ rest, ps.Lists c) ∧ Derives .expr (cs ++ rest)

theorem Parameters.Viable.of_isPrefix {ps : Parameters} {cs ds : List Char} (h : ps.Viable ds)
    (hfront : cs <+: ds) : ps.Viable cs := by
  obtain ⟨middle, rfl⟩ := hfront
  obtain ⟨rest, hlisted, hderives⟩ := h
  rw [List.append_assoc] at hlisted hderives
  exact ⟨middle ++ rest, hlisted, hderives⟩

/-! ## What has been read can be completed -/

/-- Closing parentheses complete an operand. -/
theorem OuterReads.exists_denotes_append {outer : List Pending} {p : Pending} {ts us vs : List Char}
    {e : Expr} (houter : OuterReads outer ts) (hpending : PendingReads p us)
    (he : Denotes .primary vs e) :
    ∃ rest, (∀ c ∈ rest, c = ')') ∧ ∃ e', Denotes .sum (ts ++ (us ++ vs) ++ rest) e' := by
  induction houter generalizing p us vs e with
  | outside => exact ⟨[], by simp, _, by simpa using hpending.denotes_close he⟩
  | @inside outer enclosing ts us' _ henclosing ih =>
    -- the innermost level becomes an operand of the level around it
    obtain ⟨rest, hrest, e', he'⟩ := ih henclosing (.group (hpending.denotes_close he))
    refine ⟨')' :: rest, List.forall_mem_cons.2 ⟨rfl, hrest⟩, e', ?_⟩
    simpa using he'

/-- What has been read is the beginning of an expression. -/
theorem Reads.exists_denotes_append {r : Reading} {cs : List Char} (h : Reads r cs) :
    ∃ rest, (∀ c ∈ rest, c = '0' ∨ c = ')') ∧ ∃ e, Denotes .sum (cs ++ rest) e := by
  cases h with
  | @due outer p position ts us houter hpending hdue =>
    have hzero : Denotes .primary ['0'] _ :=
      .number (List.cons_ne_nil _ _) (List.forall_mem_singleton.2 (by decide))
    obtain ⟨rest, hrest, e, he⟩ := houter.exists_denotes_append hpending hzero
    refine ⟨'0' :: rest, List.forall_mem_cons.2 ⟨Or.inl rfl, fun c hc => Or.inr (hrest c hc)⟩, e, ?_⟩
    simpa using he
  | operand houter hpending he =>
    obtain ⟨rest, hrest, e, he⟩ := houter.exists_denotes_append hpending he
    exact ⟨rest, fun c hc => Or.inr (hrest c hc), e, he⟩

/-- A text whose symbols all fit is the beginning of an expression. -/
theorem viable_of_run {ps : Parameters} {cs : List Char} {r : Reading}
    (hlisted : ∀ c ∈ cs, ps.Lists c) (h : Reading.initial.run (symbols cs) = some r) :
    ps.Viable cs := by
  have hvalid := valid_symbols fun c hc => allows_iff_lists.2 (hlisted c hc)
  have hreads : Reads r cs := by
    simpa [flatMap_symbols] using reads_run reads_initial hvalid h
  obtain ⟨rest, hrest, e, he⟩ := hreads.exists_denotes_append
  refine ⟨rest, List.forall_mem_append.2 ⟨hlisted, fun c hc => ?_⟩, derives_of_denotes he⟩
  obtain rfl | rfl := hrest c hc
  · exact Or.inl (by decide)
  · exact Or.inr (Or.inl (by decide))

/-! ## The character at which a lexeme starts -/

/-- The symbol begins with the character, whatever follows it. -/
def Symbol.StartsWith (s : Symbol) (c : Char) : Prop :=
  if c.isDigit then ∃ ds, s = .digits ds else s = .ofChar c

theorem joinDigit_startsWith {d : Char} (hd : d.isDigit = true) (ss : List Symbol) :
    ∃ s rest, joinDigit d ss = s :: rest ∧ s.StartsWith d := by
  unfold joinDigit
  split <;> exact ⟨_, _, rfl, by simp [Symbol.StartsWith, hd]⟩

/-- The first symbol of a text begins with its first character. -/
theorem symbols_cons_startsWith (c : Char) (rest : List Char) :
    ∃ s ss, symbols (c :: rest) = s :: ss ∧ s.StartsWith c := by
  rw [symbols]
  split
  · next hdigit => exact joinDigit_startsWith hdigit _
  · next hdigit => exact ⟨_, _, rfl, by simp [Symbol.StartsWith, hdigit]⟩

/-- Whether a symbol fits is a matter of its first character. -/
theorem step_eq_none_of_startsWith {r : Reading} {s s' : Symbol} {c : Char} (hs : s.StartsWith c)
    (hs' : s'.StartsWith c) (h : r.step s = none) : r.step s' = none := by
  unfold Symbol.StartsWith at hs hs'
  split at hs
  · next hdigit =>
    rw [if_pos hdigit] at hs'
    obtain ⟨ds, rfl⟩ := hs
    obtain ⟨ds', rfl⟩ := hs'
    obtain ⟨outer, pending, position⟩ := r
    cases position with
    | start | afterOperation => cases h
    | afterOperand e => rfl
  · next hdigit =>
    rw [if_neg hdigit] at hs'
    rwa [hs', ← hs]

/-! ## Cutting a text between two lexemes -/

/-- No number goes on from the one text into the other. -/
def Severed (cs ds : List Char) : Prop :=
  ∀ d ∈ cs.getLast?, d.isDigit = true → Apart ds

theorem severed_nil (ds : List Char) : Severed [] ds := by simp [Severed]

theorem severed_cons {c c' : Char} {cs ds : List Char} :
    Severed (c :: c' :: cs) ds ↔ Severed (c' :: cs) ds := by
  rw [Severed, Severed, List.getLast?_cons_cons]

/-- Severed texts are cut into symbols one after the other. -/
theorem symbols_append {cs ds : List Char} (h : Severed cs ds) :
    symbols (cs ++ ds) = symbols cs ++ symbols ds := by
  induction cs with
  | nil => rfl
  | cons c cs ih =>
    rw [List.cons_append, symbols, symbols]
    cases cs with
    | nil =>
      split
      · next hdigit => exact joinDigit_symbols c (h c rfl hdigit)
      · rfl
    | cons c' cs =>
      rw [ih (severed_cons.1 h)]
      obtain ⟨s, ss, hsymbols, -⟩ := symbols_cons_startsWith c' cs
      rw [hsymbols]
      split
      · cases s <;> rfl
      · rfl

theorem severed_of_cons {c : Char} {cs ds : List Char} (h : Severed cs ds)
    (hc : cs = [] → c.isDigit = true → Apart ds) : Severed (c :: cs) ds := by
  cases cs with
  | nil =>
    intro d hd hdigit
    obtain rfl : c = d := Option.some.inj hd
    exact hc rfl hdigit
  | cons c' cs => exact severed_cons.2 h

/-- The first lexeme of a text begins with its first character. -/
theorem lexemes_cons_startsWith (offset : Nat) (c : Char) (rest : List Char) :
    ∃ s ls, lexemes offset (c :: rest) = ⟨offset, s⟩ :: ls ∧ s.StartsWith c := by
  rw [lexemes]
  split
  · next hdigit =>
    unfold consDigit
    split <;> exact ⟨_, _, rfl, by simp [Symbol.StartsWith, hdigit]⟩
  · next hdigit => exact ⟨_, _, rfl, by simp [Symbol.StartsWith, hdigit]⟩

/-- The lexemes before a later one, with and without a digit in front. -/
theorem exists_of_consDigit {offset : Nat} {d : Char} {ls before after : List Lexeme} {x l : Lexeme}
    (h : consDigit offset d ls = x :: (before ++ l :: after)) :
    ∃ before', ls = before' ++ l :: after ∧
      joinDigit d (before'.map Lexeme.symbol) = (x :: before).map Lexeme.symbol ∧
      (before' = [] → ∀ ds, l.symbol ≠ .digits ds) := by
  unfold consDigit at h
  split at h
  · next o ds rest =>
    obtain ⟨rfl, rfl⟩ := List.cons.inj h
    exact ⟨⟨o, .digits ds⟩ :: before, rfl, rfl, nofun⟩
  · next hfirst =>
    obtain ⟨rfl, rfl⟩ := List.cons.inj h
    refine ⟨before, rfl, ?_, fun hnil ds hl => ?_⟩
    · cases before with
      | nil => rfl
      | cons y before =>
        obtain ⟨o, s⟩ := y
        cases s with
        | digits ds => exact absurd rfl (hfirst o ds (before ++ l :: after))
        | letter | operation | opening | closing => rfl
    · subst hnil
      obtain ⟨o, s⟩ := l
      obtain rfl : s = .digits ds := hl
      exact hfirst o ds after rfl

/-- A text can be cut before each of its lexemes. -/
theorem exists_severed_of_lexemes {offset : Nat} {text : List Char} {before after : List Lexeme}
    {l : Lexeme} (h : lexemes offset text = before ++ l :: after) :
    ∃ cs c ds, text = cs ++ c :: ds ∧ Severed cs [c] ∧ symbols cs = before.map Lexeme.symbol ∧
      l.offset = offset + cs.length ∧ l.symbol.StartsWith c := by
  induction text generalizing offset before with
  | nil => simp [lexemes] at h
  | cons c text ih =>
    cases before with
    | nil =>
      obtain ⟨s, ls, hlexemes, hstarts⟩ := lexemes_cons_startsWith offset c text
      obtain ⟨rfl, -⟩ := List.cons.inj (hlexemes.symm.trans h)
      exact ⟨[], c, text, rfl, severed_nil [c], rfl, rfl, hstarts⟩
    | cons x before =>
      rw [lexemes] at h
      split at h
      · next hdigit =>
        obtain ⟨before', hbefore', hjoin, hfirst⟩ := exists_of_consDigit h
        obtain ⟨cs, c', ds, rfl, hsevered, hsymbols, hoffset, hstarts⟩ := ih hbefore'
        refine ⟨c :: cs, c', ds, rfl, severed_of_cons hsevered fun hnil _ => ?_, ?_,
          by rw [hoffset, List.length_cons]; omega, hstarts⟩
        · -- a digit would have joined the digit before it
          subst hnil
          have hnot := hfirst (List.map_eq_nil_iff.1 hsymbols.symm)
          intro c hc
          obtain rfl : c' = c := Option.some.inj hc
          refine Bool.eq_false_iff.2 fun hdigit' => ?_
          rw [Symbol.StartsWith, if_pos hdigit'] at hstarts
          exact absurd hstarts.choose_spec (hnot _)
        · rw [symbols, if_pos hdigit, hsymbols, hjoin]
      · next hdigit =>
        obtain ⟨rfl, htail⟩ := List.cons.inj h
        obtain ⟨cs, c', ds, rfl, hsevered, hsymbols, hoffset, hstarts⟩ := ih htail
        refine ⟨c :: cs, c', ds, rfl, severed_of_cons hsevered fun _ h' => absurd h' hdigit, ?_,
          by rw [hoffset, List.length_cons]; omega, hstarts⟩
        rw [symbols, if_neg hdigit, hsymbols]
        rfl

/-- What is read up to a lexeme that does not fit goes no further in any expression. -/
theorem not_viable_of_step {ps : Parameters} {cs : List Char} {c : Char} {r : Reading} {s : Symbol}
    (hrun : Reading.initial.run (symbols cs) = some r) (hstep : r.step s = none)
    (hstarts : s.StartsWith c) (hsevered : Severed cs [c]) : ¬ ps.Viable (cs ++ [c]) := by
  rintro ⟨rest, -, hderives⟩
  rw [List.append_assoc, List.singleton_append] at hderives
  obtain ⟨e, he⟩ : ∃ e, Denotes .sum (cs ++ c :: rest) e := exists_denotes_of_derives hderives
  have hread := read_eq_ok_iff_run.1 (read_of_denotes he)
  -- the reading gets to the character and stops there
  obtain ⟨s', ss, hsymbols, hstarts'⟩ := symbols_cons_startsWith c rest
  have hnone : r.step s' = none := step_eq_none_of_startsWith hstarts hstarts' hstep
  have hsevered : Severed cs (c :: rest) := hsevered
  rw [symbols_append hsevered, hsymbols, Reading.run_append, hrun, Option.bind_some,
    Reading.run_cons, hnone] at hread
  cases hread

/-! ## The offset of the error -/

/-- A text that cannot be read is viable up to the place of the error and no further. -/
theorem viable_of_read {ps : Parameters} {text : List Char} (hlisted : ∀ c ∈ text, ps.Lists c)
    {err : ExpressionError} (h : Expr.read text = .error err) :
    ∃ before after expected, text = before ++ after ∧ err = malformedAt before.length expected ∧
      ps.Viable before ∧ ∀ c ∈ after.head?, ¬ ps.Viable (before ++ [c]) := by
  obtain ⟨offset, expected, rfl, hplace⟩ := malformed_of_readFrom (r := .initial) h
  obtain ⟨rfl, r, hrun⟩ | ⟨before, l, after, r, hlexemes, rfl, hrun, hstep⟩ := hplace
  · rw [map_symbol_lexemes] at hrun
    exact ⟨text, [], expected, (List.append_nil text).symm, rfl, viable_of_run hlisted hrun, nofun⟩
  · obtain ⟨cs, c, ds, rfl, hsevered, hsymbols, hoffset, hstarts⟩ :=
      exists_severed_of_lexemes hlexemes
    rw [← hsymbols] at hrun
    refine ⟨cs, c :: ds, expected, rfl, by rw [hoffset, Nat.zero_add],
      viable_of_run (List.forall_mem_append.1 hlisted).1 hrun, fun c' hc' => ?_⟩
    obtain rfl : c = c' := Option.some.inj hc'
    exact not_viable_of_step hrun hstep hstarts hsevered

theorem utf8Size_of_lists {ps : Parameters} {c : Char} (h : ps.Lists c) : c.utf8Size = 1 := by
  rw [Char.utf8Size_eq_one_iff]
  obtain hdigit | hmark | hletter := h
  · exact UInt32.le_trans (of_decide_eq_true (Bool.and_eq_true_iff.1 hdigit).2) (by decide)
  · have hmarks : Parameters.punctuation.all (fun d => d.val ≤ 127) = true := by decide
    exact List.all_iff_forall_prop.1 hmarks c hmark
  · have hlower := ps.lower c hletter
    exact UInt32.le_trans (of_decide_eq_true (Bool.and_eq_true_iff.1 hlower).2) (by decide)

/-- Listed characters are single bytes. -/
theorem byteSize_of_lists {ps : Parameters} {cs : List Char} (h : ∀ c ∈ cs, ps.Lists c) :
    Text.byteSize cs = cs.length := by
  induction cs with
  | nil => rfl
  | cons c cs ih =>
    obtain ⟨hc, hcs⟩ := List.forall_mem_cons.1 h
    rw [Text.byteSize, utf8Size_of_lists hc, ih hcs, List.length_cons, Nat.add_comm]

theorem Parameters.Viable.lists {ps : Parameters} {cs : List Char} (h : ps.Viable cs) :
    ∀ c ∈ cs, ps.Lists c := by
  obtain ⟨rest, hlisted, -⟩ := h
  exact (List.forall_mem_append.1 hlisted).1

/-- No part of a text is viable beyond a character that is not. -/
theorem length_le_of_viable {ps : Parameters} {before after longer : List Char}
    (hafter : ∀ c ∈ after.head?, ¬ ps.Viable (before ++ [c])) (hfront : longer <+: before ++ after)
    (hlonger : ps.Viable longer) : longer.length ≤ before.length := by
  cases after with
  | nil => simpa using hfront.length_le
  | cons c rest =>
    refine Nat.le_of_not_lt fun hlt => ?_
    have hnext : before ++ [c] <+: before ++ c :: rest :=
      (List.prefix_append_right_inj before).2 ⟨rest, rfl⟩
    have hshorter : before ++ [c] <+: longer :=
      List.prefix_of_prefix_length_le hnext hfront (by rwa [List.length_append])
    exact hafter c rfl (hlonger.of_isPrefix hshorter)

/-- **A malformed text is rejected where it leaves the grammar.**  When all characters of a text are
allowed and the grammar does not derive it, the offset of the error divides the text in bytes: what
comes before it is the beginning of an expression over the declared letters, and with the byte at the
offset it no longer is, unless the text ends there.  No longer part of the text is the beginning of an
expression.  Where that beginning has four gibibytes or more, the offset is zero instead. -/
theorem malformed_at_longest_viable {ev : Evaluator} {raw : String}
    (hcheck : ev.parameters.check raw.toList = .ok ()) (hmalformed : ¬ Derives .expr raw.toList) :
    ∃ offset expected before after,
      ev.validate raw = .error (.malformed offset expected) ∧
      ev.evaluate raw = .error (.malformed offset expected) ∧
      raw.toList = before ++ after ∧ Text.IsSizeOf offset (Text.byteSize before) ∧
      ev.parameters.Viable before ∧
      (Text.byteSize before = Text.byteSize raw.toList ∨
        ∃ c rest, after = c :: rest ∧
          Text.byteSize (before ++ [c]) = Text.byteSize before + 1 ∧
          ¬ ev.parameters.Viable (before ++ [c])) ∧
      ∀ longer, longer <+: raw.toList → ev.parameters.Viable longer →
        Text.byteSize longer ≤ Text.byteSize before := by
  have hlisted : ∀ c ∈ raw.toList, ev.parameters.Lists c := fun c hc =>
    allows_iff_lists.1 (allows_of_check hcheck c hc)
  cases hread : Expr.read raw.toList with
  | ok e =>
    exact absurd (exists_denotes_iff_derives.1 ⟨e, denotes_of_read (allows_of_check hcheck) hread⟩)
      hmalformed
  | error err =>
    obtain ⟨before, after, expected, htext, rfl, hviable, hafter⟩ := viable_of_read hlisted hread
    have hbefore : Text.byteSize before = before.length := byteSize_of_lists hviable.lists
    have hread' : ev.read raw = .error (malformedAt before.length expected) := by
      rw [Evaluator.read, hcheck]
      exact hread
    refine ⟨Text.sizeOrZero before.length, expected, before, after,
      by rw [Evaluator.validate, hread']; rfl, by rw [Evaluator.evaluate, hread']; rfl, htext,
      hbefore ▸ Text.isSizeOf_sizeOrZero _, hviable, ?_, fun longer hfront hlonger => ?_⟩
    · cases after with
      | nil => exact Or.inl (by rw [htext, List.append_nil])
      | cons c rest =>
        have hnext : before ++ [c] <+: raw.toList := ⟨rest, by rw [htext, List.append_assoc]; rfl⟩
        have hsize : Text.byteSize (before ++ [c]) = Text.byteSize before + 1 := by
          rw [byteSize_of_lists fun d hd => hlisted d (hnext.subset hd), List.length_append, hbefore]
          rfl
        exact Or.inr ⟨c, rest, rfl, hsize, hafter c rfl⟩
    · rw [byteSize_of_lists hlonger.lists, hbefore]
      rw [htext] at hfront
      exact length_le_of_viable hafter hfront hlonger

/-- A parenthesis too many, after which an operation would have been in order. -/
theorem malformed_at_longest_viable_unbalanced :
    let raw := "2*(m+30))-n"
    twoParameters.parameters.check raw.toList = .ok () ∧ ¬ Derives .expr raw.toList ∧
      twoParameters.evaluate raw = .error (.malformed 8 .operatorOrEnd) ∧
      twoParameters.parameters.Viable "2*(m+30)".toList ∧
      ¬ twoParameters.parameters.Viable "2*(m+30))".toList := by
  intro raw
  have hcheck : twoParameters.parameters.check raw.toList = .ok () := by decide +kernel
  have hread : Expr.read raw.toList = .error (.malformed 8 .operatorOrEnd) := by decide +kernel
  have hmalformed : ¬ Derives .expr raw.toList := by
    intro hderives
    obtain ⟨e, he⟩ := exists_denotes_iff_derives.2 hderives
    cases hread.symm.trans (read_of_denotes he)
  have hevaluate : twoParameters.evaluate raw = .error (.malformed 8 .operatorOrEnd) := by
    decide +kernel
  obtain ⟨offset, expected, before, after, -, herror, htext, hsize, hviable, hnext, -⟩ :=
    malformed_at_longest_viable hcheck hmalformed
  obtain ⟨rfl, rfl⟩ := ExpressionError.malformed.inj (Except.error.inj (herror.symm.trans hevaluate))
  have hplace : Text.byteSize before = 8 := (hsize.resolve_right fun h => absurd h.2 (by decide)).symm
  have hsplit : "2*(m+30)".toList ++ ")-n".toList = before ++ after := by
    rw [← htext]
    decide +kernel
  have hlength : "2*(m+30)".toList.length = before.length := by
    rw [← byteSize_of_lists hviable.lists, hplace]
    decide +kernel
  obtain ⟨rfl, rfl⟩ := List.append_inj hsplit hlength
  obtain hend | ⟨c, rest, hrest, -, hnot⟩ := hnext
  · exact absurd hend (by decide +kernel)
  · obtain rfl : ')' = c := (List.cons.inj hrest).1
    exact ⟨hcheck, hmalformed, hevaluate, hviable, hnot⟩

/-- A number before a parenthesis, as lexemes. -/
theorem lexemes_replicate_opening (offset n : Nat) :
    lexemes offset (List.replicate (n + 1) '1' ++ ['(']) =
      [⟨offset, .digits (List.replicate (n + 1) '1')⟩, ⟨offset + (n + 1), .opening⟩] := by
  induction n generalizing offset with
  | zero => rfl
  | succ n ih =>
    rw [List.replicate_succ, List.cons_append, lexemes, ih, if_pos (by decide), consDigit,
      Nat.add_right_comm]
    rfl

theorem check_numberThen {ps : Parameters} {c : Char} (hc : ps.Lists c) (n : Nat) :
    ps.check (numberThen n c).toList = .ok () := by
  rw [toList_numberThen, check_eq_ok_iff]
  refine ⟨by simp, List.forall_mem_append.2 ⟨fun d hd => ?_, ?_⟩⟩
  · rw [List.eq_of_mem_replicate hd]
    exact allows_iff_lists.2 (Or.inl (by decide))
  · exact List.forall_mem_singleton.2 (allows_iff_lists.2 hc)

section
variable {n : Nat} (hn : 0 < n)
include hn

/-- A number is not followed by a parenthesis. -/
theorem read_numberThen_opening :
    Expr.read (numberThen n '(').toList = .error (malformedAt n .operatorOrEnd) := by
  obtain ⟨n, rfl⟩ := Nat.exists_eq_succ_of_ne_zero (Nat.ne_of_gt hn)
  rw [toList_numberThen, Expr.read, lexemes_replicate_opening, Nat.zero_add]
  rfl

theorem not_derives_numberThen_opening : ¬ Derives .expr (numberThen n '(').toList := by
  intro hderives
  obtain ⟨e, he⟩ := exists_denotes_iff_derives.2 hderives
  cases (read_numberThen_opening hn).symm.trans (read_of_denotes he)

theorem validate_numberThen_opening (ev : Evaluator) :
    ev.validate (numberThen n '(') = .error (malformedAt n .operatorOrEnd) := by
  rw [Evaluator.validate, Evaluator.read, check_numberThen (Or.inr (Or.inl (by decide)))]
  exact congrArg discard (read_numberThen_opening hn)

theorem isPrefix_numberThen (c : Char) : ['1'] <+: (numberThen n c).toList := by
  obtain ⟨n, rfl⟩ := Nat.exists_eq_succ_of_ne_zero (Nat.ne_of_gt hn)
  exact ⟨List.replicate n '1' ++ [c], by rw [toList_numberThen]; rfl⟩

end

/-- Behind 4294967296 digits the place of an error is no text size, and the offset is zero: it does not
point at the end of the text, and one byte more than none is still the beginning of an expression. -/
theorem malformed_at_zero_beyond_sizes :
    let ev := Evaluator.ofParameters .empty
    let raw := numberThen 4294967296 '('
    ev.parameters.check raw.toList = .ok () ∧ ¬ Derives .expr raw.toList ∧
      ev.validate raw = .error (.malformed 0 .operatorOrEnd) ∧
      ['1'] <+: raw.toList ∧ ev.parameters.Viable ['1'] := by
  intro ev raw
  have hpositive : 0 < 4294967296 := by decide
  have hplace : Text.sizeOrZero 4294967296 = 0 :=
    (Text.isSizeOf_sizeOrZero _).eq_zero (Nat.le_refl _)
  refine ⟨check_numberThen (Or.inr (Or.inl (by decide))) _, not_derives_numberThen_opening hpositive,
    ?_, isPrefix_numberThen hpositive _, [], List.forall_mem_singleton.2 (Or.inl (by decide)), ?_⟩
  · rw [validate_numberThen_opening hpositive, malformedAt, hplace]
  · exact Derives.expr_of_primary
      (.digits (List.cons_ne_nil _ _) (List.forall_mem_singleton.2 (by decide)))

end Rendezvous.Arithmetic
