import Rendezvous.Proofs.Arithmetic.Evaluation
import Rendezvous.Proofs.Arithmetic.Validation

/-!
# The grammar without precedence, and every rejection

Precedence and associativity decide about trees and not about texts.  What can be read is what two
rules derive:

* `expr := primary (operation primary)*`
* `primary := digits | letter | '(' expr ')'`

`Derives` is this grammar, with the repetition written as a list, and its expressions are the texts
with a tree (`exists_denotes_iff_derives`).  Validating a text accepts exactly the expressions over
the listed characters, names the first character that is not listed, and otherwise calls the text
malformed; evaluating a text rejects it in the same cases with the same error
(`rejections_are_classified`).  Offsets are text sizes: a character that starts behind four gibibytes
or more cannot be named, and the text is rejected for an overflow.
-/

namespace Rendezvous.Arithmetic

/-! ## The grammar -/

/-- The two rules. -/
inductive Rule where
  | expr
  | primary
  deriving DecidableEq, Repr

/-- The text of operations with their right operands. -/
def tailText (operands : List (Operation × List Char)) : List Char :=
  operands.flatMap fun r => r.1.char :: r.2

/-- `Derives r text`: the grammar derives the text from the rule. -/
inductive Derives : Rule → List Char → Prop
  | digits {ds : List Char} : ds ≠ [] → (∀ d ∈ ds, d.isDigit = true) → Derives .primary ds
  | letter {c : Char} : c.isLower = true → Derives .primary [c]
  | group {cs : List Char} : Derives .expr cs → Derives .primary ('(' :: (cs ++ [')']))
  | expr {cs : List Char} {operands : List (Operation × List Char)} : Derives .primary cs →
      (∀ r ∈ operands, Derives .primary r.2) → Derives .expr (cs ++ tailText operands)

theorem Derives.ne_nil {r : Rule} {cs : List Char} (h : Derives r cs) : cs ≠ [] := by
  induction h with
  | digits hne _ => exact hne
  | letter _ => exact List.cons_ne_nil _ _
  | group _ _ => exact List.cons_ne_nil _ _
  | expr _ _ ih _ => exact List.append_ne_nil_of_left_ne_nil ih _

theorem Derives.expr_of_primary {cs : List Char} (h : Derives .primary cs) : Derives .expr cs := by
  have hexpr : Derives .expr (cs ++ tailText []) := .expr h fun r hr => nomatch hr
  rwa [tailText, List.flatMap_nil, List.append_nil] at hexpr

/-- Expressions can be joined by an operation. -/
theorem Derives.join {cs ds : List Char} (hc : Derives .expr cs) (op : Operation)
    (hd : Derives .expr ds) : Derives .expr (cs ++ op.char :: ds) := by
  cases hc with
  | @expr cs operands hcs hoperands =>
    cases hd with
    | @expr ds operands' hds hoperands' =>
      have htext : cs ++ tailText operands ++ op.char :: (ds ++ tailText operands')
          = cs ++ tailText (operands ++ (op, ds) :: operands') := by
        simp [tailText]
      rw [htext]
      refine .expr hcs fun r hr => ?_
      rcases List.mem_append.1 hr with hr | hr
      · exact hoperands r hr
      · rcases List.mem_cons.1 hr with rfl | hr
        · exact hds
        · exact hoperands' r hr

/-- The rule of a phrase without regard to precedence. -/
def Phrase.rule : Phrase → Rule
  | sum | product => .expr
  | primary => .primary

/-- What has a tree is derived. -/
theorem derives_of_denotes {p : Phrase} {cs : List Char} {e : Expr} (h : Denotes p cs e) :
    Derives p.rule cs := by
  induction h with
  | number hne hdigits => exact .digits hne hdigits
  | parameter hlower => exact .letter hlower
  | group _ ih => exact .group ih
  | primary _ ih => exact Derives.expr_of_primary ih
  | scale _ _ _ iha ihb => exact Derives.join iha _ (Derives.expr_of_primary ihb)
  | product _ ih => exact ih
  | shift _ _ _ iha ihb => exact Derives.join iha _ ihb

/-- An operand after a sum finds its place: at the end of the sum or of the last product of it. -/
theorem exists_denotes_append {cs ds : List Char} {a b : Expr} (ha : Denotes .sum cs a)
    (op : Operation) (hb : Denotes .primary ds b) :
    ∃ e, Denotes .sum (cs ++ op.char :: ds) e := by
  cases htight : op.bindsTightly with
  | false => exact ⟨_, .shift ha htight (.primary hb)⟩
  | true =>
    -- a tight operation extends the last product, which is all of the sum or stands at its end
    cases ha with
    | product hproduct => exact ⟨_, .product (.scale hproduct htight hb)⟩
    | shift hsum hloose hproduct =>
      rw [List.append_assoc, List.cons_append]
      exact ⟨_, .shift hsum hloose (.scale hproduct htight hb)⟩

/-- Operands after a sum, one after the other. -/
theorem exists_denotes_tail {operands : List (Operation × List Char)}
    (hoperands : ∀ r ∈ operands, ∃ b, Denotes .primary r.2 b) {cs : List Char} {a : Expr}
    (ha : Denotes .sum cs a) : ∃ e, Denotes .sum (cs ++ tailText operands) e := by
  induction operands generalizing cs a with
  | nil => exact ⟨a, by rwa [tailText, List.flatMap_nil, List.append_nil]⟩
  | cons r operands ih =>
    obtain ⟨⟨b, hb⟩, hoperands⟩ := List.forall_mem_cons.1 hoperands
    obtain ⟨e, he⟩ := exists_denotes_append ha r.1 hb
    have htail : cs ++ tailText (r :: operands) = cs ++ r.1.char :: r.2 ++ tailText operands := by
      simp [tailText]
    rw [htail]
    exact ih hoperands he

/-- The phrase that a rule derives. -/
def Rule.phrase : Rule → Phrase
  | expr => .sum
  | primary => .primary

/-- What is derived has a tree. -/
theorem exists_denotes_of_derives {r : Rule} {cs : List Char} (h : Derives r cs) :
    ∃ e, Denotes r.phrase cs e := by
  induction h with
  | digits hne hdigits => exact ⟨_, .number hne hdigits⟩
  | letter hlower => exact ⟨_, .parameter hlower⟩
  | group _ ih =>
    obtain ⟨e, he⟩ := ih
    exact ⟨e, .group he⟩
  | expr _ _ ih ihs =>
    obtain ⟨e, he⟩ := ih
    exact exists_denotes_tail ihs (.product (.primary he))

/-- **Precedence does not restrict texts**: an expression is a text with a tree. -/
theorem exists_denotes_iff_derives {cs : List Char} :
    (∃ e, Denotes .sum cs e) ↔ Derives .expr cs :=
  ⟨fun ⟨_, he⟩ => derives_of_denotes he, exists_denotes_of_derives⟩

/-! ## The listed characters -/

/-- The characters of expressions: digits, operators, parentheses and declared letters. -/
def Parameters.Lists (ps : Parameters) (c : Char) : Prop :=
  c.isDigit = true ∨ c ∈ ['+', '-', '*', '/', '(', ')'] ∨ c ∈ ps.letters

theorem allows_iff_lists {ps : Parameters} {c : Char} : ps.allows c = true ↔ ps.Lists c := by
  simp [Parameters.allows, Parameters.Lists, Parameters.punctuation, Parameters.contains, or_assoc]

/-- The first character of a text that is not listed is `c`, and it starts at byte `offset`. -/
def Parameters.Misses (ps : Parameters) (text : List Char) (c : Char) (offset : Nat) : Prop :=
  ∃ before after, text = before ++ c :: after ∧ (∀ d ∈ before, ps.Lists d) ∧ ¬ ps.Lists c ∧
    offset = Text.byteSize before

section
variable {ps : Parameters} {d c : Char} {rest : List Char} {offset : Nat}

theorem not_misses_nil : ¬ ps.Misses [] c offset := by
  simp [Parameters.Misses]

theorem misses_cons_of_lists (hd : ps.Lists d) :
    ps.Misses (d :: rest) c offset ↔ ∃ n, ps.Misses rest c n ∧ offset = d.utf8Size + n := by
  constructor
  · rintro ⟨before, after, htext, hbefore, hc, rfl⟩
    cases before with
    | nil =>
      obtain ⟨rfl, -⟩ := List.cons.inj htext
      exact absurd hd hc
    | cons d' before =>
      obtain ⟨rfl, rfl⟩ := List.cons.inj htext
      exact ⟨_, ⟨before, after, rfl, (List.forall_mem_cons.1 hbefore).2, hc, rfl⟩, rfl⟩
  · rintro ⟨n, ⟨before, after, rfl, hbefore, hc, rfl⟩, rfl⟩
    exact ⟨d :: before, after, rfl, List.forall_mem_cons.2 ⟨hd, hbefore⟩, hc, rfl⟩

theorem misses_cons_of_not_lists (hd : ¬ ps.Lists d) :
    ps.Misses (d :: rest) c offset ↔ d = c ∧ 0 = offset := by
  constructor
  · rintro ⟨before, after, htext, hbefore, -, rfl⟩
    cases before with
    | nil =>
      obtain ⟨rfl, -⟩ := List.cons.inj htext
      exact ⟨rfl, rfl⟩
    | cons d' before =>
      obtain ⟨rfl, -⟩ := List.cons.inj htext
      exact absurd (hbefore d List.mem_cons_self) hd
  · rintro ⟨rfl, rfl⟩
    exact ⟨[], rest, rfl, by simp, hd, rfl⟩

/-- A scan from byte `start` finds the first character that is not listed. -/
theorem firstDisallowed_eq_some_iff {start : Nat} {text : List Char} :
    ps.firstDisallowed start text = some (c, offset) ↔
      ∃ n, ps.Misses text c n ∧ offset = start + n := by
  induction text generalizing start with
  | nil => simp [Parameters.firstDisallowed, not_misses_nil]
  | cons d rest ih =>
    rw [Parameters.firstDisallowed]
    by_cases hd : ps.allows d = true
    · rw [if_pos hd, ih]
      simp only [misses_cons_of_lists (allows_iff_lists.1 hd)]
      constructor
      · rintro ⟨n, hn, rfl⟩
        exact ⟨_, ⟨n, hn, rfl⟩, by omega⟩
      · rintro ⟨_, ⟨n, hn, rfl⟩, rfl⟩
        exact ⟨n, hn, by omega⟩
    · rw [if_neg hd, Option.some.injEq, Prod.mk.injEq]
      simp only [misses_cons_of_not_lists (mt allows_iff_lists.2 hd)]
      constructor
      · rintro ⟨rfl, rfl⟩
        exact ⟨0, ⟨rfl, rfl⟩, rfl⟩
      · rintro ⟨_, ⟨rfl, rfl⟩, rfl⟩
        exact ⟨rfl, rfl⟩

theorem misses_iff {text : List Char} :
    ps.Misses text c offset ↔ ps.firstDisallowed 0 text = some (c, offset) := by
  rw [firstDisallowed_eq_some_iff]
  constructor
  · exact fun h => ⟨offset, h, (Nat.zero_add offset).symm⟩
  · rintro ⟨n, hn, rfl⟩
    rwa [Nat.zero_add]

/-- One character at most is missed. -/
theorem Parameters.Misses.unique {text : List Char} {c' : Char} {offset' : Nat}
    (h : ps.Misses text c offset) (h' : ps.Misses text c' offset') : c = c' ∧ offset = offset' :=
  Prod.mk.inj (Option.some.inj ((misses_iff.1 h).symm.trans (misses_iff.1 h')))

/-- A character that is missed is not listed. -/
theorem Parameters.Misses.not_forall_lists {text : List Char} (h : ps.Misses text c offset) :
    ¬ ∀ d ∈ text, ps.Lists d := by
  obtain ⟨before, after, rfl, -, hc, -⟩ := h
  exact fun hall => hc (hall c (by simp))

end

/-! ## Validation -/

/-- What validating a text comes to, and why. -/
inductive Verdict (ps : Parameters) (text : List Char) : Except ExpressionError Unit → Prop
  | empty : text = [] → Verdict ps text (.error .empty)
  | missed {c : Char} {offset : UInt32} : ps.Misses text c offset.toNat →
      Verdict ps text (.error (.disallowedCharacter c offset))
  | missedBeyond {c : Char} {n : Nat} : ps.Misses text c n → UInt32.size ≤ n →
      Verdict ps text (.error .overflow)
  | malformed {offset : UInt32} {expected : Expected} : text ≠ [] → (∀ c ∈ text, ps.Lists c) →
      ¬ Derives .expr text → Verdict ps text (.error (.malformed offset expected))
  | valid : text ≠ [] → (∀ c ∈ text, ps.Lists c) → Derives .expr text → Verdict ps text (.ok ())

theorem verdict_check {ps : Parameters} {text : List Char} {err : ExpressionError}
    (h : ps.check text = .error err) : Verdict ps text (.error err) := by
  unfold Parameters.check at h
  split at h
  · next hempty =>
    obtain rfl := Except.error.inj h
    exact .empty (by simpa using hempty)
  · split at h
    · next c n hfirst =>
      have hmiss : ps.Misses text c n := misses_iff.2 hfirst
      cases hsize : Text.size? n with
      | some offset =>
        rw [hsize] at h
        obtain rfl := Except.error.inj h
        rw [← Text.size?_eq_some_iff.1 hsize] at hmiss
        exact .missed hmiss
      | none =>
        rw [hsize] at h
        obtain rfl := Except.error.inj h
        exact .missedBeyond hmiss (Text.size?_eq_none_iff.1 hsize)
    · cases h

/-- **Every verdict of validation has its reason.** -/
theorem verdict_validate (ev : Evaluator) (raw : String) :
    Verdict ev.parameters raw.toList (ev.validate raw) := by
  have hderives : (∃ e, Denotes .sum raw.toList e) ↔ _ := exists_denotes_iff_derives
  obtain ⟨hvalid, ⟨hne, hallows⟩, hderived⟩ | ⟨err, herr, hcase⟩ := validate_cases ev raw
  · rw [hvalid]
    exact .valid hne (fun c hc => allows_iff_lists.1 (hallows c hc)) (hderives.1 hderived)
  · rw [herr]
    obtain ⟨-, hnot⟩ | ⟨⟨offset, expected, rfl⟩, ⟨hne, hallows⟩, hderived⟩ := hcase
    · -- the allow-list decides first, so its error is the error of the validation
      obtain ⟨-, hallowed⟩ | ⟨err', hcheck, -⟩ := check_cases ev.parameters raw.toList
      · exact absurd hallowed hnot
      · have hvalidate : ev.validate raw = .error err' := by
          rw [Evaluator.validate, Evaluator.read, hcheck]
          rfl
        obtain rfl := Except.error.inj (herr.symm.trans hvalidate)
        exact verdict_check hcheck
    · exact .malformed hne (fun c hc => allows_iff_lists.1 (hallows c hc)) (mt hderives.2 hderived)

/-- An error that a text has whatever its letters are worth. -/
def ExpressionError.OfText (err : ExpressionError) : Prop :=
  err = .empty ∨ (∃ c offset, err = .disallowedCharacter c offset) ∨ err.IsMalformed

/-- A text overflows when the first character that is not listed has no text size for its place. -/
theorem validate_eq_overflow_iff {ev : Evaluator} {raw : String} :
    ev.validate raw = .error .overflow ↔
      ∃ c n, ev.parameters.Misses raw.toList c n ∧ UInt32.size ≤ n := by
  have hverdict := verdict_validate ev raw
  generalize ev.validate raw = r at hverdict
  cases hverdict with
  | empty hnil => exact iff_of_false nofun fun ⟨c, n, hmiss, _⟩ => not_misses_nil (hnil ▸ hmiss)
  | @missed c offset hmiss =>
    refine iff_of_false nofun ?_
    rintro ⟨c', n, hmiss', hn⟩
    obtain ⟨-, rfl⟩ := hmiss.unique hmiss'
    exact absurd offset.toNat_lt (Nat.not_lt_of_le hn)
  | missedBeyond hmiss hn => exact iff_of_true rfl ⟨_, _, hmiss, hn⟩
  | malformed _ hlisted _ | valid _ hlisted _ =>
    exact iff_of_false nofun fun ⟨c, n, hmiss, _⟩ => hmiss.not_forall_lists hlisted

/-! ## Evaluation -/

/-- A text is not at fault when a letter has no value or an operation fails. -/
theorem ExpressionError.not_ofText {err : ExpressionError}
    (h : (∃ c, err = .unboundParameter c) ∨ err = .divisionByZero ∨ err = .overflow) :
    ¬ err.OfText := by
  rintro (rfl | ⟨c, offset, rfl⟩ | ⟨offset, expected, rfl⟩) <;> simp at h

/-- Evaluating an expression finds no fault with its text. -/
theorem Evaluates.not_ofText {bindings : Bindings} {e : Expr} {err : ExpressionError}
    (h : Evaluates bindings e (.error err)) : ¬ err.OfText := by
  generalize hr : (.error err : Except ExpressionError Fraction) = r at h
  induction h with
  | tooLarge _ =>
    obtain rfl := Except.error.inj hr
    exact ExpressionError.not_ofText (Or.inr (Or.inr rfl))
  | unbound _ =>
    obtain rfl := Except.error.inj hr
    exact ExpressionError.not_ofText (Or.inl ⟨_, rfl⟩)
  | left _ ih => exact ih hr
  | right _ _ _ ih => exact ih hr
  | @apply op _ _ a b _ _ _ _ =>
    exact ExpressionError.not_ofText (Or.inr (errorsArithmetic_apply op a b err hr.symm))
  | literal _ _ | bound _ => cases hr

/-- Evaluation rejects whatever validation rejects, with the same error. -/
theorem evaluate_of_validate_eq_error {ev : Evaluator} {raw : String} {err : ExpressionError}
    (h : ev.validate raw = .error err) : ev.evaluate raw = .error err := by
  rw [Evaluator.validate] at h
  rw [Evaluator.evaluate]
  cases hread : ev.read raw with
  | ok e =>
    rw [hread] at h
    cases h
  | error err' =>
    rw [hread] at h
    cases h
    rfl

/-- Evaluation finds fault with a text as validation does. -/
theorem validate_eq_error_iff {ev : Evaluator} {raw : String} {err : ExpressionError}
    (htext : err.OfText) : ev.validate raw = .error err ↔ ev.evaluate raw = .error err := by
  refine ⟨evaluate_of_validate_eq_error, fun h => ?_⟩
  rw [Evaluator.evaluate] at h
  rw [Evaluator.validate]
  cases hread : ev.read raw with
  | ok e =>
    rw [hread] at h
    exact absurd htext (eval_eq_iff_evaluates.1 h).not_ofText
  | error err' =>
    rw [hread] at h
    cases h
    rfl

/-- **Every rejection is classified.**  A text is rejected as empty exactly when it is, for a
character and its byte offset exactly when this is the first character that is not listed, and as
malformed exactly when all of its characters are listed and the grammar does not derive it.  It
overflows exactly when the first character that is not listed starts behind four gibibytes or more, so
that its offset is no text size; all other texts are valid.  Evaluation rejects what validation rejects,
with the same error, and finds no text empty, with a character that is not listed or malformed but
those that validation does. -/
theorem rejections_are_classified (ev : Evaluator) (raw : String) :
    let listed := ∀ c ∈ raw.toList, ev.parameters.Lists c
    let derived := Derives .expr raw.toList
    (ev.validate raw = .error .empty ↔ raw = "") ∧
      (∀ c offset, ev.validate raw = .error (.disallowedCharacter c offset) ↔
        ev.parameters.Misses raw.toList c offset.toNat) ∧
      (ev.validate raw = .error .overflow ↔
        ∃ c n, ev.parameters.Misses raw.toList c n ∧ UInt32.size ≤ n) ∧
      (ev.validate raw = .ok () ↔ listed ∧ derived) ∧
      ((∃ offset expected, ev.validate raw = .error (.malformed offset expected)) ↔
        raw ≠ "" ∧ listed ∧ ¬ derived) ∧
      (∀ err, ev.validate raw = .error err → ev.evaluate raw = .error err) ∧
      ∀ err, err.OfText → (ev.validate raw = .error err ↔ ev.evaluate raw = .error err) := by
  intro listed derived
  have hempty : raw = "" ↔ raw.toList = [] := String.toList_eq_nil_iff.symm
  have hverdict := verdict_validate ev raw
  refine ⟨?_, fun c offset => ?_, validate_eq_overflow_iff, ?_, ?_,
    fun err => evaluate_of_validate_eq_error, fun err => validate_eq_error_iff⟩ <;>
    generalize ev.validate raw = r at hverdict
  · rw [hempty]
    cases hverdict with
    | empty hnil => exact iff_of_true rfl hnil
    | missed hmiss | missedBeyond hmiss _ =>
      exact iff_of_false nofun fun hnil => not_misses_nil (hnil ▸ hmiss)
    | malformed hne _ _ | valid hne _ _ => exact iff_of_false nofun hne
  · cases hverdict with
    | empty hnil => exact iff_of_false nofun fun hmiss => not_misses_nil (hnil ▸ hmiss)
    | missed hmiss =>
      constructor
      · rintro ⟨⟩
        exact hmiss
      · intro hmiss'
        obtain ⟨rfl, heq⟩ := hmiss.unique hmiss'
        rw [UInt32.toNat_inj.1 heq]
    | missedBeyond hmiss hn =>
      refine iff_of_false nofun fun hmiss' => ?_
      rw [(hmiss.unique hmiss').2] at hn
      exact absurd offset.toNat_lt (Nat.not_lt_of_le hn)
    | malformed _ hlisted _ | valid _ hlisted _ =>
      exact iff_of_false nofun fun hmiss => hmiss.not_forall_lists hlisted
  · cases hverdict with
    | empty hnil => exact iff_of_false nofun fun h => h.2.ne_nil hnil
    | missed hmiss | missedBeyond hmiss _ =>
      exact iff_of_false nofun fun h => hmiss.not_forall_lists h.1
    | malformed _ _ hderived => exact iff_of_false nofun fun h => hderived h.2
    | valid _ hlisted hderived => exact iff_of_true rfl ⟨hlisted, hderived⟩
  · rw [ne_eq, hempty]
    cases hverdict with
    | empty hnil => exact iff_of_false nofun fun h => h.1 hnil
    | missed hmiss | missedBeyond hmiss _ =>
      exact iff_of_false nofun fun h => hmiss.not_forall_lists h.2.1
    | malformed hne hlisted hderived =>
      exact iff_of_true ⟨_, _, rfl⟩ ⟨hne, hlisted, hderived⟩
    | valid _ _ hderived => exact iff_of_false nofun fun h => h.2.2 hderived

/-- A number of `n` digits with a character behind it. -/
def numberThen (n : Nat) (c : Char) : String := String.ofList (List.replicate n '1' ++ [c])

theorem toList_numberThen (n : Nat) (c : Char) :
    (numberThen n c).toList = List.replicate n '1' ++ [c] :=
  String.toList_ofList

theorem mem_numberThen (n : Nat) (c : Char) : c ∈ (numberThen n c).toList := by
  rw [toList_numberThen]
  exact List.mem_append_right _ (List.mem_singleton_self c)

theorem misses_numberThen {ps : Parameters} {c : Char} (hc : ¬ ps.Lists c) (n : Nat) :
    ps.Misses (numberThen n c).toList c n := by
  refine ⟨List.replicate n '1', [], toList_numberThen n c, fun d hd => ?_, hc, ?_⟩
  · rw [List.eq_of_mem_replicate hd]
    exact Or.inl (by decide)
  · rw [Text.byteSize_replicate]
    exact (Nat.mul_one n).symm

theorem validate_numberThen_eq_overflow {ev : Evaluator} {c : Char} (hc : ¬ ev.parameters.Lists c)
    {n : Nat} (hn : UInt32.size ≤ n) : ev.validate (numberThen n c) = .error .overflow :=
  validate_eq_overflow_iff.2 ⟨c, n, misses_numberThen hc n, hn⟩

/-- Behind 4294967296 digits a character has a place that is no text size, and is not named. -/
theorem not_disallowedCharacter_beyond_sizes :
    let ev := Evaluator.ofParameters .empty
    let raw := numberThen 4294967296 'x'
    ev.parameters.Misses raw.toList 'x' 4294967296 ∧ ev.validate raw = .error .overflow ∧
      ∀ c offset, ev.validate raw ≠ .error (.disallowedCharacter c offset) := by
  intro ev raw
  have hunlisted : ¬ ev.parameters.Lists 'x' := by
    rw [← allows_iff_lists]
    decide
  have hoverflow : ev.validate raw = .error .overflow :=
    validate_numberThen_eq_overflow hunlisted (Nat.le_refl _)
  refine ⟨misses_numberThen hunlisted _, hoverflow, fun c offset h => ?_⟩
  cases hoverflow.symm.trans h

end Rendezvous.Arithmetic
