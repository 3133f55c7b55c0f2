import Mathlib.Data.Bool.AllAny
import Rendezvous.Proofs.Arithmetic.Rejection
import Rendezvous.Proofs.Config.Literals

/-!
# Binding letters is writing their values

A text can be evaluated with values for its letters, or the values can be written into the text first,
in decimal, in the place of the letters.  Both come to the same (`evaluate_eq_evaluate_substituted`).
In a phrase no letter stands next to a digit or another letter, so the digits of a value are a number
of their own wherever they are written, and the text with the values has the tree with the values
(`Denotes.substitute`), which evaluates alike (`Expr.eval_substitute`).
-/

namespace Rendezvous.Arithmetic

/-! ## Writing values into texts and trees -/

/-- What stands for a character when values are written in the place of letters. -/
def valueText (bindings : Bindings) (c : Char) : List Char :=
  if c.isLower then
    match bindings.get? c with
    | some n => Nat.toDigits 10 n.toNat
    | none => [c]
  else [c]

/-- A text with the decimal digits of its value for each letter that has one. -/
def substituteText (bindings : Bindings) (text : List Char) : List Char :=
  text.flatMap (valueText bindings)

/-- A tree with its value for each letter that has one. -/
def Expr.substitute (bindings : Bindings) : Expr → Expr
  | literal value => literal value
  | parameter letter =>
    match bindings.get? letter with
    | some n => literal n.toNat
    | none => parameter letter
  | binary op lhs rhs => binary op (lhs.substitute bindings) (rhs.substitute bindings)

section
variable {bindings : Bindings}

theorem valueText_of_bound {c : Char} {n : UInt32} (hlower : c.isLower = true)
    (hn : bindings.get? c = some n) : valueText bindings c = Nat.toDigits 10 n.toNat := by
  rw [valueText, if_pos hlower, hn]

theorem valueText_of_not_lower {c : Char} (h : c.isLower = false) : valueText bindings c = [c] := by
  rw [valueText, h, if_neg Bool.false_ne_true]

@[simp] theorem valueText_operation (op : Operation) : valueText bindings op.char = [op.char] :=
  valueText_of_not_lower (isLower_eq_false_of_mem_punctuation op.char_mem_punctuation)

@[simp] theorem substituteText_nil : substituteText bindings [] = [] := rfl

theorem substituteText_cons (c : Char) (text : List Char) :
    substituteText bindings (c :: text) = valueText bindings c ++ substituteText bindings text :=
  List.flatMap_cons

theorem substituteText_append (text text' : List Char) :
    substituteText bindings (text ++ text') =
      substituteText bindings text ++ substituteText bindings text' :=
  List.flatMap_append

/-- Digits stay as they are. -/
theorem substituteText_digits {ds : List Char} (h : ∀ d ∈ ds, d.isDigit = true) :
    substituteText bindings ds = ds := by
  induction ds with
  | nil => rfl
  | cons d ds ih =>
    obtain ⟨hd, hds⟩ := List.forall_mem_cons.1 h
    rw [substituteText_cons, valueText_of_not_lower (isLower_eq_false_of_isDigit hd), ih hds]
    rfl

/-- An operation between two texts. -/
theorem substituteText_operation (op : Operation) (cs ds : List Char) :
    substituteText bindings (cs ++ op.char :: ds) =
      substituteText bindings cs ++ op.char :: substituteText bindings ds := by
  rw [substituteText_append, substituteText_cons, valueText_operation, List.singleton_append]

/-- Parentheses around a text. -/
theorem substituteText_group (cs : List Char) :
    substituteText bindings ('(' :: (cs ++ [')'])) = '(' :: (substituteText bindings cs ++ [')']) := by
  have hopen : valueText bindings '(' = ['('] := valueText_of_not_lower (by decide)
  have hclose : substituteText bindings [')'] = [')'] := by
    rw [substituteText_cons, valueText_of_not_lower (by decide), substituteText_nil,
      List.append_nil]
  rw [substituteText_cons, hopen, substituteText_append, hclose, List.singleton_append]

/-! ## Trees of the text with the values -/

/-- All letters of a text have values. -/
def Bindings.Covers (bindings : Bindings) (text : List Char) : Prop :=
  ∀ c ∈ text, c.isLower = true → (bindings.get? c).isSome

theorem Bindings.covers_append {text text' : List Char} :
    bindings.Covers (text ++ text') ↔ bindings.Covers text ∧ bindings.Covers text' :=
  List.forall_mem_append

theorem Bindings.covers_cons {c : Char} {text : List Char} :
    bindings.Covers (c :: text) ↔ (c.isLower = true → (bindings.get? c).isSome) ∧ bindings.Covers text :=
  List.forall_mem_cons

/-- The letters of a tree are letters of its text. -/
theorem Denotes.over {p : Phrase} {cs : List Char} {e : Expr} (h : Denotes p cs e) :
    e.Over fun c => c ∈ cs ∧ c.isLower = true := by
  induction h with
  | number _ _ => trivial
  | parameter hlower => exact ⟨List.mem_singleton_self _, hlower⟩
  | group _ ih =>
    exact ih.mono fun c hc => ⟨List.mem_cons_of_mem _ (List.mem_append_left _ hc.1), hc.2⟩
  | primary _ ih | product _ ih => exact ih
  | scale _ _ _ iha ihb | shift _ _ _ iha ihb =>
    exact ⟨iha.mono fun c hc => ⟨List.mem_append_left _ hc.1, hc.2⟩,
      ihb.mono fun c hc => ⟨List.mem_append_right _ (List.mem_cons_of_mem _ hc.1), hc.2⟩⟩

/-- **The text with the values is a phrase with the values in its tree.** -/
theorem Denotes.substitute {p : Phrase} {cs : List Char} {e : Expr} (h : Denotes p cs e)
    (hcovers : bindings.Covers cs) :
    Denotes p (substituteText bindings cs) (e.substitute bindings) := by
  induction h with
  | number hne hdigits =>
    rw [substituteText_digits hdigits]
    exact .number hne hdigits
  | @parameter c hlower =>
    -- a value is a number by itself, and the number that it is
    obtain ⟨n, hn⟩ := Option.isSome_iff_exists.1 (hcovers c (List.mem_singleton_self c) hlower)
    have hnumber : Denotes .primary (Nat.toDigits 10 n.toNat) (.literal n.toNat) := by
      have hdigits := Denotes.number (Nat.toDigits_ne_nil (n := n.toNat) (b := 10))
        fun d hd => Nat.isDigit_of_mem_toDigits (by decide) (by decide) hd
      rwa [Nat.ofDigitChars_ten_toDigits] at hdigits
    rw [substituteText_cons, valueText_of_bound hlower hn, substituteText_nil, List.append_nil,
      Expr.substitute, hn]
    exact hnumber
  | group _ ih =>
    rw [substituteText_group]
    exact .group (ih (Bindings.covers_append.1 (Bindings.covers_cons.1 hcovers).2).1)
  | primary _ ih => exact .primary (ih hcovers)
  | product _ ih => exact .product (ih hcovers)
  | scale _ htight _ iha ihb =>
    obtain ⟨hleft, hright⟩ := Bindings.covers_append.1 hcovers
    rw [substituteText_operation]
    exact .scale (iha hleft) htight (ihb (Bindings.covers_cons.1 hright).2)
  | shift _ hloose _ iha ihb =>
    obtain ⟨hleft, hright⟩ := Bindings.covers_append.1 hcovers
    rw [substituteText_operation]
    exact .shift (iha hleft) hloose (ihb (Bindings.covers_cons.1 hright).2)

/-! ## Values of the tree with the values -/

/-- A count fits as a number and is the same fraction either way. -/
theorem ofInt?_toNat (n : UInt32) : Fraction.ofInt? n.toNat = some (.ofCount n) :=
  Fraction.ofInt?_eq_some_iff.2 ⟨rfl, rfl⟩

/-- **A tree with its values in it needs no bindings.** -/
theorem Expr.eval_substitute {e : Expr} (h : e.Over fun c => (bindings.get? c).isSome)
    (others : Bindings) : (e.substitute bindings).eval others = e.eval bindings := by
  induction e with
  | literal value => rfl
  | parameter c =>
    obtain ⟨n, hn⟩ := Option.isSome_iff_exists.1 h
    simp only [Expr.substitute, Expr.eval, hn, ofInt?_toNat]
  | binary op lhs rhs ihl ihr =>
    rw [Expr.substitute, Expr.eval, Expr.eval, ihl h.1, ihr h.2]

/-- Only the letters of a tree matter to its value. -/
theorem Expr.eval_congr {others : Bindings} {e : Expr}
    (h : e.Over fun c => others.get? c = bindings.get? c) : e.eval others = e.eval bindings := by
  induction e with
  | literal value => rfl
  | parameter c => rw [Expr.eval, Expr.eval, h]
  | binary op lhs rhs ihl ihr => rw [Expr.eval, Expr.eval, ihl h.1, ihr h.2]

/-! ## The allow-list -/

/-- Once the values are written, no letter has to be declared. -/
theorem allows_substituteText {ps : Parameters} {text : List Char}
    (hallowed : ∀ c ∈ text, ps.allows c = true) (hcovers : bindings.Covers text) :
    ∀ d ∈ substituteText bindings text, Parameters.empty.allows d = true := by
  intro d hd
  obtain ⟨c, hc, hd⟩ := List.mem_flatMap.1 hd
  cases hlower : c.isLower with
  | true =>
    obtain ⟨n, hn⟩ := Option.isSome_iff_exists.1 (hcovers c hc hlower)
    rw [valueText_of_bound hlower hn] at hd
    have hdigit : d.isDigit = true := Nat.isDigit_of_mem_toDigits (by decide) (by decide) hd
    rw [Parameters.allows, hdigit]
    rfl
  | false =>
    rw [valueText_of_not_lower hlower] at hd
    obtain rfl := List.mem_singleton.1 hd
    obtain hdigit | hmark | hletter := allows_iff_lists.1 (hallowed d hc)
    · exact allows_iff_lists.2 (Or.inl hdigit)
    · exact allows_iff_lists.2 (Or.inr (Or.inl hmark))
    · rw [ps.lower d hletter] at hlower
      cases hlower

/-! ## Texts -/

/-- What an evaluator makes of an allowed phrase. -/
theorem evaluate_of_denotes {ev : Evaluator} {raw : String} {e : Expr}
    (hallowed : ∀ c ∈ raw.toList, ev.parameters.allows c = true) (h : Denotes .sum raw.toList e) :
    ev.validate raw = .ok () ∧ ev.evaluate raw = e.eval ev.bindings := by
  have hcheck : ev.parameters.check raw.toList = .ok () :=
    check_eq_ok_iff.2 ⟨(derives_of_denotes h).ne_nil, hallowed⟩
  have hread : ev.read raw = .ok e := read_eq_ok_iff_denotes.2 ⟨hcheck, h⟩
  refine ⟨validate_eq_ok_iff.2 ⟨e, hread⟩, ?_⟩
  rw [Evaluator.evaluate, hread]
  rfl

/-- **Binding a letter is the same as writing its value.**  A valid text whose letters all have values
evaluates, with any result, as the text in which the decimal digits of its value stand for each
letter, and this text is valid and evaluates without any parameters.  Letters that are not in the text
make no difference, whether they are declared and whatever they are bound to. -/
theorem evaluate_eq_evaluate_substituted {ev : Evaluator} {raw : String}
    (hvalid : ev.validate raw = .ok ()) (hcovers : ev.bindings.Covers raw.toList) :
    let plain := Evaluator.ofParameters .empty
    let substituted := String.ofList (substituteText ev.bindings raw.toList)
    plain.validate substituted = .ok () ∧ plain.evaluate substituted = ev.evaluate raw ∧
      ∀ ev' : Evaluator, (∀ c ∈ raw.toList, c.isLower = true →
          c ∈ ev'.parameters.letters ∧ ev'.bindings.get? c = ev.bindings.get? c) →
        ev'.evaluate raw = ev.evaluate raw := by
  intro plain substituted
  obtain ⟨e, hread⟩ := validate_eq_ok_iff.1 hvalid
  obtain ⟨hcheck, hdenotes⟩ := read_eq_ok_iff_denotes.1 hread
  have hallowed := allows_of_check hcheck
  obtain ⟨-, hevaluate⟩ := evaluate_of_denotes hallowed hdenotes
  have hover : e.Over fun c => (ev.bindings.get? c).isSome :=
    hdenotes.over.mono fun c hc => hcovers c hc.1 hc.2
  have htext : substituted.toList = substituteText ev.bindings raw.toList := String.toList_ofList
  have hplainAllowed : ∀ c ∈ substituted.toList, plain.parameters.allows c = true := by
    rw [htext]
    exact allows_substituteText hallowed hcovers
  have hplainDenotes : Denotes .sum substituted.toList (e.substitute ev.bindings) := by
    rw [htext]
    exact hdenotes.substitute hcovers
  obtain ⟨hplain, hvalue⟩ := evaluate_of_denotes hplainAllowed hplainDenotes
  refine ⟨hplain, ?_, fun ev' hagree => ?_⟩
  · rw [hvalue, hevaluate, Expr.eval_substitute hover]
  · have hallowed' : ∀ c ∈ raw.toList, ev'.parameters.allows c = true := by
      intro c hc
      obtain hdigit | hmark | hletter := allows_iff_lists.1 (hallowed c hc)
      · exact allows_iff_lists.2 (Or.inl hdigit)
      · exact allows_iff_lists.2 (Or.inr (Or.inl hmark))
      · exact allows_iff_lists.2 (Or.inr (Or.inr (hagree c hc (ev.parameters.lower c hletter)).1))
    obtain ⟨-, hevaluate'⟩ := evaluate_of_denotes hallowed' hdenotes
    rw [hevaluate', hevaluate]
    exact Expr.eval_congr (hdenotes.over.mono fun c hc => (hagree c hc.1 hc.2).2)

/-- The greatest value beside a small one, and a letter that does not occur. -/
theorem evaluate_eq_evaluate_substituted_greatest :
    let ev := twoParameters.bind 'n' 4294967295
    let raw := "n/(m+1)-n*2"
    let plain := Evaluator.ofParameters .empty
    ev.validate raw = .ok () ∧ ev.bindings.Covers raw.toList ∧
      plain.validate "4294967295/(4+1)-4294967295*2" = .ok () ∧
      plain.evaluate "4294967295/(4+1)-4294967295*2" = ev.evaluate raw ∧
      (({ ev with parameters := ev.parameters.insert 'k' }).bind 'k' 7).evaluate raw =
        ev.evaluate raw := by
  intro ev raw plain
  have hvalid : ev.validate raw = .ok () := by decide +kernel
  have hcovers : ev.bindings.Covers raw.toList :=
    List.all_iff_forall_prop.1 (by decide +kernel)
  obtain ⟨hplain, hvalue, hothers⟩ := evaluate_eq_evaluate_substituted hvalid hcovers
  have htext : String.ofList (substituteText ev.bindings raw.toList) =
      "4294967295/(4+1)-4294967295*2" := by decide +kernel
  rw [htext] at hplain hvalue
  exact ⟨hvalid, hcovers, hplain, hvalue,
    hothers _ (List.all_iff_forall_prop.1 (by decide +kernel))⟩

end

end Rendezvous.Arithmetic
