import Mathlib.Algebra.Field.Rat
import Mathlib.Tactic.FieldSimp
import Rendezvous.Proofs.Arithmetic.Reading
import Rendezvous.Proofs.Arithmetic.Reduction

/-!
# Evaluation is exact

The value of a tree, step by step (`Evaluates`) and as a rational number (`Expr.rational?`).
Evaluating computes the former (`eval_eq_iff_evaluates`), and a fraction that it gives is the latter
(`Evaluates.rational?_eq`): each operation on fractions is the operation on rational numbers, cut off
where the result does not fit (`rational?_of_apply`).  Together with the trees that the grammar gives
to texts this says what every validated text evaluates to (`evaluate_of_validate`).
-/

namespace Rendezvous.Arithmetic

/-! ## Fractions as rational numbers -/

namespace Fraction

/-- The rational number that a fraction is. -/
def toRat (f : Fraction) : ℚ :=
  f.numer / f.denom

theorem denom_ne_zero (f : Fraction) : (f.denom : ℚ) ≠ 0 :=
  Nat.cast_ne_zero.2 f.denom_pos.ne'

theorem toRat_of_reduce {n : Int} {d : Nat} {hd : 0 < d} {f : Fraction}
    (h : reduce n d hd = .ok f) : f.toRat = n / d := by
  have hcross : (n : ℚ) * f.denom = f.numer * d := by exact_mod_cast reduce_eq_ok_iff.1 h
  have hne : (d : ℚ) ≠ 0 := Nat.cast_ne_zero.2 hd.ne'
  rw [toRat, div_eq_div_iff f.denom_ne_zero hne, hcross]

theorem crossSum_div (a b : Fraction) :
    (crossSum a b : ℚ) / (a.denom * b.denom : Nat) = a.toRat + b.toRat := by
  have ha := a.denom_ne_zero
  have hb := b.denom_ne_zero
  rw [crossSum, toRat, toRat]
  push_cast
  field_simp

theorem toRat_of_add {a b f : Fraction} (h : a.add b = .ok f) : f.toRat = a.toRat + b.toRat := by
  rw [toRat_of_reduce h, crossSum_div]

theorem toRat_of_neg? {a f : Fraction} (h : a.neg? = some f) : f.toRat = -a.toRat := by
  unfold neg? at h
  split at h
  · cases h
    rw [toRat, toRat, Int.cast_neg, neg_div]
  · cases h

theorem toRat_of_sub {a b f : Fraction} (h : a.sub b = .ok f) : f.toRat = a.toRat - b.toRat := by
  unfold sub at h
  split at h
  · next c hc => rw [toRat_of_add h, toRat_of_neg? hc, sub_eq_add_neg]
  · cases h

theorem product_div (a b : Fraction) :
    ((a.numer * b.numer : Int) : ℚ) / (a.denom * b.denom : Nat) = a.toRat * b.toRat := by
  rw [toRat, toRat, div_mul_div_comm]
  push_cast
  rfl

theorem toRat_of_mul {a b f : Fraction} (h : a.mul b = .ok f) : f.toRat = a.toRat * b.toRat := by
  rw [toRat_of_reduce h, product_div]

theorem toRat_eq_zero_iff {f : Fraction} : f.toRat = 0 ↔ f.numer = 0 := by
  rw [toRat, div_eq_zero_iff, or_iff_left f.denom_ne_zero, Int.cast_eq_zero]

theorem cast_natAbs (z : Int) : ((z.natAbs : Nat) : ℚ) = z.sign * z := by
  rw [← Int.cast_mul, Int.sign_mul_self, Int.cast_natCast]

theorem quotient_div {a b : Fraction} (hb : b.numer ≠ 0) :
    ((a.numer * b.denom * b.numer.sign : Int) : ℚ) / (a.denom * b.numer.natAbs : Nat) =
      a.toRat / b.toRat := by
  have hn : (b.numer : ℚ) ≠ 0 := Int.cast_ne_zero.2 hb
  have hs : (b.numer.sign : ℚ) ≠ 0 := Int.cast_ne_zero.2 fun h => hb (Int.sign_eq_zero_iff_zero.1 h)
  have had := a.denom_ne_zero
  have hbd := b.denom_ne_zero
  rw [toRat, toRat]
  rw [Nat.cast_mul, cast_natAbs]
  push_cast
  field_simp

theorem toRat_of_div {a b f : Fraction} (h : a.div b = .ok f) :
    b.toRat ≠ 0 ∧ f.toRat = a.toRat / b.toRat := by
  unfold div at h
  split at h
  · cases h
  · next hb =>
    refine ⟨fun hzero => hb (toRat_eq_zero_iff.1 hzero), ?_⟩
    rw [toRat_of_reduce h, quotient_div hb]

theorem toRat_ofCount (n : UInt32) : (ofCount n).toRat = n.toNat := by
  rw [toRat, numer_ofCount, denom_ofCount, Nat.cast_one, div_one, Int.cast_natCast]

/-- The natural numbers without a fraction. -/
theorem ofInt?_natCast_eq_none_iff {n : Nat} : ofInt? n = none ↔ 2 ^ 63 - 1 < n := by
  unfold ofInt?
  rw [dite_eq_right_iff]
  simp only [reduceCtorEq, imp_false, Fits64]
  omega

end Fraction

/-! ## Trees as rational numbers -/

/-- The operation on rational numbers. -/
def Operation.rational? : Operation → ℚ → ℚ → Option ℚ
  | add, a, b => some (a + b)
  | subtract, a, b => some (a - b)
  | multiply, a, b => some (a * b)
  | divide, a, b => if b = 0 then none else some (a / b)

/-- The rational number that a tree denotes, if its parameters have values and nothing is divided by
zero. -/
def Expr.rational? (bindings : Bindings) : Expr → Option ℚ
  | literal value => some value
  | parameter letter => (bindings.get? letter).map fun n => (n.toNat : ℚ)
  | binary op lhs rhs =>
    (lhs.rational? bindings).bind fun a => (rhs.rational? bindings).bind fun b => op.rational? a b

/-- The operations on fractions are those on rational numbers. -/
theorem rational?_of_apply {op : Operation} {a b f : Fraction} (h : op.apply a b = .ok f) :
    op.rational? a.toRat b.toRat = some f.toRat := by
  cases op with
  | add => exact congrArg some (Fraction.toRat_of_add h).symm
  | subtract => exact congrArg some (Fraction.toRat_of_sub h).symm
  | multiply => exact congrArg some (Fraction.toRat_of_mul h).symm
  | divide =>
    obtain ⟨hne, hdiv⟩ := Fraction.toRat_of_div h
    rw [Operation.rational?, if_neg hne, hdiv]

/-! ## Evaluation, step by step -/

/-- `Evaluates bindings e r`: evaluating the tree `e` gives the fraction or the error `r`. -/
inductive Evaluates (bindings : Bindings) : Expr → Except ExpressionError Fraction → Prop
  | literal {value : Nat} {f : Fraction} : f.numer = value → f.denom = 1 →
      Evaluates bindings (.literal value) (.ok f)
  | tooLarge {value : Nat} : 2 ^ 63 - 1 < value →
      Evaluates bindings (.literal value) (.error .overflow)
  | bound {letter : Char} {n : UInt32} : bindings.get? letter = some n →
      Evaluates bindings (.parameter letter) (.ok (.ofCount n))
  | unbound {letter : Char} : bindings.get? letter = none →
      Evaluates bindings (.parameter letter) (.error (.unboundParameter letter))
  | left {op : Operation} {lhs rhs : Expr} {err : ExpressionError} :
      Evaluates bindings lhs (.error err) → Evaluates bindings (.binary op lhs rhs) (.error err)
  | right {op : Operation} {lhs rhs : Expr} {a : Fraction} {err : ExpressionError} :
      Evaluates bindings lhs (.ok a) → Evaluates bindings rhs (.error err) →
      Evaluates bindings (.binary op lhs rhs) (.error err)
  | apply {op : Operation} {lhs rhs : Expr} {a b : Fraction} : Evaluates bindings lhs (.ok a) →
      Evaluates bindings rhs (.ok b) → Evaluates bindings (.binary op lhs rhs) (op.apply a b)

section
variable {bindings : Bindings}

/-- Evaluating a tree follows the steps. -/
theorem evaluates_eval (e : Expr) : Evaluates bindings e (e.eval bindings) := by
  induction e with
  | literal value =>
    rw [Expr.eval]
    split
    · next f hf =>
      obtain ⟨hnumer, hdenom⟩ := Fraction.ofInt?_eq_some_iff.1 hf
      exact .literal hnumer hdenom
    · next hf => exact .tooLarge (Fraction.ofInt?_natCast_eq_none_iff.1 hf)
  | parameter letter =>
    rw [Expr.eval]
    split
    · next n hn => exact .bound hn
    · next hn => exact .unbound hn
  | binary op lhs rhs ihl ihr =>
    rw [Expr.eval]
    cases hl : lhs.eval bindings with
    | error err => exact .left (hl ▸ ihl)
    | ok a =>
      cases hr : rhs.eval bindings with
      | error err => exact .right (hl ▸ ihl) (hr ▸ ihr)
      | ok b => exact .apply (hl ▸ ihl) (hr ▸ ihr)

/-- The steps lead to one result. -/
theorem Evaluates.eval_eq {e : Expr} {r : Except ExpressionError Fraction}
    (h : Evaluates bindings e r) : e.eval bindings = r := by
  induction h with
  | literal hnumer hdenom =>
    rw [Expr.eval, Fraction.ofInt?_eq_some_iff.2 ⟨hnumer, hdenom⟩]
  | tooLarge hlarge => rw [Expr.eval, Fraction.ofInt?_natCast_eq_none_iff.2 hlarge]
  | bound hn => rw [Expr.eval, hn]
  | unbound hn => rw [Expr.eval, hn]
  | left _ ihl =>
    rw [Expr.eval, ihl]
    rfl
  | right _ _ ihl ihr =>
    rw [Expr.eval, ihl, ihr]
    rfl
  | apply _ _ ihl ihr =>
    rw [Expr.eval, ihl, ihr]
    rfl

/-- **Evaluation takes the steps, and no others.** -/
theorem eval_eq_iff_evaluates {e : Expr} {r : Except ExpressionError Fraction} :
    e.eval bindings = r ↔ Evaluates bindings e r :=
  ⟨fun h => h ▸ evaluates_eval e, Evaluates.eval_eq⟩

/-- **A value is exact.** -/
theorem Evaluates.rational?_eq {e : Expr} {f : Fraction} (h : Evaluates bindings e (.ok f)) :
    e.rational? bindings = some f.toRat := by
  generalize hr : Except.ok f = r at h
  induction h generalizing f with
  | literal hnumer hdenom =>
    obtain rfl := Except.ok.inj hr
    rw [Expr.rational?, Fraction.toRat, hnumer, hdenom, Nat.cast_one, div_one, Int.cast_natCast]
  | bound hn =>
    obtain rfl := Except.ok.inj hr
    rw [Expr.rational?, hn, Option.map_some, Fraction.toRat_ofCount]
  | apply _ _ ihl ihr =>
    rw [Expr.rational?, ihl rfl, ihr rfl]
    exact rational?_of_apply hr.symm
  | tooLarge | unbound | left | right => cases hr

end

/-! ## Texts -/

/-- Evaluating a validated text is evaluating the one tree that it has. -/
theorem exists_tree_of_validate {ev : Evaluator} {raw : String} (h : ev.validate raw = .ok ()) :
    ∃ e, (∀ e', Denotes .sum raw.toList e' ↔ e' = e) ∧ ev.evaluate raw = e.eval ev.bindings := by
  obtain ⟨e, hread⟩ := validate_eq_ok_iff.1 h
  have hdenotes := (read_eq_ok_iff_denotes.1 hread).2
  refine ⟨e, fun e' => ⟨fun h' => h'.unique hdenotes, ?_⟩, ?_⟩
  · rintro rfl
    exact hdenotes
  · rw [Evaluator.evaluate, hread]
    rfl

/-- **What a validated text evaluates to.** -/
theorem evaluate_of_validate {ev : Evaluator} {raw : String} (h : ev.validate raw = .ok ()) :
    ∃ e, (∀ e', Denotes .sum raw.toList e' ↔ e' = e) ∧
      (∀ r, ev.evaluate raw = r ↔ Evaluates ev.bindings e r) ∧
      ∀ f, ev.evaluate raw = .ok f → e.rational? ev.bindings = some f.toRat := by
  obtain ⟨e, hdenotes, hevaluate⟩ := exists_tree_of_validate h
  refine ⟨e, hdenotes, fun r => ?_, fun f hf => ?_⟩
  · rw [hevaluate, eval_eq_iff_evaluates]
  · exact (eval_eq_iff_evaluates.1 (hevaluate.symm.trans hf)).rational?_eq

/-- Values for two parameters. -/
def twoParameters : Evaluator :=
  ((Evaluator.ofParameters (.ofList ['m', 'n'])).bind 'm' 4).bind 'n' 3

theorem evaluate_of_validate_twoParameters :
    twoParameters.validate "8/m/2-n*(m+1)" = .ok () ∧
      twoParameters.evaluate "8/m/2-n*(m+1)" = .ok (.ofInt (-14) (by decide)) ∧
      ∃ e, (∀ e', Denotes .sum "8/m/2-n*(m+1)".toList e' ↔ e' = e) ∧
        (∀ r, twoParameters.evaluate "8/m/2-n*(m+1)" = r ↔
          Evaluates twoParameters.bindings e r) ∧
        ∀ f, twoParameters.evaluate "8/m/2-n*(m+1)" = .ok f →
          e.rational? twoParameters.bindings = some f.toRat := by
  have hvalid : twoParameters.validate "8/m/2-n*(m+1)" = .ok () := by rfl
  have hvalue : twoParameters.evaluate "8/m/2-n*(m+1)" = .ok (.ofInt (-14) (by decide)) := by rfl
  exact ⟨hvalid, hvalue, evaluate_of_validate hvalid⟩

end Rendezvous.Arithmetic
