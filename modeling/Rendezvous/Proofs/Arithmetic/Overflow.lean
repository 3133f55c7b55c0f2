import Mathlib.Data.Rat.Lemmas
import Rendezvous.Proofs.Arithmetic.Evaluation

/-!
# When evaluation overflows

A rational number fits when its two parts in lowest terms are signed 64-bit integers, and these are
the numbers that fractions can be (`exists_toRat_iff`).  Sums, products and quotients overflow exactly
when their exact value does not fit; a difference also does when the right operand has the least
numerator, whose opposite does not fit, even if the difference would (`apply_eq_overflow_iff`).  So an
expression overflows where its evaluation reaches a part whose value does not fit, or a subtraction of
such an operand (`evaluate_eq_overflow_iff`), and the latter alone is enough
(`not_exceeds_leastOperand`).
-/

namespace Rendezvous.Arithmetic

/-! ## Numbers that fit -/

/-- The numerator and the denominator in lowest terms are signed 64-bit integers. -/
def Fits (q : ℚ) : Prop :=
  Fits64 q.num ∧ Fits64 q.den

instance (q : ℚ) : Decidable (Fits q) :=
  inferInstanceAs (Decidable (_ ∧ _))

namespace Fraction

theorem num_toRat (f : Fraction) : f.toRat.num = f.numer :=
  Rat.num_div_eq_of_coprime (b := f.denom) (by exact_mod_cast f.denom_pos) f.coprime

theorem den_toRat (f : Fraction) : f.toRat.den = f.denom := by
  have hden : (f.toRat.den : Int) = f.denom :=
    Rat.den_div_eq_of_coprime (b := f.denom) (by exact_mod_cast f.denom_pos) f.coprime
  exact_mod_cast hden

theorem fits_toRat (f : Fraction) : Fits f.toRat := by
  have hdenom := f.denom_fits
  rw [Fits, num_toRat, den_toRat]
  exact ⟨f.numer_fits, by omega, by omega⟩

/-- The fractions are the rational numbers that fit. -/
theorem exists_toRat_iff {q : ℚ} : (∃ f : Fraction, f.toRat = q) ↔ Fits q := by
  constructor
  · rintro ⟨f, rfl⟩
    exact f.fits_toRat
  · rintro ⟨hnum, -, hden⟩
    exact ⟨⟨q.num, q.den, q.den_pos, q.reduced, hnum, by omega⟩, Rat.num_div_den q⟩

/-! ## One operation -/

theorem reduce_cases (n : Int) (d : Nat) (hd : 0 < d) :
    (∃ f, reduce n d hd = .ok f) ∨ reduce n d hd = .error .overflow := by
  unfold reduce
  split
  · split
    · exact Or.inl ⟨_, rfl⟩
    · exact Or.inr rfl
  · exact Or.inr rfl

/-- **Reduction overflows exactly when the value does not fit.** -/
theorem reduce_eq_overflow_iff {n : Int} {d : Nat} {hd : 0 < d} :
    reduce n d hd = .error .overflow ↔ ¬ Fits (n / d) := by
  have hne : (d : ℚ) ≠ 0 := Nat.cast_ne_zero.2 hd.ne'
  have hok : (∃ f, reduce n d hd = .ok f) ↔ Fits (n / d) := by
    rw [← exists_toRat_iff]
    refine exists_congr fun f => ?_
    rw [reduce_eq_ok_iff, toRat, div_eq_div_iff f.denom_ne_zero hne, eq_comm]
    exact_mod_cast Iff.rfl
  rw [← hok]
  constructor
  · rintro herror ⟨f, hf⟩
    cases herror.symm.trans hf
  · exact (reduce_cases n d hd).resolve_left

/-- The numerator whose opposite does not fit. -/
def IsLeast (f : Fraction) : Prop :=
  f.numer = -9223372036854775808

theorem add_eq_overflow_iff {a b : Fraction} :
    a.add b = .error .overflow ↔ ¬ Fits (a.toRat + b.toRat) := by
  rw [add, reduce_eq_overflow_iff, crossSum_div]

theorem neg?_eq_none_iff {a : Fraction} : a.neg? = none ↔ a.IsLeast := by
  have hfits := a.numer_fits
  unfold neg? IsLeast
  rw [dite_eq_right_iff]
  simp only [reduceCtorEq, imp_false, Fits64] at hfits ⊢
  omega

theorem sub_eq_overflow_iff {a b : Fraction} :
    a.sub b = .error .overflow ↔ b.IsLeast ∨ ¬ Fits (a.toRat - b.toRat) := by
  rw [← neg?_eq_none_iff]
  unfold sub
  cases hneg : b.neg? with
  | none => exact iff_of_true rfl (Or.inl rfl)
  | some c =>
    dsimp only
    rw [add_eq_overflow_iff, toRat_of_neg? hneg, ← sub_eq_add_neg]
    exact (or_iff_right nofun).symm

theorem mul_eq_overflow_iff {a b : Fraction} :
    a.mul b = .error .overflow ↔ ¬ Fits (a.toRat * b.toRat) := by
  rw [mul, reduce_eq_overflow_iff, product_div]

theorem div_eq_overflow_iff {a b : Fraction} :
    a.div b = .error .overflow ↔ b.toRat ≠ 0 ∧ ¬ Fits (a.toRat / b.toRat) := by
  rw [ne_eq, toRat_eq_zero_iff]
  unfold div
  split
  · next hzero => exact iff_of_false (by simp) fun h => h.1 hzero
  · next hne => rw [reduce_eq_overflow_iff, quotient_div hne, and_iff_right hne]

end Fraction

/-- **When an operation overflows**: when its exact result does not fit, and when it subtracts the
least numerator. -/
theorem apply_eq_overflow_iff {op : Operation} {a b : Fraction} :
    op.apply a b = .error .overflow ↔
      (∃ q, op.rational? a.toRat b.toRat = some q ∧ ¬ Fits q) ∨ op = .subtract ∧ b.IsLeast := by
  cases op with
  | add => simp [Operation.apply, Operation.rational?, Fraction.add_eq_overflow_iff]
  | subtract =>
    simp [Operation.apply, Operation.rational?, Fraction.sub_eq_overflow_iff, or_comm]
  | multiply => simp [Operation.apply, Operation.rational?, Fraction.mul_eq_overflow_iff]
  | divide =>
    rw [Operation.apply, Fraction.div_eq_overflow_iff, Operation.rational?]
    by_cases hzero : b.toRat = 0 <;> simp [hzero]

/-- An operation with an exact result overflows, if it does not give that result. -/
theorem apply_of_rational? {op : Operation} {a b : Fraction} {q : ℚ}
    (h : op.rational? a.toRat b.toRat = some q) :
    (∃ f, op.apply a b = .ok f) ∨ op.apply a b = .error .overflow := by
  have hd : 0 < a.denom * b.denom := Nat.mul_pos a.denom_pos b.denom_pos
  cases op with
  | add => exact Fraction.reduce_cases _ _ hd
  | subtract =>
    rw [Operation.apply, Fraction.sub]
    split
    · exact Fraction.reduce_cases _ _ _
    · exact Or.inr rfl
  | multiply => exact Fraction.reduce_cases _ _ hd
  | divide =>
    rw [Operation.apply, Fraction.div]
    split
    · next hzero =>
      rw [Operation.rational?, if_pos (Fraction.toRat_eq_zero_iff.2 hzero)] at h
      cases h
    · exact Fraction.reduce_cases _ _ _

/-! ## Parts of an expression -/

namespace Expr

/-- An expression and all expressions in it. -/
def parts : Expr → List Expr
  | literal value => [literal value]
  | parameter letter => [parameter letter]
  | binary op lhs rhs => binary op lhs rhs :: (lhs.parts ++ rhs.parts)

theorem mem_parts_self (e : Expr) : e ∈ e.parts := by
  cases e <;> simp [parts]

variable (bindings : Bindings)

/-- An integer literal above the greatest 64-bit integer. -/
def IsLargeLiteral (x : Expr) : Prop :=
  ∃ value, x = .literal value ∧ 2 ^ 63 - 1 < value

/-- The exact value does not fit. -/
def Exceeds (x : Expr) : Prop :=
  ∃ q ∈ x.rational? bindings, ¬ Fits q

instance (x : Expr) : Decidable (x.Exceeds bindings) :=
  inferInstanceAs (Decidable (∃ q ∈ x.rational? bindings, ¬ Fits q))

/-- A part of the expression is a literal that is too large, or its exact value does not fit. -/
def HasLargePart (e : Expr) : Prop :=
  ∃ x ∈ e.parts, x.IsLargeLiteral ∨ x.Exceeds bindings

/-- A difference of two values, the right one with the least numerator. -/
def SubtractsLeast (x : Expr) : Prop :=
  ∃ lhs rhs a b, x = .binary .subtract lhs rhs ∧ Evaluates bindings lhs (.ok a) ∧
    Evaluates bindings rhs (.ok b) ∧ b.IsLeast

/-- `Reaches bindings e x`: evaluating `e` comes to its part `x`, since what stands to the left of it
has a value. -/
inductive Reaches : Expr → Expr → Prop
  | here {e : Expr} : Reaches e e
  | left {op : Operation} {lhs rhs x : Expr} : Reaches lhs x → Reaches (.binary op lhs rhs) x
  | right {op : Operation} {lhs rhs x : Expr} {a : Fraction} : Evaluates bindings lhs (.ok a) →
      Reaches rhs x → Reaches (.binary op lhs rhs) x

end Expr

section
variable {bindings : Bindings} {e x : Expr}

theorem Expr.Reaches.mem_parts (h : Expr.Reaches bindings e x) : x ∈ e.parts := by
  induction h with
  | here => exact Expr.mem_parts_self _
  | left _ ih => simp [Expr.parts, ih]
  | right _ _ ih => simp [Expr.parts, ih]

/-- A literal that is too large is its own value. -/
theorem exceeds_literal_iff {value : Nat} :
    (Expr.literal value).Exceeds bindings ↔ 2 ^ 63 - 1 < value := by
  simp [Expr.Exceeds, Expr.rational?, Fits, Fits64]
  omega

/-- Evaluating an expression with an exact value overflows, if it does not give that value. -/
theorem eval_of_rational? {q : ℚ} (h : e.rational? bindings = some q) :
    (∃ f, e.eval bindings = .ok f) ∨ e.eval bindings = .error .overflow := by
  induction e generalizing q with
  | literal value =>
    rw [Expr.eval]
    split
    · exact Or.inl ⟨_, rfl⟩
    · exact Or.inr rfl
  | parameter letter =>
    obtain ⟨n, hn, -⟩ := Option.map_eq_some_iff.1 h
    rw [Expr.eval, hn]
    exact Or.inl ⟨_, rfl⟩
  | binary op lhs rhs ihl ihr =>
    obtain ⟨y, hy, hrest⟩ := Option.bind_eq_some_iff.1 h
    obtain ⟨z, hz, happly⟩ := Option.bind_eq_some_iff.1 hrest
    rw [Expr.eval]
    obtain ⟨a, ha⟩ | ha := ihl hy
    · obtain ⟨b, hb⟩ | hb := ihr hz
      · obtain rfl := Option.some.inj ((eval_eq_iff_evaluates.1 ha).rational?_eq.symm.trans hy)
        obtain rfl := Option.some.inj ((eval_eq_iff_evaluates.1 hb).rational?_eq.symm.trans hz)
        rw [ha, hb]
        exact apply_of_rational? happly
      · rw [ha, hb]
        exact Or.inr rfl
    · rw [ha]
      exact Or.inr rfl

/-- A value that does not fit is not reached. -/
theorem eval_of_exceeds (h : e.Exceeds bindings) : e.eval bindings = .error .overflow := by
  obtain ⟨q, hq, hnot⟩ := h
  obtain ⟨f, hf⟩ | hoverflow := eval_of_rational? hq
  · obtain rfl := Option.some.inj ((eval_eq_iff_evaluates.1 hf).rational?_eq.symm.trans hq)
    exact absurd f.fits_toRat hnot
  · exact hoverflow

theorem eval_of_subtractsLeast (h : e.SubtractsLeast bindings) :
    e.eval bindings = .error .overflow := by
  obtain ⟨lhs, rhs, a, b, rfl, ha, hb, hleast⟩ := h
  rw [← (apply_eq_overflow_iff (a := a)).2 (Or.inr ⟨rfl, hleast⟩)]
  exact (Evaluates.apply ha hb).eval_eq

/-- What overflows where evaluation comes to it makes the whole overflow. -/
theorem Expr.Reaches.eval_eq (h : Expr.Reaches bindings e x)
    (hx : x.eval bindings = .error .overflow) : e.eval bindings = .error .overflow := by
  induction h with
  | here => exact hx
  | left _ ih => exact (Evaluates.left (eval_eq_iff_evaluates.1 (ih hx))).eval_eq
  | right hl _ ih => exact (Evaluates.right hl (eval_eq_iff_evaluates.1 (ih hx))).eval_eq

/-- Where an expression overflows. -/
theorem Evaluates.exists_reaches (h : Evaluates bindings e (.error .overflow)) :
    ∃ x, Expr.Reaches bindings e x ∧ (x.Exceeds bindings ∨ x.SubtractsLeast bindings) := by
  generalize hr : (.error .overflow : Except ExpressionError Fraction) = r at h
  induction h with
  | tooLarge hlarge => exact ⟨_, .here, Or.inl (exceeds_literal_iff.2 hlarge)⟩
  | left _ ih =>
    obtain ⟨x, hx, hcause⟩ := ih hr
    exact ⟨x, .left hx, hcause⟩
  | right hl _ _ ih =>
    obtain ⟨x, hx, hcause⟩ := ih hr
    exact ⟨x, .right hl hx, hcause⟩
  | @apply op lhs rhs a b hl hr' _ _ =>
    -- both operands have values, so the operation itself overflows
    refine ⟨_, .here, ?_⟩
    obtain ⟨q, hq, hnot⟩ | ⟨rfl, hleast⟩ := apply_eq_overflow_iff.1 hr.symm
    · left
      refine ⟨q, ?_, hnot⟩
      rw [Option.mem_def, Expr.rational?, hl.rational?_eq, hr'.rational?_eq]
      exact hq
    · exact Or.inr ⟨lhs, rhs, a, b, rfl, hl, hr', hleast⟩
  | literal | bound | unbound => cases hr

/-- **An expression overflows where evaluation comes to a part that does not fit, or to a difference
whose right operand has the least numerator.** -/
theorem eval_eq_overflow_iff : e.eval bindings = .error .overflow ↔
    ∃ x, Expr.Reaches bindings e x ∧ (x.Exceeds bindings ∨ x.SubtractsLeast bindings) := by
  constructor
  · exact fun h => (eval_eq_iff_evaluates.1 h).exists_reaches
  · rintro ⟨x, hx, hexceeds | hleast⟩
    · exact hx.eval_eq (eval_of_exceeds hexceeds)
    · exact hx.eval_eq (eval_of_subtractsLeast hleast)

theorem hasLargePart_iff : e.HasLargePart bindings ↔ ∃ x ∈ e.parts, x.Exceeds bindings := by
  refine exists_congr fun x => and_congr_right fun _ => or_iff_right_of_imp ?_
  rintro ⟨value, rfl, hlarge⟩
  exact exceeds_literal_iff.2 hlarge

end

/-! ## Texts -/

/-- **When a validated text overflows.**  Evaluation reports an overflow exactly when it comes to a
part whose exact value does not fit, or to the subtraction of an operand with the least numerator.
That every overflow is due to a part that does not fit is true exactly of the expressions that have
such a part whenever they subtract such an operand. -/
theorem evaluate_eq_overflow_iff {ev : Evaluator} {raw : String} (h : ev.validate raw = .ok ()) :
    ∃ e, (∀ e', Denotes .sum raw.toList e' ↔ e' = e) ∧
      (ev.evaluate raw = .error .overflow ↔ ∃ x, Expr.Reaches ev.bindings e x ∧
        (x.Exceeds ev.bindings ∨ x.SubtractsLeast ev.bindings)) ∧
      ((ev.evaluate raw = .error .overflow → e.HasLargePart ev.bindings) ↔
        ((∃ x, Expr.Reaches ev.bindings e x ∧ x.SubtractsLeast ev.bindings) →
          e.HasLargePart ev.bindings)) := by
  obtain ⟨e, hdenotes, hevaluate⟩ := exists_tree_of_validate h
  refine ⟨e, hdenotes, ?_, ?_⟩
  · rw [hevaluate, eval_eq_overflow_iff]
  · rw [hevaluate, eval_eq_overflow_iff]
    constructor
    · rintro hlarge ⟨x, hx, hleast⟩
      exact hlarge ⟨x, hx, Or.inr hleast⟩
    · rintro hlarge ⟨x, hx, hexceeds | hleast⟩
      · exact ⟨x, hx.mem_parts, Or.inr hexceeds⟩
      · exact hlarge ⟨x, hx, hleast⟩

theorem evaluate_eq_overflow_iff_largeSum :
    let raw := "m+(9223372036854775807-n)"
    twoParameters.validate raw = .ok () ∧ twoParameters.evaluate raw = .error .overflow ∧
      ∃ e, (∀ e', Denotes .sum raw.toList e' ↔ e' = e) ∧
        ∃ x, Expr.Reaches twoParameters.bindings e x ∧
          (x.Exceeds twoParameters.bindings ∨ x.SubtractsLeast twoParameters.bindings) := by
  intro raw
  have hvalid : twoParameters.validate raw = .ok () := by decide +kernel
  have hoverflow : twoParameters.evaluate raw = .error .overflow := by decide +kernel
  obtain ⟨e, hdenotes, hcause, -⟩ := evaluate_eq_overflow_iff hvalid
  exact ⟨hvalid, hoverflow, e, hdenotes, hcause.1 hoverflow⟩

/-- The difference between `-1` and the least 64-bit integer. -/
def leastOperand : Expr :=
  .binary .subtract (.binary .subtract (.literal 0) (.literal 1))
    (.binary .subtract (.binary .subtract (.literal 0) (.literal 9223372036854775807)) (.literal 1))

/-- That difference is the greatest 64-bit integer, and all parts of the expression fit; yet it
overflows. -/
theorem not_hasLargePart_leastOperand :
    let ev := Evaluator.ofParameters .empty
    let raw := "0-1-(0-9223372036854775807-1)"
    ¬ (ev.validate raw = .ok () → ev.evaluate raw = .error .overflow →
      ∃ e, Denotes .sum raw.toList e ∧ e.HasLargePart ev.bindings) := by
  intro ev raw h
  obtain ⟨e, hdenotes, hlarge⟩ := h (by decide +kernel) (by decide +kernel)
  have hread : Expr.read raw.toList = .ok leastOperand := by decide +kernel
  obtain rfl := Except.ok.inj (hread.symm.trans (read_of_denotes hdenotes))
  exact absurd (hasLargePart_iff.1 hlarge) (by decide +kernel)

end Rendezvous.Arithmetic
