import Rendezvous.Proofs.Arithmetic.Width

/-!
# Fractions are canonical and exact

A calculation in machine words starts from integers and quotients of integers and goes on with the
four operations (`Words.Obtained`).  Each step gives the words of a fraction
(`Words.Obtained.exists_words`): lowest terms with a positive denominator, in which equal words are
equal numbers.  So every operation gives the exact number, or says that it does not fit or that
nothing is divided by zero, and it gets there without an overflow in 128 bits (`words_are_exact`).
-/

namespace Rendezvous.Arithmetic

/-! ## Quotients and divisions by zero -/

namespace Fraction

theorem reduce_ne_divisionByZero {n : Int} {d : Nat} {hd : 0 < d} :
    reduce n d hd ≠ .error .divisionByZero := by
  obtain ⟨f, hf⟩ | hf := reduce_cases n d hd
  · simp [hf]
  · simp [hf]

/-- The sign may stand in either part. -/
theorem sign_div_natAbs {n d : Int} (hd : d ≠ 0) :
    ((n * d.sign : Int) : ℚ) / (d.natAbs : Nat) = n / d := by
  have hne : (d.sign : ℚ) ≠ 0 := Int.cast_ne_zero.2 fun h => hd (Int.sign_eq_zero_iff_zero.1 h)
  rw [cast_natAbs, Int.cast_mul, mul_comm (n : ℚ), mul_div_mul_left _ _ hne]

theorem toRat_of_ofRatio? {n d : Int} {f : Fraction} (h : ofRatio? n d = some f) :
    f.toRat = n / d := by
  unfold ofRatio? at h
  by_cases hd : d = 0
  · rw [dif_pos hd] at h
    cases h
  · rw [dif_neg hd] at h
    cases hr : reduce (n * d.sign) d.natAbs (Int.natAbs_pos.2 hd) with
    | error err => rw [hr] at h; cases h
    | ok g =>
      rw [hr] at h
      obtain rfl := Option.some.inj h
      rw [toRat_of_reduce hr, sign_div_natAbs hd]

/-- A quotient is refused if there is none or it does not fit. -/
theorem ofRatio?_eq_none_iff {n d : Int} : ofRatio? n d = none ↔ d = 0 ∨ ¬ Fits (n / d) := by
  unfold ofRatio?
  by_cases hd : d = 0
  · simp [hd]
  · have hpos : 0 < d.natAbs := Int.natAbs_pos.2 hd
    have hoverflow : reduce (n * d.sign) d.natAbs hpos = .error .overflow ↔ ¬ Fits (n / d) := by
      rw [reduce_eq_overflow_iff, sign_div_natAbs hd]
    rw [dif_neg hd, or_iff_right hd, ← hoverflow]
    obtain ⟨f, hf⟩ | hf := reduce_cases (n * d.sign) d.natAbs hpos
    · simp [hf, Except.toOption]
    · simp [hf, Except.toOption]

end Fraction

/-- Only a division by zero is reported as one. -/
theorem apply_eq_divisionByZero_iff {op : Operation} {f g : Fraction} :
    op.apply f g = .error .divisionByZero ↔ op = .divide ∧ g.toRat = 0 := by
  cases op with
  | add => simp [Operation.apply, Fraction.add, Fraction.reduce_ne_divisionByZero]
  | subtract =>
    rw [Operation.apply, Fraction.sub]
    split <;> simp [Fraction.add, Fraction.reduce_ne_divisionByZero]
  | multiply => simp [Operation.apply, Fraction.mul, Fraction.reduce_ne_divisionByZero]
  | divide =>
    rw [Operation.apply, Fraction.div, Fraction.toRat_eq_zero_iff]
    by_cases h : g.numer = 0
    · simp [h]
    · simp [h, Fraction.reduce_ne_divisionByZero]

/-! ## Calculations -/

namespace Words

/-- Lowest terms with a positive denominator. -/
structure IsCanonical (w : Words) : Prop where
  denom_pos : 0 < w.denom.toInt
  coprime : w.numer.toInt.natAbs.Coprime w.denom.toInt.natAbs

/-- `w.Obtained`: some calculation gives these words, starting from integers and quotients. -/
inductive Obtained : Words → Prop
  | ofInt (z : Int64) : Obtained (.ofInt z)
  | ofRatio {n d : Int64} {w : Words} : ofRatio? n d = some (some w) → Obtained w
  | operation {op : Operation} {v w x : Words} : Obtained v → Obtained w →
      op.onWords? v w = some (.ok x) → Obtained x

/-- The result of an operation is that of the operation on fractions.  As a value it is the exact
number; otherwise it says whether that does not fit or does not exist.  Subtraction also overflows at
the least numerator on its right, whose opposite does not fit. -/
structure IsExact (op : Operation) (v w : Words) (r : Except ExpressionError Words) : Prop where
  agrees : ∃ f g : Fraction, f.words = v ∧ g.words = w ∧ r = (op.apply f g).map Fraction.words
  value : ∀ x, r = .ok x → op.rational? v.toRat w.toRat = some x.toRat
  overflow : r = .error .overflow ↔
    (∃ q, op.rational? v.toRat w.toRat = some q ∧ ¬ Fits q) ∨
      op = .subtract ∧ w.numer = Int64.minValue
  divisionByZero : r = .error .divisionByZero ↔ op = .divide ∧ w.toRat = 0

end Words

theorem map_words_eq_ok_iff {r : Except ExpressionError Fraction} {w : Words} :
    r.map Fraction.words = .ok w ↔ ∃ f, r = .ok f ∧ f.words = w := by
  cases r <;> simp [Except.map]

theorem map_words_eq_error_iff {r : Except ExpressionError Fraction} {err : ExpressionError} :
    r.map Fraction.words = .error err ↔ r = .error err := by
  cases r <;> simp [Except.map]

theorem Fraction.words_ofInt (z : Int64) :
    (Fraction.ofInt z.toInt (fits64_toInt z)).words = Words.ofInt z := by
  simp [Fraction.words, Words.ofInt]

theorem Fraction.isCanonical_words (f : Fraction) : f.words.IsCanonical := by
  constructor
  · rw [denom_words]
    exact_mod_cast f.denom_pos
  · rw [numer_words, denom_words, Int.natAbs_natCast]
    exact f.coprime

/-- What a calculation gives are the words of a fraction. -/
theorem Words.Obtained.exists_words {w : Words} (h : w.Obtained) : ∃ f : Fraction, f.words = w := by
  induction h with
  | ofInt z => exact ⟨.ofInt z.toInt (fits64_toInt z), Fraction.words_ofInt z⟩
  | ofRatio h =>
    rw [Fraction.ofRatio?_words, Option.some.injEq] at h
    obtain ⟨f, -, hf⟩ := Option.map_eq_some_iff.1 h
    exact ⟨f, hf⟩
  | @operation op v w x _ _ h ihv ihw =>
    obtain ⟨f, rfl⟩ := ihv
    obtain ⟨g, rfl⟩ := ihw
    rw [onWords?_words, Option.some.injEq] at h
    obtain ⟨y, -, hy⟩ := map_words_eq_ok_iff.1 h
    exact ⟨y, hy⟩

theorem isExact_apply (op : Operation) (f g : Fraction) :
    Words.IsExact op f.words g.words ((op.apply f g).map Fraction.words) := by
  have hleast : g.words.numer = Int64.minValue ↔ g.IsLeast := by
    rw [Fraction.numer_words_eq_iff, Int64.toInt_minValue, Fraction.IsLeast]
    norm_num
  refine ⟨⟨f, g, rfl, rfl, rfl⟩, ?_, ?_, ?_⟩
  · intro x hx
    obtain ⟨y, hy, rfl⟩ := map_words_eq_ok_iff.1 hx
    rw [Fraction.toRat_words, Fraction.toRat_words, Fraction.toRat_words, rational?_of_apply hy]
  · rw [map_words_eq_error_iff, apply_eq_overflow_iff, hleast, Fraction.toRat_words,
      Fraction.toRat_words]
  · rw [map_words_eq_error_iff, apply_eq_divisionByZero_iff, Fraction.toRat_words]

/-- **Fractions in machine words are canonical and exact.**  Integers and quotients of 64-bit integers
are exact, and a quotient is refused only if there is none or it does not fit.  Whatever calculations
make of them is in lowest terms with a positive denominator, so that equal words are equal numbers;
and no operation on such words overflows in 128 bits on the way to its exact result. -/
theorem words_are_exact :
    (∀ z : Int64, (Fraction.ofInt? z.toInt).map Fraction.words = some (Words.ofInt z) ∧
        (Words.ofInt z).toRat = z.toInt) ∧
      (∀ n d : Int64, ∃ r, Words.ofRatio? n d = some r ∧
        r = (Fraction.ofRatio? n.toInt d.toInt).map Fraction.words ∧
        (∀ w, r = some w → w.toRat = n.toInt / d.toInt) ∧
        (r = none ↔ d = 0 ∨ ¬ Fits (n.toInt / d.toInt))) ∧
      ∀ v w : Words, v.Obtained → w.Obtained →
        v.IsCanonical ∧ (v = w ↔ v.toRat = w.toRat) ∧
          ∀ op : Operation, ∃ r, op.onWords? v w = some r ∧ Words.IsExact op v w r := by
  refine ⟨?_, ?_, ?_⟩
  · intro z
    constructor
    · rw [Fraction.ofInt?, dif_pos (fits64_toInt z), Option.map_some, Fraction.words_ofInt]
    · simp [Words.toRat, Words.ofInt]
  · intro n d
    refine ⟨_, Fraction.ofRatio?_words n d, rfl, ?_, ?_⟩
    · intro w hw
      obtain ⟨f, hf, rfl⟩ := Option.map_eq_some_iff.1 hw
      rw [Fraction.toRat_words, Fraction.toRat_of_ofRatio? hf]
    · rw [Option.map_eq_none_iff, Fraction.ofRatio?_eq_none_iff, ← Int64.toInt_inj, Int64.toInt_zero]
  · intro v w hv hw
    obtain ⟨f, rfl⟩ := hv.exists_words
    obtain ⟨g, rfl⟩ := hw.exists_words
    refine ⟨f.isCanonical_words, ?_, fun op => ⟨_, onWords?_words op f g, isExact_apply op f g⟩⟩
    rw [Fraction.words_inj, Fraction.toRat_words, Fraction.toRat_words, Fraction.toRat_inj]

/-- The least numerator over the greatest denominator, twice: the cross products come as close to the
bound as they can, and the sum does not fit. -/
theorem words_are_exact_extreme :
    let v : Words := ⟨Int64.minValue, Int64.maxValue⟩
    v.Obtained ∧ v.IsCanonical ∧ Operation.add.onWords? v v = some (.error .overflow) ∧
      ¬ Fits (v.toRat + v.toRat) := by
  intro v
  have hquotient : Words.ofRatio? Int64.minValue Int64.maxValue = some (some v) := by decide +kernel
  have hsum : Operation.add.onWords? v v = some (.error .overflow) := by decide +kernel
  have hv : v.Obtained := .ofRatio hquotient
  obtain ⟨-, -, hall⟩ := words_are_exact
  obtain ⟨hcanonical, -, hops⟩ := hall v v hv hv
  obtain ⟨r, hr, hexact⟩ := hops .add
  obtain rfl := Option.some.inj (hr.symm.trans hsum)
  obtain ⟨q, hq, hnot⟩ | ⟨hop, -⟩ := hexact.overflow.1 rfl
  · obtain rfl := Option.some.inj hq
    exact ⟨hv, hcanonical, hsum, hnot⟩
  · cases hop

end Rendezvous.Arithmetic
