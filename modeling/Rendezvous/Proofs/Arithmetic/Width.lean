import Rendezvous.Proofs.Arithmetic.Overflow

/-!
# Fractions in machine words

A machine holds a fraction as two signed 64-bit words and works out products, sums and opposites in
128 bits.  Here the operations are written in such words (`Words`), and every intermediate result is
tested (`wide?`).  Nothing ties the two words together, and with any two words a sum of cross products
can overflow; but on the words of fractions no intermediate result does, and what comes out is the
result of the operation on fractions (`onWords?_words`).  The denominators decide it: below `2 ^ 63`
they leave the sum of the cross products `2 ^ 64` short of the bound (`natAbs_crossSum_le`).
-/

namespace Rendezvous.Arithmetic

/-! ## Steps in 128 bits -/

/-- An integer that a signed 128-bit word can hold, from `-2 ^ 127` to below `2 ^ 127`. -/
def Fits128 (z : Int) : Prop :=
  -170141183460469231731687303715884105728 ≤ z ∧ z < 170141183460469231731687303715884105728

instance (z : Int) : Decidable (Fits128 z) :=
  inferInstanceAs (Decidable (_ ∧ _))

/-- An intermediate result, if it does not overflow. -/
def wide? (z : Int) : Option Int :=
  if Fits128 z then some z else none

theorem wide?_eq_some {z : Int} (h : z.natAbs < 170141183460469231731687303715884105728) :
    wide? z = some z := by
  have hfits : Fits128 z := ⟨by omega, by omega⟩
  exact if_pos hfits

/-- The greatest common divisor, by remainders. -/
def euclid (a b : Nat) : Nat :=
  if b = 0 then a else euclid b (a % b)
  termination_by b
  decreasing_by exact Nat.mod_lt a (Nat.pos_of_ne_zero ‹_›)

theorem euclid_eq_gcd (a b : Nat) : euclid a b = a.gcd b := by
  fun_induction euclid a b with
  | case1 a => exact (Nat.gcd_zero_right a).symm
  | case2 a b _ ih => rw [ih, Nat.gcd_comm, ← Nat.gcd_rec, Nat.gcd_comm]

/-! ## Operations on words -/

/-- The numerator and the denominator of a fraction, or any two words. -/
structure Words where
  numer : Int64
  denom : Int64
  deriving DecidableEq

namespace Words

/-- A wide integer in a 64-bit word. -/
def narrow (z : Int) : Except ExpressionError Int64 :=
  if Fits64 z then .ok (.ofInt z) else .error .overflow

/-- Lowest terms.  The divisor comes from unsigned words, so it is tested as well. -/
def lowest (n d : Int) : Except ExpressionError Words := do
  let divisor : Int := max (euclid n.natAbs d.natAbs) 1
  if Fits128 divisor then
    let numer ← narrow (n.tdiv divisor)
    let denom ← narrow (d.tdiv divisor)
    return ⟨numer, denom⟩
  else throw .overflow

/-- Lowest terms with the sign in the numerator. -/
def reduce? (n d : Int) : Option (Except ExpressionError Words) :=
  if d < 0 then do
    let n' ← wide? (-n)
    let d' ← wide? (-d)
    return lowest n' d'
  else some (lowest n d)

def ofInt (z : Int64) : Words :=
  ⟨z, 1⟩

/-- The quotient of two words, if there is one that fits. -/
def ofRatio? (n d : Int64) : Option (Option Words) :=
  if d = 0 then some none else (reduce? n.toInt d.toInt).map Except.toOption

def add? (v w : Words) : Option (Except ExpressionError Words) := do
  let left ← wide? (v.numer.toInt * w.denom.toInt)
  let right ← wide? (w.numer.toInt * v.denom.toInt)
  let numer ← wide? (left + right)
  let denom ← wide? (v.denom.toInt * w.denom.toInt)
  reduce? numer denom

/-- The opposite of the right operand is taken in 64 bits. -/
def sub? (v w : Words) : Option (Except ExpressionError Words) :=
  match narrow (-w.numer.toInt) with
  | .ok numer => v.add? ⟨numer, w.denom⟩
  | .error err => some (.error err)

def mul? (v w : Words) : Option (Except ExpressionError Words) := do
  let numer ← wide? (v.numer.toInt * w.numer.toInt)
  let denom ← wide? (v.denom.toInt * w.denom.toInt)
  reduce? numer denom

def div? (v w : Words) : Option (Except ExpressionError Words) :=
  if w.numer = 0 then some (.error .divisionByZero)
  else do
    let numer ← wide? (v.numer.toInt * w.denom.toInt)
    let denom ← wide? (v.denom.toInt * w.numer.toInt)
    reduce? numer denom

/-- The rational number that two words stand for. -/
def toRat (w : Words) : ℚ :=
  w.numer.toInt / w.denom.toInt

end Words

/-- The operation on words, or nothing where an intermediate result overflows. -/
def Operation.onWords? : Operation → Words → Words → Option (Except ExpressionError Words)
  | add => Words.add?
  | subtract => Words.sub?
  | multiply => Words.mul?
  | divide => Words.div?

/-! ## The words of fractions -/

theorem fits64_toInt (z : Int64) : Fits64 z.toInt := by
  have hlow := z.le_toInt
  have hhigh := z.toInt_lt
  unfold Fits64
  omega

theorem fits64_natCast {k : Nat} : Fits64 k ↔ k < 9223372036854775808 := by
  unfold Fits64
  omega

theorem toInt_ofInt_of_fits {z : Int} (h : Fits64 z) : (Int64.ofInt z).toInt = z := by
  obtain ⟨hlow, hhigh⟩ := h
  exact Int64.toInt_ofInt_of_le (by omega) (by omega)

namespace Fraction

/-- The two parts of a fraction in machine words. -/
def words (f : Fraction) : Words :=
  ⟨.ofInt f.numer, .ofInt f.denom⟩

theorem fits64_denom (f : Fraction) : Fits64 f.denom :=
  fits64_natCast.2 f.denom_fits

@[simp] theorem numer_words (f : Fraction) : f.words.numer.toInt = f.numer :=
  toInt_ofInt_of_fits f.numer_fits

@[simp] theorem denom_words (f : Fraction) : f.words.denom.toInt = f.denom :=
  toInt_ofInt_of_fits f.fits64_denom

@[simp] theorem toRat_words (f : Fraction) : f.words.toRat = f.toRat := by
  rw [Words.toRat, numer_words, denom_words, Int.cast_natCast, toRat]

theorem words_inj {f g : Fraction} : f.words = g.words ↔ f = g := by
  constructor
  · intro h
    have hnumer := congrArg (fun w => w.numer.toInt) h
    have hdenom := congrArg (fun w => w.denom.toInt) h
    simp only [numer_words, denom_words] at hnumer hdenom
    exact eq_of_parts hnumer (by exact_mod_cast hdenom)
  · rintro rfl
    rfl

/-- Fractions are equal when they are the same rational number. -/
theorem toRat_inj {f g : Fraction} : f.toRat = g.toRat ↔ f = g := by
  constructor
  · intro h
    apply eq_of_parts
    · rw [← num_toRat, ← num_toRat, h]
    · rw [← den_toRat, ← den_toRat, h]
  · rintro rfl
    rfl

theorem numer_words_eq_iff {f : Fraction} {z : Int64} :
    f.words.numer = z ↔ f.numer = z.toInt := by
  rw [← Int64.toInt_inj, numer_words]

end Fraction

/-! ## The operations agree -/

namespace Words

/-- Reducing in words is reducing, if the denominator is positive and fits. -/
theorem lowest_eq {n : Int} {d : Nat} (hd : 0 < d)
    (hbound : d < 170141183460469231731687303715884105728) :
    lowest n d = (Fraction.reduce n d hd).map Fraction.words := by
  have hpos : 0 < n.natAbs.gcd d := Nat.gcd_pos_of_pos_right _ hd
  have hle : n.natAbs.gcd d ≤ d := Nat.le_of_dvd hd (Nat.gcd_dvd_right _ _)
  have hdivisor : max (euclid n.natAbs (d : Int).natAbs : Int) 1 = (n.natAbs.gcd d : Nat) := by
    rw [euclid_eq_gcd, Int.natAbs_natCast]
    omega
  have hfits : Fits128 (n.natAbs.gcd d : Nat) := ⟨by omega, by omega⟩
  have hnumer : n.tdiv (n.natAbs.gcd d : Nat) = n / (n.natAbs.gcd d : Nat) :=
    Int.tdiv_eq_ediv_of_dvd (Int.ofNat_dvd_left.2 (Nat.gcd_dvd_left _ _))
  have hdenom : (d : Int).tdiv (n.natAbs.gcd d : Nat) = (d / n.natAbs.gcd d : Nat) :=
    Int.ofNat_tdiv d (n.natAbs.gcd d)
  unfold lowest Fraction.reduce
  simp only [hdivisor, if_pos hfits, hnumer, hdenom]
  by_cases hn : Fits64 (n / (n.natAbs.gcd d : Nat))
  · by_cases hb : d / n.natAbs.gcd d < 9223372036854775808
    · have hb' : Fits64 (d / n.natAbs.gcd d : Nat) := fits64_natCast.2 hb
      rw [dif_pos hn, dif_pos hb, narrow, if_pos hn, narrow, if_pos hb']
      rfl
    · have hb' : ¬ Fits64 (d / n.natAbs.gcd d : Nat) := fun h => hb (fits64_natCast.1 h)
      rw [dif_pos hn, dif_neg hb, narrow, if_pos hn, narrow, if_neg hb']
      rfl
  · rw [dif_neg hn, narrow, if_neg hn]
    rfl

/-- The sign of the denominator goes to the numerator, and neither opposite overflows. -/
theorem reduce?_eq {n d n' : Int} {d' : Nat} {hd' : 0 < d'} (hn' : n * d.sign = n')
    (habs : d.natAbs = d') (hn : n.natAbs < 170141183460469231731687303715884105728)
    (hd : d.natAbs < 170141183460469231731687303715884105728) :
    reduce? n d = some ((Fraction.reduce n' d' hd').map Fraction.words) := by
  subst hn' habs
  rw [← lowest_eq hd' hd, reduce?]
  by_cases hneg : d < 0
  · have hsign : n * d.sign = -n := by rw [Int.sign_eq_neg_one_of_neg hneg, mul_neg_one]
    have hnatAbs : (d.natAbs : Int) = -d := Int.ofNat_natAbs_of_nonpos hneg.le
    rw [if_pos hneg, wide?_eq_some (by rwa [Int.natAbs_neg]),
      wide?_eq_some (by rwa [Int.natAbs_neg]), hsign, hnatAbs]
    rfl
  · have hsign : n * d.sign = n := by rw [Int.sign_eq_one_of_pos (by omega), mul_one]
    have hnatAbs : (d.natAbs : Int) = d := Int.natAbs_of_nonneg (by omega)
    rw [if_neg hneg, hsign, hnatAbs]

end Words

namespace Fraction

/-! ### Bounds -/

theorem natAbs_numer_le (f : Fraction) : f.numer.natAbs ≤ 9223372036854775808 := by
  have hnumer := f.numer_fits
  unfold Fits64 at hnumer
  omega

/-- A numerator times a denominator. -/
theorem natAbs_numer_mul_denom_le (f g : Fraction) :
    (f.numer * g.denom).natAbs ≤ 85070591730234615856620279821087277056 := by
  have hdenom : g.denom ≤ 9223372036854775807 := Nat.le_of_lt_succ g.denom_fits
  rw [Int.natAbs_mul, Int.natAbs_natCast]
  exact Nat.mul_le_mul f.natAbs_numer_le hdenom

/-- The sum of the cross products stays below the bound by `2 ^ 64` only. -/
theorem natAbs_crossSum_le (f g : Fraction) :
    (crossSum f g).natAbs ≤ 170141183460469231713240559642174554112 := by
  have hleft := natAbs_numer_mul_denom_le f g
  have hright := natAbs_numer_mul_denom_le g f
  unfold crossSum
  omega

theorem natAbs_denom_mul_denom_lt (f g : Fraction) :
    ((f.denom : Int) * g.denom).natAbs < 85070591730234615865843651857942052864 := by
  have hf : f.denom ≤ 9223372036854775807 := Nat.le_of_lt_succ f.denom_fits
  have hg : g.denom ≤ 9223372036854775807 := Nat.le_of_lt_succ g.denom_fits
  rw [Int.natAbs_mul, Int.natAbs_natCast, Int.natAbs_natCast]
  exact Nat.lt_of_le_of_lt (Nat.mul_le_mul hf hg) (by decide)

theorem natAbs_numer_mul_numer_le (f g : Fraction) :
    (f.numer * g.numer).natAbs ≤ 85070591730234615865843651857942052864 := by
  rw [Int.natAbs_mul]
  exact Nat.mul_le_mul f.natAbs_numer_le g.natAbs_numer_le

/-! ### One operation at a time -/

theorem sign_denom_mul_denom (f g : Fraction) : ((f.denom : Int) * g.denom).sign = 1 := by
  apply Int.sign_eq_one_of_pos
  exact_mod_cast Nat.mul_pos f.denom_pos g.denom_pos

theorem natAbs_denom_mul_denom (f g : Fraction) :
    ((f.denom : Int) * g.denom).natAbs = f.denom * g.denom := by
  rw [Int.natAbs_mul, Int.natAbs_natCast, Int.natAbs_natCast]

theorem add?_words (f g : Fraction) : f.words.add? g.words = some ((f.add g).map words) := by
  have hleft := natAbs_numer_mul_denom_le f g
  have hright := natAbs_numer_mul_denom_le g f
  have hsum : (f.numer * g.denom + g.numer * f.denom).natAbs ≤ _ := natAbs_crossSum_le f g
  have hdenom := natAbs_denom_mul_denom_lt f g
  unfold Words.add?
  simp only [numer_words, denom_words, Option.bind_eq_bind]
  rw [wide?_eq_some (by omega), Option.bind_some, wide?_eq_some (by omega), Option.bind_some,
    wide?_eq_some (by omega), Option.bind_some, wide?_eq_some (by omega), Option.bind_some]
  refine Words.reduce?_eq ?_ (natAbs_denom_mul_denom f g) (by omega) (by omega)
  rw [sign_denom_mul_denom, mul_one, crossSum]

theorem sub?_words (f g : Fraction) : f.words.sub? g.words = some ((f.sub g).map words) := by
  unfold Words.sub? Fraction.sub Fraction.neg?
  rw [numer_words, Words.narrow]
  by_cases h : Fits64 (-g.numer)
  · rw [if_pos h, dif_pos h]
    -- the opposite is a fraction again, with a coprimality that `neg?` has proved
    exact add?_words f { g with numer := -g.numer, coprime := _, numer_fits := h }
  · rw [if_neg h, dif_neg h]
    rfl

theorem mul?_words (f g : Fraction) : f.words.mul? g.words = some ((f.mul g).map words) := by
  have hnumer := natAbs_numer_mul_numer_le f g
  have hdenom := natAbs_denom_mul_denom_lt f g
  unfold Words.mul?
  simp only [numer_words, denom_words, Option.bind_eq_bind]
  rw [wide?_eq_some (by omega), Option.bind_some, wide?_eq_some (by omega), Option.bind_some]
  refine Words.reduce?_eq ?_ (natAbs_denom_mul_denom f g) (by omega) (by omega)
  rw [sign_denom_mul_denom, mul_one]

theorem div?_words (f g : Fraction) : f.words.div? g.words = some ((f.div g).map words) := by
  have hnumer := natAbs_numer_mul_denom_le f g
  have hdenom := natAbs_numer_mul_denom_le g f
  rw [mul_comm] at hdenom
  unfold Words.div? Fraction.div
  by_cases h : g.numer = 0
  · have hzero : g.words.numer = 0 := numer_words_eq_iff.2 h
    rw [if_pos hzero, dif_pos h]
    rfl
  · have hzero : g.words.numer ≠ 0 := fun hw => h (numer_words_eq_iff.1 hw)
    rw [if_neg hzero, dif_neg h]
    simp only [numer_words, denom_words, Option.bind_eq_bind]
    rw [wide?_eq_some (by omega), Option.bind_some, wide?_eq_some (by omega), Option.bind_some]
    refine Words.reduce?_eq ?_ ?_ (by omega) (by omega)
    · have hsign : (f.denom : Int).sign = 1 := Int.sign_eq_one_of_pos (by exact_mod_cast f.denom_pos)
      rw [Int.sign_mul, hsign, one_mul]
    · rw [Int.natAbs_mul, Int.natAbs_natCast]

theorem ofRatio?_words (n d : Int64) :
    Words.ofRatio? n d = some ((Fraction.ofRatio? n.toInt d.toInt).map words) := by
  have hn := fits64_toInt n
  have hd := fits64_toInt d
  unfold Words.ofRatio? Fraction.ofRatio?
  by_cases h : d = 0
  · have hzero : d.toInt = 0 := by rw [h, Int64.toInt_zero]
    rw [if_pos h, dif_pos hzero]
    rfl
  · have hne : d.toInt ≠ 0 := fun hzero => h (Int64.toInt_inj.1 hzero)
    have hpos : 0 < d.toInt.natAbs := Int.natAbs_pos.2 hne
    unfold Fits64 at hn hd
    have hreduce : Words.reduce? n.toInt d.toInt =
        some ((reduce (n.toInt * d.toInt.sign) d.toInt.natAbs hpos).map words) :=
      Words.reduce?_eq rfl rfl (by omega) (by omega)
    rw [if_neg h, dif_neg hne, hreduce, Option.map_some]
    cases reduce (n.toInt * d.toInt.sign) d.toInt.natAbs hpos <;> rfl

end Fraction

/-- **The operations on words are those on fractions**, and no intermediate result overflows. -/
theorem onWords?_words (op : Operation) (f g : Fraction) :
    op.onWords? f.words g.words = some ((op.apply f g).map Fraction.words) := by
  cases op with
  | add => exact f.add?_words g
  | subtract => exact f.sub?_words g
  | multiply => exact f.mul?_words g
  | divide => exact f.div?_words g

/-- Two words that are no fraction: the cross products are `2 ^ 126` each. -/
example : Operation.add.onWords? ⟨Int64.minValue, Int64.minValue⟩
    ⟨Int64.minValue, Int64.minValue⟩ = none := by
  decide +kernel

end Rendezvous.Arithmetic
