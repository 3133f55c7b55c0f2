import Rendezvous.Arithmetic.Error

/-!
# Exact fractions of 64-bit numbers

A `Fraction` is a reduced quotient of a signed 64-bit numerator and a positive signed 64-bit
denominator, so two fractions are equal exactly when they are the same rational number.  Every
operation computes the exact result, reduces it, and fails with `overflow` when the reduced result
has a part outside the 64-bit range.  Subtraction adds the negated right operand, so it also fails
when that negation does not exist: for the least numerator.
-/

namespace Rendezvous.Arithmetic

/-- An integer that a signed 64-bit word can hold. -/
def Fits64 (z : Int) : Prop :=
  -9223372036854775808 ≤ z ∧ z < 9223372036854775808

-- Decided on the absolute value: comparing integers subtracts them, and a subtraction from the bound
-- would be unfolded one by one wherever `z` is not a literal.
instance (z : Int) : Decidable (Fits64 z) :=
  decidable_of_iff (z.natAbs < 9223372036854775808 ∨ z = -9223372036854775808) (by
    unfold Fits64
    omega)

/-- A rational number in lowest terms whose two parts fit in 64 bits. -/
structure Fraction where
  numer : Int
  denom : Nat
  denom_pos : 0 < denom
  coprime : numer.natAbs.Coprime denom
  numer_fits : Fits64 numer
  denom_fits : denom < 9223372036854775808
  deriving DecidableEq

namespace Fraction

/-! ## Reduction -/

theorem coprime_reduced {n : Int} {d : Nat} (hd : 0 < d) :
    (n / (n.natAbs.gcd d : Nat)).natAbs.Coprime (d / n.natAbs.gcd d) := by
  have hg : 0 < n.natAbs.gcd d := Nat.gcd_pos_of_pos_right _ hd
  have hdvd : ((n.natAbs.gcd d : Nat) : Int) ∣ n :=
    Int.ofNat_dvd_left.2 (Nat.gcd_dvd_left _ _)
  rw [Int.natAbs_ediv_of_dvd hdvd, Int.natAbs_natCast, Nat.Coprime,
    Nat.gcd_div (Nat.gcd_dvd_left _ _) (Nat.gcd_dvd_right _ _), Nat.div_self hg]

/-- The fraction `n / d` in lowest terms, if its parts fit. -/
def reduce (n : Int) (d : Nat) (hd : 0 < d) : Except ExpressionError Fraction :=
  if hn : Fits64 (n / (n.natAbs.gcd d : Nat)) then
    if hb : d / n.natAbs.gcd d < 9223372036854775808 then
      .ok {
        numer := n / (n.natAbs.gcd d : Nat)
        denom := d / n.natAbs.gcd d
        denom_pos := Nat.div_pos (Nat.le_of_dvd hd (Nat.gcd_dvd_right _ _))
          (Nat.gcd_pos_of_pos_right _ hd)
        coprime := coprime_reduced hd
        numer_fits := hn
        denom_fits := hb }
    else .error .overflow
  else .error .overflow

/-! ## Building fractions -/

/-- An integer as a fraction. -/
def ofInt (z : Int) (h : Fits64 z) : Fraction where
  numer := z
  denom := 1
  denom_pos := Nat.one_pos
  coprime := Nat.coprime_one_right _
  numer_fits := h
  denom_fits := by decide

/-- An integer as a fraction, if it fits. -/
def ofInt? (z : Int) : Option Fraction :=
  if h : Fits64 z then some (ofInt z h) else none

/-- A 32-bit count as a fraction. -/
def ofCount (n : UInt32) : Fraction :=
  ofInt n.toNat ⟨by omega, by have := n.toNat_lt; omega⟩

def zero : Fraction := ofInt 0 (by decide)

instance : Inhabited Fraction := ⟨zero⟩

/-- The quotient of two integers, if the divisor is not zero and the reduced parts fit. -/
def ofRatio? (n d : Int) : Option Fraction :=
  if h : d = 0 then none
  else (reduce (n * d.sign) d.natAbs (Int.natAbs_pos.2 h)).toOption

/-! ## Reading fractions -/

/-- The value as an integer, if it is one. -/
def toInt? (f : Fraction) : Option Int :=
  if f.denom = 1 then some f.numer else none

/-- The value as a natural number, if it is one. -/
def toNat? (f : Fraction) : Option Nat :=
  f.toInt?.bind fun z => if 0 ≤ z then some z.toNat else none

/-- An integral value as its numerator, any other as `numerator/denominator`. -/
def text (f : Fraction) : String :=
  if f.denom = 1 then toString f.numer else toString f.numer ++ "/" ++ toString f.denom

/-! ## Arithmetic -/

/-- The numerator of a sum over the product of the denominators. -/
def crossSum (a b : Fraction) : Int :=
  a.numer * b.denom + b.numer * a.denom

def add (a b : Fraction) : Except ExpressionError Fraction :=
  reduce (crossSum a b) (a.denom * b.denom) (Nat.mul_pos a.denom_pos b.denom_pos)

/-- The opposite, unless the numerator is the least 64-bit integer. -/
def neg? (a : Fraction) : Option Fraction :=
  if h : Fits64 (-a.numer) then
    some { a with
      numer := -a.numer
      coprime := by simpa using a.coprime
      numer_fits := h }
  else none

def sub (a b : Fraction) : Except ExpressionError Fraction :=
  match b.neg? with
  | some c => a.add c
  | none => .error .overflow

def mul (a b : Fraction) : Except ExpressionError Fraction :=
  reduce (a.numer * b.numer) (a.denom * b.denom) (Nat.mul_pos a.denom_pos b.denom_pos)

def div (a b : Fraction) : Except ExpressionError Fraction :=
  if h : b.numer = 0 then .error .divisionByZero
  else
    reduce (a.numer * b.denom * b.numer.sign) (a.denom * b.numer.natAbs)
      (Nat.mul_pos a.denom_pos (Int.natAbs_pos.2 h))

end Fraction

end Rendezvous.Arithmetic
