/-!
# Double-precision numbers

The finite double-precision numbers, as a sign, a mantissa below `2 ^ 53` and a binary exponent, and
the operations that reading a decimal needs.  Every operation computes the exact result as a ratio
and rounds it once, to the nearest number and to the even mantissa on a tie.
-/

namespace Rendezvous.Decimal

/-- The number `mantissa * 2 ^ exponent`, negated if `isNegative`.  Zero has the least exponent, and
every other number the least exponent with which its mantissa stays below `2 ^ 53`. -/
structure Binary64 where
  isNegative : Bool
  mantissa : Nat
  exponent : Int
  deriving DecidableEq, Repr, Inhabited

namespace Binary64

/-- The least exponent. -/
def minExponent : Int := -1074

/-- The greatest exponent. -/
def maxExponent : Int := 971

/-- A power of two. -/
def twoTo (k : Nat) : Nat := Nat.pow 2 k

/-- A power of ten. -/
def tenTo (k : Nat) : Nat := Nat.pow 10 k

/-- The ratio `num / den` over `2 ^ e`. -/
def scaleDown (num den : Nat) (e : Int) : Nat × Nat :=
  if 0 ≤ e then (num, den * twoTo e.toNat) else (num * twoTo (-e).toNat, den)

/-- The quotient rounded to the nearest natural number, ties to even. -/
def roundDiv (num den : Nat) : Nat :=
  let q := num / den
  let r := num % den
  if den < 2 * r || (2 * r == den && q % 2 == 1) then q + 1 else q

/-- The exponent with which the mantissa of `num / den` has 53 bits, or the least exponent. -/
def exponentFor (num den : Nat) : Int :=
  let e : Int := (num.log2 : Int) - den.log2 - 52
  let r := scaleDown num den e
  max minExponent (if r.1 / r.2 < twoTo 52 then e - 1 else e)

/-- The number nearest to the ratio, if it is not beyond the greatest. -/
def ofRatio? (isNegative : Bool) (num den : Nat) : Option Binary64 :=
  if num = 0 then some ⟨isNegative, 0, minExponent⟩
  else
    let e := exponentFor num den
    let r := scaleDown num den e
    let m := roundDiv r.1 r.2
    if m < twoTo 53 then if e ≤ maxExponent then some ⟨isNegative, m, e⟩ else none
    else if e + 1 ≤ maxExponent then some ⟨isNegative, twoTo 52, e + 1⟩ else none

/-- Zero. -/
def zero (isNegative : Bool) : Binary64 := ⟨isNegative, 0, minExponent⟩

/-- The absolute value as a ratio. -/
def ratio (x : Binary64) : Nat × Nat :=
  if 0 ≤ x.exponent then (x.mantissa * twoTo x.exponent.toNat, 1)
  else (x.mantissa, twoTo (-x.exponent).toNat)

/-- The product, with the sign of the left factor. -/
def mul? (x y : Binary64) : Option Binary64 :=
  let a := x.ratio
  let b := y.ratio
  ofRatio? x.isNegative (a.1 * b.1) (a.2 * b.2)

/-- The quotient, with the sign of the dividend. -/
def div? (x y : Binary64) : Option Binary64 :=
  let a := x.ratio
  let b := y.ratio
  ofRatio? x.isNegative (a.1 * b.2) (a.2 * b.1)

/-- The number nearest to a power of ten. -/
def powerOfTen (k : Nat) : Binary64 :=
  (ofRatio? false (tenTo k) 1).getD (zero false)

/-- The greatest power of ten that is divided or multiplied by at once. -/
def maxPower : Nat := 308

/-- A number divided by `10 ^ maxPower` as often as said. -/
def shrink? (x : Binary64) : Nat → Option Binary64
  | 0 => some x
  | times + 1 =>
    if x.mantissa = 0 then some x
    else
      match x.div? (powerOfTen maxPower) with
      | some y => shrink? y times
      | none => none

/-- A number times a power of ten: by one product, or by one quotient for each `10 ^ maxPower` and
one for the rest.  There is none beyond the greatest number. -/
def scaleByTen? (x : Binary64) (exponent : Int) : Option Binary64 :=
  let k := exponent.natAbs
  if 0 ≤ exponent then
    if k ≤ maxPower then x.mul? (powerOfTen k) else if x.mantissa = 0 then some x else none
  else
    let times := (k - 1) / maxPower
    (x.shrink? times).bind fun y => y.div? (powerOfTen (k - maxPower * times))

end Binary64

end Rendezvous.Decimal
