import Rendezvous.Decimal.Binary64

/-!
# Shortest decimals of double-precision numbers

A number is written with the fewest significant digits that read back as the same number; of two such
decimals with equally many digits the nearer is taken, and the one with the even last digit on a tie.
-/

namespace Rendezvous.Decimal

/-- A positive decimal `digits * 10 ^ exponent`. -/
structure Scientific where
  digits : Nat
  exponent : Int
  deriving DecidableEq, Repr, Inhabited

namespace Binary64

/-- The absolute value and the two ends of the interval that reads back as it, as numerators over a
common denominator. -/
structure Interval where
  low : Nat
  value : Nat
  high : Nat
  denominator : Nat
  /-- Whether the ends themselves read back as the number. -/
  isClosed : Bool
  deriving DecidableEq, Repr, Inhabited

/-- The interval of a number that is not zero. -/
def interval (x : Binary64) : Interval :=
  let isNarrow := x.mantissa = twoTo 52 && minExponent < x.exponent
  let e := x.exponent - 2
  let up := if 0 ≤ e then twoTo e.toNat else 1
  let down := if 0 ≤ e then 1 else twoTo (-e).toNat
  { low := (4 * x.mantissa - if isNarrow then 1 else 2) * up
    value := 4 * x.mantissa * up
    high := (4 * x.mantissa + 2) * up
    denominator := down
    isClosed := x.mantissa % 2 = 0 }

/-- Whether `n * 10 ^ k` lies in an interval. -/
def Interval.holds (i : Interval) (n : Nat) (k : Int) : Bool :=
  let up := if 0 ≤ k then tenTo k.toNat else 1
  let down := if 0 ≤ k then 1 else tenTo (-k).toNat
  let point := n * up * i.denominator
  if i.isClosed then i.low * down ≤ point && point ≤ i.high * down
  else i.low * down < point && point < i.high * down

/-- The decimal of the grid `10 ^ k` that lies in the interval next to its value, if there is one. -/
def Interval.nearest? (i : Interval) (k : Int) : Option Nat :=
  let num := if 0 ≤ k then i.value else i.value * tenTo (-k).toNat
  let den := if 0 ≤ k then i.denominator * tenTo k.toNat else i.denominator
  let below := num / den
  let rest := num % den
  let preferBelow := 2 * rest < den || (2 * rest = den && below % 2 = 0)
  let first := if preferBelow then below else below + 1
  let second := if preferBelow then below + 1 else below
  if i.holds first k then some first
  else if i.holds second k then some second
  else none

/-- The number of decimal digits. -/
def digitCount (n : Nat) : Nat :=
  (Nat.toDigits 10 n).length

/-- The exponent of the leading decimal digit of a ratio that is not zero. -/
def leadingExponent (num den : Nat) : Int :=
  if den ≤ num then (digitCount (num / den) : Int) - 1
  else
    let k := digitCount den - digitCount num
    if den ≤ num * tenTo k then -(k : Int) else -(k : Int) - 1

/-- Tries ever finer grids, from `10 ^ k` on. -/
def search (i : Interval) (k : Int) : Nat → Scientific
  | 0 => ⟨i.value / i.denominator, 0⟩
  | tries + 1 =>
    match i.nearest? k with
    | some n => if n = 0 then search i (k - 1) tries else ⟨n, k⟩
    | none => search i (k - 1) tries

/-- The shortest decimal of the absolute value of a number that is not zero. -/
def shortest (x : Binary64) : Scientific :=
  let i := x.interval
  search i (leadingExponent i.value i.denominator) 18

/-! ## Text -/

/-- How decimals are laid out: positionally when the exponent of the leading digit is at least
`leastPositional` and below `firstScientific`. -/
structure Layout where
  leastPositional : Int
  firstScientific : Int
  deriving DecidableEq, Repr, Inhabited

/-- Zeros. -/
def zeros (n : Nat) : String :=
  String.ofList (List.replicate n '0')

/-- A number without zeros at its end, and how many there were. -/
def dropZeros (n : Nat) : Nat → Nat × Nat
  | 0 => (n, 0)
  | fuel + 1 =>
    if n % 10 = 0 then let r := dropZeros (n / 10) fuel; (r.1, r.2 + 1) else (n, 0)

/-- Digits with a point after the first `k` of them; at least one digit on either side. -/
def positional (digits : String) (k : Int) : String :=
  let n := digits.length
  if k ≤ 0 then "0." ++ zeros (-k).toNat ++ digits
  else if (n : Int) ≤ k then digits ++ zeros (k.toNat - n) ++ ".0"
  else
    String.ofList (digits.toList.take k.toNat) ++ "." ++ String.ofList (digits.toList.drop k.toNat)

/-- Digits with a point after the first one, and an exponent with its sign. -/
def scientific (digits : String) (leading : Int) : String :=
  let rest := digits.toList.drop 1
  String.ofList (digits.toList.take 1)
    ++ (if rest.isEmpty then "" else "." ++ String.ofList rest)
    ++ (if 0 ≤ leading then "e+" else "e-") ++ toString leading.natAbs

/-- The text of a number. -/
def text (layout : Layout) (x : Binary64) : String :=
  (if x.isNegative then "-" else "") ++
    if x.mantissa = 0 then "0.0"
    else
      let s := x.shortest
      let d := dropZeros s.digits 20
      let digits := toString d.1
      let k : Int := digits.length + s.exponent + d.2
      if layout.leastPositional ≤ k - 1 ∧ k - 1 < layout.firstScientific then positional digits k
      else scientific digits (k - 1)

end Binary64

end Rendezvous.Decimal
