import Rendezvous.Decimal.Shortest

/-!
# JSON numbers

A number is an integer of 64 bits, signed or unsigned, or a double-precision number.  Without
fraction and exponent it is an integer, if it is in range and not `-0`.  Every other number is read
from its first digits, as many as fit in 64 bits, scaled by a power of ten; it is an error when the
result is beyond the greatest double-precision number.
-/

namespace Rendezvous.Json

open Decimal

/-- The value of a number. -/
inductive Number where
  | integer (value : Int)
  | double (value : Binary64)
  deriving DecidableEq, Repr, Inhabited

/-! ## Form -/

/-- The parts of a number as it is written. -/
structure Numeral where
  isNegative : Bool
  whole : List Char
  /-- The digits after the point, if there is one. -/
  fraction : Option (List Char)
  /-- The sign and the digits of the exponent, if there is one. -/
  exponent : Option (Bool × List Char)
  deriving DecidableEq, Repr, Inhabited

/-- A non-empty run of digits, and what follows it. -/
def digits? (chars : List Char) : Option (List Char × List Char) :=
  let ds := chars.takeWhile Char.isDigit
  if ds.isEmpty then none else some (ds, chars.dropWhile Char.isDigit)

/-- Digits without a leading zero, except for zero itself. -/
def whole? (chars : List Char) : Option (List Char × List Char) :=
  (digits? chars).bind fun r => if r.1.head? = some '0' ∧ r.1 ≠ ['0'] then none else some r

/-- The digits after a point, if there is a point. -/
def fraction? : List Char → Option (Option (List Char) × List Char)
  | '.' :: rest => (digits? rest).map fun r => (some r.1, r.2)
  | rest => some (none, rest)

/-- The sign of an exponent: whether it is negative. -/
def exponentSign : List Char → Bool × List Char
  | '-' :: rest => (true, rest)
  | '+' :: rest => (false, rest)
  | rest => (false, rest)

/-- The digits of an exponent up to the end of the number. -/
def exponentDigits? (chars : List Char) : Option (Option (Bool × List Char)) :=
  let s := exponentSign chars
  (digits? s.2).bind fun r => if r.2.isEmpty then some (some (s.1, r.1)) else none

/-- The exponent, if there is one, up to the end of the number. -/
def exponent? : List Char → Option (Option (Bool × List Char))
  | [] => some none
  | c :: rest => if c = 'e' ∨ c = 'E' then exponentDigits? rest else none

/-- The sign of a number: whether it is negative. -/
def numberSign : List Char → Bool × List Char
  | '-' :: rest => (true, rest)
  | rest => (false, rest)

/-- The parts of a well-formed number. -/
def Numeral.read? (chars : List Char) : Option Numeral :=
  let s := numberSign chars
  (whole? s.2).bind fun w =>
    (fraction? w.2).bind fun f =>
      (exponent? f.2).map fun e => ⟨s.1, w.1, f.1, e⟩

/-! ## Value -/

/-- A number in the making: digits that fit in 64 bits, and a power of ten. -/
structure Scaled where
  significand : Nat
  exponent : Int
  deriving DecidableEq, Repr, Inhabited

/-- Takes in the digits before the point.  From the first that does not fit on, each only raises the
exponent. -/
def takeWhole (significand : Nat) : List Char → Scaled
  | [] => ⟨significand, 0⟩
  | d :: rest =>
    let next := Nat.ofDigitChars 10 [d] significand
    if next < UInt64.size then takeWhole next rest else ⟨significand, (rest.length : Int) + 1⟩

/-- Takes in the digits after the point.  From the first that does not fit on, they are dropped. -/
def takeFraction (s : Scaled) : List Char → Scaled
  | [] => s
  | d :: rest =>
    let next := Nat.ofDigitChars 10 [d] s.significand
    if next < UInt64.size then takeFraction ⟨next, s.exponent - 1⟩ rest else s

/-- The greatest exponent that is taken at its value. -/
def maxExponent : Nat := 2147483647

/-- A scaled number as a double-precision number. -/
def Scaled.double? (isNegative : Bool) (s : Scaled) : Option Binary64 :=
  (Binary64.ofRatio? isNegative s.significand 1).bind fun x => x.scaleByTen? s.exponent

/-- The double-precision number of a numeral. -/
def Numeral.double? (n : Numeral) : Option Binary64 :=
  let s := takeFraction (takeWhole 0 n.whole) (n.fraction.getD [])
  match n.exponent with
  | none => s.double? n.isNegative
  | some (isDown, ds) =>
    let e := Nat.ofDigitChars 10 ds 0
    if maxExponent < e then
      if s.significand ≠ 0 ∧ !isDown then none else some (.zero n.isNegative)
    else Scaled.double? n.isNegative
      ⟨s.significand, if isDown then s.exponent - e else s.exponent + e⟩

/-- The integer of a numeral, if it is one. -/
def Numeral.integer? (n : Numeral) : Option Int :=
  if n.fraction.isSome || n.exponent.isSome then none
  else
    let value := Nat.ofDigitChars 10 n.whole 0
    if n.isNegative then
      if 0 < value ∧ Int64.minValue.toInt ≤ -(value : Int) then some (-(value : Int)) else none
    else if value < UInt64.size then some value else none

/-- The value of a number as it is written, if it has one. -/
def Number.read? (chars : List Char) : Option Number :=
  (Numeral.read? chars).bind fun n =>
    match n.integer? with
    | some z => some (.integer z)
    | none => n.double?.map .double

/-! ## Text -/

/-- Double-precision numbers are written positionally from `0.00001` up to below `10 ^ 16`. -/
def layout : Binary64.Layout := ⟨-5, 16⟩

/-- The text of a number. -/
def Number.text : Number → String
  | integer z => toString z
  | double x => x.text layout

end Rendezvous.Json
