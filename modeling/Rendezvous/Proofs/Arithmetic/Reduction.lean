import Mathlib.Data.Int.GCD
import Mathlib.Tactic.Ring
import Rendezvous.Arithmetic.Fraction

/-!
# Reduction is exact

`reduce n d` finds the one fraction whose value is `n / d`, and fails only when there is none
(`reduce_eq_ok_iff`).  Everything the operations do to values follows from this equation: a product
or a quotient of whole numbers is a whole number exactly when the integers say so
(`mul_eq_ok_iff_of_whole`, `toNat?_div_eq_some_iff`).
-/

namespace Rendezvous.Arithmetic.Fraction

/-! ## Lowest terms -/

/-- A fraction is its two parts. -/
theorem eq_of_parts {f g : Fraction} (hn : f.numer = g.numer) (hd : f.denom = g.denom) :
    f = g := by
  cases f
  cases g
  simp only at hn hd
  subst hn hd
  rfl

/-- Lowest terms are unique. -/
theorem parts_unique {a c : Int} {b d : Nat} (hb : 0 < b) (hab : a.natAbs.Coprime b)
    (hcd : c.natAbs.Coprime d) (h : a * d = c * b) : a = c ∧ b = d := by
  have habs : a.natAbs * d = c.natAbs * b := by
    have := congrArg Int.natAbs h
    simpa [Int.natAbs_mul] using this
  have hbd : b ∣ d := hab.symm.dvd_of_dvd_mul_left ⟨c.natAbs, by rw [habs, Nat.mul_comm]⟩
  have hdb : d ∣ b := hcd.symm.dvd_of_dvd_mul_left ⟨a.natAbs, by rw [← habs, Nat.mul_comm]⟩
  have hbd : b = d := Nat.dvd_antisymm hbd hdb
  subst hbd
  exact ⟨Int.eq_of_mul_eq_mul_right (by omega) h, rfl⟩

/-- Dividing both parts by their greatest common divisor keeps the value. -/
theorem mul_div_gcd (n : Int) (d : Nat) :
    n * (d / n.natAbs.gcd d : Nat) = n / (n.natAbs.gcd d : Nat) * d := by
  obtain ⟨k, hk⟩ : ((n.natAbs.gcd d : Nat) : Int) ∣ n := Int.ofNat_dvd_left.2 (Nat.gcd_dvd_left _ _)
  obtain ⟨m, hm⟩ : n.natAbs.gcd d ∣ d := Nat.gcd_dvd_right _ _
  generalize n.natAbs.gcd d = g at hk hm ⊢
  subst hk hm
  rcases Nat.eq_zero_or_pos g with rfl | hg
  · simp
  · rw [Nat.mul_div_cancel_left m hg, Int.mul_ediv_cancel_left k (by omega)]
    push_cast
    ring

/-- **Reduction is exact.**  It gives a fraction exactly when there is one of that value. -/
theorem reduce_eq_ok_iff {n : Int} {d : Nat} {hd : 0 < d} {f : Fraction} :
    reduce n d hd = .ok f ↔ n * f.denom = f.numer * d := by
  have hg : 0 < n.natAbs.gcd d := Nat.gcd_pos_of_pos_right _ hd
  constructor
  · intro h
    unfold reduce at h
    split at h
    · split at h
      · cases h
        exact mul_div_gcd n d
      · cases h
    · cases h
  · intro h
    have hpos : 0 < d / n.natAbs.gcd d :=
      Nat.div_pos (Nat.le_of_dvd hd (Nat.gcd_dvd_right _ _)) hg
    have hcross : n / (n.natAbs.gcd d : Nat) * f.denom = f.numer * (d / n.natAbs.gcd d : Nat) := by
      refine Int.eq_of_mul_eq_mul_right (a := (d : Int)) (by omega) ?_
      calc n / (n.natAbs.gcd d : Nat) * f.denom * d
          = n / (n.natAbs.gcd d : Nat) * d * f.denom := by ring
        _ = n * (d / n.natAbs.gcd d : Nat) * f.denom := by rw [mul_div_gcd]
        _ = n * f.denom * (d / n.natAbs.gcd d : Nat) := by ring
        _ = f.numer * (d / n.natAbs.gcd d : Nat) * d := by rw [h]; ring
    obtain ⟨hnum, hden⟩ := parts_unique hpos (coprime_reduced hd) f.coprime hcross
    have hn : Fits64 (n / (n.natAbs.gcd d : Nat)) := hnum ▸ f.numer_fits
    have hb : d / n.natAbs.gcd d < 9223372036854775808 := hden ▸ f.denom_fits
    rw [reduce, dif_pos hn, dif_pos hb]
    exact congrArg Except.ok (eq_of_parts hnum hden)

/-! ## Whole numbers -/

@[simp] theorem numer_ofInt (z : Int) (h : Fits64 z) : (ofInt z h).numer = z := rfl

@[simp] theorem denom_ofInt (z : Int) (h : Fits64 z) : (ofInt z h).denom = 1 := rfl

@[simp] theorem numer_ofCount (n : UInt32) : (ofCount n).numer = n.toNat := rfl

@[simp] theorem denom_ofCount (n : UInt32) : (ofCount n).denom = 1 := rfl

theorem ofInt?_eq_some_iff {z : Int} {f : Fraction} :
    ofInt? z = some f ↔ f.numer = z ∧ f.denom = 1 := by
  unfold ofInt?
  constructor
  · intro h
    split at h
    · cases h
      exact ⟨rfl, rfl⟩
    · cases h
  · rintro ⟨rfl, hd⟩
    rw [dif_pos f.numer_fits]
    exact congrArg some (eq_of_parts rfl hd.symm)

/-- A fraction reads as the natural number `n` exactly when it is `n / 1`. -/
theorem toNat?_eq_some_iff {f : Fraction} {n : Nat} :
    f.toNat? = some n ↔ f.numer = n ∧ f.denom = 1 := by
  unfold toNat? toInt?
  by_cases hd : f.denom = 1
  · simp only [hd, if_pos, Option.bind_some, and_true]
    split <;> simp <;> omega
  · simp [hd]

/-- Numbers that fractions hold are below `2^63`. -/
theorem lt_of_toNat? {f : Fraction} {n : Nat} (h : f.toNat? = some n) :
    n < 9223372036854775808 := by
  obtain ⟨hn, -⟩ := toNat?_eq_some_iff.1 h
  have := f.numer_fits.2
  omega

/-- The product of whole numbers, when it fits. -/
theorem mul_eq_ok_iff_of_whole {a b f : Fraction} (ha : a.denom = 1) (hb : b.denom = 1) :
    a.mul b = .ok f ↔ f.numer = a.numer * b.numer ∧ f.denom = 1 := by
  unfold mul
  rw [reduce_eq_ok_iff]
  simp only [ha, hb, Nat.cast_one, mul_one]
  constructor
  · intro h
    refine parts_unique f.denom_pos f.coprime (Nat.coprime_one_right _) ?_
    rw [h, Nat.cast_one, mul_one]
  · rintro ⟨hn, hd⟩
    rw [hn, hd]
    simp

/-- A quotient of natural numbers is the natural number `q` exactly when `q` times the divisor gives
the dividend. -/
theorem toNat?_div_eq_some_iff {a b : Fraction} {x m q : Nat} (ha : a.toNat? = some x)
    (hb : b.toNat? = some m) :
    (∃ f, a.div b = .ok f ∧ f.toNat? = some q) ↔ 0 < m ∧ x = q * m := by
  obtain ⟨hx, had⟩ := toNat?_eq_some_iff.1 ha
  obtain ⟨hm, hbd⟩ := toNat?_eq_some_iff.1 hb
  rcases Nat.eq_zero_or_pos m with rfl | hpos
  · have hz : b.numer = 0 := by simpa using hm
    simp [div, hz]
  · have hne : b.numer ≠ 0 := by omega
    have hsign : b.numer.sign = 1 := Int.sign_eq_one_of_pos (by omega)
    have habs : b.numer.natAbs = m := by omega
    unfold div
    rw [dif_neg hne]
    simp only [reduce_eq_ok_iff, toNat?_eq_some_iff, had, hbd, hsign, habs, hx, hpos, true_and,
      Nat.one_mul, Nat.cast_one, mul_one]
    constructor
    · rintro ⟨f, hf, hn, hd⟩
      rw [hn, hd] at hf
      exact_mod_cast (by simpa using hf : (x : Int) = q * m)
    · intro h
      have hle : q ≤ x := h ▸ Nat.le_mul_of_pos_right q hpos
      have hlt := lt_of_toNat? ha
      have hfits : Fits64 q := ⟨by omega, by omega⟩
      refine ⟨ofInt q hfits, ?_, rfl, rfl⟩
      rw [numer_ofInt, denom_ofInt, h]
      push_cast
      ring

end Rendezvous.Arithmetic.Fraction
