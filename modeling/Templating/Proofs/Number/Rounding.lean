import Mathlib.Algebra.Order.Field.Basic
import Mathlib.Algebra.Order.Ring.Abs
import Mathlib.Data.Rat.Cast.Order
import Mathlib.Tactic.FieldSimp
import Mathlib.Tactic.Linarith
import Mathlib.Tactic.Positivity
import Mathlib.Tactic.Ring
import Templating.Number.Binary64

/-!
# Rounding to the nearest magnitude

A ratio of units is rounded to the nearest multiple of the gap that belongs to its size. So a
ratio that lies within half a gap of a magnitude, and has that gap itself, is rounded to it. The
rounded number depends on the ratio only, not on how it is written; hence a decimal may be written
with more or fewer zeros at its end.

## Main definitions

* `Magnitude.gap`: the gap between neighbouring magnitudes.

## Main results

* `gapExponent_eq`: the gap from the number of binary digits.
* `Binary64.ofRatio_eq`: a ratio near a magnitude is rounded to it.
* `Binary64.ofRatio_mul`: the rounded number depends on the ratio only.
* `Binary64.ofDecimal_shift`: a zero at the end of a significand does not matter.
-/

namespace Templating

/-! ### Gaps -/

/-- A number has at most so many bits if it is below that power of two. -/
theorem bitLength_le_iff {n k : Nat} : bitLength n ≤ k ↔ n < 2 ^ k := by
  rw [bitLength]
  split
  · rename_i h
    simp [h]
  · rename_i h
    rw [Nat.succ_le_iff, Nat.log2_lt h]

theorem lt_two_pow_gapExponent (n : Nat) : n < 2 ^ (53 + gapExponent n) :=
  bitLength_le_iff.1 (by rw [gapExponent]; omega)

/-- A number with a gap above one fills 53 binary digits above the gap, by the definition of
`gapExponent`. -/
theorem two_pow_le_of_gapExponent {n : Nat} (h : gapExponent n ≠ 0) :
    2 ^ (52 + gapExponent n) ≤ n := by
  by_contra hlt
  have hlength := bitLength_le_iff.2 (Nat.lt_of_not_le hlt)
  rw [gapExponent] at h hlength
  omega

/-- The gap from the number of binary digits: the two bounds leave one exponent only. -/
theorem gapExponent_eq {n g : Nat} (hupper : n < 2 ^ (53 + g))
    (hlower : g = 0 ∨ 2 ^ (52 + g) ≤ n) : gapExponent n = g := by
  have hle := bitLength_le_iff.2 hupper
  rcases hlower with rfl | hlower
  · rw [gapExponent]
    omega
  · have hnot : ¬ bitLength n ≤ 52 + g := fun h => by
      have := bitLength_le_iff.1 h
      omega
    rw [gapExponent]
    omega

namespace Magnitude

variable (m : Magnitude)

/-- The gap between neighbouring magnitudes around this one. -/
def gap : Nat :=
  2 ^ gapExponent m.units

/-- The gap between neighbouring magnitudes is positive. -/
theorem gap_pos : 0 < m.gap :=
  Nat.two_pow_pos _

theorem gap_dvd : m.gap ∣ m.units := by
  have h := m.representable
  simp only [isRepresentable, Bool.and_eq_true, beq_iff_eq, Nat.pow_eq] at h
  exact Nat.dvd_of_mod_eq_zero h.2

/-- Magnitudes are bounded by the largest exponent. -/
theorem units_lt : m.units < 2 ^ 2098 := by
  have h := m.representable
  simp only [isRepresentable, Bool.and_eq_true, decide_eq_true_eq] at h
  exact bitLength_le_iff.1 h.1

end Magnitude

/-! ### Rounded quotients -/

/-- A number within half the divisor of a multiple is rounded to that multiple by
`roundedQuotient`. -/
theorem roundedQuotient_eq {n d q : Nat} (hlower : 2 * (q * d) < 2 * n + d)
    (hupper : 2 * n < 2 * (q * d) + d) : roundedQuotient n d = q := by
  have hd : 0 < d := by omega
  have hdiv := Nat.div_add_mod n d
  have hmod := Nat.mod_lt n hd
  have hle : n / d ≤ q := by
    by_contra hlt
    have hmul : d * (q + 1) ≤ d * (n / d) := Nat.mul_le_mul_left d (by omega)
    rw [Nat.mul_add, Nat.mul_one, Nat.mul_comm d q] at hmul
    omega
  have hge : q ≤ n / d + 1 := by
    by_contra hlt
    have hmul : d * (n / d + 2) ≤ d * q := Nat.mul_le_mul_left d (by omega)
    rw [Nat.mul_add, Nat.mul_comm d q] at hmul
    omega
  rw [roundedQuotient]
  rcases Nat.eq_or_lt_of_le hle with heq | hlt
  · rw [heq, Nat.mul_comm d q] at hdiv
    have htwice : 2 * (n % d) < d := by omega
    simp only [htwice, if_true, heq]
  · have heq : q = n / d + 1 := by omega
    have hqd : q * d = d * (n / d) + d := by rw [heq, Nat.mul_comm, Nat.mul_add, Nat.mul_one]
    have htwice : d < 2 * (n % d) := by omega
    simp only [if_neg (Nat.lt_asymm htwice), htwice, if_true, heq]

/-- Rounding a quotient does not depend on a common factor. -/
theorem roundedQuotient_mul {k : Nat} (hk : 0 < k) (n d : Nat) :
    roundedQuotient (n * k) (d * k) = roundedQuotient n d := by
  have hlt : 2 * (n * k % (d * k)) < d * k ↔ 2 * (n % d) < d := by
    rw [Nat.mul_mod_mul_right, ← Nat.mul_assoc]
    exact Nat.mul_lt_mul_right hk
  have hgt : d * k < 2 * (n * k % (d * k)) ↔ d < 2 * (n % d) := by
    rw [Nat.mul_mod_mul_right, ← Nat.mul_assoc]
    exact Nat.mul_lt_mul_right hk
  simp only [roundedQuotient, hlt, hgt, Nat.mul_div_mul_right n d hk]

/-- The rounded number of units depends on the ratio only, by `roundedQuotient_mul` with the same
gap. -/
theorem roundedUnits_mul {k : Nat} (hk : 0 < k) (n d : Nat) :
    roundedUnits (n * k) (d * k) = roundedUnits n d := by
  have hassoc : ∀ gap, d * k * gap = d * gap * k := fun gap => by ring
  simp only [roundedUnits, Nat.mul_div_mul_right n d hk, hassoc, roundedQuotient_mul hk]

/-- A ratio within half a gap of a magnitude, whose gap is that of the magnitude, is rounded to it:
`roundedQuotient_eq` for the ratio divided by the gap. -/
theorem roundedUnits_eq {n d : Nat} {m : Magnitude} (hd : 0 < d)
    (hgap : gapExponent (n / d) = gapExponent m.units)
    (hnear : |(n : ℚ) / d - m.units| < m.gap / 2) : roundedUnits n d = m.units := by
  obtain ⟨q, hq⟩ := m.gap_dvd
  have hgap' : Nat.pow 2 (gapExponent (n / d)) = m.gap := by rw [hgap]; rfl
  have hd' : (0 : ℚ) < d := by exact_mod_cast hd
  obtain ⟨hlower, hupper⟩ := abs_lt.1 hnear
  have hcast : (m.units : ℚ) = m.gap * q := by exact_mod_cast hq
  rw [hcast] at hlower hupper
  have hn : (n : ℚ) / d * d = n := div_mul_cancel₀ _ hd'.ne'
  have hrounded : roundedQuotient n (d * m.gap) = q := by
    refine roundedQuotient_eq ?_ ?_
    · have h : (m.gap * q - m.gap / 2) * d < (n : ℚ) / d * d :=
        mul_lt_mul_of_pos_right (by linarith) hd'
      rw [hn] at h
      have : (2 * (q * (d * m.gap)) : ℚ) < 2 * n + d * m.gap := by linarith
      exact_mod_cast this
    · have h : (n : ℚ) / d * d < (m.gap * q + m.gap / 2) * d :=
        mul_lt_mul_of_pos_right (by linarith) hd'
      rw [hn] at h
      have : (2 * n : ℚ) < 2 * (q * (d * m.gap)) + d * m.gap := by linarith
      exact_mod_cast this
  simp only [roundedUnits, hgap', hrounded]
  rw [hq, Nat.mul_comm]

namespace Binary64

/-- The units of a magnitude make up that magnitude. -/
theorem ofUnits_units (negative : Bool) (m : Magnitude) :
    ofUnits negative m.units = finite negative m := by
  simp [ofUnits, m.representable]

/-- **A ratio near a magnitude is rounded to it**, by `roundedUnits_eq`. -/
theorem ofRatio_eq {n d : Nat} {m : Magnitude} (negative : Bool) (hd : 0 < d)
    (hgap : gapExponent (n / d) = gapExponent m.units)
    (hnear : |(n : ℚ) / d - m.units| < m.gap / 2) :
    ofRatio negative n d = finite negative m := by
  rw [ofRatio, roundedUnits_eq hd hgap hnear, ofUnits_units]

/-- Rounding a ratio does not depend on a common factor, by `roundedQuotient_mul`. -/
theorem ofRatio_mul {k : Nat} (hk : 0 < k) (negative : Bool) (n d : Nat) :
    ofRatio negative (n * k) (d * k) = ofRatio negative n d := by
  rw [ofRatio, ofRatio, roundedUnits_mul hk]

/-- A zero at the end of the significand may be taken off for one more in the exponent: the ratio
stays the same (`ofRatio_mul`). -/
theorem ofDecimal_shift {significand : Nat} (h : significand ≠ 0) (negative : Bool) (digits : Nat)
    (exponent : Int) :
    ofDecimal negative (significand * 10) (digits + 1) (exponent - 1)
      = ofDecimal negative significand digits exponent := by
  have hsum : exponent - 1 + ((digits + 1 : Nat) : Int) = exponent + digits := by
    push_cast
    ring
  have hratio : ofRatio negative (significand * 10 * Nat.pow 10 (exponent - 1).toNat * unitsPerOne)
        (Nat.pow 10 (-(exponent - 1)).toNat)
      = ofRatio negative (significand * Nat.pow 10 exponent.toNat * unitsPerOne)
        (Nat.pow 10 (-exponent).toNat) := by
    simp only [Nat.pow_eq]
    generalize unitsPerOne = units
    rcases le_or_gt 1 exponent with hpos | hneg
    · have hnum : exponent.toNat = (exponent - 1).toNat + 1 := by omega
      have hden : (-(exponent - 1)).toNat = (-exponent).toNat := by omega
      rw [hnum, hden]
      congr 1
      ring
    · have hnum : (exponent - 1).toNat = exponent.toNat := by omega
      have hden : (-(exponent - 1)).toNat = (-exponent).toNat + 1 := by omega
      have hscale := ofRatio_mul (k := 10) (by omega) negative
        (significand * 10 ^ exponent.toNat * units) (10 ^ (-exponent).toNat)
      rw [hnum, hden, Nat.pow_succ, ← hscale]
      congr 1
      ring
  have hne : significand * 10 ≠ 0 := by omega
  simp only [ofDecimal, if_neg h, if_neg hne, hsum, hratio]

end Binary64

end Templating
