import Mathlib.Data.Nat.Digits.Defs
import Templating.Number.Numeral
import Templating.Proofs.Number.Overflow

/-!
# Decimal fractions read exactly

A decimal fraction is rounded once, to the nearest floating point number. Its leading zeros are
taken off, and a fraction that is very large or very small is not computed at all but taken for
infinity or for zero. Here this is shown to be a shortcut and no more: such a fraction lies beyond
the finite numbers, or is nearer to zero than to any other, so that the number read is in each case
the one nearest to the fraction.

## Main results

* `natOfDigits_lt`, `le_natOfDigits`: bounds of a number by how many digits it has.
* `two_pow_le_roundedUnits`: rounding does not go below a power of two.
* `Binary64.ofRatio_eq_zero`, `Binary64.ofRatio_eq_infinite`: ratios at either end.
* `Binary64.ofDecimal_eq_ofRatio`: a decimal fraction is rounded as the ratio that it is.
* `Numeral.ofParts_eq_ofRatio`: the number with given digits before and after the point.
-/

namespace Templating

open Templating.Text

/-! ### Numbers by their digits -/

variable {ds : List Nat}

/-- The number of digits in the order of writing is that of the library, which has the lowest digit
first. -/
theorem natOfDigits_eq_ofDigits (ds : List Nat) : natOfDigits ds = Nat.ofDigits 10 ds.reverse := by
  induction ds using List.reverseRecOn with
  | nil => rfl
  | append_singleton ds d ih =>
    rw [natOfDigits_append_singleton, ih, List.reverse_append, List.reverse_singleton,
      List.singleton_append, Nat.ofDigits_cons, Nat.add_comm]

/-- A number with so many digits is below the power of ten, by `Nat.ofDigits_lt_base_pow_length`. -/
theorem natOfDigits_lt (h : ∀ d ∈ ds, d < 10) : natOfDigits ds < 10 ^ ds.length := by
  rw [natOfDigits_eq_ofDigits, ← List.length_reverse]
  exact Nat.ofDigits_lt_base_pow_length (by omega) fun d hd => h d (List.mem_reverse.1 hd)

/-- A number that does not begin with a zero is not below the power of ten of its first digit. -/
theorem le_natOfDigits {d : Nat} (hd : d ≠ 0) (ds : List Nat) :
    10 ^ ds.length ≤ natOfDigits (d :: ds) := by
  rw [natOfDigits_eq_ofDigits, List.reverse_cons, Nat.ofDigits_append, Nat.ofDigits_singleton,
    List.length_reverse]
  exact (Nat.le_mul_of_pos_right _ (Nat.pos_of_ne_zero hd)).trans (Nat.le_add_left _ _)

/-- Leading zeros do not matter to `natOfDigits`. -/
theorem natOfDigits_dropWhile_zero (ds : List Nat) :
    natOfDigits (ds.dropWhile (· = 0)) = natOfDigits ds := by
  induction ds with
  | nil => rfl
  | cons d ds ih =>
    by_cases hd : d = 0
    · rw [List.dropWhile_cons_of_pos (by simpa using hd), ih, hd]
      rfl
    · rw [List.dropWhile_cons_of_neg (by simpa using hd)]

/-! ### Ratios at either end -/

/-- Rounding does not go below a power of two that has a gap of its own, because that power is a
multiple of its gap. -/
theorem two_pow_le_roundedUnits {n d k : Nat} (hk : 53 ≤ k) (h : 2 ^ k ≤ n / d) :
    2 ^ k ≤ roundedUnits n d := by
  have hgap : gapExponent (n / d) ≠ 0 := fun hzero => by
    have hupper := lt_two_pow_gapExponent (n / d)
    rw [hzero] at hupper
    exact (h.trans_lt hupper).not_ge (Nat.pow_le_pow_right Nat.two_pos hk)
  have hlower := two_pow_le_of_gapExponent hgap
  rw [roundedUnits_eq_mul]
  generalize gapExponent (n / d) = g at hlower
  have hquotient : n / d / 2 ^ g ≤ roundedQuotient n (d * 2 ^ g) := by
    rw [Nat.div_div_eq_div_mul]
    exact div_le_roundedQuotient _ _
  refine le_trans ?_ (Nat.mul_le_mul_right _ hquotient)
  rcases le_total g k with hg | hg
  · have hpow : 2 ^ k = 2 ^ (k - g) * 2 ^ g := by rw [← Nat.pow_add, Nat.sub_add_cancel hg]
    rw [hpow] at h ⊢
    exact Nat.mul_le_mul_right _ ((Nat.le_div_iff_mul_le (Nat.two_pow_pos g)).2 h)
  · have hfull : 2 ^ 52 ≤ n / d / 2 ^ g := by
      rwa [Nat.le_div_iff_mul_le (Nat.two_pow_pos g), ← Nat.pow_add]
    calc 2 ^ k ≤ 2 ^ g := Nat.pow_le_pow_right Nat.two_pos hg
      _ ≤ n / d / 2 ^ g * 2 ^ g := Nat.le_mul_of_pos_left _ (by omega)

namespace Binary64

/-- A ratio below a half is nearest to zero, so `ofRatio` gives zero. -/
theorem ofRatio_eq_zero (negative : Bool) {n d : Nat} (h : 2 * n < d) :
    ofRatio negative n d = finite negative Magnitude.zero := by
  have hdiv : n / d = 0 := Nat.div_eq_of_lt (by omega)
  have hrounded : roundedUnits n d = Magnitude.zero.units := by
    rw [roundedUnits_eq_mul, hdiv, roundedQuotient_eq (q := 0)]
    · exact Nat.zero_mul _
    · simp [gapExponent, bitLength]
      omega
    · simpa [gapExponent, bitLength] using h
  rw [ofRatio, hrounded, ofUnits_units]

/-- A ratio beyond the largest number is infinite, by `two_pow_le_roundedUnits`. -/
theorem ofRatio_eq_infinite (negative : Bool) {n d : Nat} (h : 2 ^ 2098 ≤ n / d) :
    ofRatio negative n d = infinite negative := by
  have hnot : ¬isRepresentable (roundedUnits n d) = true := fun hmagnitude =>
    ((isRepresentable_roundedUnits n d).1 hmagnitude).not_ge
      (two_pow_le_roundedUnits (by omega) h)
  rw [ofRatio, ofUnits, dif_neg hnot]

/-! ### Decimal fractions -/

/-- A decimal fraction is rounded as the ratio that it is. Where its exponent is too small or too
large, `ofDecimal` computes no power of ten, and the ratio is rounded to zero or is infinite all the
same. -/
theorem ofDecimal_eq_ofRatio (negative : Bool) {significand digits : Nat} (fraction : Nat)
    (hlower : significand ≠ 0 → 10 ^ (digits - 1) ≤ significand)
    (hupper : significand < 10 ^ digits) :
    ofDecimal negative significand digits (-(fraction : Int))
      = ofRatio negative (significand * unitsPerOne) (10 ^ fraction) := by
  have hpos : 0 < 10 ^ fraction := Nat.pow_pos (by omega)
  rw [ofDecimal]
  split
  · next hzero =>
    rw [ofRatio_eq_zero]
    rwa [hzero, Nat.zero_mul]
  next hsignificand =>
  split
  · next hlarge =>
    -- The ratio is at least `10 ^ 309`, which is beyond the largest finite number.
    refine (ofRatio_eq_infinite negative ?_).symm
    rw [Nat.le_div_iff_mul_le hpos]
    calc 2 ^ 2098 * 10 ^ fraction ≤ 10 ^ 309 * unitsPerOne * 10 ^ fraction :=
          Nat.mul_le_mul_right _ (by decide +kernel)
      _ = 10 ^ (309 + fraction) * unitsPerOne := by
          rw [Nat.mul_right_comm, Nat.pow_add]
      _ ≤ 10 ^ (digits - 1) * unitsPerOne :=
          Nat.mul_le_mul_right _ (Nat.pow_le_pow_right (by omega) (by omega))
      _ ≤ significand * unitsPerOne := Nat.mul_le_mul_right _ (hlower hsignificand)
  split
  · next hsmall =>
    -- The ratio is less than half a unit, so it rounds to zero.
    refine (ofRatio_eq_zero negative ?_).symm
    obtain ⟨k, hk, hunits⟩ : ∃ k, digits + k ≤ fraction ∧ 2 * unitsPerOne ≤ 10 ^ k :=
      ⟨324, by omega, by decide +kernel⟩
    calc 2 * (significand * unitsPerOne) = significand * (2 * unitsPerOne) :=
          Nat.mul_left_comm _ _ _
      _ ≤ significand * 10 ^ k := Nat.mul_le_mul_left _ hunits
      _ < 10 ^ digits * 10 ^ k := Nat.mul_lt_mul_of_pos_right hupper (Nat.pow_pos (by omega))
      _ = 10 ^ (digits + k) := (Nat.pow_add _ _ _).symm
      _ ≤ 10 ^ fraction := Nat.pow_le_pow_right (by omega) hk
  · have hnum : (-(fraction : Int)).toNat = 0 := by omega
    have hden : (- -(fraction : Int)).toNat = fraction := by omega
    rw [hnum, hden, Nat.pow_eq, Nat.pow_zero, Nat.mul_one]
    rfl

end Binary64

/-- **A number with digits before and after the point, and no power of ten, is the one nearest to
the fraction that the digits make up**: `ofDecimal_eq_ofRatio` without the leading zeros. -/
theorem Numeral.ofParts_eq_ofRatio (negative : Bool) {whole fraction : List Nat}
    (h : ∀ d ∈ whole ++ fraction, d < 10) :
    ofParts negative whole fraction 0
      = Binary64.ofRatio negative (natOfDigits (whole ++ fraction) * unitsPerOne)
        (10 ^ fraction.length) := by
  rw [ofParts, Int.zero_sub, Binary64.ofDecimal_eq_ofRatio, natOfDigits_dropWhile_zero]
  · intro hne
    cases hds : (whole ++ fraction).dropWhile (· = 0) with
    | nil =>
      rw [hds] at hne
      exact absurd rfl hne
    | cons d ds =>
      have hd := List.head?_dropWhile_not (fun d : Nat => decide (d = 0)) (whole ++ fraction)
      rw [hds] at hd
      exact le_natOfDigits (by simpa using hd) ds
  · exact natOfDigits_lt fun d hd => h d ((List.dropWhile_sublist _).subset hd)

end Templating
