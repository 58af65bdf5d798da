import Mathlib.Algebra.Order.Field.Power
import Mathlib.Algebra.Order.Floor.Semifield
import Mathlib.Tactic.NormNum
import Templating.Number.Shortest
import Templating.Proofs.Number.Rounding

/-!
# Shortest decimals read back

Of the decimals with seventeen significant digits one of the two next to a magnitude lies within
half a gap of it, because a significand with 53 binary digits is below `10 ^ 16`. So the search
for the shortest decimal that reads back always succeeds, and what it finds denotes the number.

## Main definitions

* `Decimal.units`: the exact value of a decimal, in units.

## Main results

* `Decimal.toBinary64_eq`: a decimal near a magnitude denotes it.
* `Magnitude.leadingExponent_bounds`: the power of ten of the first digit.
* `Magnitude.isSome_decimalWith?_seventeen`: seventeen digits suffice.
* `Magnitude.toBinary64_shortest`: the shortest decimal denotes the magnitude.
-/

namespace Templating

open Templating.Text

/-! ### Numbers of digits -/

/-- How many digits a number has, told by the powers of ten around it. -/
theorem length_repr_bounds {n : Nat} (h : n ≠ 0) :
    10 ^ (n.repr.toList.length - 1) ≤ n ∧ n < 10 ^ n.repr.toList.length := by
  rw [Nat.toList_repr]
  have hpos : 0 < (Nat.toDigits 10 n).length := Nat.length_toDigits_pos
  refine ⟨?_, (Nat.length_toDigits_le_iff (by omega) hpos).1 le_rfl⟩
  by_contra hlt
  rcases Nat.eq_zero_or_pos ((Nat.toDigits 10 n).length - 1) with hzero | hmore
  · rw [hzero] at hlt
    omega
  · have := (Nat.length_toDigits_le_iff (by omega) hmore).2 (Nat.lt_of_not_le hlt)
    omega

theorem length_repr_mul_ten {n : Nat} (h : n ≠ 0) :
    (n * 10).repr.toList.length = n.repr.toList.length + 1 := by
  rw [Nat.toList_repr, Nat.toList_repr, Nat.toDigits_of_base_le (by omega) (by omega),
    Nat.mul_div_cancel n (by omega)]
  simp

/-- The count of an antitone test over the first numbers is where the test starts to fail. This is
how `leadingExponent` and `digits` are found by counting. -/
theorem countP_range_of_antitone {p : Nat → Bool} (h : ∀ k, p (k + 1) = true → p k = true)
    (n : Nat) :
    (∀ k < (List.range n).countP p, p k = true)
      ∧ ((List.range n).countP p < n → p ((List.range n).countP p) = false) := by
  induction n with
  | zero => simp
  | succ n ih =>
    obtain ⟨hbelow, hat⟩ := ih
    rw [List.range_succ, List.countP_append]
    by_cases hn : p n = true
    · have hall : (List.range n).countP p = n := by
        have hle : (List.range n).countP p ≤ n := by
          simpa using List.countP_le_length (p := p) (l := List.range n)
        by_contra hne
        -- Were one of the first not counted, all behind it would fail, this one included.
        have hfail := hat (by omega)
        have hdown : ∀ k ≤ n, p k = true := by
          intro k hk
          exact Nat.decreasingInduction (motive := fun k _ => p k = true)
            (fun k _ hk => h k hk) hn hk
        rw [hdown _ hle] at hfail
        cases hfail
      simp only [hall, List.countP_singleton, hn, if_true]
      refine ⟨fun k hk => ?_, fun hlt => absurd hlt (by omega)⟩
      rcases Nat.lt_succ_iff_lt_or_eq.1 hk with hlt | rfl
      · exact hbelow k (by omega)
      · exact hn
    · simp only [List.countP_singleton, if_neg hn, Nat.add_zero]
      refine ⟨hbelow, fun _ => ?_⟩
      by_cases hlt : (List.range n).countP p < n
      · exact hat hlt
      · have hle : (List.range n).countP p ≤ n := by
          simpa using List.countP_le_length (p := p) (l := List.range n)
        rw [show (List.range n).countP p = n by omega]
        exact Bool.eq_false_iff.2 hn

/-! ### The value of a decimal -/

namespace Decimal

/-- The exact value, in units. -/
def units (d : Decimal) : ℚ :=
  d.significand * 10 ^ d.exponent * unitsPerOne

/-- The ratio that `ofDecimal` rounds is the value of the decimal. -/
theorem ratio_eq (significand : Nat) (exponent : Int) :
    ((significand * Nat.pow 10 exponent.toNat * unitsPerOne : Nat) : ℚ)
        / (Nat.pow 10 (-exponent).toNat : Nat)
      = significand * 10 ^ exponent * unitsPerOne := by
  simp only [Nat.pow_eq, Nat.cast_mul, Nat.cast_pow, Nat.cast_ofNat]
  rcases le_total 0 exponent with hpos | hneg
  · obtain ⟨k, rfl⟩ := Int.eq_ofNat_of_zero_le hpos
    rw [Int.toNat_natCast, Int.toNat_neg_natCast, pow_zero, div_one, zpow_natCast]
  · obtain ⟨k, hk⟩ := Int.eq_ofNat_of_zero_le (Int.neg_nonneg_of_nonpos hneg)
    obtain rfl : exponent = -(k : Int) := by omega
    simp only [Int.toNat_neg_natCast, pow_zero, mul_one, neg_neg, Int.toNat_natCast, zpow_neg,
      zpow_natCast]
    rw [div_eq_mul_inv]
    ring

theorem unitsPerOne_pos : (0 : ℚ) < unitsPerOne :=
  Nat.cast_pos.2 (by decide +kernel)

/-- Half a unit is more than the power of ten with exponent -324. -/
theorem unitsPerOne_lt : 2 * unitsPerOne < 10 ^ 324 := by decide +kernel

/-- Twice the bound on magnitudes is at most the power of ten with exponent 309. -/
theorem two_pow_le : 2 * 2 ^ 2098 ≤ 10 ^ 309 * unitsPerOne := by decide +kernel

/-- The value lies between the powers of ten of its first digit, `d.leadingExponent`. -/
theorem units_bounds {d : Decimal} (hd : d.significand ≠ 0) :
    (10 : ℚ) ^ d.leadingExponent * unitsPerOne ≤ d.units
      ∧ d.units < 10 ^ (d.leadingExponent + 1) * unitsPerOne := by
  obtain ⟨hlower, hupper⟩ := length_repr_bounds hd
  have hpow : (0 : ℚ) < 10 ^ d.exponent := by positivity
  have hdigits : 0 < d.digits.length := by
    rw [digits, Nat.toList_repr]
    exact Nat.length_toDigits_pos
  have hlower' : (10 : ℚ) ^ (d.digits.length - 1) ≤ d.significand := by exact_mod_cast hlower
  have hupper' : (d.significand : ℚ) < 10 ^ d.digits.length := by exact_mod_cast hupper
  constructor
  · have hsum : (10 : ℚ) ^ d.leadingExponent = 10 ^ (d.digits.length - 1) * 10 ^ d.exponent := by
      rw [← zpow_natCast, ← zpow_add₀ (by norm_num), leadingExponent]
      congr 1
      omega
    rw [units, hsum]
    exact mul_le_mul_of_nonneg_right (mul_le_mul_of_nonneg_right hlower' hpow.le)
      unitsPerOne_pos.le
  · have hsum : (10 : ℚ) ^ (d.leadingExponent + 1) = 10 ^ d.digits.length * 10 ^ d.exponent := by
      rw [← zpow_natCast, ← zpow_add₀ (by norm_num), leadingExponent]
      congr 1
      omega
    rw [units, hsum]
    exact mul_lt_mul_of_pos_right (mul_lt_mul_of_pos_right hupper' hpow) unitsPerOne_pos

/-- A decimal with its first digit at `10 ^ 309` or above is beyond twice any magnitude. -/
theorem two_mul_lt_of_digits {d : Decimal} (hd : d.significand ≠ 0) (m : Magnitude)
    (h : 309 < d.exponent + d.digits.length) : 2 * (m.units : ℚ) < d.units := by
  have hm : 2 * (m.units : ℚ) < 10 ^ 309 * unitsPerOne := by
    have := m.units_lt
    have := two_pow_le
    exact_mod_cast (by omega : 2 * m.units < 10 ^ 309 * unitsPerOne)
  have hpow : (10 : ℚ) ^ (309 : ℕ) ≤ 10 ^ d.leadingExponent := by
    rw [← zpow_natCast]
    exact zpow_le_zpow_right₀ (by norm_num) (by rw [leadingExponent]; omega)
  calc 2 * (m.units : ℚ) < 10 ^ 309 * unitsPerOne := hm
    _ ≤ 10 ^ d.leadingExponent * unitsPerOne :=
        mul_le_mul_of_nonneg_right hpow unitsPerOne_pos.le
    _ ≤ d.units := (units_bounds hd).1

/-- A decimal with its first digit below `10 ^ -324` is less than half a unit. -/
theorem two_mul_lt_one_of_digits {d : Decimal} (hd : d.significand ≠ 0)
    (h : d.exponent + d.digits.length < -323) : 2 * d.units < 1 := by
  have hpow : (10 : ℚ) ^ (d.leadingExponent + 1) ≤ 10 ^ (-324 : ℤ) :=
    zpow_le_zpow_right₀ (by norm_num) (by rw [leadingExponent]; omega)
  have hone : 2 * (unitsPerOne : ℚ) < 10 ^ 324 := by exact_mod_cast unitsPerOne_lt
  calc 2 * d.units < 2 * (10 ^ (d.leadingExponent + 1) * unitsPerOne) := by
        have := (units_bounds hd).2
        linarith
    _ ≤ 2 * (10 ^ (-324 : ℤ) * unitsPerOne) :=
        mul_le_mul_of_nonneg_left (mul_le_mul_of_nonneg_right hpow unitsPerOne_pos.le) zero_le_two
    _ = 2 * unitsPerOne / 10 ^ 324 := by
        rw [zpow_neg, mul_left_comm, mul_comm, ← div_eq_mul_inv]
        rfl
    _ < 1 := by
        rw [div_lt_one (by positivity)]
        exact hone
/-- A decimal within half a gap of a magnitude, whose gap is that of the magnitude, denotes it:
`Binary64.ofRatio_eq`, once the exponent is neither too small nor too large. -/
theorem toBinary64_eq {d : Decimal} {m : Magnitude} (hm : m.units ≠ 0)
    (hupper : d.units < 2 ^ (53 + gapExponent m.units))
    (hlower : gapExponent m.units = 0 ∨ 2 ^ (52 + gapExponent m.units) ≤ d.units)
    (hnear : |d.units - m.units| < m.gap / 2) : d.toBinary64 = .finite false m := by
  have hgap : (m.gap : ℚ) ≤ m.units := by
    exact_mod_cast Nat.le_of_dvd (Nat.pos_of_ne_zero hm) m.gap_dvd
  have hone : (1 : ℚ) ≤ m.units := by exact_mod_cast Nat.pos_of_ne_zero hm
  obtain ⟨hbelow, habove⟩ := abs_lt.1 hnear
  have hd : d.significand ≠ 0 := by
    intro hzero
    have : d.units = 0 := by rw [units, hzero, Nat.cast_zero, zero_mul, zero_mul]
    linarith
  have hlarge : ¬ 309 < d.exponent + d.digits.length := fun h => by
    have := two_mul_lt_of_digits hd m h
    linarith
  have hsmall : ¬ d.exponent + d.digits.length < -323 := fun h => by
    have := two_mul_lt_one_of_digits hd h
    linarith
  have hden : 0 < Nat.pow 10 (-d.exponent).toNat := Nat.pow_pos (by omega)
  have hratio := ratio_eq d.significand d.exponent
  rw [toBinary64, Binary64.ofDecimal, if_neg hd, if_neg hlarge, if_neg hsmall]
  refine Binary64.ofRatio_eq false hden ?_ (by rw [hratio]; exact hnear)
  have hden' : (0 : ℚ) < (Nat.pow 10 (-d.exponent).toNat : Nat) := by exact_mod_cast hden
  refine gapExponent_eq ?_ (hlower.imp_right fun hlower => ?_)
  · rw [Nat.div_lt_iff_lt_mul hden]
    have h : d.units < 2 ^ (53 + gapExponent m.units) := hupper
    rw [units, ← hratio, div_lt_iff₀ hden'] at h
    exact_mod_cast h
  · rw [Nat.le_div_iff_mul_le hden]
    have h := hlower
    rw [units, ← hratio, le_div_iff₀ hden'] at h
    exact_mod_cast h

end Decimal

/-! ### Seventeen digits -/

namespace Magnitude

/-- The power of ten of the first digit of a magnitude, as `Magnitude.leadingExponent` counts it. -/
theorem leadingExponent_bounds {m : Magnitude} (hm : m.units ≠ 0) :
    (10 : ℚ) ^ m.leadingExponent * unitsPerOne ≤ m.units
      ∧ (m.units : ℚ) < 10 ^ (m.leadingExponent + 1) * unitsPerOne := by
  have hpos : 0 < unitsPerOne := Nat.cast_pos.1 Decimal.unitsPerOne_pos
  by_cases hwhole : m.units / unitsPerOne = 0
  · -- Below one: the zeros behind the point are counted, of which there are fewer than 324.
    obtain ⟨hbelow, hat⟩ := countP_range_of_antitone
      (p := fun k => decide (m.units * Nat.pow 10 (k + 1) < unitsPerOne))
      (fun k h => decide_eq_true <| lt_of_le_of_lt
        (Nat.mul_le_mul_left _ (Nat.pow_le_pow_right (by omega) (by omega)))
        (of_decide_eq_true h)) 324
    have hcount : (List.range 324).countP
        (fun k => decide (m.units * Nat.pow 10 (k + 1) < unitsPerOne)) < 324 := by
      by_contra hge
      have h := of_decide_eq_true (hbelow 323 (by omega))
      simp only [Nat.pow_eq, Nat.reduceAdd] at h
      have hone := Nat.le_mul_of_pos_left (10 ^ 324) (Nat.pos_of_ne_zero hm)
      have hlarge := Decimal.unitsPerOne_lt
      omega
    have hat := of_decide_eq_false (hat hcount)
    simp only [leadingExponent, hwhole, if_true]
    generalize (List.range 324).countP _ = count at hbelow hat ⊢
    have hexponent : -(count : ℤ) - 1 = -((count + 1 : ℕ) : ℤ) := by omega
    have hexponent' : -(count : ℤ) - 1 + 1 = -(count : ℤ) := by omega
    constructor
    · rw [hexponent, zpow_neg, zpow_natCast, inv_mul_le_iff₀ (by positivity), mul_comm]
      exact_mod_cast Nat.le_of_not_lt hat
    · rw [hexponent', zpow_neg, zpow_natCast, lt_inv_mul_iff₀ (by positivity), mul_comm]
      rcases count with - | count
      · have := (Nat.div_eq_zero_iff_lt hpos).1 hwhole
        exact_mod_cast (by omega : m.units * 10 ^ 0 < unitsPerOne)
      · exact_mod_cast of_decide_eq_true (hbelow count (by omega))
  · -- From one on: the digits before the point are counted.
    obtain ⟨hlower, hupper⟩ := length_repr_bounds hwhole
    have hdigits : 0 < (m.units / unitsPerOne).repr.toList.length := by
      rw [Nat.toList_repr]
      exact Nat.length_toDigits_pos
    simp only [leadingExponent, if_neg hwhole, ← String.length_toList]
    generalize (m.units / unitsPerOne).repr.toList.length = count at *
    obtain ⟨k, rfl⟩ : ∃ k, count = k + 1 := ⟨count - 1, by omega⟩
    have hexponent : ((k + 1 : ℕ) : ℤ) - 1 = (k : ℤ) := by omega
    have hexponent' : (k : ℤ) + 1 = ((k + 1 : ℕ) : ℤ) := by omega
    rw [hexponent, hexponent', zpow_natCast, zpow_natCast]
    constructor
    · exact_mod_cast (Nat.le_div_iff_mul_le hpos).1 hlower
    · exact_mod_cast (Nat.div_lt_iff_lt_mul hpos).1 hupper

/-- The decimals next to a magnitude: the magnitude lies between the two. -/
theorem neighbours_bounds (m : Magnitude) (e : ℤ) :
    let quotient := m.units * Nat.pow 10 (-e).toNat / (unitsPerOne * Nat.pow 10 e.toNat)
    Decimal.units ⟨quotient, e⟩ ≤ m.units ∧ (m.units : ℚ) < Decimal.units ⟨quotient + 1, e⟩ := by
  have hpos : 0 < unitsPerOne := Nat.cast_pos.1 Decimal.unitsPerOne_pos
  have hden : 0 < unitsPerOne * Nat.pow 10 e.toNat := Nat.mul_pos hpos (Nat.pow_pos (by omega))
  have hpow : (0 : ℚ) < (Nat.pow 10 (-e).toNat : ℕ) := Nat.cast_pos.2 (Nat.pow_pos (by omega))
  intro quotient
  have hlower : quotient * (unitsPerOne * Nat.pow 10 e.toNat) ≤ m.units * Nat.pow 10 (-e).toNat :=
    Nat.div_mul_le_self _ _
  have hupper : m.units * Nat.pow 10 (-e).toNat
      < (quotient + 1) * (unitsPerOne * Nat.pow 10 e.toNat) :=
    Nat.lt_mul_of_div_lt (Nat.lt_succ_self _) hden
  constructor
  · rw [Decimal.units, ← Decimal.ratio_eq, div_le_iff₀ hpow]
    rw [Nat.mul_comm unitsPerOne, ← Nat.mul_assoc] at hlower
    exact_mod_cast hlower
  · rw [Decimal.units, ← Decimal.ratio_eq, lt_div_iff₀ hpow]
    rw [Nat.mul_comm unitsPerOne, ← Nat.mul_assoc] at hupper
    exact_mod_cast hupper

/-- One step further on the grid of decimals with one exponent. -/
theorem units_succ (quotient : ℕ) (e : ℤ) : Decimal.units ⟨quotient + 1, e⟩
    = Decimal.units ⟨quotient, e⟩ + 10 ^ e * unitsPerOne := by
  simp only [Decimal.units, Nat.cast_add, Nat.cast_one]
  generalize (unitsPerOne : ℚ) = units
  ring

/-- A power of two with the exponent of the gap added is that many gaps. -/
theorem two_pow_add_gapExponent (m : Magnitude) (k : ℕ) :
    (2 : ℚ) ^ (k + gapExponent m.units) = 2 ^ k * m.gap := by
  rw [pow_add, gap]
  push_cast
  rfl

/-- A magnitude is a number of gaps below `2 ^ 53`, so the next one is not above that. -/
theorem units_add_gap_le (m : Magnitude) : m.units + m.gap ≤ 2 ^ 53 * m.gap := by
  obtain ⟨q, hq⟩ := m.gap_dvd
  have hlt : m.units < 2 ^ 53 * m.gap := by
    rw [gap, ← Nat.pow_add]
    exact lt_two_pow_gapExponent m.units
  have hq' : q < 2 ^ 53 := by
    rw [hq, Nat.mul_comm] at hlt
    exact Nat.lt_of_mul_lt_mul_right hlt
  rw [hq, Nat.mul_comm, ← Nat.succ_mul]
  exact Nat.mul_le_mul_right _ hq'

/-- A magnitude less than one gap above a power of two is that power. -/
theorem units_eq_of_lt {m : Magnitude} (hlower : 2 ^ 52 * m.gap ≤ m.units)
    (hupper : m.units < (2 ^ 52 + 1) * m.gap) : m.units = 2 ^ 52 * m.gap := by
  obtain ⟨q, hq⟩ := m.gap_dvd
  rw [hq, Nat.mul_comm m.gap q] at hlower hupper
  have hlower := Nat.le_of_mul_le_mul_right hlower m.gap_pos
  have hupper := Nat.lt_of_mul_lt_mul_right hupper
  rw [show q = 2 ^ 52 by omega, Nat.mul_comm] at hq
  exact hq

/-- **One of two neighbours among the decimals of seventeen digits denotes the magnitude.** They are
closer to each other than half a gap, so the nearer one is rounded to the magnitude by
`toBinary64_eq`; just above a power of two, where the gap below is smaller, `units_eq_of_lt` leaves
that power. -/
theorem toBinary64_neighbour {m : Magnitude} (hm : m.units ≠ 0) {quotient : ℕ} {e : ℤ}
    (he : e = m.leadingExponent - 16) (hlower : Decimal.units ⟨quotient, e⟩ ≤ m.units)
    (hupper : (m.units : ℚ) < Decimal.units ⟨quotient + 1, e⟩) :
    Decimal.toBinary64 ⟨quotient, e⟩ = .finite false m
      ∨ Decimal.toBinary64 ⟨quotient + 1, e⟩ = .finite false m := by
  have hgrid := units_succ quotient e
  -- one step of the grid is less than one gap, as 53 binary digits are below `10 ^ 16`
  have hfirst : (10 : ℚ) ^ e * unitsPerOne * 10 ^ 16 ≤ m.units := by
    have h := (leadingExponent_bounds hm).1
    rw [show m.leadingExponent = e + 16 by omega, zpow_add₀ (by norm_num)] at h
    rw [mul_right_comm]
    exact_mod_cast h
  have hlast : (m.units : ℚ) + m.gap ≤ 2 ^ 53 * m.gap := by exact_mod_cast m.units_add_gap_le
  have htop := two_pow_add_gapExponent m 53
  have hbottom := two_pow_add_gapExponent m 52
  have hgap : (0 : ℚ) < m.gap := by exact_mod_cast m.gap_pos
  have hfull : gapExponent m.units = 0 ∨ (2 : ℚ) ^ 52 * m.gap ≤ m.units := by
    refine or_iff_not_imp_left.2 fun h => ?_
    rw [← hbottom]
    exact_mod_cast two_pow_le_of_gapExponent h
  generalize (10 : ℚ) ^ e * unitsPerOne = step at hgrid hfirst
  rw [hgrid] at hupper
  by_cases hnear : Decimal.units ⟨quotient, e⟩ + step - m.units < m.gap / 2
  · refine .inr (Decimal.toBinary64_eq hm ?_ ?_ ?_)
    · rw [htop, hgrid]
      linarith
    · rw [hbottom, hgrid]
      exact hfull.imp_right fun h => by linarith
    · rw [hgrid, abs_of_pos (by linarith)]
      exact hnear
  · have hhalf : (m.units : ℚ) - Decimal.units ⟨quotient, e⟩ < m.gap / 2 := by
      norm_num at hfirst hlast
      linarith
    refine .inl (Decimal.toBinary64_eq hm ?_ ?_ ?_)
    · rw [htop]
      linarith
    · rw [hbottom]
      refine hfull.imp_right fun h => ?_
      by_contra hbelow
      -- then the magnitude is a power of two, where the grid is finer than half a gap
      have habove : (m.units : ℚ) < (2 ^ 52 + 1) * m.gap := by
        norm_num at hfirst hlast hbelow ⊢
        linarith
      have hunits : (m.units : ℚ) = 2 ^ 52 * m.gap := by
        exact_mod_cast units_eq_of_lt (by exact_mod_cast h) (by exact_mod_cast habove)
      norm_num at hfirst hunits hbelow hnear
      linarith
    · rw [abs_sub_comm, abs_of_nonneg (by linarith)]
      exact hhalf

/-- A decimal that `decimalWith?` finds reads back, because it is tested for that. -/
theorem toBinary64_of_decimalWith? {m : Magnitude} {count : ℕ} {d : Decimal}
    (h : m.decimalWith? count = some d) : d.toBinary64 = .finite false m := by
  simp only [decimalWith?] at h
  split at h
  · rename_i hlower
    split at h
    · rename_i hupper
      split at h
      · cases h
        exact hlower
      · cases h
        exact hupper
    · cases h
      exact hlower
  · split at h
    · rename_i hupper
      cases h
      exact hupper
    · cases h

/-- **Seventeen digits suffice**, by `toBinary64_neighbour`. -/
theorem isSome_decimalWith?_seventeen {m : Magnitude} (hm : m.units ≠ 0) :
    (m.decimalWith? 17).isSome = true := by
  have hexponent : m.leadingExponent - (((17 : ℕ) : ℤ) - 1) = m.leadingExponent - 16 := by omega
  obtain ⟨hlower, hupper⟩ := neighbours_bounds m (m.leadingExponent - 16)
  have h := toBinary64_neighbour hm rfl hlower hupper
  simp only [decimalWith?, hexponent]
  rcases h with hlower | hupper
  · simp only [hlower, if_true]
    split
    · split <;> rfl
    · rfl
  · simp only [hupper, if_true]
    split
    · split <;> rfl
    · rfl

end Magnitude

namespace Decimal

/-- Zeros taken off the end by `stripZeros` do not change the number. Induction on how many may be
taken off. -/
theorem toBinary64_stripZeros (bound : ℕ) (d : Decimal) :
    (d.stripZeros bound).toBinary64 = d.toBinary64 := by
  induction bound generalizing d with
  | zero => rfl
  | succ bound ih =>
    rw [stripZeros]
    split
    · rename_i h
      have hquotient : d.significand / 10 ≠ 0 := by omega
      have hmul : d.significand / 10 * 10 = d.significand := by omega
      have hshift := Binary64.ofDecimal_shift hquotient false
        (d.significand / 10).repr.toList.length (d.exponent + 1)
      rw [← length_repr_mul_ten hquotient, hmul, Int.add_sub_cancel] at hshift
      rw [ih]
      exact hshift.symm
    · rfl

/-- A decimal that denotes a magnitude other than zero does not have the significand zero. -/
theorem significand_ne_zero {d : Decimal} {m : Magnitude} (hm : m.units ≠ 0)
    (h : d.toBinary64 = .finite false m) : d.significand ≠ 0 := by
  intro hzero
  rw [toBinary64, Binary64.ofDecimal, if_pos hzero] at h
  cases h
  exact hm rfl

end Decimal

/-- **The shortest decimal denotes the magnitude.** The first number of digits that works is taken,
and there is one by `isSome_decimalWith?_seventeen`. -/
theorem Magnitude.toBinary64_shortest {m : Magnitude} (hm : m.units ≠ 0) :
    m.shortest.toBinary64 = .finite false m := by
  rw [shortest]
  split
  · rename_i d hfound
    obtain ⟨k, -, hk⟩ := List.exists_of_findSome?_eq_some hfound
    rw [Decimal.toBinary64_stripZeros]
    exact toBinary64_of_decimalWith? hk
  · rename_i hnone
    have h := List.findSome?_eq_none_iff.1 hnone 16 (by simp)
    have hseventeen := isSome_decimalWith?_seventeen hm
    rw [h] at hseventeen
    cases hseventeen

end Templating
