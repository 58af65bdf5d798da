import Templating.Proofs.Number.Rounding

/-!
# Integers beyond the floating point numbers

An integer is rounded to the nearest floating point number. The largest finite one lies as far
below `2 ^ 1024` as two times `2 ^ 970`, so the integers from `2 ^ 1024 - 2 ^ 970` on, the middle
between the two included, round to `2 ^ 1024`, and that is no finite number any more.

## Main results

* `roundedQuotient_lt_iff`: when a quotient is rounded below an even number.
* `isRepresentable_roundedUnits`: rounding fails only by size.
* `Binary64.isSome_ofInt?_iff`: the integers that have a finite number.
-/

namespace Templating

/-! ### Rounding below an even number -/

/-- A rounded quotient is at least the quotient rounded down. -/
theorem div_le_roundedQuotient (n d : Nat) : n / d ≤ roundedQuotient n d := by
  rw [roundedQuotient]
  split_ifs <;> omega

/-- And `roundedQuotient` is larger by at most one. -/
theorem roundedQuotient_le_succ (n d : Nat) : roundedQuotient n d ≤ n / d + 1 := by
  rw [roundedQuotient]
  split_ifs <;> omega

/-- A quotient is rounded below an even number if it lies more than a half below it: the half
itself goes to the even number. -/
theorem roundedQuotient_lt_iff {n d k : Nat} (hd : 0 < d) (hk : k % 2 = 0) :
    roundedQuotient n d < k ↔ 2 * n + d < 2 * (d * k) := by
  have hdiv := Nat.div_add_mod n d
  have hmod := Nat.mod_lt n hd
  have hbelow := div_le_roundedQuotient n d
  have habove := roundedQuotient_le_succ n d
  rcases Nat.lt_trichotomy (n / d + 1) k with hlt | rfl | hgt
  · have hmul : d * (n / d + 2) ≤ d * k := Nat.mul_le_mul_left d hlt
    rw [Nat.mul_add] at hmul
    omega
  · have hodd : n / d % 2 = 1 := by omega
    have hrounded : roundedQuotient n d < n / d + 1 ↔ 2 * (n % d) < d := by
      rw [roundedQuotient]
      split_ifs <;> omega
    rw [Nat.mul_add, Nat.mul_one]
    omega
  · have hmul : d * k ≤ d * (n / d) := Nat.mul_le_mul_left d (by omega)
    omega

/-! ### Rounded ratios of units -/

theorem unitsPerOne_eq : unitsPerOne = 2 ^ 1074 := by decide +kernel

/-- `roundedUnits` are a multiple of the gap of the quotient. -/
theorem roundedUnits_eq_mul (n d : Nat) : roundedUnits n d
    = roundedQuotient n (d * 2 ^ gapExponent (n / d)) * 2 ^ gapExponent (n / d) := rfl

/-- The significand of a rounded ratio has at most 53 binary digits, or is the next power of two, to
which `roundedQuotient` may round up. -/
theorem roundedQuotient_le_two_pow (n d : Nat) :
    roundedQuotient n (d * 2 ^ gapExponent (n / d)) ≤ 2 ^ 53 := by
  have hupper := lt_two_pow_gapExponent (n / d)
  have hdiv : n / (d * 2 ^ gapExponent (n / d)) < 2 ^ 53 := by
    rw [← Nat.div_div_eq_div_mul]
    refine Nat.div_lt_of_lt_mul ?_
    rwa [← Nat.pow_add, Nat.add_comm]
  exact Nat.le_trans (roundedQuotient_le_succ _ _) hdiv

/-- The gap that belongs to a significand with an exponent divides it. -/
theorem two_pow_gapExponent_dvd {q : Nat} (h : q ≤ 2 ^ 53) (g : Nat) :
    2 ^ gapExponent (q * 2 ^ g) ∣ q * 2 ^ g := by
  have hgap {k : Nat} (hlt : q * 2 ^ g < 2 ^ (53 + k)) : gapExponent (q * 2 ^ g) ≤ k := by
    have hlength := bitLength_le_iff.2 hlt
    rw [gapExponent]
    omega
  rcases Nat.lt_or_eq_of_le h with hlt | rfl
  · have hle := hgap (k := g) <| by
      rw [Nat.pow_add]
      exact Nat.mul_lt_mul_of_pos_right hlt (Nat.two_pow_pos g)
    exact (Nat.pow_dvd_pow 2 hle).trans (Nat.dvd_mul_left _ _)
  · rw [← Nat.pow_add] at hgap ⊢
    have hle := hgap (k := g + 1) (Nat.pow_lt_pow_right (by omega) (by omega))
    exact Nat.pow_dvd_pow 2 (by omega)

/-- A rounded ratio is a magnitude unless it is too large: its gap divides it by
`two_pow_gapExponent_dvd`. -/
theorem isRepresentable_roundedUnits (n d : Nat) :
    isRepresentable (roundedUnits n d) = true ↔ roundedUnits n d < 2 ^ 2098 := by
  have hdvd : 2 ^ gapExponent (roundedUnits n d) ∣ roundedUnits n d :=
    two_pow_gapExponent_dvd (roundedQuotient_le_two_pow n d) _
  rw [isRepresentable, Bool.and_eq_true, decide_eq_true_iff, bitLength_le_iff, beq_iff_eq,
    Nat.pow_eq, and_iff_left (Nat.mod_eq_zero_of_dvd hdvd)]

/-- The magnitudes below a power of two and the whole numbers that are rounded to them: half a gap
of the last ones below the power is `2 ^ half`. -/
theorem roundedUnits_mul_two_pow_lt_iff (a unit half : Nat) :
    roundedUnits (a * 2 ^ unit) 1 < 2 ^ (53 + (unit + half + 1))
      ↔ a + 2 ^ half < 2 ^ (half + 54) := by
  rw [roundedUnits_eq_mul, Nat.div_one, Nat.one_mul]
  have hquotient := roundedQuotient_le_two_pow (a * 2 ^ unit) 1
  rw [Nat.div_one, Nat.one_mul] at hquotient
  have hupper := lt_two_pow_gapExponent (a * 2 ^ unit)
  have hlower := two_pow_le_of_gapExponent (n := a * 2 ^ unit)
  generalize gapExponent (a * 2 ^ unit) = g at hquotient hupper hlower ⊢
  rcases Nat.lt_trichotomy g (unit + half + 1) with hlt | rfl | hgt
  · -- The gap is smaller than that of the bound: both sides hold.
    have hsmall : a < 2 ^ (half + 53) := by
      refine Nat.lt_of_mul_lt_mul_right (a := 2 ^ unit) (Nat.lt_of_lt_of_le hupper ?_)
      rw [← Nat.pow_add]
      exact Nat.pow_le_pow_right Nat.two_pos (by omega)
    refine iff_of_true ?_ ?_
    · calc _ ≤ 2 ^ 53 * 2 ^ g := Nat.mul_le_mul_right _ hquotient
        _ = 2 ^ (53 + g) := (Nat.pow_add 2 53 g).symm
        _ < 2 ^ (53 + (unit + half + 1)) := Nat.pow_lt_pow_right Nat.one_lt_two (by omega)
    · calc a + 2 ^ half < 2 ^ (half + 53) + 2 ^ (half + 53) :=
            Nat.add_lt_add_of_lt_of_le hsmall (Nat.pow_le_pow_right Nat.two_pos (by omega))
        _ = 2 ^ (half + 54) := (Nat.two_pow_succ (half + 53)).symm
  · -- The gap is that of the bound: the rounded quotient decides, and a tie rounds up to the bound.
    have hgap := Nat.two_pow_pos (unit + half + 1)
    rw [Nat.pow_add 2 53, Nat.mul_lt_mul_right hgap, roundedQuotient_lt_iff hgap rfl]
    have hunit : 2 * (a * 2 ^ unit) + 2 ^ (unit + half + 1) = (a + 2 ^ half) * 2 ^ (unit + 1) := by
      ring
    have htop : 2 * (2 ^ (unit + half + 1) * 2 ^ 53) = 2 ^ (half + 54) * 2 ^ (unit + 1) := by
      ring
    rw [hunit, htop, Nat.mul_lt_mul_right (Nat.two_pow_pos _)]
  · -- The gap is larger: neither side holds.
    have hlarge : 2 ^ (half + 54) ≤ a := by
      refine Nat.le_of_mul_le_mul_right ?_ (Nat.two_pow_pos unit)
      rw [← Nat.pow_add]
      exact Nat.le_trans (Nat.pow_le_pow_right Nat.two_pos (by omega)) (hlower (by omega))
    have hrounded : 2 ^ 52 ≤ roundedQuotient (a * 2 ^ unit) (2 ^ g) := by
      refine Nat.le_trans ?_ (div_le_roundedQuotient _ _)
      rw [Nat.le_div_iff_mul_le (Nat.two_pow_pos g), ← Nat.pow_add]
      exact hlower (by omega)
    refine iff_of_false (Nat.not_lt.2 ?_) (Nat.not_lt.2 (Nat.le_add_right_of_le hlarge))
    calc 2 ^ (53 + (unit + half + 1)) ≤ 2 ^ (52 + g) := Nat.pow_le_pow_right Nat.two_pos (by omega)
      _ = 2 ^ 52 * 2 ^ g := Nat.pow_add 2 52 g
      _ ≤ _ := Nat.mul_le_mul_right _ hrounded

namespace Binary64

/-- `ofUnits` gives a finite number if the units are a magnitude. -/
theorem exists_ofUnits_eq_finite_iff {negative : Bool} {units : Nat} :
    (∃ negative' m, ofUnits negative units = finite negative' m)
      ↔ isRepresentable units = true := by
  rw [ofUnits]
  by_cases h : isRepresentable units = true
  · rw [dif_pos h]
    exact iff_of_true ⟨_, _, rfl⟩ h
  · rw [dif_neg h]
    exact iff_of_false (by rintro ⟨negative', m, ⟨⟩⟩) h

/-- A number has a finite value if it is neither infinite nor a not-a-number. -/
theorem isSome_finite?_iff {x : Binary64} :
    x.finite?.isSome = true ↔ ∃ negative m, x = finite negative m := by
  cases x with
  | finite negative m => exact iff_of_true rfl ⟨negative, m, rfl⟩
  | nan => exact iff_of_false Bool.false_ne_true (by rintro ⟨negative, m, ⟨⟩⟩)
  | infinite negative => exact iff_of_false Bool.false_ne_true (by rintro ⟨negative, m, ⟨⟩⟩)

/-- **The integers that have a finite floating point number**: those that lie less than half a gap
beyond the largest one. The bound is `roundedUnits_mul_two_pow_lt_iff` for the largest exponent. -/
theorem isSome_ofInt?_iff (i : Int) :
    (ofInt? i).isSome = true ↔ i.natAbs + 2 ^ 970 < 2 ^ 1024 := by
  have hbound := roundedUnits_mul_two_pow_lt_iff i.natAbs 1074 970
  have hlimit : 53 + (1074 + 970 + 1) = 2098 := rfl
  have htop : 970 + 54 = 1024 := rfl
  rw [hlimit, htop, ← unitsPerOne_eq, ← isRepresentable_roundedUnits] at hbound
  rw [ofInt?, isSome_finite?_iff, ofInt, ofRatio, exists_ofUnits_eq_finite_iff, hbound]

end Binary64

end Templating
