import Mathlib.Order.WithBot
import Templating.Number.Order
import Templating.Proofs.Number.Shortest

/-!
# Comparison by exact value

An integer has its own value, of whatever size it is, and a finite floating point number is a
whole multiple of `2 ^ -1074`. The comparisons of numbers go by places on a line of such
multiples; here they are shown to be the comparisons of the exact values among the rational
numbers, with an infinity below and one above all of them. No integer is rounded on the way.

## Main definitions

* `Number.exactValue?`: the exact value of a number; none for not-a-number.
* `Place.value`: the value at a place of the line.

## Main results

* `Place.before_iff`, `Place.value_injective`: places are ordered as their values.
* `Number.less_eq_decide`, `Number.same_eq_decide`, `Number.atMost_eq_decide`: comparison is by
  exact value.
-/

namespace Templating

namespace Place

/-- The value at a place of the line, a rational number or one of the two infinities. -/
def value : Place → WithBot (WithTop ℚ)
  | bottom => ⊥
  | units u => ((u / unitsPerOne : ℚ) : WithTop ℚ)
  | top => ((⊤ : WithTop ℚ) : WithBot (WithTop ℚ))

/-- Places are ordered by `before` as their values are. -/
theorem before_iff {p q : Place} : p.before q = true ↔ p.value < q.value := by
  cases p with
  | bottom =>
    cases q with
    | bottom => exact iff_of_false Bool.false_ne_true (lt_irrefl _)
    | units v => exact iff_of_true rfl (WithBot.bot_lt_coe _)
    | top => exact iff_of_true rfl (WithBot.bot_lt_coe _)
  | units u =>
    cases q with
    | bottom => exact iff_of_false Bool.false_ne_true not_lt_bot
    | units v =>
      rw [value, value, WithBot.coe_lt_coe, WithTop.coe_lt_coe,
        div_lt_div_iff_of_pos_right Decimal.unitsPerOne_pos, Int.cast_lt]
      exact decide_eq_true_iff
    | top => exact iff_of_true rfl (WithBot.coe_lt_coe.2 (WithTop.coe_lt_top _))
  | top =>
    cases q with
    | bottom => exact iff_of_false Bool.false_ne_true not_lt_bot
    | units v => exact iff_of_false Bool.false_ne_true fun h => not_top_lt (WithBot.coe_lt_coe.1 h)
    | top => exact iff_of_false Bool.false_ne_true (lt_irrefl _)

/-- Of two different places one lies before the other. -/
theorem before_or_before_of_ne {p q : Place} (h : p ≠ q) :
    p.before q = true ∨ q.before p = true := by
  cases p <;> cases q <;> simp_all [before]

/-- Different places have different values, since one lies before the other
(`before_or_before_of_ne`). -/
theorem value_injective : Function.Injective value := by
  intro p q hvalue
  by_contra hne
  rcases before_or_before_of_ne hne with hbefore | hbefore
  · exact (before_iff.1 hbefore).ne hvalue
  · exact (before_iff.1 hbefore).ne' hvalue

end Place

namespace Number

/-- The exact value of a number among the rational numbers and the two infinities; none for
not-a-number. -/
def exactValue? : Number → Option (WithBot (WithTop ℚ))
  | int i => some ((i : ℚ) : WithTop ℚ)
  | binary .nan => none
  | binary (.infinite negative) => some (if negative then ⊥ else (⊤ : WithTop ℚ))
  | binary (.finite negative m) =>
    some (((if negative then -(m.units : ℚ) else m.units) / 2 ^ 1074 : ℚ) : WithTop ℚ)

/-- **The exact value is the one at the number's place**, for integers and floating point numbers
alike. -/
theorem exactValue?_eq (n : Number) : n.exactValue? = n.place.map Place.value := by
  cases n with
  | int i =>
    have hone : ((i * unitsPerOne : Int) : ℚ) / unitsPerOne = i := by
      rw [Int.cast_mul, Int.cast_natCast, mul_div_cancel_right₀ _ Decimal.unitsPerOne_pos.ne']
    rw [exactValue?, place, Option.map_some, Place.value, hone]
  | binary x =>
    cases x with
    | nan => rfl
    | infinite negative => cases negative <;> rfl
    | finite negative m =>
      have hunits : (2 : ℚ) ^ 1074 = unitsPerOne := by decide +kernel
      rw [exactValue?, place, Option.map_some, Place.value, hunits]
      cases negative
      · rw [if_neg Bool.false_ne_true, if_neg Bool.false_ne_true, Int.cast_natCast]
      · rw [if_pos rfl, if_pos rfl, Int.cast_neg, Int.cast_natCast]

variable {m n : Number} {a b : WithBot (WithTop ℚ)}

/-- A number with an exact value has a place on the line of numbers, with that value. -/
theorem exists_place_of_exactValue? (h : n.exactValue? = some a) :
    ∃ p, n.place = some p ∧ p.value = a := by
  rw [exactValue?_eq] at h
  exact Option.map_eq_some_iff.1 h

/-- One number is smaller than another if its exact value is: `Place.before_iff` at their places. -/
theorem less_eq_decide (hm : m.exactValue? = some a) (hn : n.exactValue? = some b) :
    m.less n = decide (a < b) := by
  obtain ⟨p, hp, rfl⟩ := exists_place_of_exactValue? hm
  obtain ⟨q, hq, rfl⟩ := exists_place_of_exactValue? hn
  rw [less, hp, hq, Bool.eq_iff_iff, decide_eq_true_iff]
  exact Place.before_iff

/-- Only numbers with an exact value are smaller than others. -/
theorem less_iff : m.less n = true
    ↔ ∃ a b, m.exactValue? = some a ∧ n.exactValue? = some b ∧ a < b := by
  constructor
  · intro h
    rw [less] at h
    split at h
    · rename_i p q hp hq
      refine ⟨p.value, q.value, ?_, ?_, Place.before_iff.1 h⟩
      · rw [exactValue?_eq, hp, Option.map_some]
      · rw [exactValue?_eq, hq, Option.map_some]
    · cases h
  · rintro ⟨a, b, hm, hn, hlt⟩
    rw [less_eq_decide hm hn, decide_eq_true_iff]
    exact hlt

/-- Two numbers are the same if their exact values are, by `Place.value_injective`. -/
theorem same_eq_decide (hm : m.exactValue? = some a) (hn : n.exactValue? = some b) :
    m.same n = decide (a = b) := by
  obtain ⟨p, hp, rfl⟩ := exists_place_of_exactValue? hm
  obtain ⟨q, hq, rfl⟩ := exists_place_of_exactValue? hn
  rw [same, hp, hq]
  exact decide_eq_decide.2 Place.value_injective.eq_iff.symm

/-- Whether two numbers are the same does not depend on their order. -/
theorem same_comm (m n : Number) : m.same n = n.same m := by
  rw [same, same]
  cases m.place <;> cases n.place <;> simp [eq_comm]

/-- One number is at most another if its exact value is, by `less_eq_decide` and
`same_eq_decide`. -/
theorem atMost_eq_decide (hm : m.exactValue? = some a) (hn : n.exactValue? = some b) :
    m.atMost n = decide (a ≤ b) := by
  rw [atMost, less_eq_decide hm hn, same_eq_decide hm hn, ← Bool.decide_or]
  exact decide_eq_decide.2 le_iff_lt_or_eq.symm

/-- A number has a place on the line unless it is not-a-number. -/
theorem isSome_place_iff : n.place.isSome = true ↔ n ≠ .binary .nan := by
  cases n with
  | int i => exact iff_of_true rfl nofun
  | binary x =>
    cases x with
    | nan => exact iff_of_false Bool.false_ne_true fun h => h rfl
    | infinite negative => exact iff_of_true (by cases negative <;> rfl) nofun
    | finite negative m => exact iff_of_true rfl nofun

/-- The numbers that are the same as one are those at its place. -/
theorem same_iff_of_place {p : Place} (hm : m.place = some p) :
    m.same n = true ↔ n.place = some p := by
  rw [same, hm]
  cases n.place <;> simp [eq_comm]

end Number

end Templating
