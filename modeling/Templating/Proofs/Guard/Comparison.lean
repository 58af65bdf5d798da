import Templating.Guard.Eval
import Templating.Proofs.Value.Equality

/-!
# The laws of comparison

What a guard says about two operands is sound as long as neither holds a not-a-number: equality is
an equivalence that never relates operands of different kinds, and numbers are ordered by their
exact values, whether they are integers of any size or floating point numbers. Nothing but numbers
is ordered. It makes no difference then whether both operands were read at one place.

## Main definitions

* `IsComparable`: an operand that holds no not-a-number.
* `ComparisonLaws`: what is expected of comparison.

## Main results

* `Operands.equal_iff`: when operands that were read apart are equal.
* `related_numbers`: numbers are compared by exact value.
* `related_laws`: comparison obeys its laws.
-/

namespace Templating.Guard

/-- An operand that is absent, or a value without a not-a-number in which no key is entered
twice. -/
def IsComparable (x : Option Value) : Prop :=
  ∀ v, x = some v → v.IsComparable

/-! ### Equality -/

section Equality

variable {x y z : Option Value}

/-- Operands that were read apart are equal if they are of one kind (`kindOf`), and absent or equal
values (`Value.equal`). -/
theorem Operands.equal_iff : Operands.equal ⟨x, y, false⟩ = true ↔ kindOf x = kindOf y
    ∧ (kindOf x = .absent ∨ ∃ v w, x = some v ∧ y = some w ∧ v.equal w = true) := by
  rcases x with - | v <;> rcases y with - | w
  · simp [equal, kindOf]
  · cases w <;> simp [equal, kindOf]
  · cases v <;> simp [equal, kindOf]
  · cases v <;> cases w <;> simp [equal, kindOf, Value.isNull, Value.equal]

/-- An operand without a not-a-number is equal to itself, also where it is read twice, by
`Value.equal_refl`. -/
theorem equal_refl (hx : IsComparable x) : Operands.equal ⟨x, x, false⟩ = true := by
  refine Operands.equal_iff.2 ⟨rfl, ?_⟩
  cases x with
  | none => exact .inl rfl
  | some v => exact .inr ⟨v, v, rfl, rfl, Value.equal_refl (hx v rfl)⟩

/-- Equality goes both ways between operands in which no key is entered twice, by
`Value.equal_symm`. -/
theorem equal_symm (hx : IsComparable x) (hy : IsComparable y)
    (h : Operands.equal ⟨x, y, false⟩ = true) : Operands.equal ⟨y, x, false⟩ = true := by
  obtain ⟨hkind, habsent | ⟨v, w, rfl, rfl, hequal⟩⟩ := Operands.equal_iff.1 h
  · exact Operands.equal_iff.2 ⟨hkind.symm, .inl (hkind.symm.trans habsent)⟩
  · have hsymm := Value.equal_symm (hx v rfl).unique (hy w rfl).unique hequal
    exact Operands.equal_iff.2 ⟨hkind.symm, .inr ⟨w, v, rfl, rfl, hsymm⟩⟩

/-- Equality of operands is transitive, whatever they hold: their kinds agree, and values are
compared by `Value.equal_trans`. -/
theorem equal_trans (hxy : Operands.equal ⟨x, y, false⟩ = true)
    (hyz : Operands.equal ⟨y, z, false⟩ = true) : Operands.equal ⟨x, z, false⟩ = true := by
  obtain ⟨hkind, hfirst⟩ := Operands.equal_iff.1 hxy
  obtain ⟨hkind', hsecond⟩ := Operands.equal_iff.1 hyz
  refine Operands.equal_iff.2 ⟨hkind.trans hkind', ?_⟩
  rcases hfirst with habsent | ⟨u, v, rfl, rfl, huv⟩
  · exact .inl habsent
  · rcases hsecond with habsent | ⟨v', w, hv, rfl, hvw⟩
    · exact .inl (hkind.trans habsent)
    · cases hv
      exact .inr ⟨u, w, rfl, rfl, Value.equal_trans huv hvw⟩

/-- What is equal to itself is so wherever it was read, so the flag of `Operands` that says that
both were read at one place makes no difference. -/
theorem related_shared (r : Relation) (hx : IsComparable x) :
    related r ⟨x, x, true⟩ = related r ⟨x, x, false⟩ := by
  have hequal : Operands.equal ⟨x, x, true⟩ = Operands.equal ⟨x, x, false⟩ := by
    rw [equal_refl hx]
    rcases x with - | v
    · rfl
    · cases v with
      | list items => rfl
      | mapping entries => rfl
      | _ => exact equal_refl hx
  cases r with
  | equal => exact hequal
  | unequal => exact congrArg not hequal
  | _ => rfl

theorem kindOf_eq_of_equal {o : Operands} (h : o.equal = true) :
    kindOf o.left = kindOf o.right := by
  rw [Operands.equal, Bool.and_eq_true, decide_eq_true_iff] at h
  exact h.1

end Equality

/-! ### Order -/

section Order

variable {m n : Number} {a b : WithBot (WithTop ℚ)} {shared : Bool}

/-- **Numbers are compared by exact value** (`Number.exactValue?`), as rational numbers with the two
infinities. Integers and floating point numbers are not rounded to each other first. -/
theorem related_numbers (hm : m.exactValue? = some a) (hn : n.exactValue? = some b) :
    related .equal ⟨some (.number m), some (.number n), shared⟩ = decide (a = b)
      ∧ related .less ⟨some (.number m), some (.number n), shared⟩ = decide (a < b)
      ∧ related .atMost ⟨some (.number m), some (.number n), shared⟩ = decide (a ≤ b)
      ∧ related .greater ⟨some (.number m), some (.number n), shared⟩ = decide (b < a)
      ∧ related .atLeast ⟨some (.number m), some (.number n), shared⟩ = decide (b ≤ a) :=
  ⟨Number.same_eq_decide hm hn, Number.less_eq_decide hm hn, Number.atMost_eq_decide hm hn,
    Number.less_eq_decide hn hm, Number.atMost_eq_decide hn hm⟩

/-- Only numbers are ordered: `Operands.ordered` is false for operands of any other kind. -/
theorem ordered_eq_false {o : Operands} (order : Number → Number → Bool)
    (h : kindOf o.left ≠ .number ∨ kindOf o.right ≠ .number) : o.ordered order = false := by
  rw [Operands.ordered]
  split
  · rename_i hleft hright
    simp [hleft, hright, kindOf] at h
  · rfl

/-- If one operand stands in an order to another, both are numbers, and the numbers stand in that
order. -/
theorem exists_number_of_ordered {o : Operands} {order : Number → Number → Bool}
    (h : o.ordered order = true) :
    ∃ m n, o.left = some (.number m) ∧ o.right = some (.number n) ∧ order m n = true := by
  rw [Operands.ordered] at h
  split at h
  · rename_i m n hleft hright
    exact ⟨m, n, hleft, hright, h⟩
  · cases h

/-- What is smaller than something smaller is smaller: the operands are numbers by
`exists_number_of_ordered`, and their exact values are ordered by `Number.less_iff`. -/
theorem related_less_trans {x y z : Option Value} (hxy : related .less ⟨x, y, false⟩ = true)
    (hyz : related .less ⟨y, z, false⟩ = true) : related .less ⟨x, z, false⟩ = true := by
  obtain ⟨l, m, rfl, rfl, hlm⟩ := exists_number_of_ordered hxy
  obtain ⟨m', n, hm', rfl, hmn⟩ := exists_number_of_ordered hyz
  cases hm'
  obtain ⟨a, b, ha, hb, hab⟩ := Number.less_iff.1 hlm
  obtain ⟨b', c, hb', hc, hbc⟩ := Number.less_iff.1 hmn
  cases hb.symm.trans hb'
  exact Number.less_iff.2 ⟨a, c, ha, hc, hab.trans hbc⟩

/-- One number is smaller than another, equal to it or greater, and only one of these, by
`related_numbers` and the trichotomy of the exact values. -/
theorem countP_related (hm : IsComparable (some (.number m)))
    (hn : IsComparable (some (.number n))) : [Relation.less, .equal, .greater].countP
      (related · ⟨some (.number m), some (.number n), shared⟩) = 1 := by
  obtain ⟨a, ha⟩ := (hm _ rfl).exists_exactValue?
  obtain ⟨b, hb⟩ := (hn _ rfl).exists_exactValue?
  obtain ⟨hequal, hless, -, hgreater, -⟩ := @related_numbers m n a b shared ha hb
  rw [List.countP_cons, List.countP_cons, List.countP_singleton, hequal, hless, hgreater]
  rcases lt_trichotomy a b with hlt | rfl | hgt
  · simp [hlt, hlt.ne, hlt.not_gt]
  · simp
  · simp [hgt, hgt.ne', hgt.not_gt]

end Order

/-! ### The laws -/

/-- What is expected of comparison, of which `related` is the one that guards use. -/
structure ComparisonLaws (compare : Relation → Operands → Bool) : Prop where
  /-- It makes no difference whether both operands were read at one place. -/
  shared : ∀ r x, IsComparable x → compare r ⟨x, x, true⟩ = compare r ⟨x, x, false⟩
  /-- Equality is reflexive, symmetric and transitive. -/
  equivalence : Equivalence fun x y : { x : Option Value // IsComparable x } =>
    compare .equal ⟨x, y, false⟩ = true
  /-- Equal operands are of one kind. -/
  kinds : ∀ o, compare .equal o = true → kindOf o.left = kindOf o.right
  /-- Operands are unequal if they are not equal. -/
  unequal : ∀ o, compare .unequal o = !compare .equal o
  /-- Numbers are compared by exact value. -/
  numbers : ∀ m n a b shared, m.exactValue? = some a → n.exactValue? = some b →
    compare .equal ⟨some (.number m), some (.number n), shared⟩ = decide (a = b)
      ∧ compare .less ⟨some (.number m), some (.number n), shared⟩ = decide (a < b)
      ∧ compare .atMost ⟨some (.number m), some (.number n), shared⟩ = decide (a ≤ b)
      ∧ compare .greater ⟨some (.number m), some (.number n), shared⟩ = decide (b < a)
      ∧ compare .atLeast ⟨some (.number m), some (.number n), shared⟩ = decide (b ≤ a)
  /-- Of two numbers one is smaller, or they are equal, or it is greater, and only one of these. -/
  trichotomy : ∀ m n shared, IsComparable (some (.number m)) → IsComparable (some (.number n)) →
    [Relation.less, .equal, .greater].countP
      (compare · ⟨some (.number m), some (.number n), shared⟩) = 1
  /-- A number is at most another if it is smaller or equal. -/
  atMost : ∀ m n shared, compare .atMost ⟨some (.number m), some (.number n), shared⟩
    = (compare .less ⟨some (.number m), some (.number n), shared⟩
      || compare .equal ⟨some (.number m), some (.number n), shared⟩)
  /-- A number is at least another if it is greater or equal. -/
  atLeast : ∀ m n shared, compare .atLeast ⟨some (.number m), some (.number n), shared⟩
    = (compare .greater ⟨some (.number m), some (.number n), shared⟩
      || compare .equal ⟨some (.number m), some (.number n), shared⟩)
  /-- What is smaller than something smaller is smaller. -/
  less_trans : ∀ x y z, compare .less ⟨x, y, false⟩ = true → compare .less ⟨y, z, false⟩ = true →
    compare .less ⟨x, z, false⟩ = true
  /-- Where one operand is no number, neither is smaller, greater, at most or at least the
  other. -/
  unordered : ∀ o, kindOf o.left ≠ .number ∨ kindOf o.right ≠ .number →
    ∀ r ∈ [Relation.less, .atMost, .greater, .atLeast], compare r o = false

/-- **Comparison obeys its laws.** Each field is one of the lemmas above. -/
theorem related_laws : ComparisonLaws related where
  shared r _ hx := related_shared r hx
  equivalence :=
    ⟨fun x => equal_refl x.2, fun {x y} => equal_symm x.2 y.2, fun h h' => equal_trans h h'⟩
  kinds _ h := kindOf_eq_of_equal h
  unequal _ := rfl
  numbers _ _ _ _ _ hm hn := related_numbers hm hn
  trichotomy _ _ _ hm hn := countP_related hm hn
  atMost _ _ _ := rfl
  atLeast m n _ := congrArg (n.less m || ·) (Number.same_comm n m)
  less_trans _ _ _ hxy hyz := related_less_trans hxy hyz
  unordered o h r hr := by
    simp only [List.mem_cons, List.not_mem_nil, or_false] at hr
    rcases hr with rfl | rfl | rfl | rfl <;> exact ordered_eq_false _ h

/-- Mappings with their entries in different orders, a truth value in the place of a number and an
integer in the place of a floating point number are equal both ways; and the floating point number
that an integer would be rounded to is smaller than it and not equal to it. -/
theorem related_laws_reordered :
    related .equal ⟨some (.mapping [("a", .int 1), ("b", .list [.binary (.ofInt 2)])]),
        some (.mapping [("b", .list [.int 2]), ("a", .bool true)]), false⟩ = true
      ∧ related .equal ⟨some (.mapping [("b", .list [.int 2]), ("a", .bool true)]),
        some (.mapping [("a", .int 1), ("b", .list [.binary (.ofInt 2)])]), false⟩ = true
      ∧ related .less ⟨some (.binary (.ofInt (2 ^ 53 + 1))), some (.int (2 ^ 53 + 1)), false⟩ = true
      ∧ related .equal ⟨some (.binary (.ofInt (2 ^ 53 + 1))), some (.int (2 ^ 53 + 1)), false⟩
        = false := by
  have hx : IsComparable (some (.mapping [("a", .int 1), ("b", .list [.binary (.ofInt 2)])])) := by
    rintro v ⟨⟩
    exact ⟨by decide +kernel, by decide +kernel⟩
  have hy : IsComparable (some (.mapping [("b", .list [.int 2]), ("a", .bool true)])) := by
    rintro v ⟨⟩
    exact ⟨by decide +kernel, by decide +kernel⟩
  have hequal : related .equal
      ⟨some (.mapping [("a", .int 1), ("b", .list [.binary (.ofInt 2)])]),
        some (.mapping [("b", .list [.int 2]), ("a", .bool true)]), false⟩ = true := by
    decide +kernel
  refine ⟨hequal, related_laws.equivalence.symm (x := ⟨_, hx⟩) (y := ⟨_, hy⟩) hequal, ?_, ?_⟩
  · decide +kernel
  · decide +kernel

end Templating.Guard
