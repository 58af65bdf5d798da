import Templating.Guard.Eval

/-!
# The truth of an expression by recursion

The operands of a run of one connective are evaluated from left to right until one decides. Here
this is shown to be the plain recursion on the tree: the left operand first, and the right one
only if the left does not decide, whichever way the run leans. The two come to the same truth, or
fail with the same fault, so they also meet the same operands first.

## Main definitions

* `Expr.truth`: the truth of an expression by plain recursion on its tree.

## Main results

* `Expr.holds_or`, `Expr.holds_and`: the truth of a connective by that of its two operands.
* `Expr.holds_eq_truth`: evaluating runs of connectives is the plain recursion.
-/

namespace Templating.Guard

section Lists

variable {ε α : Type} (test : α → Except ε Bool)

/-- Asking the items of two lists is asking those of the first, then those of the second unless one
of the first has decided. -/
theorem anyM_append (xs ys : List α) :
    (xs ++ ys).anyM test
      = (xs.anyM test >>= fun b => if b then .ok true else ys.anyM test) := by
  induction xs with
  | nil => rfl
  | cons x xs ih =>
    rw [List.cons_append, List.anyM, List.anyM, ih]
    cases test x with
    | error fault => rfl
    | ok b => cases b <;> rfl

/-- The same where every item has to pass: the second list is only asked if all of the first
pass. -/
theorem allM_append (xs ys : List α) :
    (xs ++ ys).allM test
      = (xs.allM test >>= fun b => if b then ys.allM test else .ok false) := by
  induction xs with
  | nil => rfl
  | cons x xs ih =>
    rw [List.cons_append, List.allM, List.allM, ih]
    cases test x with
    | error fault => rfl
    | ok b => cases b <;> rfl

/-- Asking a single item whether some item passes is asking that item. -/
theorem anyM_singleton (x : α) : [x].anyM test = test x := by
  rw [List.anyM]
  cases test x with
  | error fault => rfl
  | ok b => cases b <;> rfl

/-- Asking a single item whether every item passes is asking that item. -/
theorem allM_singleton (x : α) : [x].allM test = test x := by
  rw [List.allM]
  cases test x with
  | error fault => rfl
  | ok b => cases b <;> rfl

/-- The proofs of membership that the recursion of `Expr.holds` carries along do not change the
answer. -/
theorem anyM_attach (xs : List α) :
    (xs.attach.anyM fun x => test x.1) = xs.anyM test := by
  have hmap : ∀ ys : List { x // x ∈ xs },
      (ys.anyM fun x => test x.1) = (ys.map Subtype.val).anyM test := by
    intro ys
    induction ys with
    | nil => rfl
    | cons y ys ih => rw [List.anyM, List.map_cons, List.anyM, ih]
  rw [hmap, List.attach_map_subtype_val]

/-- The same where every item has to pass. -/
theorem allM_attach (xs : List α) :
    (xs.attach.allM fun x => test x.1) = xs.allM test := by
  have hmap : ∀ ys : List { x // x ∈ xs },
      (ys.allM fun x => test x.1) = (ys.map Subtype.val).allM test := by
    intro ys
    induction ys with
    | nil => rfl
    | cons y ys ih => rw [List.allM, List.map_cons, List.allM, ih]
  rw [hmap, List.attach_map_subtype_val]

end Lists

namespace Expr

variable (configuration : Value)

/-- The truth of an expression is that of some operand of its run of disjunctions,
`Expr.disjuncts`. -/
theorem anyM_disjuncts (e : Expr) :
    e.disjuncts.anyM (holds configuration) = holds configuration e := by
  cases e with
  | or left right =>
    rw [holds]
    exact (anyM_attach (holds configuration) _).symm
  | _ => exact anyM_singleton _ _

/-- The truth of an expression is that of all operands of its run of conjunctions,
`Expr.conjuncts`. -/
theorem allM_conjuncts (e : Expr) :
    e.conjuncts.allM (holds configuration) = holds configuration e := by
  cases e with
  | and left right =>
    rw [holds]
    exact (allM_attach (holds configuration) _).symm
  | _ => exact allM_singleton _ _

/-- The right side of a disjunction is evaluated only if the left one is false. -/
theorem holds_or (left right : Expr) :
    holds configuration (or left right)
      = (holds configuration left >>= fun b =>
        if b then .ok true else holds configuration right) := by
  rw [← anyM_disjuncts, disjuncts, anyM_append, anyM_disjuncts, anyM_singleton]

/-- The right side of a conjunction is evaluated only if the left one is true. -/
theorem holds_and (left right : Expr) :
    holds configuration (and left right)
      = (holds configuration left >>= fun b =>
        if b then holds configuration right else .ok false) := by
  rw [← allM_conjuncts, conjuncts, allM_append, allM_conjuncts, allM_singleton]

/-- The truth of an expression by plain recursion on its tree. A connective evaluates its left
operand, and its right one only if the left one does not decide. A comparison takes the value of a
literal or a path, and the truth of any other operand, the left one first. -/
def truth : Expr → Except Fault Bool
  | literal l => isTruthy (some l.value)
  | path p => isTruthy (configuration.resolve p)
  | not e => do return !(← truth e)
  | and left right => do if ← truth left then truth right else return false
  | or left right => do if ← truth left then return true else truth right
  | compare r left right => do
    let x ← (match left with
      | literal l => .ok (some l.value)
      | path p => .ok (configuration.resolve p)
      | _ => (truth left).map (some ∘ .bool))
    let y ← (match right with
      | literal l => .ok (some l.value)
      | path p => .ok (configuration.resolve p)
      | _ => (truth right).map (some ∘ .bool))
    return related r ⟨x, y, samePath left right⟩

/-- **Evaluating an expression by its runs of connectives is the plain recursion on its tree**, with
the same truth and the same fault, whatever shape the tree has. Induction on the expression, with
`holds_or` and `holds_and` for the connectives. -/
theorem holds_eq_truth (e : Expr) : holds configuration e = truth configuration e := by
  induction e with
  | literal l => rw [holds, truth]
  | path p => rw [holds, truth]
  | not e ih => rw [holds, truth, ih]
  | and left right ihl ihr =>
    rw [holds_and, truth, ihl, ihr]
    rfl
  | or left right ihl ihr =>
    rw [holds_or, truth, ihl, ihr]
    rfl
  | compare r left right ihl ihr =>
    -- The equation of a comparison in which an operand is no literal and no path has conditions.
    rw [holds, truth.eq_def, ihl, ihr]
    dsimp only
    have hworth (operand : Expr) : operand.operand configuration (truth configuration operand)
        = match operand with
          | literal l => .ok (some l.value)
          | path p => .ok (configuration.resolve p)
          | _ => (truth configuration operand).map (some ∘ .bool) := by
      cases operand <;> rfl
    rw [hworth, hworth]

end Expr

end Templating.Guard
