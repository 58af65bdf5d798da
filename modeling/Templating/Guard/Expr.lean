import Templating.Guard.Lexeme
import Templating.Value.Basic

/-!
# Guard expressions

A guard denotes a truth value of a configuration. Its expression is built from literals and
paths by comparison and the three connectives.

## Main definitions

* `Expr`: the expressions.
* `Expr.disjuncts`, `Expr.conjuncts`: the operands of a run of the same connective.
* `Expr.paths`: the paths that an expression reads.
-/

namespace Templating.Guard

/-- A guard expression, as `Guard.parse` reads it. -/
inductive Expr where
  | literal (l : Scalar)
  | path (p : String)
  | not (e : Expr)
  | and (left right : Expr)
  | or (left right : Expr)
  | compare (r : Relation) (left right : Expr)
  deriving DecidableEq

namespace Expr

/-- The operands of a run of disjunctions that lean to the left, from left to right. `Expr.holds`
evaluates the run over them. -/
def disjuncts : Expr → List Expr
  | or left right => left.disjuncts ++ [right]
  | e => [e]

/-- The operands of a run of conjunctions that lean to the left, from left to right, for
`Expr.holds` as well. -/
def conjuncts : Expr → List Expr
  | and left right => left.conjuncts ++ [right]
  | e => [e]

/-- The paths that an expression reads, from left to right, as often as they occur. -/
def paths : Expr → List String
  | literal _ => []
  | path p => [p]
  | not e => e.paths
  | and left right => left.paths ++ right.paths
  | or left right => left.paths ++ right.paths
  | compare _ left right => left.paths ++ right.paths

/-- The operands of a run of disjunctions are no larger than the run. -/
theorem sizeOf_le_of_mem_disjuncts {e operand : Expr} (h : operand ∈ e.disjuncts) :
    sizeOf operand ≤ sizeOf e := by
  induction e with
  | or left right ihl ihr =>
    rcases List.mem_append.1 h with h | h
    · have := ihl h
      simp only [or.sizeOf_spec]
      omega
    · obtain rfl : operand = right := by simpa using h
      simp only [or.sizeOf_spec]
      omega
  | _ =>
    simp only [disjuncts, List.mem_singleton] at h
    simp [h]

/-- The operands of a run of conjunctions are no larger than the run. -/
theorem sizeOf_le_of_mem_conjuncts {e operand : Expr} (h : operand ∈ e.conjuncts) :
    sizeOf operand ≤ sizeOf e := by
  induction e with
  | and left right ihl ihr =>
    rcases List.mem_append.1 h with h | h
    · have := ihl h
      simp only [and.sizeOf_spec]
      omega
    · obtain rfl : operand = right := by simpa using h
      simp only [and.sizeOf_spec]
      omega
  | _ =>
    simp only [conjuncts, List.mem_singleton] at h
    simp [h]

/-- Every operand of a disjunction is smaller than the disjunction. With the next lemma this is why
`Expr.holds` terminates. -/
theorem sizeOf_lt_of_mem_disjuncts {left right operand : Expr}
    (h : operand ∈ (or left right).disjuncts) : sizeOf operand < sizeOf (or left right) := by
  rcases List.mem_append.1 h with h | h
  · have := sizeOf_le_of_mem_disjuncts h
    simp only [or.sizeOf_spec]
    omega
  · obtain rfl : operand = right := by simpa using h
    simp only [or.sizeOf_spec]
    omega

/-- Every operand of a conjunction is smaller than the conjunction. -/
theorem sizeOf_lt_of_mem_conjuncts {left right operand : Expr}
    (h : operand ∈ (and left right).conjuncts) : sizeOf operand < sizeOf (and left right) := by
  rcases List.mem_append.1 h with h | h
  · have := sizeOf_le_of_mem_conjuncts h
    simp only [and.sizeOf_spec]
    omega
  · obtain rfl : operand = right := by simpa using h
    simp only [and.sizeOf_spec]
    omega

end Expr

end Templating.Guard
