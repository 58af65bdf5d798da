import Templating.Guard.Parse
import Templating.Value.Equality
import Templating.Value.Path

/-!
# The truth of guards

A guard is read and its expression evaluated in a configuration. Two values are equal only if
they are of the same kind; nothing and a path that leads nowhere are of one kind. Only numbers
are ordered. The operands of a run of one connective are evaluated from left to right until one
decides the run. A guard that cannot be read is false.

## Main definitions

* `Kind`: the kinds of operands.
* `related`: whether a relation holds between two operands.
* `Expr.holds`: the truth of an expression.
* `evaluate`: the truth of a guard.
-/

namespace Templating.Guard

/-- The kinds of operands that comparison tells apart. -/
inductive Kind where
  | absent
  | boolean
  | number
  | text
  | list
  | mapping
  deriving DecidableEq

/-- The kind of what stands at a path. Nothing and `null` are of one kind. -/
def kindOf : Option Value → Kind
  | none => .absent
  | some .null => .absent
  | some (.bool _) => .boolean
  | some (.number _) => .number
  | some (.text _) => .text
  | some (.list _) => .list
  | some (.mapping _) => .mapping

/-- The two sides of a comparison. They are `shared` if both were read at one path of the
configuration, and so are one object.

Object identity matters only for what is no number, which does not equal itself: a list or a mapping
that holds one equals itself by identity alone (`Operands.equal`). Outside of one path no identity
is represented: one object that stands at two paths, or one not-a-number object inside two lists,
is compared by value. Tuples and texts with surrogate code points are no `Value` and so no
operand. -/
structure Operands where
  left : Option Value
  right : Option Value
  shared : Bool

/-- Whether the operands are equal: of one kind, and absent or of equal value. A list or a
mapping equals itself whatever it holds. -/
def Operands.equal (o : Operands) : Bool :=
  decide (kindOf o.left = kindOf o.right) &&
    match o.left, o.right with
    | some (.list xs), some (.list ys) => o.shared || Value.equalItems xs ys
    | some (.mapping xs), some (.mapping ys) => o.shared || (Value.mapping xs).equal (.mapping ys)
    | some x, some y => x.isNull || x.equal y
    | _, _ => true

/-- Whether the operands are numbers in a given order. Operands of any other kind are in none. -/
def Operands.ordered (order : Number → Number → Bool) (o : Operands) : Bool :=
  match o.left, o.right with
  | some (.number x), some (.number y) => order x y
  | _, _ => false

/-- Whether a relation holds between the operands, by `Operands.equal` or `Operands.ordered`. -/
def related : Relation → Operands → Bool
  | .equal, o => o.equal
  | .unequal, o => !o.equal
  | .less, o => o.ordered Number.less
  | .atMost, o => o.ordered Number.atMost
  | .greater, o => o.ordered fun x y => y.less x
  | .atLeast, o => o.ordered fun x y => y.atMost x

namespace Expr

/-- Whether two expressions are the same path, so that they read one place and are `shared`. -/
def samePath : Expr → Expr → Bool
  | path p, path q => p == q
  | _, _ => false

/-- What an expression contributes to a comparison: a literal or a path its value, any other
expression its truth. -/
def operand (configuration : Value) (truth : Except Fault Bool) : Expr → Except Fault (Option Value)
  | literal l => .ok (some l.value)
  | path p => .ok (configuration.resolve p)
  | _ => truth.map fun b => some (.bool b)

/-- The truth of an expression in a configuration. A run of one connective is evaluated operand by
operand, from the left, up to the one that decides it. -/
def holds (configuration : Value) : Expr → Except Fault Bool
  | or left right =>
    (or left right).disjuncts.attach.anyM fun ⟨operand, _⟩ => holds configuration operand
  | and left right =>
    (and left right).conjuncts.attach.allM fun ⟨operand, _⟩ => holds configuration operand
  | not e => do
    let b ← holds configuration e
    return !b
  | compare r left right => do
    let x ← left.operand configuration (holds configuration left)
    let y ← right.operand configuration (holds configuration right)
    return related r ⟨x, y, samePath left right⟩
  | literal l => isTruthy (some l.value)
  | path p => isTruthy (configuration.resolve p)
termination_by e => sizeOf e
decreasing_by
  · exact sizeOf_lt_of_mem_disjuncts ‹_›
  · exact sizeOf_lt_of_mem_conjuncts ‹_›
  all_goals simp_wf; try omega

end Expr

/-- The truth of a guard in a configuration; a guard that cannot be read (`parse`) is false. An
integer that is too long is a fault all the same. -/
def evaluate (guard : String) (configuration : Value) : Except Fault Bool :=
  match parse guard with
  | .ok e => e.holds configuration
  | .error (.guard _) => .ok false
  | .error fault => .error fault

end Templating.Guard
