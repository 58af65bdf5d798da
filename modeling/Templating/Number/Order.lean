import Templating.Number.Binary64

/-!
# The order of numbers

Integers of any size and floating point numbers are compared by exact value. Every number has a
place on the extended line of units, except not-a-number, which has none and is related to
nothing.

## Main definitions

* `Number`: an integer or a floating point number.
* `Number.place`: its place on the line.
* `Number.same`, `Number.less`, `Number.atMost`: equality and the two orders by value.
-/

namespace Templating

/-- An integer or a floating point number. -/
inductive Number where
  | int (i : Int)
  | binary (x : Binary64)
  deriving DecidableEq

/-- A place on the line of numbers: below or above every number, or at a number of units. -/
inductive Place where
  | bottom
  | units (u : Int)
  | top
  deriving DecidableEq

namespace Place

/-- Whether one place lies before another. -/
def before : Place → Place → Bool
  | bottom, bottom => false
  | bottom, _ => true
  | units _, bottom => false
  | units u, units v => decide (u < v)
  | units _, top => true
  | top, _ => false

end Place

namespace Number

/-- The place of a number on the line; none for not-a-number. -/
def place : Number → Option Place
  | int i => some (.units (i * unitsPerOne))
  | binary .nan => none
  | binary (.infinite negative) => some (if negative then .bottom else .top)
  | binary (.finite negative m) => some (.units (if negative then -(m.units : Int) else m.units))

/-- Whether two numbers have the same value. -/
def same (x y : Number) : Bool :=
  match x.place, y.place with
  | some p, some q => decide (p = q)
  | _, _ => false

/-- Whether the first number is smaller. -/
def less (x y : Number) : Bool :=
  match x.place, y.place with
  | some p, some q => p.before q
  | _, _ => false

/-- Whether the first number is smaller or has the same value. -/
def atMost (x y : Number) : Bool :=
  x.less y || x.same y

end Number

end Templating
