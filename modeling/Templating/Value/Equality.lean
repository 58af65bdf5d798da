import Templating.Value.Basic

/-!
# Equality of values

Two values are equal if they hold the same data: numbers of equal value, mappings with the same
keys in any order and equal values under each. A truth value counts as the number one or zero
when it is compared with a number. Not-a-number equals nothing, itself included.

## Main definitions

* `Value.equal`: equality of values.
-/

namespace Templating

namespace Value

/-- The truth value as a number, one or zero, as which `Value.equal` compares it. -/
def numberOfBool (b : Bool) : Number :=
  .int (if b then 1 else 0)

mutual

/-- Whether two values are equal. Numbers are compared by value (`Number.same`), mappings in any
order of their entries. -/
def equal : Value → Value → Bool
  | null, null => true
  | bool a, bool b => a == b
  | bool a, number n => (numberOfBool a).same n
  | number m, bool b => m.same (numberOfBool b)
  | number m, number n => m.same n
  | text s, text t => s == t
  | list xs, list ys => equalItems xs ys
  | mapping xs, mapping ys => xs.length == ys.length && equalEntries xs ys
  | _, _ => false

/-- The part of `Value.equal` for lists: equal values in equal places, and as many of them. -/
def equalItems : List Value → List Value → Bool
  | [], [] => true
  | x :: xs, y :: ys => x.equal y && equalItems xs ys
  | _, _ => false

/-- The part of `Value.equal` for mappings: every entry has an equal value under the same key of the
other one. -/
def equalEntries : List (String × Value) → Entries → Bool
  | [], _ => true
  | (key, x) :: xs, ys =>
    (match ys.get? key with
      | some y => x.equal y
      | none => false) && equalEntries xs ys

end

end Value

end Templating
