import Templating.Number.Order

/-!
# Configuration values

A configuration is a tree of values: nothing, truth values, numbers, texts, lists, and mappings
from text keys. A mapping keeps its entries in the order in which the keys were first written,
and no key occurs twice in a mapping built by the operations here.

These are the values of a JSON text. Three things that a configuration built by a program may hold
besides are not represented: tuples, which are neither lists nor mappings; texts with surrogate
code points, since a `String` holds scalar values only; and the identity of an object, so that two
numbers that are no number cannot be told to be one and the same object by their place in two
lists. (Where both sides of a comparison are read at one path, `Guard.Operands.shared` says so.)

## Main definitions

* `Value`: the values.
* `Scalar`: the values that are written as one literal.
* `Entries.get?`, `Entries.set`, `Entries.remove`: the operations on the entries of a mapping.
* `Value.entry?`: the value under a key, for a mapping that has it.
-/

namespace Templating

/-- A value of a configuration, as a JSON text can write it: no tuples, no surrogate code points in
a `text`, and no object identity. -/
inductive Value where
  | null
  | bool (b : Bool)
  | number (n : Number)
  | text (s : String)
  | list (items : List Value)
  | mapping (entries : List (String × Value))
  deriving Inhabited

/-- The entries of a mapping, in the order of first writing. -/
abbrev Entries := List (String × Value)

namespace Entries

/-- The value under a key; the first entry with the key counts. -/
def get? (key : String) (entries : Entries) : Option Value :=
  entries.lookup key

/-- Whether there is a value under a key, `null` included. -/
def has (key : String) (entries : Entries) : Bool :=
  entries.any fun entry => entry.1 == key

/-- Writes a value under a key: in the place of the value that stands there, or at the end. -/
def set (key : String) (v : Value) : Entries → Entries
  | [] => [(key, v)]
  | entry :: rest => if entry.1 = key then (key, v) :: rest else entry :: set key v rest

/-- The entries without the one under a key. -/
def remove (key : String) (entries : Entries) : Entries :=
  entries.filter fun entry => entry.1 != key

/-- The mapping that arises from writing the entries one after the other: a key keeps the place
of its first occurrence and gets the value of its last. -/
def ofList (entries : List (String × Value)) : Entries :=
  entries.foldl (fun written entry => set entry.1 entry.2 written) []

end Entries

namespace Value

/-- The integer as a value. -/
def int (i : Int) : Value :=
  number (.int i)

/-- The floating point number as a value. -/
def binary (x : Binary64) : Value :=
  number (.binary x)

/-- The value under a key (`Entries.get?`); none if the value is no mapping or lacks the key. -/
def entry? (key : String) : Value → Option Value
  | mapping entries => Entries.get? key entries
  | _ => none

/-- Whether the value is a mapping. -/
def isMapping : Value → Bool
  | mapping _ => true
  | _ => false

/-- Whether the value is nothing. -/
def isNull : Value → Bool
  | null => true
  | _ => false

/-- The name of the kind of value in messages about a value of the wrong kind. -/
def kindName : Value → String
  | null => "NoneType"
  | bool _ => "bool"
  | number (.int _) => "int"
  | number (.binary _) => "float"
  | text _ => "str"
  | list _ => "list"
  | mapping _ => "dict"

mutual

/-- Whether a number of the value, at any depth, satisfies a test. Keys are texts and hold no
numbers. -/
def anyNumber (test : Number → Bool) : Value → Bool
  | number n => test n
  | list items => anyNumberOfItems test items
  | mapping entries => anyNumberOfEntries test entries
  | _ => false

/-- The part of `Value.anyNumber` for the items of a list. -/
def anyNumberOfItems (test : Number → Bool) : List Value → Bool
  | [] => false
  | v :: rest => v.anyNumber test || anyNumberOfItems test rest

/-- The part of `Value.anyNumber` for the entries of a mapping. -/
def anyNumberOfEntries (test : Number → Bool) : List (String × Value) → Bool
  | [] => false
  | (_, v) :: rest => v.anyNumber test || anyNumberOfEntries test rest

end

/-- Whether a number is an integer too long to be written: it has more than 4300 digits
(`Numeral.maxIntegerDigits`). -/
def isOverlong : Number → Bool
  | .int i => decide (Nat.pow 10 4300 ≤ i.natAbs)
  | .binary _ => false

/-- Whether an integer somewhere in the value is too long to be written (`isOverlong`). -/
def hasOverlongInteger (v : Value) : Bool :=
  v.anyNumber isOverlong

end Value

/-! ### Scalars -/

/-- A truth value, a number or a text: what a literal of a guard and the default of an option may
be. -/
inductive Scalar where
  | bool (b : Bool)
  | number (n : Number)
  | text (s : String)
  deriving DecidableEq

/-- The scalar as a value. -/
def Scalar.value : Scalar → Value
  | bool b => .bool b
  | number n => .number n
  | text s => .text s

/-- The scalar that a value is; none for `null`, lists and mappings. -/
def Value.scalar? : Value → Option Scalar
  | bool b => some (.bool b)
  | number n => some (.number n)
  | text s => some (.text s)
  | _ => none

end Templating
