import Templating.Value.Basic
import Templating.Number.Shortest
import Templating.Text.Hexadecimal

/-!
# The JSON text of a value

Values are written as JSON in ASCII: a character outside the printable ASCII range is escaped,
one beyond the basic plane as a surrogate pair. A floating point number is written in its
shortest text, with words for infinity and not-a-number. The compact form has no blank space;
the canonical form also sorts the keys of every mapping by code point; the indented form gives
every item a line of its own.

## Main definitions

* `Json.compact`: the compact text of a value.
* `Value.canonical`: the value with the keys of every mapping in ascending order.
* `Json.indented`: the indented text of a value.
-/

namespace Templating

namespace Json

open Templating.Text

/-- The escape of a code unit of sixteen bits by its four hexadecimal digits. -/
def unitEscape (n : Nat) : List Char :=
  '\\' :: 'u' :: hexDigits 4 n

/-- How a character is written inside a JSON string: as it is, by an escape of one letter, or by one
or two of `unitEscape`. -/
def escaped (c : Char) : List Char :=
  if c = '"' then ['\\', '"']
  else if c = '\\' then ['\\', '\\']
  else if c = '\n' then ['\\', 'n']
  else if c = '\r' then ['\\', 'r']
  else if c = '\t' then ['\\', 't']
  else if c = '\x08' then ['\\', 'b']
  else if c = '\x0c' then ['\\', 'f']
  else if 0x20 ≤ c.toNat ∧ c.toNat ≤ 0x7E then [c]
  else if c.toNat < 0x10000 then unitEscape c.toNat
  else
    unitEscape (0xD800 + (c.toNat - 0x10000) / 0x400)
      ++ unitEscape (0xDC00 + (c.toNat - 0x10000) % 0x400)

/-- A JSON string, every character by `escaped`. -/
def quoted (s : String) : List Char :=
  '"' :: (s.toList.flatMap escaped ++ ['"'])

/-- A floating point number in JSON. -/
def binaryText : Binary64 → List Char
  | .nan => ['N', 'a', 'N']
  | .infinite negative => (if negative then ['-'] else []) ++ "Infinity".toList
  | x => x.text.toList

/-- A number in JSON. -/
def numberText : Number → List Char
  | .int i => (integerText i).toList
  | .binary x => binaryText x

/-- What stands for a value that is no list and no mapping. `compactChars` and `indentedChars` share
it. -/
def scalar : Value → List Char
  | .bool true => ['t', 'r', 'u', 'e']
  | .bool false => ['f', 'a', 'l', 's', 'e']
  | .number n => numberText n
  | .text s => quoted s
  | _ => ['n', 'u', 'l', 'l']

/-! ### The compact form -/

mutual

/-- The characters of the compact text, without blank space. -/
def compactChars : Value → List Char
  | .list items => '[' :: (compactItems items ++ [']'])
  | .mapping entries => '{' :: (compactEntries entries ++ ['}'])
  | v => scalar v

/-- The part of `compactChars` for the items of a list, with commas between them. -/
def compactItems : List Value → List Char
  | [] => []
  | [v] => compactChars v
  | v :: rest => compactChars v ++ ',' :: compactItems rest

/-- The part of `compactChars` for the entries of a mapping, with commas between them. -/
def compactEntries : List (String × Value) → List Char
  | [] => []
  | [(key, v)] => quoted key ++ ':' :: compactChars v
  | (key, v) :: rest => quoted key ++ ':' :: (compactChars v ++ ',' :: compactEntries rest)

end

/-- The compact text of a value. -/
def compact (v : Value) : String :=
  String.ofList (compactChars v)

/-! ### The indented form -/

/-- A new line, indented two blanks per level. -/
def newline (level : Nat) : List Char :=
  '\n' :: List.replicate (2 * level) ' '

mutual

/-- The characters of the indented text of a value at a level of indentation. -/
def indentedChars (level : Nat) : Value → List Char
  | .list [] => ['[', ']']
  | .list items => '[' :: (indentedItems (level + 1) items ++ newline level ++ [']'])
  | .mapping [] => ['{', '}']
  | .mapping entries => '{' :: (indentedEntries (level + 1) entries ++ newline level ++ ['}'])
  | v => scalar v

/-- The part of `indentedChars` for the items of a list, each on a line of its own. -/
def indentedItems (level : Nat) : List Value → List Char
  | [] => []
  | [v] => newline level ++ indentedChars level v
  | v :: rest => newline level ++ indentedChars level v ++ ',' :: indentedItems level rest

/-- The part of `indentedChars` for the entries of a mapping, each on a line of its own. -/
def indentedEntries (level : Nat) : List (String × Value) → List Char
  | [] => []
  | [(key, v)] => newline level ++ quoted key ++ ':' :: ' ' :: indentedChars level v
  | (key, v) :: rest =>
    newline level ++ quoted key ++ ':' :: ' ' :: (indentedChars level v
      ++ ',' :: indentedEntries level rest)

end

/-- The indented text of a value. -/
def indented (v : Value) : String :=
  String.ofList (indentedChars 0 v)

end Json

/-! ### The canonical form -/

/-- The entries in ascending order of their keys, compared by code points. Entries with one key stay
in their order. -/
def Entries.sorted (entries : Entries) : Entries :=
  entries.mergeSort fun a b => decide (a.1 ≤ b.1)

namespace Value

mutual

/-- The value with the keys of every mapping in ascending order (`Entries.sorted`). The key of a
cache is made from it. -/
def canonical : Value → Value
  | list items => list (canonicalItems items)
  | mapping entries => mapping (Entries.sorted (canonicalEntries entries))
  | v => v

/-- The part of `Value.canonical` for the items of a list. -/
def canonicalItems : List Value → List Value
  | [] => []
  | v :: rest => v.canonical :: canonicalItems rest

/-- The part of `Value.canonical` for the entries of a mapping, which stay in their order here. -/
def canonicalEntries : List (String × Value) → List (String × Value)
  | [] => []
  | (key, v) :: rest => (key, v.canonical) :: canonicalEntries rest

end

end Value

end Templating
