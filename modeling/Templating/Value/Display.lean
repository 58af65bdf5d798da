import Templating.Fault
import Templating.Number.Shortest
import Templating.Text.Quoted
import Templating.Value.Basic

/-!
# Values in messages

A value is shown in a message as a literal of a notation in which lists stand in brackets,
mappings in braces, and texts inside them between quotes. A text that is itself the value is
shown as it is.

## Main definitions

* `Value.displayed`: the text of a value in a message.
-/

namespace Templating

open Templating.Text

namespace Value

mutual

/-- The characters of the literal of a value, with texts between quotes (`quotedChars`). -/
def literalChars : Value → List Char
  | null => ['N', 'o', 'n', 'e']
  | bool true => ['T', 'r', 'u', 'e']
  | bool false => ['F', 'a', 'l', 's', 'e']
  | number (.int i) => (integerText i).toList
  | number (.binary x) => x.text.toList
  | text s => quotedChars s.toList
  | list items => '[' :: (literalItems items ++ [']'])
  | mapping entries => '{' :: (literalEntries entries ++ ['}'])

/-- The part of `Value.literalChars` for the items of a list, with commas between them. -/
def literalItems : List Value → List Char
  | [] => []
  | [v] => v.literalChars
  | v :: rest => v.literalChars ++ ',' :: ' ' :: literalItems rest

/-- The part of `Value.literalChars` for the entries of a mapping, with commas between them. -/
def literalEntries : List (String × Value) → List Char
  | [] => []
  | [(key, v)] => quotedChars key.toList ++ ':' :: ' ' :: v.literalChars
  | (key, v) :: rest =>
    quotedChars key.toList ++ ':' :: ' ' :: (v.literalChars ++ ',' :: ' ' :: literalEntries rest)

end

/-- The text of a value in a message, integers of any length included. A text stands for itself,
without quotes. -/
def displayText : Value → String
  | text s => s
  | v => String.ofList v.literalChars

/-- The text of a value in a message (`displayText`). A value with an integer that is too long has
none. -/
def displayed (v : Value) : Except Fault String :=
  if v.hasOverlongInteger then .error .integerTooLong else .ok v.displayText

end Value

end Templating
