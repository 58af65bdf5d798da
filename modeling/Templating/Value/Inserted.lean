import Templating.Fault
import Templating.Value.Json

/-!
# The text of an inserted value

What a placeholder is replaced by: a text as it is, truth values as words, a whole floating
point number without a fraction, other numbers in decimal, and lists and mappings as compact
JSON. Nothing has the text `None`, although no placeholder is ever replaced by it.

## Main definitions

* `Value.inserted`: the text of a value in a template.
-/

namespace Templating

open Templating.Text

namespace Value

/-- The text of a number in a template. A floating point number with a whole value is written as
that integer. -/
def insertedNumber : Number → String
  | .int i => integerText i
  | .binary x =>
    match x.toInt? with
    | some i => integerText i
    | none => x.text

/-- The text of a value in a template, integers of any length included. Lists and mappings are
written as JSON (`Json.compact`), with their entries in their own order. -/
def insertedText : Value → String
  | null => "None"
  | bool true => "true"
  | bool false => "false"
  | number n => insertedNumber n
  | text s => s
  | list items => Json.compact (list items)
  | mapping entries => Json.compact (mapping entries)

/-- The text of a value in a template (`insertedText`). A value with an integer that is too long has
none. -/
def inserted (v : Value) : Except Fault String :=
  if v.hasOverlongInteger then .error .integerTooLong else .ok v.insertedText

end Value

end Templating
