import Templating.Fault
import Templating.Number.Numeral
import Templating.Text.Blank
import Templating.Value.Basic

/-!
# Values given as texts

On the command line values are given as texts `KEY=VALUE`. The key is what stands before the
first equality sign, trimmed; the value is everything after it. Where no option declares the
type of the value, a word for a truth value stands for that truth value, a plain number for that
number, and any other text for itself.

## Main definitions

* `keyValues`: the keys and values that texts give.
* `inferred`: the value that a text stands for.
* `inferredValues`: the mapping that texts give where no types are declared.
-/

namespace Templating

open Templating.Text

/-- The key and the value that a text gives: what stands before the first equality sign, trimmed,
and all that stands behind it. -/
def keyValue (pair : String) : Except Fault (String × String) :=
  let cs := pair.toList
  match cs.dropWhile (· ≠ '=') with
  | [] => .error (.notKeyValue pair)
  | _ :: value =>
    let key := trim (cs.takeWhile (· ≠ '='))
    if key.isEmpty then .error .blankKey else .ok (String.ofList key, String.ofList value)

/-- The keys and values that texts give; of several values for a key the last one counts. -/
def keyValues (pairs : List String) : Except Fault Entries := do
  let given ← pairs.mapM keyValue
  return Entries.ofList (given.map fun (key, value) => (key, .text value))

/-- The number that a text of the shape of a plain number (`Numeral.isPlain`) stands for. The text
may have blank characters around it, not all of which the readers of numbers pass over. -/
def plainNumber (cs : List Char) : Except Fault Number :=
  if cs.contains '.' then
    match Numeral.decimal? cs with
    | some x => .ok (.binary x)
    | none => .error .unreadableNumber
  else
    match Numeral.integer? cs with
    | some i => .ok (.int i)
    | none => .error .unreadableNumber

/-- The value that a text stands for: a truth value, a number, or the text itself. -/
def inferred (text : String) : Except Fault Value :=
  let core := trim text.toList
  let word := String.ofList (core.map Char.toLower)
  if word = "true" then .ok (.bool true)
  else if word = "false" then .ok (.bool false)
  else if Numeral.isPlain core then (plainNumber text.toList).map .number
  else .ok (.text text)

/-- The entries with every text replaced by the value that it stands for (`inferred`). -/
def inferEntries : Entries → Except Fault Entries
  | [] => .ok []
  | (key, .text value) :: rest => do
    let v ← inferred value
    let rest ← inferEntries rest
    return (key, v) :: rest
  | entry :: rest => do
    let rest ← inferEntries rest
    return entry :: rest

/-- The mapping that texts give where no types are declared: `keyValues` first, and then
`inferEntries`. -/
def inferredValues (pairs : List String) : Except Fault Value := do
  let entries ← keyValues pairs
  return .mapping (← inferEntries entries)

end Templating
