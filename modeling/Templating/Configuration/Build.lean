import Templating.Configuration.Coerce
import Templating.Value.Path

/-!
# Building a configuration

A configuration is built from the options of a bundle and from values given under dotted keys.
The options come first, in their order: an option takes the value given under its name or else
its default, and an option without either is left out unless it is required. Then the remaining
values follow in their order. Each is assigned at the path that its key is, and nested mappings
arise along the path. A path may neither lead through a value that is no mapping nor replace a
mapping by a value that is none.

## Main definitions

* `assign`: the entries with a value assigned at a path.
* `optionValue?`: the value that an option contributes.
* `buildConfiguration`: the configuration for options and given values.
-/

namespace Templating

/-- The entries with a value assigned at the path with the given segments, the key of which is
named in messages. -/
def assignAt (key : String) (v : Value) : List String → Entries → Except Fault Entries
  | [], entries => .ok entries
  | [leaf], entries =>
    if (entries.get? leaf).any Value.isMapping && !v.isMapping then
      .error (.configuration (.conflictBelow key))
    else .ok (entries.set leaf v)
  | segment :: rest, entries =>
    match entries.get? segment with
    | none => do
      let child ← assignAt key v rest []
      return entries.set segment (.mapping child)
    | some (.mapping below) => do
      let child ← assignAt key v rest below
      return entries.set segment (.mapping child)
    | some _ => .error (.configuration (.conflictAbove key segment))

/-- The entries with a value assigned at a path. -/
def assign (key : String) (v : Value) (entries : Entries) : Except Fault Entries :=
  assignAt key v (segments key) entries

/-- The value that an option contributes, given the values that are left; none if it contributes
no value. -/
def optionValue? (option : OptionDecl) (supplied : Entries) : Except Fault (Option Value) :=
  match supplied.get? option.name with
  | some v => (coerce option v).map some
  | none =>
    match option.default with
    | some default => .ok (some default.value)
    | none =>
      if option.required then .error (.configuration (.valueRequired option.name)) else .ok none

/-- Assigns the values of options one after the other (`assign`), and returns the entries together
with the given values that no option took. A value is taken by the first option of its name. -/
def assignOptions : List Value → Entries → Entries → Except Fault (Entries × Entries)
  | [], supplied, entries => .ok (entries, supplied)
  | declaration :: rest, supplied, entries => do
    let option ← (OptionDecl.decode declaration).toExcept
    match ← optionValue? option supplied with
    | none => assignOptions rest supplied entries
    | some v => do
      let entries ← assign option.name v entries
      assignOptions rest (supplied.remove option.name) entries

/-- Assigns given values one after the other, each at the path that its key spells (`assign`). -/
def assignValues : Entries → Entries → Except Fault Entries
  | [], entries => .ok entries
  | (key, v) :: rest, entries =>
    if key = "" then .error (.configuration .emptyKey)
    else do
      let entries ← assign key v entries
      assignValues rest entries

/-- The configuration for declared options and given values. What an option takes is converted
(`coerce`), the other values are taken as they are. -/
def buildEntries (options : List Value) (supplied : Entries) : Except Fault Entries := do
  let (entries, rest) ← assignOptions options supplied []
  assignValues rest entries

/-! ### Options and values of any kind -/

/-- The values that a value holds: the items of a list, the keys of a mapping, the characters of
a text. -/
def itemsOf : Value → Except Fault (List Value)
  | .list items => .ok items
  | .mapping entries => .ok (entries.map fun entry => .text entry.1)
  | .text s => .ok (s.toList.map fun c => .text (String.singleton c))
  | _ => .error .notIterable

/-- Whether a value counts as given values at all: zero, false, nothing and whatever is empty do
not. -/
def holdsNothing : Value → Bool
  | .null => true
  | .bool b => !b
  | .number (.int i) => decide (i = 0)
  | .number (.binary x) => x.isZero
  | .text s => s == ""
  | .list items => items.isEmpty
  | .mapping entries => entries.isEmpty

/-- The key and the value that an item of a list of pairs stands for. -/
def pairOf (item : Value) : Except Fault (String × Value) := do
  match ← itemsOf item with
  | [.text key, v] => return (key, v)
  | [_, _] => throw .notIterable
  | _ => throw .notPair

/-- The given values: the entries of a mapping, or a list of pairs (`pairOf`); of several values for
a key the last one counts. -/
def suppliedEntries (values : Value) : Except Fault Entries :=
  if holdsNothing values then .ok []
  else
    match values with
    | .mapping entries => .ok entries
    | values => do
      let pairs ← (← itemsOf values).mapM pairOf
      return Entries.ofList pairs

/-- The configuration for declared options and given values of any kind, by `buildEntries`. -/
def buildConfiguration (options values : Value) : Except Fault Value := do
  let supplied ← suppliedEntries values
  let options ← itemsOf options
  return .mapping (← buildEntries options supplied)

end Templating
