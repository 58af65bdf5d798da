import Templating.Fault
import Templating.Text.Search
import Templating.Value.Basic

/-!
# Paths into a configuration

A path is a text of segments with dots between them. It leads through nested mappings, one
segment at a time; a segment that is empty, is no key of the mapping reached, or meets a value
that is no mapping leads nowhere.

## Main definitions

* `segments`: the segments of a path.
* `Value.resolve`: the value at a path.
* `isTruthy`: the truth of what stands at a path.
-/

namespace Templating

open Templating.Text

/-- The segments of a path, between its dots. There is one more of them than dots. -/
def segments (path : String) : List String :=
  (splitOn '.' path.toList).map String.ofList

namespace Value

/-- The value one segment further; there is none for an empty segment. -/
def step? (v : Value) (segment : String) : Option Value :=
  if segment = "" then none else v.entry? segment

/-- The value at a path, segment by segment with `step?`; none if the path leads nowhere. -/
def resolve (path : String) (configuration : Value) : Option Value :=
  (segments path).foldlM step? configuration

end Value

/-- Whether a number counts as true: it is neither zero nor not-a-number. The question cannot be
answered for an integer beyond the floating point numbers. -/
def isTruthyNumber : Number → Except Fault Bool
  | .int i =>
    if i = 0 then .ok false
    else if (Binary64.ofInt? i).isSome then .ok true
    else .error .numberTooLarge
  | .binary x => .ok (!(x.isZero || x == .nan))

/-- Whether what stands at a path counts as true: a text that is not empty, a number other than zero
(`isTruthyNumber`), the value true, any list and any mapping. Nothing counts as false. -/
def isTruthy : Option Value → Except Fault Bool
  | none => .ok false
  | some .null => .ok false
  | some (.bool b) => .ok b
  | some (.text s) => .ok (s != "")
  | some (.number n) => isTruthyNumber n
  | some (.list _) => .ok true
  | some (.mapping _) => .ok true

end Templating
