import Templating.Bundle.Rendering

/-!
# Where a bundle comes from

A bundle may be given as a record or as a value that is yet to be accepted as one. Rendering
needs the record; checking looks at the value, which for a record is its brief form.

## Main definitions

* `BundleSource`: a bundle or a value.
* `BundleSource.bundle`: the record.
* `BundleSource.entries`: the entries of the value.
-/

namespace Templating

/-- A bundle, or a value that may be one. -/
inductive BundleSource where
  | record (b : Bundle)
  | value (v : Value)

namespace BundleSource

/-- The bundle as a record, a value by `Bundle.decode`. -/
def bundle : BundleSource → Except Fault Bundle
  | record b => .ok b
  | value v => (Bundle.decode v).toExcept

/-- The bundle as a value, a record without what is not set (`Bundle.encodeBrief`). -/
def toValue : BundleSource → Value
  | record b => b.encodeBrief
  | value v => v

/-- The entries of the bundle as a value, which has to be a mapping. -/
def entries (source : BundleSource) : Except Fault Entries :=
  match source.toValue with
  | .mapping entries => .ok entries
  | v => .error (.bundleNotMapping v.kindName)

end BundleSource

end Templating
