/-!
# Limits of checks

The bounds that the checks of a bundle apply. A bound may be any integer.

## Main definitions

* `Limits`: the bounds.
* `Limits.standard`: the usual ones.
-/

namespace Templating

/-- The bounds that checks apply. -/
structure Limits where
  /-- Longer lines of a body are warned about. -/
  lineLength : Int
  /-- Deeper nesting of spans in a body is warned about. -/
  nestingDepth : Int
  /-- A longer name of a bundle is an error. -/
  nameLength : Int
  /-- A longer description of a bundle is warned about. -/
  descriptionLength : Int
  /-- Longer paths of files are warned about. -/
  pathLength : Int
  deriving DecidableEq

/-- The usual bounds. -/
def Limits.standard : Limits :=
  ⟨120, 10, 100, 500, 260⟩

end Templating
