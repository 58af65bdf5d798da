import Templating.Scaffold.Workspace
import Templating.Template.Notices

/-!
# Notices about a bundle

Checking a bundle gives notice of the number of findings. Rendering one gives notice of the
guards that cannot be read and of the files that are skipped, and then of what rendering the path
and the body of every selected file gives notice of. Writing one gives notice of every file that
is written.

## Main definitions

* `Report.notices`, `Bundle.notices`: what checking and rendering give notice of.
* `writingNotices`: what writing gives notice of.
* `scaffoldNotices`: what writing a bundle that is yet to be rendered gives notice of.
-/

namespace Templating

/-- What drawing up a report gives notice of. -/
def Report.notices (r : Report) : List Notice :=
  [.checked r.templateId r.errors.length r.warnings.length]

/-- What selecting files gives notice of (`selectFiles`), up to the first guard that fails. -/
def selectionNotices (configuration : Value) : List FileDecl → List Notice
  | [] => []
  | f :: rest =>
    (f.guard?.map Template.guardNotices).getD [] ++
      match f.isSelected configuration with
      | .ok true => selectionNotices configuration rest
      | .ok false =>
        .skippedFile f.path (f.condition.getD "") :: selectionNotices configuration rest
      | .error _ => []

/-- What rendering a selected file gives notice of. -/
def FileDecl.notices (configuration : Value) (f : FileDecl) : List Notice :=
  Template.templateNotices f.path configuration
    ++ Template.templateNotices f.content configuration

/-- What rendering a bundle gives notice of. -/
def Bundle.notices (b : Bundle) (configuration : Value) : List Notice :=
  selectionNotices configuration b.files ++
    match selectFiles configuration b.files with
    | .ok (selected, _) => selected.flatMap (FileDecl.notices configuration)
    | .error _ => []

/-- What writing planned files gives notice of (`writePlanned`), up to the first that cannot be
written. -/
def plannedNotices : List PlannedFile → FileTree → List Notice
  | [], _ => []
  | f :: rest, t =>
    match writePlannedFile f t with
    | (.ok location, t) => .wrote location :: plannedNotices rest t
    | (.error _, _) => []

/-- What writing a rendered bundle gives notice of: nothing if the plan is refused or the target
directory cannot be made. -/
def writingNotices (target : Location) (force : Bool) (rendering : BundleRendering)
    (t : FileTree) : List Notice :=
  match planFiles t target force rendering.files with
  | .error _ => []
  | .ok files =>
    match makeDirectories [] target t with
    | (.ok (), t) => plannedNotices files t
    | (.error _, _) => []

/-- What writing a bundle without a cache gives notice of. -/
def scaffoldNotices (directory : Location) (r : ScaffoldRequest) (t : FileTree) : List Notice :=
  match r.targetLocation directory, r.source.bundle with
  | .ok target, .ok b =>
    b.notices r.configuration ++
      match b.renderPlainly r.configuration with
      | .ok rendering => writingNotices target r.force rendering t
      | .error _ => []
  | _, _ => []

end Templating
