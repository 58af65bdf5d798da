import Templating.Bundle.Rendering
import Templating.Files.Tree

/-!
# Writing a rendered bundle

A rendered bundle is written below a target directory in two phases. First every file gets its
destination; the plan is refused if a destination lies outside the target, or if something exists
there that may not be replaced. Only then is anything changed: the target directory is made, and
the files are written in their order, each after the directories that lead to it. A failure in
the second phase leaves what was written before it.

## Main definitions

* `destination?`: where a rendered file goes.
* `planFiles`: the first phase.
* `writePlanned`: the second phase.
* `writeRendering`: both.
-/

namespace Templating

/-- A text and where it is to be written. -/
structure PlannedFile where
  location : Location
  content : String
  deriving DecidableEq

/-- Where a rendered path leads to from the target directory, which it may not leave
(`PathName.locate`). -/
def destination? (target : Location) (path : String) : Except Fault Location :=
  let p := PathName.ofText path
  if p.hasNull then .error (.system .nullCharacter)
  else
    let location := p.locate target
    if target.isPrefixOf location then .ok location
    else .error (.outsideTarget path target.text)

/-- Where a rendered file is to be written. Something that exists there already stands in the
way, unless it is to be replaced by force or the file allows it. -/
def planFile (t : FileTree) (target : Location) (force : Bool) (f : RenderedFile) :
    Except Fault PlannedFile := do
  let location ← destination? target f.path
  match t.exists? [] location with
  | .error fault => throw (.system fault)
  | .ok there =>
    if there && !(force || f.overwrite == some true) then throw (.alreadyExists location.text)
    return ⟨location, f.content⟩

/-- Where all files of a rendered bundle are to be written, by `planFile` for one after the other.
Nothing is written before all of them have a place. -/
def planFiles (t : FileTree) (target : Location) (force : Bool) (files : List RenderedFile) :
    Except Fault (List PlannedFile) :=
  files.mapM (planFile t target force)

/-- Writes one planned file after the directories that lead to it. -/
def writePlannedFile (f : PlannedFile) : FilesM Location := do
  makeDirectories [] f.location.dropLast
  writeText [] f.location f.content
  return f.location

/-- Makes the target directory and writes planned files in their order (`writePlannedFile`). -/
def writePlanned (target : Location) (files : List PlannedFile) : FilesM (List Location) := do
  makeDirectories [] target
  files.mapM writePlannedFile

/-- Writes a rendered bundle below a target directory: `planFiles` for all files, and then
`writePlanned`. -/
def writeRendering (target : Location) (force : Bool) (rendering : BundleRendering) :
    FilesM (List Location) := do
  let files ← planned
  writePlanned target files
where
  /-- The plan, which changes nothing. -/
  planned : FilesM (List PlannedFile) :=
    fun t => (planFiles t target force rendering.files, t)

end Templating
