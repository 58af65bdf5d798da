import Templating.Check.Bundle
import Templating.Scaffold.Write

/-!
# Scaffolding

Scaffolding turns a bundle into files: the bundle is checked, rendered and written below a target
directory. It works on a file tree and, if there is one, a cache for the rendered bodies.

## Main definitions

* `Workspace`: a file tree and perhaps a cache.
* `ScaffoldRequest`: what is to be written, and where.
* `checkSource`: the report about a bundle under a given name or its own.
* `writeBundle`, `createBundle`: writes a bundle without and with checking it first.
-/

namespace Templating

/-- A file tree, the directory that relative names start from, and perhaps a cache: all that writing
a bundle can change. -/
structure Workspace (Time Span : Type) where
  tree : FileTree
  directory : Location
  cache : Option (Cache Time Span)

/-- Operations that may fail and that change a workspace whether they fail or not. -/
abbrev WorkspaceM (Time Span : Type) := ExceptT Fault (StateM (Workspace Time Span))

/-- What is to be written, and where; `force` lets it replace what stands there. -/
structure ScaffoldRequest where
  source : BundleSource
  configuration : Value
  target : PathName
  force : Bool

namespace BundleSource

/-- The name of a bundle, or a name for bundles without one. A value that is no mapping cannot be
asked for it. -/
def name : BundleSource → Except Fault String
  | record b => .ok (if b.name = "" then "template" else b.name)
  | value (.mapping entries) =>
    match Entries.get? "name" entries with
    | some (.text s) => .ok (if s = "" then "template" else s)
    | _ => .ok "template"
  | value _ => .error .bundleWithoutName

end BundleSource

/-- The report about a bundle under a given name (`checkBundle`); without one the bundle is named by
itself. -/
def checkSource (templateId : Option String) (source : BundleSource) : Except Fault Report := do
  let templateId ← match templateId.filter (· != "") with
    | some templateId => pure templateId
    | none => source.name
  let bundle ← source.entries
  checkBundle .standard templateId bundle

/-- The target directory of a request, by `PathName.locate`. Home directories are not known here. -/
def ScaffoldRequest.targetLocation (directory : Location) (r : ScaffoldRequest) :
    Except Fault Location :=
  if r.target.namesHome then .error (.system .noHomeDirectory)
  else if r.target.hasNull then .error (.system .nullCharacter)
  else .ok (r.target.locate directory)

variable {Time Span : Type} [Timeline Time Span]

/-- Renders a bundle, its bodies through the cache of the workspace if there is one. The tree is
left alone. -/
def renderSource (now : Time) (source : BundleSource) (configuration : Value) :
    WorkspaceM Time Span BundleRendering :=
  fun w =>
    match source.bundle with
    | .error fault => (.error fault, w)
    | .ok b =>
      match w.cache with
      | none => (b.renderPlainly configuration, w)
      | some c =>
        match b.renderThrough now configuration c with
        | (outcome, c) => (outcome, { w with cache := some c })

/-- Runs an operation on the file tree of a workspace. -/
def onTree {α : Type} (m : FilesM α) : WorkspaceM Time Span α :=
  fun w =>
    match m w.tree with
    | (outcome, t) => (outcome, { w with tree := t })

/-- Writes a bundle without checking it: it finds the target, renders, plans and writes, and stops
at the first fault. -/
def writeBundle (now : Time) (r : ScaffoldRequest) : WorkspaceM Time Span (List Location) := do
  let target ← located
  let rendering ← renderSource now r.source r.configuration
  onTree (writeRendering target r.force rendering)
where
  /-- The target directory. -/
  located : WorkspaceM Time Span Location :=
    fun w => (r.targetLocation w.directory, w)

/-- Checks a bundle (`checkSource`) and writes it if it is valid (`writeBundle`). -/
def createBundle (now : Time) (templateId : Option String) (r : ScaffoldRequest) :
    WorkspaceM Time Span (List Location) := do
  let report ← checked
  if report.isValid then writeBundle now r
  else throw (.invalidBundle report.templateId report.errors.length)
where
  /-- The report about the bundle. -/
  checked : WorkspaceM Time Span Report :=
    fun w => (checkSource templateId r.source, w)

end Templating
