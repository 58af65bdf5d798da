import Templating.Bundle.Basic
import Templating.Cache.Rendering
import Templating.Guard.Eval

/-!
# Rendering a bundle

The files of a bundle are first divided by their guards into those that are rendered and those
that are skipped. Then each file of the first kind gets its path and its body rendered, in the
order of the bundle, the body through a cache if there is one. Guards are evaluated before
anything is rendered.

## Main definitions

* `RenderedFile`, `SkippedFile`, `BundleRendering`: the outcome.
* `FileDecl.isSelected`: whether a file is rendered.
* `Bundle.renderThrough`, `Bundle.renderPlainly`: renders a bundle with and without a cache.
* `TimedRendering`: the outcome of one rendering with the time it took.
-/

namespace Templating

/-! ### Outcomes -/

/-- A rendered file: where it is to be written, what it holds, and whether it may replace another
one. -/
structure RenderedFile where
  path : String
  content : String
  overwrite : Option Bool
  cacheHit : Bool
  deriving DecidableEq

namespace RenderedFile

/-- Accepts a mapping as a rendered file. -/
def decode : Value → Checked RenderedFile :=
  Decode.closedRecord ["path", "content", "overwrite", "cache_hit"] fun entries =>
    RenderedFile.mk
      <$> Decode.required "path" Decode.text entries
      <*> Decode.required "content" Decode.text entries
      <*> Decode.defaulted "overwrite" (Decode.optional Decode.flag) none entries
      <*> Decode.defaulted "cache_hit" Decode.flag false entries

/-- The rendered file as a value. -/
def encode (f : RenderedFile) : Value :=
  .mapping [("path", .text f.path), ("content", .text f.content),
    ("overwrite", encodeOptional .bool f.overwrite), ("cache_hit", .bool f.cacheHit)]

end RenderedFile

/-- A file whose guard is false: its path, not rendered, and its guard. -/
structure SkippedFile where
  path : String
  condition : String
  deriving DecidableEq

namespace SkippedFile

/-- Accepts a mapping as a skipped file. -/
def decode : Value → Checked SkippedFile :=
  Decode.closedRecord ["path", "condition"] fun entries =>
    SkippedFile.mk
      <$> Decode.required "path" Decode.text entries
      <*> Decode.required "condition" Decode.text entries

/-- The skipped file as a value. -/
def encode (f : SkippedFile) : Value :=
  .mapping [("path", .text f.path), ("condition", .text f.condition)]

end SkippedFile

/-- The rendered and the skipped files of a bundle, each in the order of the bundle. -/
structure BundleRendering where
  files : List RenderedFile
  skipped : List SkippedFile
  deriving DecidableEq

namespace BundleRendering

/-- Accepts a mapping as the rendering of a bundle. -/
def decode : Value → Checked BundleRendering :=
  Decode.closedRecord ["files", "skipped"] fun entries =>
    BundleRendering.mk
      <$> Decode.defaulted "files" (Decode.listOf RenderedFile.decode) [] entries
      <*> Decode.defaulted "skipped" (Decode.listOf SkippedFile.decode) [] entries

/-- The rendering as a value. -/
def encode (r : BundleRendering) : Value :=
  .mapping [("files", .list (r.files.map RenderedFile.encode)),
    ("skipped", .list (r.skipped.map SkippedFile.encode))]

end BundleRendering

/-- The outcome of one rendering: the text, the time it took in milliseconds, and whether it came
from a cache. -/
structure TimedRendering where
  content : String
  milliseconds : Binary64
  cacheHit : Bool
  deriving DecidableEq

namespace TimedRendering

/-- Accepts a mapping as the outcome of a rendering. -/
def decode : Value → Checked TimedRendering :=
  Decode.closedRecord ["content", "render_time_ms", "cache_hit"] fun entries =>
    TimedRendering.mk
      <$> Decode.required "content" Decode.text entries
      <*> Decode.required "render_time_ms" Decode.measure entries
      <*> Decode.defaulted "cache_hit" Decode.flag false entries

/-- The outcome as a value. -/
def encode (r : TimedRendering) : Value :=
  .mapping [("content", .text r.content), ("render_time_ms", .binary r.milliseconds),
    ("cache_hit", .bool r.cacheHit)]

end TimedRendering

/-! ### Selecting files -/

namespace FileDecl

/-- The guard of a file; none if it is absent or empty. A file without one is always rendered. -/
def guard? (f : FileDecl) : Option String :=
  f.condition.filter (· != "")

/-- Whether a file is rendered: it has no guard or a true one (`Guard.evaluate`). -/
def isSelected (configuration : Value) (f : FileDecl) : Except Fault Bool :=
  match f.guard? with
  | none => .ok true
  | some guard => Guard.evaluate guard configuration

/-- The file as a skipped one. -/
def skipped (f : FileDecl) : SkippedFile :=
  ⟨f.path, f.condition.getD ""⟩

end FileDecl

/-- The files that are rendered and those that are skipped, each in order. All guards are evaluated
before anything is rendered. -/
def selectFiles (configuration : Value) :
    List FileDecl → Except Fault (List FileDecl × List SkippedFile)
  | [] => .ok ([], [])
  | f :: rest => do
    let chosen ← f.isSelected configuration
    let (selected, skipped) ← selectFiles configuration rest
    return if chosen then (f :: selected, skipped) else (selected, f.skipped :: skipped)

/-! ### Rendering files -/

namespace FileDecl

variable {Time Span : Type} [Timeline Time Span]

/-- Renders a file, its path as a template and its body by the given means. The means tell rendering
with a cache from rendering without. -/
def renderBy {m : Type → Type} [Monad m] [MonadExceptOf Fault m] (body : String → m Rendered)
    (configuration : Value) (f : FileDecl) : m RenderedFile := do
  let path ← MonadExcept.ofExcept (Template.renderText f.path configuration)
  let rendered ← body f.content
  return ⟨path, rendered.content, f.overwrite, rendered.cacheHit⟩

end FileDecl

/-- The text of a body without a cache, if the configuration is a mapping. -/
def renderBody (configuration : Value) (body : String) : Except Fault Rendered := do
  let configuration ← configurationOf configuration
  renderPlainly body configuration

namespace Bundle

/-- Renders a bundle without a cache: its selected files in order, each by `FileDecl.renderBy`. -/
def renderPlainly (b : Bundle) (configuration : Value) : Except Fault BundleRendering := do
  let (selected, skipped) ← selectFiles configuration b.files
  let files ← selected.mapM (FileDecl.renderBy (renderBody configuration) configuration)
  return ⟨files, skipped⟩

variable {Time Span : Type} [Timeline Time Span]

/-- Renders a bundle with its bodies going through a cache. Paths never go through it. -/
def renderThrough (now : Time) (b : Bundle) (configuration : Value) :
    CacheM Time Span BundleRendering := do
  let (selected, skipped) ← MonadExcept.ofExcept (selectFiles configuration b.files)
  let files ← selected.mapM (FileDecl.renderBy (body now) configuration)
  return ⟨files, skipped⟩
where
  /-- The text of a body through the cache, if the configuration is a mapping. -/
  body (now : Time) (content : String) : CacheM Time Span Rendered := do
    let configuration ← MonadExcept.ofExcept (configurationOf configuration)
    Templating.renderThrough now content configuration

end Bundle

end Templating
