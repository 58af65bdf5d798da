import Templating.Cache.Basic
import Templating.Cache.Key
import Templating.Template.Render

/-!
# Rendering through a cache

A template is rendered through a cache by asking the cache for the text under the key of the
template and its configuration, and, where there is none, by rendering the template and storing
what results. What the search does to the cache stays done when rendering fails.

## Main definitions

* `Rendered`: a rendered text, and whether it came from a cache.
* `CacheM`: computations that may fail and change a cache.
* `renderThrough`: renders a template through a cache.
-/

namespace Templating

/-- A rendered text, and whether it came from a cache. -/
structure Rendered where
  content : String
  cacheHit : Bool
  deriving DecidableEq

/-- Computations that may fail and that change a cache whether they fail or not: a miss counts also
if rendering fails. -/
abbrev CacheM (Time Span : Type) := ExceptT Fault (StateM (Cache Time Span))

variable {Time Span : Type} [Timeline Time Span]

/-- The text that a cache has under a key (`Cache.get`), with the change that looking makes. -/
def lookUp (now : Time) (key : String) : CacheM Time Span (Option String) :=
  fun c => match c.get now key with
    | (found, c) => (.ok found, c)

/-- Stores a text under a key in a cache. -/
def store (now : Time) (key content : String) : CacheM Time Span Unit :=
  fun c => (.ok (), c.set now key content)

/-- Renders a template through a cache: the text under its key (`cacheKey`) is returned if there is
one, and else the template is rendered and the text stored. -/
def renderThrough (now : Time) (template : String) (configuration : Value) :
    CacheM Time Span Rendered := do
  let key ← liftExcept (cacheKey template configuration)
  match ← lookUp now key with
  | some content => return ⟨content, true⟩
  | none =>
    let content ← liftExcept (Template.renderText template configuration)
    store now key content
    return ⟨content, false⟩
where
  /-- A computation that leaves the cache alone. -/
  liftExcept {α : Type} (outcome : Except Fault α) : CacheM Time Span α :=
    fun c => (outcome, c)

/-- Renders a template without a cache. The text is never a hit. -/
def renderPlainly (template : String) (configuration : Value) : Except Fault Rendered :=
  (Template.renderText template configuration).map fun content => ⟨content, false⟩

/-- The template that a value is, if it is a text. -/
def templateOf : Value → Except Fault String
  | .text s => .ok s
  | v => .error (.templateNotText v.kindName)

/-- The configuration that a value is, if it is a mapping. -/
def configurationOf (v : Value) : Except Fault Value :=
  if v.isMapping then .ok v else .error (.configurationNotMapping v.kindName)

end Templating
