import Templating.Bundle.Source

/-!
# Renderers

A renderer has a cache of its own and may be given others to use. Each call says whether it uses
a cache and which one: what the call names itself goes before what its options name, and where
neither names a cache the renderer's own is used. A call is refused, with no cache touched, if
its template is no text or its configuration no mapping.

## Main definitions

* `RenderOptions`, `RenderCall`: what a call asks for.
* `Renderer`: the state of a renderer and its clock.
* `Renderer.render`: one call.
* `Renderer.renderApart`: one call in which a fresh cache stands in for the renderer's own.
* `Renderer.renderBundle`: renders a bundle, through one of the caches at hand or without one.
-/

namespace Templating

/-- Whether rendering uses a cache, and which of the caches at hand; none means the renderer's
own. -/
structure RenderOptions where
  enableCache : Bool
  cache : Option Nat
  deriving DecidableEq

namespace RenderOptions

/-- No cache is used. -/
def default : RenderOptions :=
  ⟨false, none⟩

end RenderOptions

/-- One call: what is to be rendered against what, and how. What the call says itself about caching
goes before its `options`. -/
structure RenderCall where
  template : Value
  configuration : Value
  options : Option RenderOptions
  enableCache : Option Bool
  cache : Option Nat

namespace RenderCall

/-- The options of the call, those of `RenderOptions.default` if it has none. -/
def effectiveOptions (call : RenderCall) : RenderOptions :=
  call.options.getD .default

/-- Whether the call uses a cache: its own word counts before that of its options. -/
def usesCache (call : RenderCall) : Bool :=
  call.enableCache.getD call.effectiveOptions.enableCache

/-- The cache that the call names, itself or by its options; none for the renderer's own. -/
def namedCache (call : RenderCall) : Option Nat :=
  call.cache.or call.effectiveOptions.cache

end RenderCall

/-- A renderer: its own cache, the other caches at hand, and the time. -/
structure Renderer (Time Span : Type) where
  own : Cache Time Span
  shared : List (Cache Time Span)
  now : Time

namespace Renderer

variable {Time Span : Type}

/-- The cache of the given name. -/
def cacheAt (r : Renderer Time Span) : Option Nat → Cache Time Span
  | none => r.own
  | some i => r.shared.getD i r.own

/-- The renderer with the cache of the given name replaced, as `cacheAt` finds it. -/
def setCache (r : Renderer Time Span) (c : Cache Time Span) : Option Nat → Renderer Time Span
  | none => { r with own := c }
  | some i => { r with shared := r.shared.set i c }

/-- Runs a computation on the cache of the given name, and puts the changed cache back whether it
fails or not. -/
def runOn {α : Type} (r : Renderer Time Span) (name : Option Nat) (m : CacheM Time Span α) :
    Except Fault α × Renderer Time Span :=
  match m (r.cacheAt name) with
  | (outcome, c) => (outcome, r.setCache c name)

/-- What a call is about: its template and its configuration, if they are of the right kinds. It is
asked before any cache is. -/
def subject (call : RenderCall) : Except Fault (String × Value) := do
  let template ← templateOf call.template
  let configuration ← configurationOf call.configuration
  return (template, configuration)

/-- Answers a call: through the cache that it names (`renderThrough`), or without one
(`renderPlainly`). -/
def render [Timeline Time Span] (r : Renderer Time Span) (call : RenderCall) :
    Except Fault Rendered × Renderer Time Span :=
  match subject call with
  | .error fault => (.error fault, r)
  | .ok (template, configuration) =>
    if call.usesCache then r.runOn call.namedCache (renderThrough r.now template configuration)
    else (renderPlainly template configuration, r)

/-- Answers a call with a fresh cache in the place of the renderer's own, which is left alone.
Shared caches are used as by `render`. -/
def renderApart [Timeline Time Span] (r : Renderer Time Span) (call : RenderCall) :
    Except Fault Rendered × Renderer Time Span :=
  match render { r with own := Cache.empty none none } call with
  | (outcome, r') => (outcome, { r' with own := r.own })

/-- Renders a bundle, its bodies through a shared cache if one is named. The renderer's own cache is
never used. -/
def renderBundle [Timeline Time Span] (r : Renderer Time Span) (source : BundleSource)
    (configuration : Value) (cache : Option Nat) :
    Except Fault BundleRendering × Renderer Time Span :=
  match source.bundle with
  | .error fault => (.error fault, r)
  | .ok b =>
    match cache with
    | none => (b.renderPlainly configuration, r)
    | some i => r.runOn (some i) (b.renderThrough r.now configuration)

end Renderer

end Templating
