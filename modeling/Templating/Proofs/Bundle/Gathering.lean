import Templating.Proofs.Renderer.Interleaving

/-!
# Bundles whose bodies are rendered side by side

The bodies of the files of a bundle may be rendered by jobs that share a cache. When all of them
have ended, the bundle is gathered from what they ended with, in the order of the files, and fails
as the first file that fails. Rendering the files one after the other through an empty cache comes
to the same, in whatever order the steps of the jobs were taken, but for the marks that tell which
bodies came from the cache: both come to what the bodies come to on their own.

## Main definitions

* `Bundle.gather`: the rendering of a bundle from the outcomes of its bodies.
* `Bundle.renderBodies`: the rendering of a bundle from what its bodies come to on their own.
* `BundleRendering.unmarked`: a rendering without the marks of what came from a cache.
* `Pool.IsFaithful`: jobs end as their templates on their own, and bundles as file by file.

## Main results

* `Bundle.map_unmarked_gather`, `Bundle.map_unmarked_renderThrough`: gathering a bundle, and
  rendering it through a cache.
* `isFaithful_run`: jobs that share a cache are faithful in every order of their steps.
-/

namespace Templating

/-! ### Gathering a bundle -/

/-- The rendered file without the mark of what came from a cache. -/
def RenderedFile.unmarked (f : RenderedFile) : RenderedFile :=
  { f with cacheHit := false }

/-- The rendering without the marks of what came from a cache. -/
def BundleRendering.unmarked (r : BundleRendering) : BundleRendering :=
  { r with files := r.files.map RenderedFile.unmarked }

/-- Renders a file whose body has the given outcome, and whose path is rendered as ever. -/
def FileDecl.renderFrom (configuration : Value) (p : FileDecl × Except Fault Rendered) :
    Except Fault RenderedFile :=
  p.1.renderBy (fun _ => p.2) configuration

namespace Bundle

/-- The bodies of the files that are rendered: those that `selectFiles` selects, in their order. -/
def bodies (b : Bundle) (configuration : Value) : Except Fault (List String) :=
  (selectFiles configuration b.files).map fun p => p.1.map FileDecl.content

/-- The rendering of a bundle from the outcomes of its bodies, file by file. The outcomes are those
of jobs that were run side by side. -/
def gather (b : Bundle) (configuration : Value) (outcomes : List (Except Fault Rendered)) :
    Except Fault BundleRendering := do
  let (selected, skipped) ← selectFiles configuration b.files
  let files ← (selected.zip outcomes).mapM (FileDecl.renderFrom configuration)
  return ⟨files, skipped⟩

end Bundle

/-! ### What bundles come to -/

/-- What a body comes to on its own (`contentOf`), marked as one that was rendered. -/
def bodyOf (configuration : Value) (body : String) : Except Fault Rendered :=
  (contentOf body configuration).map fun content => ⟨content, false⟩

/-- The rendering of a bundle from what its bodies come to on their own. -/
def Bundle.renderBodies (b : Bundle) (configuration : Value) : Except Fault BundleRendering := do
  let (selected, skipped) ← selectFiles configuration b.files
  let files ← selected.mapM (FileDecl.renderBy (bodyOf configuration) configuration)
  return ⟨files, skipped⟩

section Gathered

variable {configuration : Value}

/-- An outcome of the body tells what the file comes to, but for its mark, which
`RenderedFile.unmarked` takes off. -/
theorem FileDecl.map_unmarked_renderFrom {f : FileDecl} {outcome : Except Fault Rendered}
    (h : outcome.map Rendered.content = contentOf f.content configuration) :
    (renderFrom configuration (f, outcome)).map RenderedFile.unmarked
      = f.renderBy (bodyOf configuration) configuration := by
  rw [renderFrom, renderBy, renderBy, bodyOf, ← h]
  cases Template.renderText f.path configuration with
  | error fault => rfl
  | ok path => cases outcome <;> rfl

/-- Rendering files from given outcomes is rendering them with the texts of these outcomes.
Induction on the files with their outcomes. -/
theorem map_unmarked_mapM_zip {selected : List FileDecl} {outcomes : List (Except Fault Rendered)}
    (h : List.Forall₂ (fun f outcome =>
      outcome.map Rendered.content = contentOf f.content configuration) selected outcomes) :
    ((selected.zip outcomes).mapM (FileDecl.renderFrom configuration)).map
        (List.map RenderedFile.unmarked)
      = selected.mapM (FileDecl.renderBy (bodyOf configuration) configuration) := by
  induction h with
  | nil => rfl
  | @cons f outcome _ _ hfile _ ih =>
    rw [List.zip_cons_cons, List.mapM_cons, List.mapM_cons, ← ih,
      ← FileDecl.map_unmarked_renderFrom hfile]
    cases FileDecl.renderFrom configuration (f, outcome) with
    | error fault => rfl
    | ok file =>
      generalize List.mapM (FileDecl.renderFrom configuration) _ = rest
      cases rest <;> rfl

/-- **A bundle is gathered from outcomes of its bodies to what its bodies come to**, as
`Bundle.renderBodies` says. -/
theorem Bundle.map_unmarked_gather {b : Bundle} {outcomes : List (Except Fault Rendered)}
    (h : ∀ bodies, b.bodies configuration = .ok bodies → List.Forall₂ (fun body outcome =>
      outcome.map Rendered.content = contentOf body configuration) bodies outcomes) :
    (b.gather configuration outcomes).map BundleRendering.unmarked
      = b.renderBodies configuration := by
  rw [gather, renderBodies]
  rw [bodies] at h
  rcases hselect : selectFiles configuration b.files with fault | ⟨selected, skipped⟩
  · rfl
  · rw [hselect] at h
    have hfiles := map_unmarked_mapM_zip (List.forall₂_map_left_iff.1 (h _ rfl))
    change (List.mapM (FileDecl.renderFrom configuration) _ >>= _).map _
      = List.mapM (FileDecl.renderBy (bodyOf configuration) configuration) selected >>= _
    rw [← hfiles]
    generalize List.mapM (FileDecl.renderFrom configuration) _ = files
    cases files <;> rfl

end Gathered

section Through

variable {Time Span : Type} {templates : List String} {configuration : Value}
  {c : Cache Time Span}

/-- Rendering a file through a cache renders its body with that cache and puts the outcome in place
by `renderFrom`; it leaves the cache alone if the path cannot be rendered. -/
theorem FileDecl.renderBy_apply (f : FileDecl) (body : String → CacheM Time Span Rendered)
    (c : Cache Time Span) :
    f.renderBy body configuration c
      = (renderFrom configuration (f, (body f.content c).1),
        match Template.renderText f.path configuration with
        | .error _ => c
        | .ok _ => (body f.content c).2) := by
  rw [renderBy, renderFrom, renderBy]
  cases Template.renderText f.path configuration with
  | error fault => rfl
  | ok path =>
    change (body f.content >>= _) c = _
    rw [bind_apply]
    rcases body f.content c with ⟨fault | rendered, c'⟩
    · rfl
    · rfl

variable [Timeline Time Span]

/-- Rendering one of the templates through a cache comes to what the template comes to, if the cache
holds no other text under the key of any of them. The steps of a job (`Stage.advance`) are those of
`renderThrough`, so this is what an ended job has. -/
theorem renderThrough_of_holdsTexts (hkeys : KeysTellApart templates configuration)
    (hc : HoldsTextsOf templates configuration c) {template : String} (hmem : template ∈ templates)
    (now : Time) :
    (renderThrough now template configuration c).1.map Rendered.content
        = contentOf template configuration
      ∧ HoldsTextsOf templates configuration (renderThrough now template configuration c).2 := by
  have hsearched := Stage.isSound_advance hkeys hmem hc (s := .waiting) trivial now
  have hended := Stage.isSound_advance hkeys hmem hsearched.2 hsearched.1 now
  rw [Stage.advance_advance] at hended
  exact hended

/-- A file is rendered through such a cache to what its body comes to, but for its mark. -/
theorem FileDecl.map_unmarked_renderBy (hkeys : KeysTellApart templates configuration)
    (hmapping : configuration.isMapping = true) {f : FileDecl} (hmem : f.content ∈ templates)
    (now : Time) (hc : HoldsTextsOf templates configuration c) :
    (f.renderBy (Bundle.renderThrough.body configuration now) configuration c).1.map
          RenderedFile.unmarked
        = f.renderBy (bodyOf configuration) configuration
      ∧ HoldsTextsOf templates configuration
          (f.renderBy (Bundle.renderThrough.body configuration now) configuration c).2 := by
  have hbody : (Bundle.renderThrough.body configuration now f.content : CacheM Time Span Rendered)
      = renderThrough now f.content configuration := by
    rw [Bundle.renderThrough.body, configurationOf_eq_ok_iff.2 ⟨hmapping, rfl⟩]
    rfl
  obtain ⟨hcontent, hholds⟩ := renderThrough_of_holdsTexts hkeys hc hmem now
  rw [renderBy_apply, hbody]
  refine ⟨map_unmarked_renderFrom hcontent, ?_⟩
  cases Template.renderText f.path configuration with
  | error fault => exact hc
  | ok path => exact hholds

/-- **A bundle is rendered through such a cache to what its bodies come to.** Every file leaves a
cache that holds no other texts, so `map_mapM_apply` goes through the files. -/
theorem Bundle.map_unmarked_renderThrough {b : Bundle}
    (hkeys : KeysTellApart templates configuration) (hmapping : configuration.isMapping = true)
    (hbodies : b.bodies configuration = .ok templates)
    (hc : HoldsTextsOf templates configuration c) (now : Time) :
    (b.renderThrough now configuration c).1.map BundleRendering.unmarked
      = b.renderBodies configuration := by
  obtain ⟨⟨selected, skipped⟩, hselect, rfl⟩ := map_eq_ok_iff.1 hbodies
  have hfiles : (selected.mapM
        (FileDecl.renderBy (renderThrough.body configuration now) configuration) c).1.map
          (List.map RenderedFile.unmarked)
      = selected.mapM (FileDecl.renderBy (bodyOf configuration) configuration) :=
    map_mapM_apply (fun f hf _ hc =>
      FileDecl.map_unmarked_renderBy hkeys hmapping (List.mem_map_of_mem hf) now hc) hc
  rw [renderThrough, renderBodies, hselect]
  change ((selected.mapM
      (FileDecl.renderBy (renderThrough.body configuration now) configuration) >>= _) c).1.map _
    = selected.mapM (FileDecl.renderBy (bodyOf configuration) configuration) >>= _
  rw [bind_apply, ← hfiles]
  rcases selected.mapM
    (FileDecl.renderBy (renderThrough.body configuration now) configuration) c
    with ⟨fault | files, c'⟩
  · rfl
  · rfl

end Through

/-! ### Jobs and bundles -/

/-- Every job that has ended has ended with what its template comes to, and a bundle whose bodies
are the templates is gathered as it is rendered file by file through an empty cache, but for the
marks of what came from the cache. -/
structure Pool.IsFaithful {Time Span : Type} [Timeline Time Span] (templates : List String)
    (configuration : Value) (p : Pool Time Span) : Prop where
  map_template : p.jobs.map Job.template = templates
  renderText_of_ended : ∀ job ∈ p.jobs, ∀ rendered, job.stage = .ended (.ok rendered) →
    Template.renderText job.template configuration = .ok rendered.content
  contentOf_of_ended : ∀ job ∈ p.jobs, ∀ outcome, job.stage = .ended outcome →
    outcome.map Rendered.content = contentOf job.template configuration
  gather_of_ended : ∀ (b : Bundle) (outcomes : List (Except Fault Rendered)),
    configuration.isMapping = true → b.bodies configuration = .ok templates →
    p.jobs.map Job.stage = outcomes.map .ended →
    ∀ (now : Time) (c : Cache Time Span), c.entries = [] →
      (b.gather configuration outcomes).map BundleRendering.unmarked
        = (b.renderThrough now configuration c).1.map BundleRendering.unmarked

/-- What `Pool.IsSound` says of jobs at any time makes them faithful: an ended job has what its
template comes to, and gathering uses nothing else. -/
theorem Pool.IsSound.isFaithful {Time Span : Type} [Timeline Time Span] {templates : List String}
    {configuration : Value} {p : Pool Time Span} (h : p.IsSound templates configuration)
    (hkeys : KeysTellApart templates configuration) : p.IsFaithful templates configuration := by
  have hended : ∀ job ∈ p.jobs, ∀ outcome, job.stage = .ended outcome →
      outcome.map Rendered.content = contentOf job.template configuration := by
    intro job hjob outcome hstage
    have hsound := h.isSound job hjob
    rw [hstage] at hsound
    exact hsound
  refine ⟨h.map_template, fun job hjob rendered hstage => ?_, hended, ?_⟩
  · obtain ⟨-, -, hrender⟩ := contentOf_eq_ok_iff.1 (hended job hjob _ hstage).symm
    exact hrender
  · intro b outcomes hmapping hbodies hstages now c hempty
    have hc : HoldsTextsOf templates configuration c := (isSound_start hempty now).holdsTexts
    rw [Bundle.map_unmarked_renderThrough hkeys hmapping hbodies hc now]
    refine Bundle.map_unmarked_gather fun bodies hsame => ?_
    obtain rfl := Except.ok.inj (hbodies.symm.trans hsame)
    have hall : List.Forall₂ (fun t s => Stage.IsSound t configuration s)
        (p.jobs.map Job.template) (p.jobs.map Job.stage) := by
      rw [List.forall₂_map_left_iff, List.forall₂_map_right_iff, List.forall₂_same]
      exact h.isSound
    rw [h.map_template, hstages, List.forall₂_map_right_iff] at hall
    exact hall

/-- **Jobs for templates with different keys that share a cache, empty at first, are faithful after
whatever turns were taken**, and a job with two steps among them has ended. Soundness is kept by
every turn. -/
theorem isFaithful_run {Time Span : Type} [Timeline Time Span] {templates : List String}
    {configuration : Value} (hkeys : KeysTellApart templates configuration)
    {c : Cache Time Span} (hempty : c.entries = []) (now : Time) (turns : List (Turn Time)) :
    ((Pool.start c now templates).run configuration turns).IsFaithful templates configuration
    ∧ ∀ i < templates.length, 2 ≤ turns.countP (Turn.isStepOf i) →
      ∃ job, ((Pool.start c now templates).run configuration turns).jobs[i]? = some job
        ∧ ∃ outcome, job.stage = .ended outcome :=
  ⟨((Pool.isSound_start hempty now).run hkeys turns).isFaithful hkeys,
    fun _ hi hsteps => Pool.exists_ended now hi hsteps⟩

/-- Three files and a cache for one text: side by side the third body comes from the cache, while
one by one the second displaces the first before the third is looked up. -/
theorem isFaithful_run_three_files :
    KeysTellApart ["\x7b\x7ba\x7d\x7d", "a", "\x7b\x7ba\x7d\x7d"] (.mapping [("a", .int 1)])
    ∧ (Cache.empty (some 1) none : Cache Binary64 Number).entries = []
    ∧ ((Pool.start (Cache.empty (some 1) none : Cache Binary64 Number) .zero
        ["\x7b\x7ba\x7d\x7d", "a", "\x7b\x7ba\x7d\x7d"]).run (.mapping [("a", .int 1)])
        [.step 0, .step 1, .step 0, .step 2, .clear, .step 1]).jobs.map Job.stage
      = [.ok ⟨"1", false⟩, .ok ⟨"a", false⟩, .ok ⟨"1", true⟩].map .ended
    ∧ ((⟨"site", "", "1", [⟨"1", "\x7b\x7ba\x7d\x7d", none, none⟩, ⟨"2", "a", none, none⟩,
          ⟨"3", "\x7b\x7ba\x7d\x7d", none, none⟩], []⟩ : Bundle).gather (.mapping [("a", .int 1)])
        [.ok ⟨"1", false⟩, .ok ⟨"a", false⟩, .ok ⟨"1", true⟩]).map BundleRendering.unmarked
      = ((⟨"site", "", "1", [⟨"1", "\x7b\x7ba\x7d\x7d", none, none⟩, ⟨"2", "a", none, none⟩,
          ⟨"3", "\x7b\x7ba\x7d\x7d", none, none⟩], []⟩ : Bundle).renderThrough .zero
        (.mapping [("a", .int 1)])
        (Cache.empty (some 1) none : Cache Binary64 Number)).1.map BundleRendering.unmarked := by
  have hne : ∀ t ∈ ["\x7b\x7ba\x7d\x7d", "a", "\x7b\x7ba\x7d\x7d"],
      ∀ t' ∈ ["\x7b\x7ba\x7d\x7d", "a", "\x7b\x7ba\x7d\x7d"], t ≠ t' →
        cacheKey t (.mapping [("a", .int 1)]) ≠ cacheKey t' (.mapping [("a", .int 1)]) := by
    decide +kernel
  have hkeys : KeysTellApart ["\x7b\x7ba\x7d\x7d", "a", "\x7b\x7ba\x7d\x7d"]
      (.mapping [("a", .int 1)]) :=
    fun t ht t' ht' key hkey hkey' =>
      by_contra fun h => hne t ht t' ht' h (hkey.trans hkey'.symm)
  have hstages : ((Pool.start (Cache.empty (some 1) none : Cache Binary64 Number) .zero
        ["\x7b\x7ba\x7d\x7d", "a", "\x7b\x7ba\x7d\x7d"]).run (.mapping [("a", .int 1)])
        [.step 0, .step 1, .step 0, .step 2, .clear, .step 1]).jobs.map Job.stage
      = [.ok ⟨"1", false⟩, .ok ⟨"a", false⟩, .ok ⟨"1", true⟩].map .ended := by
    decide +kernel
  have hfaithful := (isFaithful_run (c := (Cache.empty (some 1) none : Cache Binary64 Number))
    hkeys rfl .zero [.step 0, .step 1, .step 0, .step 2, .clear, .step 1]).1
  exact ⟨hkeys, rfl, hstages, hfaithful.gather_of_ended _ _ rfl rfl hstages .zero _ rfl⟩

end Templating
