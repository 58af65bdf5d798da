import Templating.Proofs.Cache.Contents
import Templating.Proofs.Value.EntryOrder
import Templating.Renderer

/-!
# Runs of a renderer

A run is a sequence of events: calls, caches being cleared, and time passing. Its answers are the
texts that the calls return, each with the template and the configuration it was returned for; a
bundle answers with the paths and the bodies of its rendered files. Whatever the caches of a run
that starts with empty ones hold was rendered for a template and a configuration of the run, so
each answer was rendered in place or for a template and a configuration with the same key.

## Main definitions

* `Event`, `Answer`: what happens to a renderer, and what it returns.
* `Renderer.step`, `Renderer.run`: the answers to one event and to a sequence of them.
* `Stored`: a text was rendered for a key.
* `Explained`: where an answer comes from.

## Main results

* `Renderer.step_keeps`: one event.
* `Renderer.explained_of_mem_run`: every answer of a run is explained.
-/

namespace Templating

/-! ### Events and answers -/

/-- What happens to a renderer: a call, a call apart from it, a bundle, the clearing of a cache, or
a new time. -/
inductive Event (Time : Type) where
  | render (call : RenderCall)
  | renderApart (call : RenderCall)
  | renderBundle (source : BundleSource) (configuration : Value) (cache : Option Nat)
  | clear (cache : Option Nat)
  | setTime (now : Time)

/-- A text that was returned for a template and a configuration. -/
structure Answer where
  template : String
  configuration : Value
  content : String

namespace Event

/-- The templates and configurations whose keys an event may ask for. -/
def subjects {Time : Type} : Event Time → List (String × Value)
  | render call => subjectsOf call
  | renderApart call => subjectsOf call
  | renderBundle source configuration _ =>
    match source.bundle with
    | .ok b => b.files.map fun f => (f.content, configuration)
    | .error _ => []
  | clear _ => []
  | setTime _ => []
where
  /-- The template and the configuration of a call that is not refused. -/
  subjectsOf (call : RenderCall) : List (String × Value) :=
    match Renderer.subject call with
    | .ok subject => [subject]
    | .error _ => []

/-- Whether no mapping in the configuration of a call has two entries with one key. -/
def hasUniqueKeys {Time : Type} : Event Time → Bool
  | render call => call.configuration.hasUniqueKeys
  | renderApart call => call.configuration.hasUniqueKeys
  | renderBundle _ configuration _ => configuration.hasUniqueKeys
  | clear _ => true
  | setTime _ => true

end Event

/-- The answer of a call. -/
def answersOf (call : RenderCall) (outcome : Except Fault Rendered) : List Answer :=
  match Renderer.subject call with
  | .error _ => []
  | .ok (template, configuration) =>
    match outcome with
    | .error _ => []
    | .ok rendered => [⟨template, configuration, rendered.content⟩]

/-- A call gives an answer if it is not refused by `Renderer.subject` and returns a text: the answer
has its template, its configuration and the text. -/
theorem mem_answersOf {call : RenderCall} {outcome : Except Fault Rendered} {a : Answer} :
    a ∈ answersOf call outcome ↔ Renderer.subject call = .ok (a.template, a.configuration)
      ∧ ∃ rendered, outcome = .ok rendered ∧ rendered.content = a.content := by
  rw [answersOf]
  rcases Renderer.subject call with fault | ⟨template, configuration⟩
  · exact iff_of_false List.not_mem_nil (by rintro ⟨⟨⟩, -⟩)
  · rcases outcome with fault | rendered
    · exact iff_of_false List.not_mem_nil (by rintro ⟨-, -, ⟨⟩, -⟩)
    · constructor
      · intro ha
        obtain rfl := List.mem_singleton.1 ha
        exact ⟨rfl, rendered, rfl, rfl⟩
      · obtain ⟨template', configuration', content⟩ := a
        rintro ⟨⟨⟩, rendered', ⟨⟩, rfl⟩
        exact List.mem_singleton_self _

/-- The answers for a rendered file: its path and its body. -/
def fileAnswers (configuration : Value) (f : FileDecl) (rendered : RenderedFile) : List Answer :=
  [⟨f.path, configuration, rendered.path⟩, ⟨f.content, configuration, rendered.content⟩]

/-- The answers of a bundle, file by file. -/
def bundleAnswersOf (source : BundleSource) (configuration : Value)
    (outcome : Except Fault BundleRendering) : List Answer :=
  match source.bundle with
  | .error _ => []
  | .ok b =>
    match selectFiles configuration b.files, outcome with
    | .ok (selected, _), .ok rendering =>
      (List.zipWith (fileAnswers configuration) selected rendering.files).flatten
    | _, _ => []

namespace Renderer

section Steps

variable {Time Span : Type} [Timeline Time Span]

/-- The answers to an event, and the renderer after it. Each kind of event is what the renderer's
own function for it does. -/
def step (r : Renderer Time Span) : Event Time → List Answer × Renderer Time Span
  | .render call => (answersOf call (r.render call).1, (r.render call).2)
  | .renderApart call => (answersOf call (r.renderApart call).1, (r.renderApart call).2)
  | .renderBundle source configuration cache =>
    (bundleAnswersOf source configuration (r.renderBundle source configuration cache).1,
      (r.renderBundle source configuration cache).2)
  | .clear cache => ([], r.setCache (r.cacheAt cache).clear cache)
  | .setTime now => ([], { r with now := now })

/-- The answers to a sequence of events, each taken by `step` from where the one before leaves the
renderer. -/
def run (r : Renderer Time Span) : List (Event Time) → List Answer
  | [] => []
  | e :: rest => (r.step e).1 ++ run (r.step e).2 rest

end Steps

variable {Time Span : Type}

/-- Whether all caches at hand, the renderer's own and the others, are empty. -/
def IsFresh (r : Renderer Time Span) : Prop :=
  r.own.entries = [] ∧ ∀ c ∈ r.shared, c.entries = []

/-! ### What the caches hold -/

/-- A property of keys and texts holds of every entry of every cache at hand. -/
def Keeps (Fine : String → String → Prop) (r : Renderer Time Span) : Prop :=
  r.own.Keeps Fine ∧ ∀ c ∈ r.shared, c.Keeps Fine

variable {Fine : String → String → Prop} {r : Renderer Time Span}

/-- The caches of a fresh renderer have every property, being empty. -/
theorem keeps_of_isFresh (h : r.IsFresh) : r.Keeps Fine := by
  refine ⟨fun e he => ?_, fun c hc e he => ?_⟩
  · rw [h.1] at he
    cases he
  · rw [h.2 c hc] at he
    cases he

/-- The cache of any name has the property that all have. -/
theorem Keeps.cacheAt (h : r.Keeps Fine) (name : Option Nat) : (r.cacheAt name).Keeps Fine := by
  cases name with
  | none => exact h.1
  | some i =>
    rw [Renderer.cacheAt, List.getD_eq_getElem?_getD]
    cases hc : r.shared[i]? with
    | none => exact h.1
    | some c => exact h.2 c (List.mem_of_getElem? hc)

/-- Putting a cache that has the property keeps it. -/
theorem Keeps.setCache (h : r.Keeps Fine) {c : Cache Time Span} (hc : c.Keeps Fine)
    (name : Option Nat) : (r.setCache c name).Keeps Fine := by
  cases name with
  | none => exact ⟨hc, h.2⟩
  | some i =>
    refine ⟨h.1, fun c' hc' => ?_⟩
    rcases List.mem_or_eq_of_mem_set hc' with hold | rfl
    · exact h.2 c' hold
    · exact hc

/-- A computation that upholds the property (`Upholds`) may be run on the cache of any name. -/
theorem Keeps.runOn (h : r.Keeps Fine) (name : Option Nat) {α : Type} {Returned : α → Prop}
    {m : CacheM Time Span α} (hm : Upholds Fine Returned m) :
    (r.runOn name m).2.Keeps Fine ∧ ∀ a, (r.runOn name m).1 = .ok a → Returned a := by
  obtain ⟨hkeeps, hreturned⟩ := hm (r.cacheAt name) (h.cacheAt name)
  rw [Renderer.runOn]
  exact ⟨h.setCache hkeeps name, hreturned⟩

end Renderer

/-! ### Where answers come from -/

/-- A text was rendered for a key from one of the given templates and configurations. This is the
property that all caches keep. -/
def Stored (pairs : List (String × Value)) (key content : String) : Prop :=
  ∃ p ∈ pairs, cacheKey p.1 p.2 = .ok key ∧ Template.renderText p.1 p.2 = .ok content

/-- An answer was rendered from its own template and configuration, or it was `Stored` under their
key. -/
def Explained (pairs : List (String × Value)) (a : Answer) : Prop :=
  Template.renderText a.template a.configuration = .ok a.content
    ∨ (a.template, a.configuration) ∈ pairs
      ∧ ∃ key, cacheKey a.template a.configuration = .ok key ∧ Stored pairs key a.content

namespace Renderer

variable {Time Span : Type} [Timeline Time Span] {r : Renderer Time Span}
  {pairs : List (String × Value)}

/-- What `Template.renderText` makes of one of the given pairs may be stored under its key. -/
theorem stored_of_renderText {template : String} {configuration : Value}
    (h : (template, configuration) ∈ pairs) : ∀ key content,
    cacheKey template configuration = .ok key →
    Template.renderText template configuration = .ok content → Stored pairs key content :=
  fun _ _ hkey hcontent => ⟨_, h, hkey, hcontent⟩

/-- **One call keeps `Stored`, and its answer is explained**, whichever cache it goes through or if
it goes through none. -/
theorem render_keeps (h : r.Keeps (Stored pairs)) {call : RenderCall}
    (hpairs : Event.subjects.subjectsOf call ⊆ pairs) :
    (r.render call).2.Keeps (Stored pairs)
      ∧ ∀ a ∈ answersOf call (r.render call).1, Explained pairs a := by
  rw [render]
  rw [Event.subjects.subjectsOf] at hpairs
  rcases hsubject : subject call with fault | ⟨template, configuration⟩
  · refine ⟨h, fun a ha => ?_⟩
    rw [(mem_answersOf.1 ha).1] at hsubject
    cases hsubject
  · rw [hsubject] at hpairs
    have hmem : (template, configuration) ∈ pairs := hpairs List.mem_cons_self
    dsimp only
    split
    · obtain ⟨hkeeps, hreturned⟩ := h.runOn call.namedCache
        (upholds_renderThrough r.now (stored_of_renderText hmem))
      refine ⟨hkeeps, fun ⟨template', configuration', content⟩ ha => ?_⟩
      obtain ⟨hsame, rendered, hok, rfl⟩ := mem_answersOf.1 ha
      cases hsubject.symm.trans hsame
      exact .inr ⟨hmem, hreturned rendered hok⟩
    · refine ⟨h, fun ⟨template', configuration', content⟩ ha => .inl ?_⟩
      obtain ⟨hsame, rendered, hok, rfl⟩ := mem_answersOf.1 ha
      cases hsubject.symm.trans hsame
      obtain ⟨content, hcontent, rfl⟩ := map_eq_ok_iff.1 hok
      exact hcontent

/-- A rendered file is explained if its body is. -/
def IsExplainedFile (pairs : List (String × Value)) (configuration : Value) :
    FileDecl → RenderedFile → Prop :=
  IsRenderedFrom configuration fun body content => Explained pairs ⟨body, configuration, content⟩

/-- The answers for the files of a bundle are explained by the pairs that were rendered for them. -/
theorem explained_of_mem_fileAnswers {configuration : Value} {selected : List FileDecl}
    {files : List RenderedFile}
    (h : List.Forall₂ (IsExplainedFile pairs configuration) selected files) :
    ∀ a ∈ (List.zipWith (fileAnswers configuration) selected files).flatten, Explained pairs a := by
  induction h with
  | nil => exact fun a ha => absurd ha List.not_mem_nil
  | cons hfile _ ih =>
    rw [List.zipWith_cons_cons, List.flatten_cons, List.forall_mem_append, fileAnswers,
      List.forall_mem_cons, List.forall_mem_singleton]
    exact ⟨⟨.inl hfile.1, hfile.2⟩, ih⟩

/-- The answers of a bundle are explained if its rendered files are, by
`explained_of_mem_fileAnswers`. -/
theorem explained_of_mem_bundleAnswersOf {source : BundleSource} {b : Bundle}
    {configuration : Value} {outcome : Except Fault BundleRendering} (hb : source.bundle = .ok b)
    (h : ∀ rendering, outcome = .ok rendering → ∃ selected,
      selectFiles configuration b.files = .ok (selected, rendering.skipped)
      ∧ List.Forall₂ (IsExplainedFile pairs configuration) selected rendering.files) :
    ∀ a ∈ bundleAnswersOf source configuration outcome, Explained pairs a := by
  rw [bundleAnswersOf, hb]
  dsimp only
  split
  · rename_i selected skipped rendering hselect
    obtain ⟨selected', hselect', hfiles⟩ := h rendering rfl
    cases hselect.symm.trans hselect'
    exact explained_of_mem_fileAnswers hfiles
  · exact fun a ha => absurd ha List.not_mem_nil

/-- **One event keeps `Stored`, and its answers are explained.** The cases are the kinds of events:
`render_keeps` for calls, `Bundle.upholds_renderThrough` for bundles. -/
theorem step_keeps (h : r.Keeps (Stored pairs)) {e : Event Time} (hpairs : e.subjects ⊆ pairs) :
    (r.step e).2.Keeps (Stored pairs) ∧ ∀ a ∈ (r.step e).1, Explained pairs a := by
  have hnone : ∀ a ∈ ([] : List Answer), Explained pairs a :=
    fun a ha => absurd ha List.not_mem_nil
  cases e with
  | render call => exact render_keeps h hpairs
  | renderApart call =>
    -- A fresh cache holds nothing, and the shared ones are those of the renderer.
    have hfresh : Keeps (Stored pairs) { r with own := Cache.empty none none } :=
      ⟨Cache.keeps_empty none none, h.2⟩
    obtain ⟨hkeeps, hanswers⟩ := render_keeps hfresh hpairs
    exact ⟨⟨h.1, hkeeps.2⟩, hanswers⟩
  | renderBundle source configuration cache =>
    rw [step, Renderer.renderBundle]
    rw [Event.subjects] at hpairs
    cases hb : source.bundle with
    | error fault =>
      refine ⟨h, ?_⟩
      rw [bundleAnswersOf, hb]
      exact hnone
    | ok b =>
      rw [hb] at hpairs
      cases cache with
      | none =>
        refine ⟨h, explained_of_mem_bundleAnswersOf hb fun rendering hrendering => ?_⟩
        obtain ⟨selected, hselect, hfiles⟩ := Bundle.forall₂_of_renderPlainly hrendering
        exact ⟨selected, hselect, hfiles.imp fun f rendered hfile => ⟨hfile.1, .inl hfile.2⟩⟩
      | some i =>
        -- Each body is rendered through the cache, and `Bundle.upholds_renderThrough` puts them
        -- together.
        have hbody : ∀ f ∈ b.files, Upholds (Stored pairs)
            (fun rendered => Explained pairs ⟨f.content, configuration, rendered.content⟩)
            (renderThrough r.now f.content configuration : CacheM Time Span Rendered) := by
          intro f hf
          have hmem : (f.content, configuration) ∈ pairs := hpairs (List.mem_map_of_mem hf)
          exact (upholds_renderThrough r.now (stored_of_renderText hmem)).imp
            fun rendered hstored => .inr ⟨hmem, hstored⟩
        have hbundle : Upholds (Stored pairs)
            (fun rendering => ∃ selected,
              selectFiles configuration b.files = .ok (selected, rendering.skipped)
              ∧ List.Forall₂ (IsExplainedFile pairs configuration) selected rendering.files)
            (b.renderThrough r.now configuration : CacheM Time Span BundleRendering) :=
          Bundle.upholds_renderThrough r.now hbody
        obtain ⟨hkeeps, hreturned⟩ := h.runOn (some i) hbundle
        exact ⟨hkeeps, explained_of_mem_bundleAnswersOf hb hreturned⟩
  | clear cache => exact ⟨h.setCache Cache.Keeps.clear cache, hnone⟩
  | setTime now => exact ⟨h, hnone⟩

/-- Every answer of a run is explained by what the caches hold and what happens. Induction on the
events with `step_keeps`. -/
theorem explained_of_keeps (events : List (Event Time)) : ∀ {r : Renderer Time Span},
    r.Keeps (Stored pairs) → events.flatMap Event.subjects ⊆ pairs →
    ∀ a ∈ r.run events, Explained pairs a := by
  induction events with
  | nil => exact fun _ _ a ha => absurd ha List.not_mem_nil
  | cons e rest ih =>
    intro r h hpairs
    rw [List.flatMap_cons, List.append_subset] at hpairs
    obtain ⟨hkeeps, hanswers⟩ := step_keeps h hpairs.1
    rw [run, List.forall_mem_append]
    exact ⟨hanswers, ih hkeeps hpairs.2⟩

/-- **Every answer of a run that starts with empty caches is explained** by what happens in the run
(`Event.subjects`). -/
theorem explained_of_mem_run (hfresh : r.IsFresh) (events : List (Event Time)) :
    ∀ a ∈ r.run events, Explained (events.flatMap Event.subjects) a :=
  explained_of_keeps events (keeps_of_isFresh hfresh) (List.Subset.refl _)

end Renderer

end Templating
