import Templating.Proofs.Cache.Key
import Templating.Proofs.Renderer.Runs
import Templating.Proofs.Template.Reordering

/-!
# Transparency of caches

The key of a template and a configuration does not tell the order of entries in the mappings of
the configuration, while a mapping that is inserted is written in that order. So what a cache
returns was rendered from a configuration that may differ in the order of entries. For a template
that inserts no value with an order of entries this makes no difference, and what is returned is
always the text rendered without a cache; for any other there is a run that returns something
else.

## Main definitions

* `NoCollisions`: the digests of given templates and configurations tell their bytes.
* `IsTransparent`: no run returns anything but the text rendered without a cache.
* `dependsOnEntryOrder`: whether a rendered text depends on what its key does not tell.

## Main results

* `isTransparent_iff`: caches are transparent where no order of entries is inserted.
* `reordered_mapping`: a run that returns the text of another order.
-/

namespace Templating

/-- No two of the given templates and configurations have one digest as their key but different
bytes. It is an assumption about `Sha256.hexDigest` on finitely many inputs. -/
def NoCollisions (pairs : List (String × Value)) : Prop :=
  ∀ p ∈ pairs, ∀ q ∈ pairs, ∀ key, cacheKey p.1 p.2 = .ok key → cacheKey q.1 q.2 = .ok key →
    keyBytes p.1 p.2 = keyBytes q.1 q.2

/-- Whatever is returned for the template and the configuration, in any run that starts with empty
caches of any bounds, is the text that is rendered without a cache. -/
def IsTransparent (template : String) (configuration : Value) : Prop :=
  ∀ (Time Span : Type) [Timeline Time Span] (r : Renderer Time Span) (events : List (Event Time)),
    r.IsFresh → (∀ e ∈ events, e.hasUniqueKeys = true) →
    NoCollisions (events.flatMap Event.subjects) →
    ∀ content, ⟨template, configuration, content⟩ ∈ r.run events →
      Template.renderText template configuration = .ok content

/-- Whether the template can be rendered against the configuration and has a key with it, which does
not tell an order of entries that the text shows (`Template.insertsEntryOrder`). -/
def dependsOnEntryOrder (template : String) (configuration : Value) : Bool :=
  !configuration.hasOverlongInteger && (Template.renderText template configuration).isOk
    && Template.insertsEntryOrder template configuration

/-! ### Equal keys -/

/-- A configuration has a key unless it holds an integer with too many digits; the key is the digest
of its bytes. -/
theorem cacheKey_eq_ok_iff {template key : String} {configuration : Value} :
    cacheKey template configuration = .ok key ↔ configuration.hasOverlongInteger = false
      ∧ Sha256.hexDigest (keyBytes template configuration) = key := by
  rw [cacheKey]
  split
  · rename_i h
    exact iff_of_false (by rintro ⟨⟩) fun hboth => by simp [hboth.1] at h
  · rename_i h
    constructor
    · rintro ⟨⟩
      exact ⟨Bool.eq_false_iff.2 h, rfl⟩
    · rintro ⟨-, rfl⟩
      rfl

/-- Without collisions a stored text was rendered from the same template and a configuration with
the same canonical form, by `keyBytes_eq_iff`. -/
theorem exists_of_stored {pairs : List (String × Value)} (hcollisions : NoCollisions pairs)
    {template key content : String} {configuration : Value}
    (hmem : (template, configuration) ∈ pairs) (hkey : cacheKey template configuration = .ok key)
    (hstored : Stored pairs key content) : ∃ configuration',
      configuration'.canonical = configuration.canonical
      ∧ Template.renderText template configuration' = .ok content := by
  obtain ⟨⟨template', configuration'⟩, hmem', hkey', hcontent⟩ := hstored
  obtain ⟨rfl, hcanonical⟩ := keyBytes_eq_iff.1 (hcollisions _ hmem' _ hmem key hkey' hkey)
  exact ⟨configuration', hcanonical, hcontent⟩

/-! ### Transparent caches -/

/-- **Caches are transparent where no order of entries is inserted.** A stored text was rendered
from a reordered configuration, and `Template.renderText_eq_of_canonical_eq` says that it is the
same. -/
theorem isTransparent_of_not_dependsOnEntryOrder {template : String} {configuration : Value}
    (h : dependsOnEntryOrder template configuration = false) :
    IsTransparent template configuration := by
  intro Time Span _ r events hfresh _ hcollisions content hanswer
  rcases Renderer.explained_of_mem_run hfresh events _ hanswer with hrendered | hstored
  · exact hrendered
  · obtain ⟨hmem, key, hkey, hstored⟩ := hstored
    obtain ⟨configuration', hcanonical, hcontent⟩ := exists_of_stored hcollisions hmem hkey hstored
    obtain ⟨-, -, parts, -, -, -, -, -, hrenders⟩ :=
      Template.renderText_of_canonical_eq hcanonical.symm hcontent
    have hplain : Template.insertsEntryOrder template configuration = false := by
      rw [dependsOnEntryOrder, (cacheKey_eq_ok_iff.1 hkey).1, hrenders] at h
      exact h
    rw [← Template.renderText_eq_of_canonical_eq hcanonical hplain]
    exact hcontent

/-! ### An order of entries that a cache loses -/

/-- A call that renders a template against a configuration through the renderer's own cache. -/
def cachedCall (template : String) (configuration : Value) : RenderCall :=
  ⟨.text template, configuration, none, some true, none⟩

/-- A renderer with an empty cache without bounds. -/
def freshRenderer : Renderer Binary64 Number :=
  ⟨Cache.empty none none, [], .zero⟩

/-- The call is not refused, and renders the given template with the given configuration. -/
theorem subject_cachedCall (template : String) {configuration : Value}
    (h : configuration.isMapping = true) :
    Renderer.subject (cachedCall template configuration) = .ok (template, configuration) := by
  have hconfiguration := configurationOf_eq_ok_iff.2 ⟨h, rfl⟩
  rw [Renderer.subject, cachedCall, hconfiguration]
  rfl

theorem subjects_cachedCall {Time : Type} (template : String) {configuration : Value}
    (h : configuration.isMapping = true) :
    (Event.render (cachedCall template configuration) : Event Time).subjects
      = [(template, configuration)] := by
  rw [Event.subjects, Event.subjects.subjectsOf, subject_cachedCall template h]

theorem render_cachedCall (r : Renderer Binary64 Number) (template : String)
    {configuration : Value} (h : configuration.isMapping = true) :
    r.render (cachedCall template configuration)
      = r.runOn none (renderThrough r.now template configuration) := by
  rw [Renderer.render, subject_cachedCall template h]
  rfl

/-- The renderer after one text was rendered and stored. -/
def renderedOnce (key content : String) : Renderer Binary64 Number :=
  ⟨⟨none, none, [⟨key, content, .zero⟩], 0, 1, 0⟩, [], .zero⟩

/-- On a fresh renderer the text is rendered and stored. -/
theorem runOn_freshRenderer {template key content : String} {configuration : Value}
    (hkey : cacheKey template configuration = .ok key)
    (hcontent : Template.renderText template configuration = .ok content) :
    freshRenderer.runOn none (renderThrough freshRenderer.now template configuration)
      = (.ok ⟨content, false⟩, renderedOnce key content) := by
  rw [Renderer.runOn, renderThrough_apply, hkey]
  dsimp only
  rw [hcontent]
  rfl

/-- The next call with the same key gets the stored text, whatever its template and configuration
would come to. -/
theorem runOn_renderedOnce {template key content : String} {configuration : Value}
    (hkey : cacheKey template configuration = .ok key) :
    ((renderedOnce key content).runOn none
        (renderThrough (renderedOnce key content).now template configuration)).1
      = .ok ⟨content, true⟩ := by
  have hfound : Cache.entry? ((renderedOnce key content).cacheAt none) key
      = some ⟨key, content, .zero⟩ := List.find?_cons_of_pos (beq_self_eq_true key)
  rw [Renderer.runOn, renderThrough_apply, hkey]
  dsimp only
  rw [Cache.get, hfound]
  rfl

/-- The second of two calls with one key returns the text of the first: `runOn_freshRenderer`, then
`runOn_renderedOnce`. -/
theorem mem_run_cachedCalls {template content : String} {configuration configuration' : Value}
    {key : String} (hmapping : configuration.isMapping = true)
    (hmapping' : configuration'.isMapping = true)
    (hkey : cacheKey template configuration = .ok key)
    (hkey' : cacheKey template configuration' = .ok key)
    (hcontent : Template.renderText template configuration' = .ok content) :
    ⟨template, configuration, content⟩ ∈ freshRenderer.run
      [.render (cachedCall template configuration'),
        .render (cachedCall template configuration)] := by
  rw [Renderer.run, Renderer.run, Renderer.step, Renderer.step]
  dsimp only
  rw [render_cachedCall freshRenderer template hmapping', runOn_freshRenderer hkey' hcontent]
  dsimp only
  rw [render_cachedCall _ template hmapping, runOn_renderedOnce hkey]
  refine List.mem_append_right _ (List.mem_append_left _ ?_)
  exact mem_answersOf.2 ⟨subject_cachedCall template hmapping, _, rfl, rfl⟩

/-- **If an order of entries is inserted, a cache may lose it.** The configuration is rendered with
all its entries reversed first; the text is another one by `Template.renderText_reversed_ne`, and
the key is the same. -/
theorem not_isTransparent {template : String} {configuration : Value}
    (hmapping : configuration.isMapping = true) (hunique : configuration.hasUniqueKeys = true)
    (h : dependsOnEntryOrder template configuration = true) :
    ¬ IsTransparent template configuration := by
  rw [dependsOnEntryOrder, Bool.and_eq_true, Bool.and_eq_true, Bool.not_eq_true'] at h
  obtain ⟨⟨hshort, hok⟩, hinserts⟩ := h
  have hcanonical := Value.canonical_reversed hunique
  have hmapping' : configuration.reversed.isMapping = true := by
    rw [Value.isMapping_reversed, hmapping]
  have hshort' : configuration.reversed.hasOverlongInteger = false := by
    rw [← Value.hasOverlongInteger_canonical, hcanonical, Value.hasOverlongInteger_canonical,
      hshort]
  -- The reversed configuration has the same key, so what is stored for it is returned.
  have hbytes : keyBytes template configuration.reversed = keyBytes template configuration :=
    keyBytes_eq_iff.2 ⟨rfl, hcanonical⟩
  cases hcontent : Template.renderText template configuration with
  | error fault =>
    rw [hcontent] at hok
    cases hok
  | ok content =>
    obtain ⟨content', hcontent', hne⟩ :=
      Template.renderText_reversed_ne hunique hcontent hinserts
    intro htransparent
    have hanswer := mem_run_cachedCalls hmapping hmapping'
      (cacheKey_eq_ok_iff.2 ⟨hshort, rfl⟩)
      (cacheKey_eq_ok_iff.2 ⟨hshort', congrArg Sha256.hexDigest hbytes⟩) hcontent'
    have hsame := htransparent Binary64 Number freshRenderer _ ⟨rfl, by simp [freshRenderer]⟩
      ?_ ?_ content' hanswer
    · rw [hcontent] at hsame
      exact hne (Except.ok.inj hsame).symm
    · rw [List.forall_mem_cons, List.forall_mem_singleton]
      exact ⟨(Value.hasUniqueKeys_reversed configuration).trans hunique, hunique⟩
    · rw [List.flatMap_cons, List.flatMap_singleton, subjects_cachedCall template hmapping',
        subjects_cachedCall template hmapping]
      have hsame : ∀ p ∈ [(template, configuration.reversed)] ++ [(template, configuration)],
          keyBytes p.1 p.2 = keyBytes template configuration := by
        rw [List.forall_mem_append, List.forall_mem_singleton, List.forall_mem_singleton]
        exact ⟨hbytes, rfl⟩
      exact fun p hp q hq _ _ _ => (hsame p hp).trans (hsame q hq).symm

/-- Caches are transparent exactly where no order of entries is inserted. -/
theorem isTransparent_iff {template : String} {configuration : Value}
    (hmapping : configuration.isMapping = true) (hunique : configuration.hasUniqueKeys = true) :
    IsTransparent template configuration ↔ dependsOnEntryOrder template configuration = false := by
  refine ⟨fun h => ?_, isTransparent_of_not_dependsOnEntryOrder⟩
  by_contra hdepends
  exact not_isTransparent hmapping hunique (Bool.eq_true_of_not_eq_false hdepends) h

/-- A template that inserts single entries of nested mappings keeps caches transparent. -/
theorem isTransparent_of_single_entries :
    (Value.mapping [("user", .mapping [("name", .text "Ada"), ("role", .text "admin")]),
      ("tags", .mapping [("x", .null)])]).isMapping = true
    ∧ (Value.mapping [("user", .mapping [("name", .text "Ada"), ("role", .text "admin")]),
      ("tags", .mapping [("x", .null)])]).hasUniqueKeys = true
    ∧ IsTransparent
      "\x7b% if user.role %\x7d\x7b\x7buser.name\x7d\x7d \x7b\x7btags\x7d\x7d\x7b% endif %\x7d"
      (.mapping [("user", .mapping [("name", .text "Ada"), ("role", .text "admin")]),
        ("tags", .mapping [("x", .null)])]) :=
  ⟨rfl, by decide, (isTransparent_iff rfl (by decide)).2 (by decide +kernel)⟩

/-- A mapping is inserted after it was stored in another order of its entries: the second call
returns the text of the first. -/
theorem reordered_mapping :
    (⟨"\x7b\x7ba\x7d\x7d",
        .mapping [("a", .mapping [("y", .number (.int 2)), ("x", .number (.int 1))])],
        "\x7b\"x\":1,\"y\":2\x7d"⟩ : Answer)
      ∈ freshRenderer.run
        [.render (cachedCall "\x7b\x7ba\x7d\x7d"
          (.mapping [("a", .mapping [("x", .number (.int 1)), ("y", .number (.int 2))])])),
        .render (cachedCall "\x7b\x7ba\x7d\x7d"
          (.mapping [("a", .mapping [("y", .number (.int 2)), ("x", .number (.int 1))])]))]
    ∧ Template.renderText "\x7b\x7ba\x7d\x7d"
        (.mapping [("a", .mapping [("y", .number (.int 2)), ("x", .number (.int 1))])])
      = .ok "\x7b\"y\":2,\"x\":1\x7d"
    ∧ ¬ IsTransparent "\x7b\x7ba\x7d\x7d"
        (.mapping [("a", .mapping [("y", .number (.int 2)), ("x", .number (.int 1))])]) := by
  have hbytes : keyBytes "\x7b\x7ba\x7d\x7d"
        (.mapping [("a", .mapping [("x", .number (.int 1)), ("y", .number (.int 2))])])
      = keyBytes "\x7b\x7ba\x7d\x7d"
        (.mapping [("a", .mapping [("y", .number (.int 2)), ("x", .number (.int 1))])]) :=
    keyBytes_eq_iff.2 ⟨rfl, (Value.canonical_reversed (by decide)).symm⟩
  refine ⟨?_, by decide +kernel, not_isTransparent rfl (by decide) (by decide +kernel)⟩
  exact mem_run_cachedCalls rfl rfl (cacheKey_eq_ok_iff.2 ⟨by decide +kernel, rfl⟩)
    (cacheKey_eq_ok_iff.2 ⟨by decide +kernel, congrArg Sha256.hexDigest hbytes⟩)
    (by decide +kernel)

end Templating
