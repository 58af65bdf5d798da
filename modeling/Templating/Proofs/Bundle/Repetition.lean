import Templating.Proofs.Bundle.Gathering
import Templating.Proofs.Renderer.Repetition

/-!
# Rendering a bundle again

A bundle that was rendered through a cache is rendered to the same when this is done again, at
whatever time, but for the marks that tell which bodies came from the cache, as long as the cache
serves as a memory: what it came to for a body it comes to again. A cache that bounds neither the
number of entries nor their age does so whatever it held at first, since it never loses the text
that a body came to. A cache that may lose texts does so if it has no other text under the key of a
body than the one that the body comes to on its own. If it has, the body comes to that text as long
as it is there, and to its own text afterwards.

## Main definitions

* `IsMemory`: what a cache tells about a body it goes on telling.
* `Cache.HasTextFor`, `IsTextFor`: the texts under the keys of bodies.
* `IsRenderedWith`: what holds of a rendered file.

## Main results

* `isMemory_of_unbounded`, `isMemory_of_keeps`: two kinds of caches.
* `IsMemory.mapM_renderBy`, `IsMemory.mapM_renderBy_again`: rendering files, and doing so again.
* `IsMemory.renderThrough_again`: rendering a bundle again.
-/

namespace Templating

variable {Time Span : Type} [Timeline Time Span] {templates : List String} {configuration : Value}

/-! ### Memories -/

/-- Among the caches of a kind (`Good`), one that a template was rendered through tells what it came
to, and all that was told before; and what a cache tells of a template (`Tells`) is what rendering
it comes to. -/
structure IsMemory (templates : List String) (configuration : Value)
    (Good : Cache Time Span → Prop) (Tells : Cache Time Span → String → String → Prop) : Prop where
  keeps : ∀ now c template rendered c', Good c → template ∈ templates →
    renderThrough now template configuration c = (.ok rendered, c') →
    Good c' ∧ Tells c' template rendered.content
      ∧ ∀ template' content, Tells c template' content → Tells c' template' content
  recalls : ∀ now c template content, Good c → template ∈ templates → Tells c template content →
    ∃ hit c', renderThrough now template configuration c = (.ok ⟨content, hit⟩, c')

/-- There is a text for a template under its key. -/
def Cache.HasTextFor (configuration : Value) (c : Cache Time Span) (template content : String) :
    Prop :=
  ∃ key e, cacheKey template configuration = .ok key ∧ c.entry? key = some e ∧ e.content = content

section Remembering

omit [Timeline Time Span]

variable {c c' : Cache Time Span} {e : CacheEntry Time} {template content : String}

/-- A cache has the text of the entry that is written last, by `Cache.entry?_append_others`. -/
theorem Cache.hasTextFor_of_append (hentries : c'.entries = c.others e.key ++ [e])
    (hkey : cacheKey template configuration = .ok e.key) :
    c'.HasTextFor configuration template e.content :=
  ⟨e.key, e, hkey, by rw [Cache.entry?_append_others hentries, if_pos rfl], rfl⟩

/-- Writing an entry as the most recently used one does not change the texts that are there, if it
takes the place of none but itself. -/
theorem Cache.HasTextFor.append (h : c.HasTextFor configuration template content)
    (hentries : c'.entries = c.others e.key ++ [e])
    (hsame : ∀ other, c.entry? e.key = some other → other = e) :
    c'.HasTextFor configuration template content := by
  obtain ⟨key, other, hkey, hother, rfl⟩ := h
  refine ⟨key, other, hkey, ?_, rfl⟩
  rw [Cache.entry?_append_others hentries]
  split
  · next heq =>
    rw [hsame other (heq ▸ hother)]
  · exact hother

end Remembering

/-- **A cache without bounds never loses a text**, so it is a memory for any templates, whatever
texts it holds. -/
theorem isMemory_of_unbounded (templates : List String) (configuration : Value) :
    IsMemory templates configuration
      (fun c : Cache Time Span => c.maxSize = none ∧ c.lifetime = none)
      (Cache.HasTextFor configuration) := by
  refine ⟨fun now c template rendered c' hgood _ h => ?_,
    fun now c template content hgood _ h => ?_⟩
  · cases hkey : cacheKey template configuration with
    | error fault =>
      rw [renderThrough_apply, hkey] at h
      cases h
    | ok key =>
      rcases Cache.renderThrough_cases hgood.1 hgood.2 now hkey with
        ⟨e, he, heq⟩ | ⟨hnone, ⟨fault, heq⟩ | ⟨content, heq⟩⟩
      · cases heq.symm.trans h
        obtain rfl : e.key = key := Cache.entry?_key he
        exact ⟨hgood, Cache.hasTextFor_of_append rfl hkey, fun _ _ hthere =>
          hthere.append rfl fun other hother => Option.some.inj (hother.symm.trans he)⟩
      · cases heq.symm.trans h
      · cases heq.symm.trans h
        exact ⟨hgood, Cache.hasTextFor_of_append (e := ⟨key, content, now⟩) rfl hkey,
          fun _ _ hthere => hthere.append (e := ⟨key, content, now⟩) rfl fun other hother => by
            cases hnone.symm.trans hother⟩
  · obtain ⟨key, e, hkey, he, rfl⟩ := h
    rcases Cache.renderThrough_cases hgood.1 hgood.2 now hkey with ⟨e', he', heq⟩ | ⟨hnone, -⟩
    · cases he.symm.trans he'
      exact ⟨true, _, heq⟩
    · cases hnone.symm.trans he

/-- A text is what the templates with a key are rendered to. -/
def IsTextFor (templates : List String) (configuration : Value) (key content : String) : Prop :=
  ∀ template ∈ templates, cacheKey template configuration = .ok key →
    Template.renderText template configuration = .ok content

/-- **A cache that has no other text for a template than its own is a memory**, whatever its bounds:
what it has forgotten is rendered again to the same text. The property is kept by
`upholds_renderThrough`. -/
theorem isMemory_of_keeps (hkeys : KeysTellApart templates configuration) :
    IsMemory templates configuration
      (Cache.Keeps (IsTextFor templates configuration) : Cache Time Span → Prop)
      (fun _ template content => contentOf template configuration = .ok content) := by
  refine ⟨fun now c template rendered c' hc hmem h => ?_,
    fun now c template content hc hmem h => ?_⟩
  · have hupholds : Upholds (IsTextFor templates configuration)
        (fun rendered => ∃ key, cacheKey template configuration = .ok key ∧
          IsTextFor templates configuration key rendered.content)
        (renderThrough now template configuration : CacheM Time Span Rendered) :=
      upholds_renderThrough now fun key content hkey hcontent template' hmem' hkey' =>
        hkeys template hmem template' hmem' key hkey hkey' ▸ hcontent
    obtain ⟨hkeeps, hrendered⟩ := hupholds c hc
    rw [h] at hkeeps hrendered
    obtain ⟨key, hkey, hfine⟩ := hrendered rendered rfl
    exact ⟨hkeeps, contentOf_eq_ok_iff.2 ⟨key, hkey, hfine template hmem hkey⟩,
      fun _ _ htells => htells⟩
  · obtain ⟨key, hkey, hcontent⟩ := contentOf_eq_ok_iff.1 h
    obtain ⟨-, hfound⟩ := hc.get now key
    rw [renderThrough_apply, hkey]
    dsimp only
    rcases hget : c.get now key with ⟨- | found, c'⟩
    · rw [hcontent]
      exact ⟨false, _, rfl⟩
    · rw [hget] at hfound
      cases hcontent.symm.trans (hfound found rfl template hmem hkey)
      exact ⟨true, c', rfl⟩

/-! ### Files -/

/-- A rendered file has its path rendered, its flag, and a body of some kind. -/
structure IsRenderedWith (configuration : Value) (Body : String → String → Prop) (f : FileDecl)
    (g : RenderedFile) : Prop where
  mapping : configuration.isMapping = true
  path : Template.renderText f.path configuration = .ok g.path
  overwrite : g.overwrite = f.overwrite
  body : Body f.content g.content

/-- A file is rendered through a cache as its body is: path and flag do not depend on the cache. -/
theorem FileDecl.renderBy_body_eq_ok_iff {now : Time} {f : FileDecl} {g : RenderedFile}
    {c c' : Cache Time Span} :
    f.renderBy (Bundle.renderThrough.body configuration now) configuration c = (.ok g, c')
      ↔ configuration.isMapping = true ∧ Template.renderText f.path configuration = .ok g.path
        ∧ g.overwrite = f.overwrite
        ∧ renderThrough now f.content configuration c = (.ok ⟨g.content, g.cacheHit⟩, c') := by
  have hbody : Bundle.renderThrough.body configuration now f.content c
      = if configuration.isMapping = true then renderThrough now f.content configuration c
        else (.error (.configurationNotMapping configuration.kindName), c) := by
    rw [Bundle.renderThrough.body, configurationOf]
    split
    · rfl
    · rfl
  rw [renderBy_apply, hbody, renderFrom, renderBy]
  -- The path is rendered before the body, and nothing is asked of the cache if that fails.
  cases Template.renderText f.path configuration with
  | error fault => exact iff_of_false (by rintro ⟨⟩) (by rintro ⟨-, ⟨⟩, -⟩)
  | ok path =>
    by_cases hmapping : configuration.isMapping = true
    · rw [if_pos hmapping]
      rcases renderThrough now f.content configuration c with ⟨fault | rendered, c₁⟩
      · exact iff_of_false (by rintro ⟨⟩) (by rintro ⟨-, -, -, ⟨⟩⟩)
      · constructor
        · rintro ⟨⟩
          exact ⟨hmapping, rfl, rfl, rfl⟩
        · obtain ⟨path', content', overwrite', hit'⟩ := g
          rintro ⟨-, hpath, hoverwrite, hrendered⟩
          cases hpath
          cases hoverwrite
          cases hrendered
          rfl
    · rw [if_neg hmapping]
      exact iff_of_false (by rintro ⟨⟩) fun h => hmapping h.1

namespace IsMemory

variable {Good : Cache Time Span → Prop} {Tells : Cache Time Span → String → String → Prop}
  {now : Time} {selected : List FileDecl} {files : List RenderedFile} {c c' : Cache Time Span}

/-- A cache that files were rendered through tells what their bodies came to. Induction on the
files; what was told before stays told. -/
theorem mapM_renderBy (h : IsMemory templates configuration Good Tells)
    (hselected : ∀ f ∈ selected, f.content ∈ templates) (hc : Good c)
    (hrun : selected.mapM (FileDecl.renderBy (Bundle.renderThrough.body configuration now)
      configuration) c = (.ok files, c')) :
    Good c' ∧ List.Forall₂ (IsRenderedWith configuration (Tells c')) selected files
      ∧ ∀ template content, Tells c template content → Tells c' template content := by
  induction selected generalizing c files with
  | nil =>
    cases hrun
    exact ⟨hc, .nil, fun _ _ htells => htells⟩
  | cons f selected ih =>
    rw [List.forall_mem_cons] at hselected
    obtain ⟨g, c₁, files, hfirst, hrest, rfl⟩ := mapM_cons_apply_eq_ok_iff.1 hrun
    obtain ⟨hmapping, hpath, hoverwrite, hbody⟩ := FileDecl.renderBy_body_eq_ok_iff.1 hfirst
    obtain ⟨hgood, htells, hkept⟩ := h.keeps now c _ _ _ hc hselected.1 hbody
    obtain ⟨hgood', hfiles, hkept'⟩ := ih hselected.2 hgood hrest
    exact ⟨hgood', .cons ⟨hmapping, hpath, hoverwrite, hkept' _ _ htells⟩ hfiles,
      fun _ _ htells => hkept' _ _ (hkept _ _ htells)⟩

/-- Files whose bodies a cache tells of are rendered to what it tells. Induction on the files. -/
theorem mapM_renderBy_again (h : IsMemory templates configuration Good Tells)
    (hselected : ∀ f ∈ selected, f.content ∈ templates) (hc : Good c)
    (hfiles : List.Forall₂ (IsRenderedWith configuration (Tells c)) selected files) (now : Time) :
    ∃ files' c', selected.mapM (FileDecl.renderBy (Bundle.renderThrough.body configuration now)
        configuration) c = (.ok files', c')
      ∧ files'.map RenderedFile.unmarked = files.map RenderedFile.unmarked := by
  induction selected generalizing c files with
  | nil =>
    cases hfiles
    exact ⟨[], c, rfl, rfl⟩
  | cons f selected ih =>
    rw [List.forall_mem_cons] at hselected
    obtain ⟨g, files, hfile, hrest, rfl⟩ := List.forall₂_cons_left_iff.1 hfiles
    obtain ⟨hit, c₁, hbody⟩ := h.recalls now c _ _ hc hselected.1 hfile.body
    obtain ⟨hgood, -, hkept⟩ := h.keeps now c _ _ _ hc hselected.1 hbody
    have hfirst := FileDecl.renderBy_body_eq_ok_iff (g := { g with cacheHit := hit }).2
      ⟨hfile.mapping, hfile.path, hfile.overwrite, hbody⟩
    -- What the cache told of the other bodies it still tells.
    obtain ⟨files', c', hrun, hsame⟩ := ih hselected.2 hgood <| hrest.imp fun _ _ hother =>
      { hother with body := hkept _ _ hother.body }
    refine ⟨_, c', mapM_cons_apply_eq_ok_iff.2 ⟨_, c₁, files', hfirst, hrun, rfl⟩, ?_⟩
    rw [List.map_cons, List.map_cons, hsame]
    rfl

end IsMemory

/-! ### Bundles -/

/-- Rendering a bundle through a cache renders the files that `selectFiles` selects, one after the
other. -/
theorem Bundle.renderThrough_eq_ok_iff {now : Time} {b : Bundle} {rendering : BundleRendering}
    {c c' : Cache Time Span} :
    b.renderThrough now configuration c = (.ok rendering, c')
      ↔ ∃ selected, selectFiles configuration b.files = .ok (selected, rendering.skipped)
        ∧ selected.mapM (FileDecl.renderBy (Bundle.renderThrough.body configuration now)
          configuration) c = (.ok rendering.files, c') := by
  rw [renderThrough]
  rcases selectFiles configuration b.files with fault | ⟨selected, skipped⟩
  · exact iff_of_false (by rintro ⟨⟩) (by rintro ⟨selected, ⟨⟩, -⟩)
  · change (selected.mapM (FileDecl.renderBy (renderThrough.body configuration now)
      configuration) >>= _) c = _ ↔ _
    rw [bind_apply]
    rcases hrun : selected.mapM (FileDecl.renderBy (renderThrough.body configuration now)
      configuration) c with ⟨fault | files, c₁⟩
    · refine iff_of_false (by rintro ⟨⟩) ?_
      rintro ⟨selected', ⟨⟩, hfiles⟩
      cases hrun.symm.trans hfiles
    · constructor
      · rintro ⟨⟩
        exact ⟨selected, rfl, hrun⟩
      · rintro ⟨selected', hselect, hfiles⟩
        cases rendering
        cases hselect
        cases hrun.symm.trans hfiles
        rfl

/-- **A bundle that was rendered through a memory is rendered to the same again**, but for the marks
of what came from the cache: `mapM_renderBy`, then `mapM_renderBy_again`. -/
theorem IsMemory.renderThrough_again {Good : Cache Time Span → Prop}
    {Tells : Cache Time Span → String → String → Prop} {b : Bundle} {rendering : BundleRendering}
    {now : Time} {c c' : Cache Time Span}
    (h : IsMemory (b.files.map FileDecl.content) configuration Good Tells) (hc : Good c)
    (hrun : b.renderThrough now configuration c = (.ok rendering, c')) (now' : Time) :
    ∃ rendering', (b.renderThrough now' configuration c').1 = .ok rendering'
      ∧ rendering'.unmarked = rendering.unmarked := by
  obtain ⟨selected, hselect, hfiles⟩ := Bundle.renderThrough_eq_ok_iff.1 hrun
  have hselected : ∀ f ∈ selected, f.content ∈ b.files.map FileDecl.content :=
    fun f hf => List.mem_map_of_mem (subset_of_selectFiles hselect hf)
  obtain ⟨hgood, htells, -⟩ := h.mapM_renderBy hselected hc hfiles
  obtain ⟨files', c₁, hagain, hsame⟩ := h.mapM_renderBy_again hselected hgood htells now'
  have hrun' : b.renderThrough now' configuration c' = (.ok ⟨files', rendering.skipped⟩, c₁) :=
    Bundle.renderThrough_eq_ok_iff.2 ⟨selected, hselect, hagain⟩
  refine ⟨⟨files', rendering.skipped⟩, by rw [hrun'], ?_⟩
  rw [BundleRendering.unmarked, BundleRendering.unmarked, hsame]

end Templating
