import Templating.Bundle.Rendering
import Templating.Proofs.Outcome

/-!
# What stands in a cache

A property of keys and texts that holds of every entry of a cache is kept by searching the cache,
by clearing it, and by storing a text that has the property under its key. A computation on a
cache upholds the property if it keeps it and what it returns follows from it. Rendering through a
cache upholds every property that a key and the text rendered for it have; rendering the files of
a bundle upholds it file by file.

## Main definitions

* `Cache.Keeps`: a property of keys and texts holds of every entry.
* `Upholds`: a computation keeps the property, and what it returns has another one.

## Main results

* `Cache.Keeps.get`, `Cache.Keeps.set`, `Cache.Keeps.clear`: the operations keep a property.
* `upholds_renderThrough`: rendering a template through a cache.
* `Bundle.upholds_renderThrough`: rendering a bundle through a cache.
-/

namespace Templating

variable {Time Span : Type}

/-! ### Entries -/

namespace Cache

/-- A property of keys and texts holds of every entry. It says nothing of the order of the entries,
of their times or of the counters. -/
def Keeps (Fine : String → String → Prop) (c : Cache Time Span) : Prop :=
  ∀ e ∈ c.entries, Fine e.key e.content

variable {Fine : String → String → Prop} {c : Cache Time Span}

theorem keeps_empty (maxSize : Option Nat) (lifetime : Option Span) :
    (empty maxSize lifetime : Cache Time Span).Keeps Fine :=
  fun _ he => absurd he List.not_mem_nil

/-- The entries under other keys have the property. -/
theorem Keeps.others (h : c.Keeps Fine) (key : String) : ∀ e ∈ c.others key, Fine e.key e.content :=
  fun e he => h e (List.mem_filter.1 he).1

/-- What `entry?` finds under a key is entered under that key. -/
theorem entry?_key {key : String} {e : CacheEntry Time} (h : c.entry? key = some e) :
    e.key = key := by
  have hfound : c.entries.find? (fun e => e.key == key) = some e := h
  have hkey := List.find?_some hfound
  exact eq_of_beq hkey

/-- The text that is found under a key has the property with that key. -/
theorem Keeps.entry? (h : c.Keeps Fine) {key : String} {e : CacheEntry Time}
    (he : c.entry? key = some e) : Fine key e.content := by
  rw [← entry?_key he]
  exact h e (List.mem_of_find?_eq_some he)

/-- **A search keeps the property, and a text that is found has it.** An entry that `get` finds is
moved behind the others, and one that is too old is dropped. -/
theorem Keeps.get [Timeline Time Span] (h : c.Keeps Fine) (now : Time) (key : String) :
    (c.get now key).2.Keeps Fine
      ∧ ∀ content, (c.get now key).1 = some content → Fine key content := by
  rw [Cache.get]
  cases he : c.entry? key with
  | none => exact ⟨h, fun content hcontent => by cases hcontent⟩
  | some e =>
    have hfine := h.entry? he
    dsimp only
    split
    · exact ⟨h.others key, fun content hcontent => by cases hcontent⟩
    · refine ⟨fun e' he' => ?_, ?_⟩
      · rcases List.mem_append.1 he' with hother | hlast
        · exact h.others key e' hother
        · obtain rfl := List.mem_singleton.1 hlast
          rw [entry?_key he]
          exact hfine
      · rintro content ⟨⟩
        exact hfine

/-- **Storing a text that has the property keeps it**, whatever entry `set` evicts for it. -/
theorem Keeps.set (h : c.Keeps Fine) (now : Time) {key content : String}
    (hfine : Fine key content) : (c.set now key content).Keeps Fine := by
  intro e he
  rcases List.mem_append.1 (List.mem_of_mem_drop he) with hother | hlast
  · exact h.others key e hother
  · obtain rfl := List.mem_singleton.1 hlast
    exact hfine

theorem Keeps.clear : c.clear.Keeps Fine :=
  fun _ he => absurd he List.not_mem_nil

end Cache

/-! ### Computations on a cache -/

/-- A computation keeps a property of the entries, and what it returns has another one. -/
def Upholds {α : Type} (Fine : String → String → Prop) (Returned : α → Prop)
    (m : CacheM Time Span α) : Prop :=
  ∀ c : Cache Time Span, c.Keeps Fine →
    (m c).2.Keeps Fine ∧ ∀ a, (m c).1 = .ok a → Returned a

section Upholds

variable {α β : Type} {Fine : String → String → Prop} {Returned : α → Prop}

/-- Returning a result leaves the cache alone, and the result has the property if it has it on its
own. -/
theorem upholds_pure {a : α} (h : Returned a) :
    Upholds Fine Returned (pure a : CacheM Time Span α) := by
  intro c hc
  refine ⟨hc, ?_⟩
  rintro a' ⟨⟩
  exact h

theorem upholds_ofExcept {outcome : Except Fault α} (h : ∀ a, outcome = .ok a → Returned a) :
    Upholds Fine Returned (MonadExcept.ofExcept outcome : CacheM Time Span α) := by
  cases outcome with
  | error fault => exact fun c hc => ⟨hc, fun a ha => by cases ha⟩
  | ok a => exact upholds_pure (h a rfl)

/-- What is said of the result may be weakened. -/
theorem Upholds.imp {Weaker : α → Prop} {m : CacheM Time Span α} (hm : Upholds Fine Returned m)
    (h : ∀ a, Returned a → Weaker a) : Upholds Fine Weaker m := by
  intro c hc
  obtain ⟨hkeeps, hreturned⟩ := hm c hc
  exact ⟨hkeeps, fun a ha => h a (hreturned a ha)⟩

/-- One computation after another, the second of which may rely on what the first returns. -/
theorem Upholds.bind {Next : β → Prop} {m : CacheM Time Span α} {f : α → CacheM Time Span β}
    (hm : Upholds Fine Returned m) (hf : ∀ a, Returned a → Upholds Fine Next (f a)) :
    Upholds Fine Next (m >>= f) := by
  intro c hc
  obtain ⟨hkeeps, hreturned⟩ := hm c hc
  rw [bind_apply]
  rcases hout : m c with ⟨fault | a, c'⟩
  all_goals rw [hout] at hkeeps hreturned
  · exact ⟨hkeeps, fun b hb => by cases hb⟩
  · exact hf a (hreturned a rfl) c' hkeeps

/-- A computation for every item of a list, with results that fit the items one by one
(`List.Forall₂`). Induction on the list, by `Upholds.bind`. -/
theorem upholds_mapM {ι : Type} {Results : ι → α → Prop} {f : ι → CacheM Time Span α}
    {xs : List ι} (h : ∀ x ∈ xs, Upholds Fine (Results x) (f x)) :
    Upholds Fine (fun ys => List.Forall₂ Results xs ys) (xs.mapM f) := by
  induction xs with
  | nil => exact upholds_pure .nil
  | cons x xs ih =>
    rw [List.mapM_cons]
    rw [List.forall_mem_cons] at h
    refine h.1.bind fun y hy => (ih h.2).bind fun ys hys => ?_
    exact upholds_pure (.cons hy hys)

end Upholds

/-! ### Rendering -/

section Rendering

variable {Fine : String → String → Prop}

/-- Storing a text that has the property keeps it, by `Cache.Keeps.set`. -/
theorem upholds_store (now : Time) {key content : String} (h : Fine key content) :
    Upholds Fine (fun _ => True) (store now key content : CacheM Time Span Unit) :=
  fun _ hc => ⟨hc.set now h, fun _ _ => trivial⟩

/-- An outcome that does not depend on the cache leaves the cache alone. -/
theorem upholds_liftExcept {α : Type} {outcome : Except Fault α} :
    Upholds Fine (fun a => outcome = .ok a)
      (renderThrough.liftExcept outcome : CacheM Time Span α) :=
  fun _ hc => ⟨hc, fun _ ha => ha⟩

variable [Timeline Time Span]

/-- Searching keeps the property, and a text that is found has it, by `Cache.Keeps.get`. -/
theorem upholds_lookUp (now : Time) (key : String) :
    Upholds Fine (fun found => ∀ content, found = some content → Fine key content)
      (lookUp now key : CacheM Time Span (Option String)) := by
  intro c hc
  obtain ⟨hkeeps, hfound⟩ := hc.get now key
  refine ⟨hkeeps, ?_⟩
  rintro found ⟨⟩
  exact hfound

/-- Rendering a template through a cache asks for its key, searches the cache, and stores what is
rendered only where nothing is found. This is `renderThrough` with its state written out. -/
theorem renderThrough_apply (now : Time) (template : String) (configuration : Value)
    (c : Cache Time Span) :
    renderThrough now template configuration c
      = match cacheKey template configuration with
        | .error fault => (.error fault, c)
        | .ok key =>
          match c.get now key with
          | (some content, c) => (.ok ⟨content, true⟩, c)
          | (none, c) =>
            match Template.renderText template configuration with
            | .error fault => (.error fault, c)
            | .ok content => (.ok ⟨content, false⟩, c.set now key content) := by
  rw [renderThrough, bind_apply, renderThrough.liftExcept]
  cases cacheKey template configuration with
  | error fault => rfl
  | ok key =>
    dsimp only
    rw [bind_apply, lookUp]
    rcases c.get now key with ⟨- | content, c'⟩
    · dsimp only
      rw [bind_apply, renderThrough.liftExcept]
      cases Template.renderText template configuration with
      | error fault => rfl
      | ok content => rfl
    · rfl

/-- **Rendering a template through a cache** upholds what holds of the text that
`Template.renderText` makes for its `cacheKey`. -/
theorem upholds_renderThrough (now : Time) {template : String} {configuration : Value}
    (h : ∀ key content, cacheKey template configuration = .ok key →
      Template.renderText template configuration = .ok content → Fine key content) :
    Upholds Fine
      (fun rendered => ∃ key, cacheKey template configuration = .ok key ∧ Fine key rendered.content)
      (renderThrough now template configuration : CacheM Time Span Rendered) := by
  rw [renderThrough]
  refine upholds_liftExcept.bind fun key hkey => ?_
  refine (upholds_lookUp now key).bind fun found hfound => ?_
  cases found with
  | some content => exact upholds_pure ⟨key, hkey, hfound content rfl⟩
  | none =>
    refine upholds_liftExcept.bind fun content hcontent => ?_
    have hfine := h key content hkey hcontent
    exact (upholds_store now hfine).bind fun _ _ => upholds_pure ⟨key, hkey, hfine⟩

/-- What holds of a rendered file: its path is rendered without the cache (`Template.renderText`),
and its body has a property. -/
def IsRenderedFrom (configuration : Value) (Body : String → String → Prop) (f : FileDecl)
    (rendered : RenderedFile) : Prop :=
  Template.renderText f.path configuration = .ok rendered.path ∧ Body f.content rendered.content

/-- Files that `selectFiles` selects are files of the bundle. Induction on the files. -/
theorem subset_of_selectFiles {configuration : Value} {files selected : List FileDecl}
    {skipped : List SkippedFile} (h : selectFiles configuration files = .ok (selected, skipped)) :
    selected ⊆ files := by
  induction files generalizing selected skipped with
  | nil =>
    cases h
    exact List.Subset.refl _
  | cons f rest ih =>
    obtain ⟨chosen, -, hrest⟩ := bind_eq_ok_iff.1 h
    obtain ⟨⟨selected', skipped'⟩, hselected, hboth⟩ := bind_eq_ok_iff.1 hrest
    have hsubset := ih hselected
    cases chosen with
    | true =>
      cases hboth
      exact List.cons_subset_cons f hsubset
    | false =>
      cases hboth
      exact List.subset_cons_of_subset f hsubset

/-- A configuration is a mapping, taken as it is. -/
theorem configurationOf_eq_ok_iff {v configuration : Value} :
    configurationOf v = .ok configuration ↔ v.isMapping = true ∧ v = configuration := by
  rw [configurationOf]
  split
  · rename_i h
    constructor
    · rintro ⟨⟩
      exact ⟨h, rfl⟩
    · rintro ⟨-, rfl⟩
      rfl
  · rename_i h
    exact iff_of_false (by rintro ⟨⟩) fun hboth => h hboth.1

/-- **Rendering a bundle through a cache** renders each selected file, its body through the cache
and its path without it, and upholds the property file by file. -/
theorem Bundle.upholds_renderThrough (now : Time) {b : Bundle} {configuration : Value}
    {Body : String → String → Prop}
    (h : ∀ f ∈ b.files, Upholds Fine (fun rendered => Body f.content rendered.content)
      (Templating.renderThrough now f.content configuration : CacheM Time Span Rendered)) :
    Upholds Fine
      (fun rendering => ∃ selected,
        selectFiles configuration b.files = .ok (selected, rendering.skipped)
        ∧ List.Forall₂ (IsRenderedFrom configuration Body) selected rendering.files)
      (b.renderThrough now configuration : CacheM Time Span BundleRendering) := by
  rw [Bundle.renderThrough]
  refine (upholds_ofExcept fun _ hselect => hselect).bind fun ⟨selected, skipped⟩ hselect => ?_
  have hfile : ∀ f ∈ selected, Upholds Fine (IsRenderedFrom configuration Body f)
      (f.renderBy (Bundle.renderThrough.body configuration now) configuration
        : CacheM Time Span RenderedFile) := by
    intro f hf
    rw [FileDecl.renderBy]
    refine (upholds_ofExcept fun _ hpath => hpath).bind fun path hpath => ?_
    have hbody : Upholds Fine (fun rendered => Body f.content rendered.content)
        (Bundle.renderThrough.body configuration now f.content : CacheM Time Span Rendered) := by
      rw [Bundle.renderThrough.body]
      refine (upholds_ofExcept fun _ hsame => hsame).bind fun configuration' hsame => ?_
      obtain ⟨-, rfl⟩ := configurationOf_eq_ok_iff.1 hsame
      exact h f (subset_of_selectFiles hselect hf)
    exact hbody.bind fun rendered hrendered => upholds_pure ⟨hpath, hrendered⟩
  exact (upholds_mapM hfile).bind fun files hfiles => upholds_pure ⟨selected, hselect, hfiles⟩

end Rendering

/-- An outcome that is lifted to outcomes stays the same. -/
theorem ofExcept_eq_self {α : Type} (outcome : Except Fault α) :
    (MonadExcept.ofExcept outcome : Except Fault α) = outcome := by
  cases outcome <;> rfl

/-- Rendering a bundle without a cache renders each selected file, its path and its body by
`Template.renderText`. -/
theorem Bundle.forall₂_of_renderPlainly {b : Bundle} {configuration : Value}
    {rendering : BundleRendering} (h : b.renderPlainly configuration = .ok rendering) :
    ∃ selected, selectFiles configuration b.files = .ok (selected, rendering.skipped)
      ∧ List.Forall₂ (IsRenderedFrom configuration fun body content =>
          Template.renderText body configuration = .ok content) selected rendering.files := by
  rw [Bundle.renderPlainly] at h
  obtain ⟨⟨selected, skipped⟩, hselect, hrest⟩ := bind_eq_ok_iff.1 h
  obtain ⟨files, hfiles, ⟨⟩⟩ := bind_eq_ok_iff.1 hrest
  refine ⟨selected, hselect, (mapM_eq_ok_iff.1 hfiles).imp fun f rendered hrendered => ?_⟩
  rw [FileDecl.renderBy] at hrendered
  obtain ⟨path, hpath, hfile⟩ := bind_eq_ok_iff.1 hrendered
  obtain ⟨body, hbody, ⟨⟩⟩ := bind_eq_ok_iff.1 hfile
  obtain ⟨configuration', hsame, hplain⟩ := bind_eq_ok_iff.1 hbody
  obtain ⟨-, rfl⟩ := configurationOf_eq_ok_iff.1 hsame
  obtain ⟨content, hcontent, rfl⟩ := map_eq_ok_iff.1 hplain
  rw [ofExcept_eq_self] at hpath
  exact ⟨hpath, hcontent⟩

end Templating
