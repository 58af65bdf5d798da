import Templating.Proofs.Bundle.Workers
import Templating.Proofs.Cache.Contents

/-!
# What the files of a bundle produce

Rendering a bundle without a cache turns each of its files into one entry of the result: a rendered
file, or a skipped one if the guard of the file is false. The entries stand in the order of the
files, and what a file produces depends on the file and the configuration only. So neither the other
files of the bundle nor the workers that render them have a say in it.

The guards of all files are evaluated before anything is rendered, so of two faults the one that is
met first need not be that of the first file. This is why only renderings that succeed are compared
with what the files produce one by one.

## Main definitions

* `FileEntry`, `FileDecl.Produces`: what a file of a bundle produces.
* `Bundle.IsDividedInto`: a rendering consists of what the files of a bundle produce.

## Main results

* `FileDecl.entry_eq_ok_iff`: what a file produces can be computed.
* `Bundle.renderPlainly_eq_ok_iff`: rendering a bundle collects what its files produce.
* `Bundle.IsDividedInto.getElem?_eq`: equal files of two bundles produce the same entry.
* `Bundle.isDividedInto_of_renderByWorkers`: all of it for any number of workers.
-/

namespace Templating

variable {configuration : Value}

/-! ### Entries -/

/-- What a file of a bundle produces: a rendered file, or the note that it is skipped. -/
inductive FileEntry where
  | rendered (file : RenderedFile)
  | skipped (file : SkippedFile)
  deriving DecidableEq

namespace FileEntry

/-- The rendered file, if it is one. -/
def rendered? : FileEntry → Option RenderedFile
  | rendered file => some file
  | skipped _ => none

/-- The skipped file, if it is one. -/
def skipped? : FileEntry → Option SkippedFile
  | rendered _ => none
  | skipped file => some file

end FileEntry

namespace FileDecl

/-- What a file produces, said by its guard and by `Template.renderText` alone. A file whose guard
is absent, empty or true produces its path and its body, both rendered, with its own flag and
without a mark that it came from a cache. A file whose guard is false produces its path as it is,
and the guard. -/
inductive Produces (configuration : Value) (f : FileDecl) : FileEntry → Prop where
  | rendered {path content : String}
      (hguard : f.condition = none ∨ f.condition = some ""
        ∨ ∃ guard, f.condition = some guard ∧ Guard.evaluate guard configuration = .ok true)
      (hmapping : configuration.isMapping = true)
      (hpath : Template.renderText f.path configuration = .ok path)
      (hcontent : Template.renderText f.content configuration = .ok content) :
      Produces configuration f (.rendered ⟨path, content, f.overwrite, false⟩)
  | skipped {guard : String} (hguard : f.condition = some guard) (hne : guard ≠ "")
      (hfalse : Guard.evaluate guard configuration = .ok false) :
      Produces configuration f (.skipped ⟨f.path, guard⟩)

/-- What a file produces, on its own: `isSelected` first, and then the rendering of path and body if
it is selected. -/
def entry (configuration : Value) (f : FileDecl) : Except Fault FileEntry := do
  if ← f.isSelected configuration then
    .rendered <$> f.renderBy (renderBody configuration) configuration
  else return .skipped f.skipped

theorem isSelected_of_none {f : FileDecl} (h : f.condition = none) :
    f.isSelected configuration = .ok true := by
  rw [isSelected, guard?, h]
  rfl

/-- A file with a condition is selected if the condition is empty or holds. -/
theorem isSelected_of_some {f : FileDecl} {guard : String} (h : f.condition = some guard) :
    f.isSelected configuration
      = if guard = "" then .ok true else Guard.evaluate guard configuration := by
  rw [isSelected, guard?, h]
  by_cases hguard : guard = ""
  · subst hguard
    rfl
  · rw [if_neg hguard, Option.filter_some, if_pos (bne_iff_ne.2 hguard)]

/-- When a file is selected: it has no condition, an empty one, or one that `Guard.evaluate` finds
true. -/
theorem isSelected_eq_ok_true_iff {f : FileDecl} :
    f.isSelected configuration = .ok true ↔ f.condition = none ∨ f.condition = some ""
      ∨ ∃ guard, f.condition = some guard ∧ Guard.evaluate guard configuration = .ok true := by
  cases hcondition : f.condition with
  | none => exact iff_of_true (isSelected_of_none hcondition) (.inl rfl)
  | some guard =>
    rw [isSelected_of_some hcondition]
    by_cases hguard : guard = ""
    · rw [if_pos hguard, hguard]
      exact iff_of_true rfl (.inr (.inl rfl))
    · rw [if_neg hguard]
      simp [hguard]

/-- When a file is skipped: it has a condition, not an empty one, that `Guard.evaluate` finds
false. -/
theorem isSelected_eq_ok_false_iff {f : FileDecl} :
    f.isSelected configuration = .ok false ↔ ∃ guard, f.condition = some guard ∧ guard ≠ ""
      ∧ Guard.evaluate guard configuration = .ok false := by
  cases hcondition : f.condition with
  | none =>
    rw [isSelected_of_none hcondition]
    exact iff_of_false (by rintro ⟨⟩) (by rintro ⟨guard, ⟨⟩, -⟩)
  | some guard =>
    rw [isSelected_of_some hcondition]
    by_cases hguard : guard = ""
    · rw [if_pos hguard, hguard]
      simp
    · rw [if_neg hguard]
      simp [hguard]

/-- Without a cache a file is rendered to its path, its body and its flag: `renderBy` with
`renderBody`, taken apart step by step. -/
theorem renderBy_renderBody_eq_ok_iff {f : FileDecl} {file : RenderedFile} :
    f.renderBy (renderBody configuration) configuration = .ok file
      ↔ configuration.isMapping = true ∧ ∃ path content,
        Template.renderText f.path configuration = .ok path
        ∧ Template.renderText f.content configuration = .ok content
        ∧ file = ⟨path, content, f.overwrite, false⟩ := by
  rw [renderBy, ofExcept_eq_self, bind_eq_ok_iff]
  constructor
  · rintro ⟨path, hpath, hrest⟩
    obtain ⟨rendered, hrendered, ⟨⟩⟩ := bind_eq_ok_iff.1 hrest
    obtain ⟨configuration', hsame, hplain⟩ := bind_eq_ok_iff.1 hrendered
    obtain ⟨hmapping, rfl⟩ := configurationOf_eq_ok_iff.1 hsame
    obtain ⟨content, hcontent, rfl⟩ := map_eq_ok_iff.1 hplain
    exact ⟨hmapping, path, content, hpath, hcontent, rfl⟩
  · rintro ⟨hmapping, path, content, hpath, hcontent, rfl⟩
    have hbody : renderBody configuration f.content = .ok ⟨content, false⟩ :=
      bind_eq_ok_iff.2 ⟨configuration, configurationOf_eq_ok_iff.2 ⟨hmapping, rfl⟩,
        map_eq_ok_iff.2 ⟨content, hcontent, rfl⟩⟩
    exact ⟨path, hpath, bind_eq_ok_iff.2 ⟨_, hbody, rfl⟩⟩

/-- The entry of a selected file is the rendered file. -/
theorem entry_of_isSelected {f : FileDecl} {e : FileEntry}
    (h : f.isSelected configuration = .ok true) :
    f.entry configuration = .ok e ↔ ∃ file,
      f.renderBy (renderBody configuration) configuration = .ok file ∧ .rendered file = e := by
  rw [entry, h]
  exact map_eq_ok_iff

/-- The entry of a file that is skipped has its path and its condition. -/
theorem entry_of_not_isSelected {f : FileDecl} (h : f.isSelected configuration = .ok false) :
    f.entry configuration = .ok (.skipped f.skipped) := by
  rw [entry, h]
  rfl

/-- What `entry` computes for a file is what the file `Produces`. The cases are those of its guard,
by `isSelected_eq_ok_true_iff` and `isSelected_eq_ok_false_iff`. -/
theorem entry_eq_ok_iff {f : FileDecl} {e : FileEntry} :
    f.entry configuration = .ok e ↔ f.Produces configuration e := by
  constructor
  · intro h
    obtain ⟨chosen, hchosen, -⟩ := bind_eq_ok_iff.1 h
    cases chosen with
    | true =>
      obtain ⟨file, hfile, rfl⟩ := (entry_of_isSelected hchosen).1 h
      obtain ⟨hmapping, path, content, hpath, hcontent, rfl⟩ :=
        renderBy_renderBody_eq_ok_iff.1 hfile
      exact .rendered (isSelected_eq_ok_true_iff.1 hchosen) hmapping hpath hcontent
    | false =>
      obtain ⟨guard, hguard, hne, hfalse⟩ := isSelected_eq_ok_false_iff.1 hchosen
      cases (entry_of_not_isSelected hchosen).symm.trans h
      rw [skipped, hguard]
      exact .skipped hguard hne hfalse
  · rintro (⟨hguard, hmapping, hpath, hcontent⟩ | ⟨hguard, hne, hfalse⟩)
    · exact (entry_of_isSelected (isSelected_eq_ok_true_iff.2 hguard)).2
        ⟨_, renderBy_renderBody_eq_ok_iff.2 ⟨hmapping, _, _, hpath, hcontent, rfl⟩, rfl⟩
    · rw [entry_of_not_isSelected (isSelected_eq_ok_false_iff.2 ⟨_, hguard, hne, hfalse⟩), skipped,
        hguard]
      rfl

end FileDecl

/-! ### Bundles -/

/-- `selectFiles` puts the first file into one of its two lists, in front of what the others
contribute. -/
theorem selectFiles_cons_eq_ok_iff {f : FileDecl} {rest selected : List FileDecl}
    {skipped : List SkippedFile} :
    selectFiles configuration (f :: rest) = .ok (selected, skipped)
      ↔ (f.isSelected configuration = .ok true ∧ ∃ selected',
          selectFiles configuration rest = .ok (selected', skipped) ∧ f :: selected' = selected)
        ∨ (f.isSelected configuration = .ok false ∧ ∃ skipped',
          selectFiles configuration rest = .ok (selected, skipped')
            ∧ f.skipped :: skipped' = skipped) := by
  rw [selectFiles, bind_eq_ok_iff]
  constructor
  · rintro ⟨chosen, hchosen, hrest⟩
    obtain ⟨⟨selected', skipped'⟩, hselect, hsame⟩ := bind_eq_ok_iff.1 hrest
    cases chosen with
    | true =>
      cases hsame
      exact .inl ⟨hchosen, selected', hselect, rfl⟩
    | false =>
      cases hsame
      exact .inr ⟨hchosen, skipped', hselect, rfl⟩
  · rintro (⟨hchosen, selected', hselect, rfl⟩ | ⟨hchosen, skipped', hselect, rfl⟩)
    · exact ⟨true, hchosen, bind_eq_ok_iff.2 ⟨_, hselect, rfl⟩⟩
    · exact ⟨false, hchosen, bind_eq_ok_iff.2 ⟨_, hselect, rfl⟩⟩

/-- Selecting files and rendering those that were selected collects what the files produce, the
rendered and the skipped ones apart. Induction on the files. -/
theorem selectFiles_and_mapM_iff {files : List FileDecl} {rendered : List RenderedFile}
    {skipped : List SkippedFile} :
    (∃ selected, selectFiles configuration files = .ok (selected, skipped)
        ∧ selected.mapM (FileDecl.renderBy (renderBody configuration) configuration) = .ok rendered)
      ↔ ∃ entries, List.Forall₂ (FileDecl.Produces configuration) files entries
        ∧ rendered = entries.filterMap FileEntry.rendered?
        ∧ skipped = entries.filterMap FileEntry.skipped? := by
  induction files generalizing rendered skipped with
  | nil =>
    constructor
    · rintro ⟨selected, ⟨⟩, ⟨⟩⟩
      exact ⟨[], .nil, rfl, rfl⟩
    · rintro ⟨entries, ⟨⟩, rfl, rfl⟩
      exact ⟨[], rfl, rfl⟩
  | cons f rest ih =>
    constructor
    · rintro ⟨selected, hselect, hrendered⟩
      rcases selectFiles_cons_eq_ok_iff.1 hselect with
        ⟨hchosen, selected', hrest, rfl⟩ | ⟨hchosen, skipped', hrest, rfl⟩
      · -- The first file is selected, so the first rendered file is its own.
        rw [mapM_eq_ok_iff] at hrendered
        obtain ⟨file, rendered', hfile, hrendered', rfl⟩ :=
          List.forall₂_cons_left_iff.1 hrendered
        obtain ⟨entries, hentries, rfl, rfl⟩ :=
          ih.1 ⟨selected', hrest, mapM_eq_ok_iff.2 hrendered'⟩
        have hentry := (FileDecl.entry_of_isSelected hchosen).2 ⟨file, hfile, rfl⟩
        exact ⟨_, .cons (FileDecl.entry_eq_ok_iff.1 hentry) hentries, rfl, rfl⟩
      · -- The first file is skipped, and all rendered files are those of the others.
        obtain ⟨entries, hentries, rfl, rfl⟩ := ih.1 ⟨selected, hrest, hrendered⟩
        have hentry := FileDecl.entry_of_not_isSelected hchosen
        exact ⟨_, .cons (FileDecl.entry_eq_ok_iff.1 hentry) hentries, rfl, rfl⟩
    · rintro ⟨entries, hentries, rfl, rfl⟩
      obtain ⟨e, entries, hentry, hrest, rfl⟩ := List.forall₂_cons_left_iff.1 hentries
      obtain ⟨selected, hselect, hrendered⟩ := ih.2 ⟨entries, hrest, rfl, rfl⟩
      cases hentry with
      | rendered hguard hmapping hpath hcontent =>
        refine ⟨f :: selected, selectFiles_cons_eq_ok_iff.2 (.inl
          ⟨FileDecl.isSelected_eq_ok_true_iff.2 hguard, selected, hselect, rfl⟩), ?_⟩
        rw [mapM_eq_ok_iff] at hrendered ⊢
        exact .cons (FileDecl.renderBy_renderBody_eq_ok_iff.2
          ⟨hmapping, _, _, hpath, hcontent, rfl⟩) hrendered
      | skipped hguard hne hfalse =>
        refine ⟨selected, selectFiles_cons_eq_ok_iff.2 (.inr
          ⟨FileDecl.isSelected_eq_ok_false_iff.2 ⟨_, hguard, hne, hfalse⟩, _, hselect, ?_⟩),
          hrendered⟩
        rw [FileDecl.skipped, hguard]
        rfl

/-- A rendering consists of what the files of a bundle produce: of one entry for each file, the
rendered and the skipped ones each in the order of the files. -/
structure Bundle.IsDividedInto (configuration : Value) (b : Bundle) (entries : List FileEntry)
    (r : BundleRendering) : Prop where
  produces : List.Forall₂ (FileDecl.Produces configuration) b.files entries
  files : r.files = entries.filterMap FileEntry.rendered?
  skipped : r.skipped = entries.filterMap FileEntry.skipped?

/-- **Rendering a bundle without a cache collects what its files produce**:
`selectFiles_and_mapM_iff` for all its files. -/
theorem Bundle.renderPlainly_eq_ok_iff {b : Bundle} {r : BundleRendering} :
    b.renderPlainly configuration = .ok r ↔ ∃ entries, b.IsDividedInto configuration entries r := by
  have hdivided : (∃ entries, b.IsDividedInto configuration entries r)
      ↔ ∃ entries, List.Forall₂ (FileDecl.Produces configuration) b.files entries
        ∧ r.files = entries.filterMap FileEntry.rendered?
        ∧ r.skipped = entries.filterMap FileEntry.skipped? :=
    ⟨fun ⟨entries, h⟩ => ⟨entries, h.produces, h.files, h.skipped⟩,
      fun ⟨entries, hproduces, hfiles, hskipped⟩ => ⟨entries, hproduces, hfiles, hskipped⟩⟩
  rw [hdivided, ← selectFiles_and_mapM_iff, renderPlainly, bind_eq_ok_iff]
  constructor
  · rintro ⟨⟨selected, skipped⟩, hselect, hrest⟩
    obtain ⟨files, hfiles, ⟨⟩⟩ := bind_eq_ok_iff.1 hrest
    exact ⟨selected, hselect, hfiles⟩
  · rintro ⟨selected, hselect, hfiles⟩
    exact ⟨_, hselect, bind_eq_ok_iff.2 ⟨_, hfiles, rfl⟩⟩

namespace Bundle.IsDividedInto

variable {b b' : Bundle} {entries entries' : List FileEntry} {r r' : BundleRendering}

/-- The entries of a bundle are what `FileDecl.entry` gives for its files, one by one. -/
theorem map_entry (h : b.IsDividedInto configuration entries r) :
    b.files.map (FileDecl.entry configuration) = entries.map .ok := by
  rw [← List.forall₂_eq_eq_eq, List.forall₂_map_left_iff, List.forall₂_map_right_iff]
  exact h.produces.imp fun f e => FileDecl.entry_eq_ok_iff.2

/-- Equal files of two bundles produce the same entry, wherever they stand, because `FileDecl.entry`
looks at nothing but the file and the configuration. -/
theorem getElem?_eq (h : b.IsDividedInto configuration entries r)
    (h' : b'.IsDividedInto configuration entries' r') {i j : Nat}
    (hsame : b.files[i]? = b'.files[j]?) : entries[i]? = entries'[j]? := by
  have hok : entries[i]?.map (Except.ok : FileEntry → Except Fault FileEntry)
      = entries'[j]?.map Except.ok := by
    rw [← List.getElem?_map, ← List.getElem?_map, ← h.map_entry, ← h'.map_entry,
      List.getElem?_map, List.getElem?_map, hsame]
  exact Option.map_injective (fun _ _ => Except.ok.inj) hok

/-- A bundle with no other files than those of one that is rendered is rendered, too: each of its
files has an entry there. -/
theorem exists_of_subset (h : b.IsDividedInto configuration entries r)
    (hsubset : b'.files ⊆ b.files) :
    ∃ r', b'.renderPlainly configuration = .ok r' := by
  have hentry : ∀ f ∈ b'.files, ∃ e, f.entry configuration = .ok e := by
    intro f hf
    have hmem : f.entry configuration ∈ entries.map .ok := by
      rw [← h.map_entry]
      exact List.mem_map_of_mem (hsubset hf)
    obtain ⟨e, -, he⟩ := List.mem_map.1 hmem
    exact ⟨e, he.symm⟩
  obtain ⟨entries', hentries'⟩ := exists_mapM_eq_ok hentry
  have hproduces : List.Forall₂ (FileDecl.Produces configuration) b'.files entries' :=
    (mapM_eq_ok_iff.1 hentries').imp fun f e => FileDecl.entry_eq_ok_iff.1
  exact ⟨⟨_, _⟩, Bundle.renderPlainly_eq_ok_iff.2 ⟨entries', hproduces, rfl, rfl⟩⟩

end Bundle.IsDividedInto

/-! ### Any number of workers -/

/-- **If a bundle is rendered without a cache, by however many workers, the rendering consists of
what its files produce.** Rendered with the same configuration, a bundle with no other files does
not fail either; and whatever bundle is rendered, a file produces there what it produces here,
wherever it stands. -/
theorem Bundle.isDividedInto_of_renderByWorkers {b : Bundle} {workers : Option Int}
    {moves : List Move} {r : BundleRendering}
    (h : b.renderByWorkers workers moves configuration = some (.ok r)) :
    ∃ entries, b.IsDividedInto configuration entries r
      ∧ ∀ (b' : Bundle) (workers' : Option Int) (moves' : List Move)
          (outcome : Except Fault BundleRendering),
        b'.renderByWorkers workers' moves' configuration = some outcome →
        (b'.files ⊆ b.files → ∃ r', outcome = .ok r')
        ∧ ∀ r', outcome = .ok r' → ∃ entries', b'.IsDividedInto configuration entries' r'
          ∧ ∀ i j : Nat, b.files[i]? = b'.files[j]? → entries[i]? = entries'[j]? := by
  obtain ⟨entries, hentries⟩ :=
    Bundle.renderPlainly_eq_ok_iff.1 (eq_renderPlainly_of_renderByWorkers h).symm
  refine ⟨entries, hentries, fun b' workers' moves' outcome houtcome => ?_⟩
  rw [eq_renderPlainly_of_renderByWorkers houtcome]
  refine ⟨hentries.exists_of_subset, fun r' hr' => ?_⟩
  obtain ⟨entries', hentries'⟩ := Bundle.renderPlainly_eq_ok_iff.1 hr'
  exact ⟨entries', hentries', fun i j => hentries.getElem?_eq hentries'⟩

/-- A bundle with a file of every sort: without a guard, with an empty one, a true one, a false one
and one that is no guard. -/
def mixedBundle : Bundle :=
  { name := "mixed"
    description := ""
    version := "1"
    files := [⟨"\x7b\x7ba\x7d\x7d.txt", "x\x7b\x7ba\x7d\x7d", none, none⟩,
      ⟨"b", "", some true, some ""⟩, ⟨"c", "\x7b\x7bb\x7d\x7d", some false, some "a == 1"⟩,
      ⟨"\x7b\x7ba\x7d\x7d", "d", none, some "a == 2"⟩, ⟨"e", "", none, some "("⟩]
    options := [] }

/-- What it is rendered to: three files, and two that are skipped. -/
def mixedRendering : BundleRendering :=
  ⟨[⟨"1.txt", "x1", none, false⟩, ⟨"b", "", some true, false⟩,
      ⟨"c", "\x7b\x7bb\x7d\x7d", some false, false⟩],
    [⟨"\x7b\x7ba\x7d\x7d", "a == 2"⟩, ⟨"e", "("⟩]⟩

/-- Two workers render this bundle and finish its second file first. Turned around, it is rendered
as well, and its fourth file, now the second, has the same entry. -/
theorem isDividedInto_of_renderByWorkers_mixed :
    mixedBundle.renderByWorkers (some 2) [.take, .take, .finish 1, .take, .finish 1, .finish 0]
        (.mapping [("a", .int 1)]) = some (.ok mixedRendering)
      ∧ ∃ (entries entries' : List FileEntry) (r' : BundleRendering),
        mixedBundle.IsDividedInto (.mapping [("a", .int 1)]) entries mixedRendering
        ∧ { mixedBundle with files := mixedBundle.files.reverse }.IsDividedInto
            (.mapping [("a", .int 1)]) entries' r'
        ∧ entries[3]? = entries'[1]? := by
  have h : mixedBundle.renderByWorkers (some 2)
      [.take, .take, .finish 1, .take, .finish 1, .finish 0] (.mapping [("a", .int 1)])
        = some (.ok mixedRendering) := by
    decide +kernel
  obtain ⟨entries, hentries, hothers⟩ := Bundle.isDividedInto_of_renderByWorkers h
  obtain ⟨moves, hmoves⟩ := Bundle.exists_renderByWorkers_eq (some 1)
    { mixedBundle with files := mixedBundle.files.reverse } (.mapping [("a", .int 1)])
  obtain ⟨hsucceeds, hsame⟩ := hothers _ _ _ _ hmoves
  obtain ⟨r', hr'⟩ := hsucceeds fun f hf => List.mem_reverse.1 hf
  obtain ⟨entries', hentries', hentry⟩ := hsame r' hr'
  exact ⟨h, entries, entries', r', hentries, hentries', hentry 3 1 rfl⟩

end Templating
