import Mathlib.Data.List.Nodup
import Templating.Proofs.Scaffold.Replacement

/-!
# What is written

A run that succeeds returns the destinations of the rendered files in their order, and each
destination holds the content of the last rendered file that goes there. Nothing is lost exactly if
no two rendered files meet: the check of a bundle compares the paths as they are declared, and the
plan looks only for what exists before anything is written, so neither sees that two paths lead to
one place after they were rendered and normalised.

## Main definitions

* `IsLossless`: every rendered file is found at its destination, no two of which are equal.
* `Delivers`: what is promised about a run that succeeds.

## Main results

* `node?_mapM_writePlannedFile`: what is written last stays.
* `delivers_writeAt`, `writeBundle_delivers`: writing a bundle.
* `lost_meeting_file`: two files that meet, one of which is lost.
-/

namespace Templating

/-- If some item of a list has a property, there is a last one that has it. Induction on the
list. -/
theorem exists_last_of_mem {α : Type} (Has : α → Prop) {xs : List α} (h : ∃ x ∈ xs, Has x) :
    ∃ before x after, xs = before ++ x :: after ∧ Has x ∧ ∀ y ∈ after, ¬Has y := by
  induction xs with
  | nil => obtain ⟨x, ⟨⟩, -⟩ := h
  | cons x xs ih =>
    by_cases hrest : ∃ y ∈ xs, Has y
    · obtain ⟨before, y, after, rfl, hy, hlast⟩ := ih hrest
      exact ⟨x :: before, y, after, rfl, hy, hlast⟩
    · obtain ⟨y, hy, hhas⟩ := h
      rcases List.mem_cons.1 hy with rfl | hmem
      · exact ⟨[], y, xs, rfl, hhas, fun z hz hz' => hrest ⟨z, hz, hz'⟩⟩
      · exact absurd ⟨y, hmem, hhas⟩ hrest

/-! ### Writing planned files -/

section Writing

variable {t t' : FileTree} {target : Location}

/-- A file that was written holds its content, by `FileTree.withText_eq_ok`. -/
theorem node?_writePlannedFile {f : PlannedFile} {location : Location}
    (hplain : f.location.IsPlain) (h : writePlannedFile f t = (.ok location, t')) :
    t'.node? f.location = some (.file f.content) := by
  obtain ⟨-, t₁, hwritten⟩ := writePlannedFile_eq_ok h
  obtain ⟨hne, rfl⟩ := FileTree.withText_eq_ok hplain hwritten
  rw [List.nil_append, FileTree.node?_put hne]
  exact if_pos rfl

/-- What is written last for a location is what stands there in the end. Induction on the files
`before` it; those `after` it go elsewhere (`hlast`). -/
theorem node?_mapM_writePlannedFile {before after : List PlannedFile} {f : PlannedFile}
    {locations : List Location} (hplain : ∀ g ∈ before ++ f :: after, g.location.IsPlain)
    (h : (before ++ f :: after).mapM writePlannedFile t = (.ok locations, t'))
    (hlast : ∀ g ∈ after, g.location ≠ f.location) :
    t'.node? f.location = some (.file f.content) := by
  induction before generalizing t locations with
  | nil =>
    rw [List.nil_append, List.forall_mem_cons] at hplain
    obtain ⟨location, t₁, rest, hfirst, hrest, -⟩ := mapM_cons_apply_eq_ok_iff.1 h
    have hwritten := node?_writePlannedFile hplain.1 hfirst
    -- The files after it go elsewhere, so that its text stays.
    have hover := overwrites_mapM_writePlannedFile hplain.2 t₁ _ _ hwritten
    rw [hrest] at hover
    rcases hover with hsame | ⟨-, text, hplanned, -⟩
    · exact hsame
    · exact absurd rfl (hlast ⟨f.location, text⟩ hplanned)
  | cons g before ih =>
    rw [List.cons_append, List.forall_mem_cons] at hplain
    obtain ⟨location, t₁, rest, -, hrest, -⟩ := mapM_cons_apply_eq_ok_iff.1 h
    exact ih hplain.2 hrest

end Writing

/-! ### Writing a bundle -/

/-- Every rendered file is found at its destination, and what was returned are the destinations in
the order of the files, no two of which are equal. -/
structure IsLossless (target : Location) (rendering : BundleRendering) (locations : List Location)
    (t : FileTree) : Prop where
  intact : ∀ f ∈ rendering.files, t.node? (f.destination target) = some (.file f.content)
  returned : locations = rendering.files.map (RenderedFile.destination target)
  distinct : locations.Nodup

/-- What is promised about a run that returns `locations` and leaves the tree `t`: the last file for
each place stands there, and no file is lost exactly if no two meet. -/
structure Delivers (target : Location) (rendering : BundleRendering) (locations : List Location)
    (t : FileTree) : Prop where
  /-- What is returned are the destinations in the order of the files. -/
  returned : locations = rendering.files.map (RenderedFile.destination target)
  /-- Each destination holds the content of the last file that goes there. -/
  latest : ∀ before f after, rendering.files = before ++ f :: after →
    (∀ g ∈ after, g.destination target ≠ f.destination target) →
      t.node? (f.destination target) = some (.file f.content)
  /-- The content of no file is lost exactly if files that meet have the same. -/
  intact_iff : (∀ f ∈ rendering.files, t.node? (f.destination target) = some (.file f.content))
    ↔ ∀ f ∈ rendering.files, ∀ g ∈ rendering.files,
      f.destination target = g.destination target → f.content = g.content
  /-- No file is lost exactly if no two of them meet. -/
  isLossless_iff : IsLossless target rendering locations t
    ↔ (rendering.files.map (RenderedFile.destination target)).Nodup

/-- It is enough for `Delivers` that the destinations are returned and that the last file that goes
to one of them stays: a file is lost only if a later one with another content goes to its
destination. -/
theorem delivers_of_latest {target : Location} {rendering : BundleRendering}
    {locations : List Location} {t : FileTree}
    (hreturned : locations = rendering.files.map (RenderedFile.destination target))
    (hlatest : ∀ before f after, rendering.files = before ++ f :: after →
      (∀ g ∈ after, g.destination target ≠ f.destination target) →
        t.node? (f.destination target) = some (.file f.content)) :
    Delivers target rendering locations t := by
  have hintact : (∀ f ∈ rendering.files,
      t.node? (f.destination target) = some (.file f.content))
      ↔ ∀ f ∈ rendering.files, ∀ g ∈ rendering.files,
        f.destination target = g.destination target → f.content = g.content := by
    constructor
    · intro hall f hf g hg heq
      have hsame := hall f hf
      rw [heq, hall g hg] at hsame
      exact (Node.file.inj (Option.some.inj hsame)).symm
    · intro hall f hf
      obtain ⟨before, g, after, hfiles, heq, hlast⟩ :=
        exists_last_of_mem (fun g => g.destination target = f.destination target) ⟨f, hf, rfl⟩
      have hg : g ∈ rendering.files := hfiles ▸ List.mem_append_right _ List.mem_cons_self
      have hstands := hlatest before g after hfiles fun h hh heq' => hlast h hh (heq'.trans heq)
      rw [← heq, hstands, hall g hg f hf heq]
  refine ⟨hreturned, hlatest, hintact, ?_⟩
  constructor
  · rintro ⟨-, hlocations, hdistinct⟩
    rwa [hlocations] at hdistinct
  · intro hdistinct
    refine ⟨hintact.2 fun f hf g hg heq => ?_, hreturned, hreturned ▸ hdistinct⟩
    rw [List.inj_on_of_nodup_map hdistinct hf hg heq]

section Bundle

variable {Time Span : Type} [Timeline Time Span]
variable {now : Time} {r : ScaffoldRequest} {target : Location} {w : Workspace Time Span}

/-- A run below a plain location that succeeds delivers what was rendered, by
`node?_mapM_writePlannedFile` and `delivers_of_latest`. -/
theorem delivers_writeAt (htarget : target.IsPlain) {locations : List Location}
    (h : (writeAt now target r w).1 = .ok locations) :
    ∃ rendering, (renderSource now r.source r.configuration w).1 = .ok rendering
      ∧ Delivers target rendering locations (writeAt now target r w).2.tree := by
  rcases writeAt_cases now target r w with ⟨-, ⟨fault, hfault⟩, -⟩ | ⟨rendering, hplan, hrun⟩
  · cases h.symm.trans hfault
  · rw [h] at hrun
    have hreturned := writePlanned_eq_ok hrun.symm
    obtain ⟨t₁, hfiles⟩ := exists_mapM_of_writePlanned hrun.symm
    rw [map_location_planned] at hreturned
    refine ⟨rendering, hplan.rendered, delivers_of_latest hreturned
      fun before f after hsplit hlast => ?_⟩
    rw [hsplit, List.map_append, List.map_cons] at hfiles
    refine node?_mapM_writePlannedFile (f := f.planned target) ?_ hfiles ?_
    · rw [← List.map_cons, ← List.map_append]
      exact List.forall_mem_map.2 fun g _ => isPlain_destination htarget g
    · exact List.forall_mem_map.2 hlast

/-- **If writing a bundle succeeds, each destination holds the content of the last rendered file
that goes there**, and what is returned are the destinations in the order of the files. No file is
lost exactly if no two rendered files meet. The same holds below any plain location. -/
theorem writeBundle_delivers (now : Time) (r : ScaffoldRequest) (w : Workspace Time Span)
    (hdirectory : w.directory.IsPlain) :
    (∀ locations, (writeBundle now r w).1 = .ok locations →
        ∃ target rendering, r.targetLocation w.directory = .ok target
          ∧ (renderSource now r.source r.configuration w).1 = .ok rendering
          ∧ Delivers target rendering locations (writeBundle now r w).2.tree)
      ∧ ∀ (target : Location) (locations : List Location), target.IsPlain →
        (writeAt now target r w).1 = .ok locations →
          ∃ rendering, (renderSource now r.source r.configuration w).1 = .ok rendering
            ∧ Delivers target rendering locations (writeAt now target r w).2.tree := by
  refine ⟨fun locations hok => ?_, fun target locations htarget hok => delivers_writeAt htarget hok⟩
  cases htarget : r.targetLocation w.directory with
  | error fault =>
    rw [writeBundle_eq, htarget] at hok
    cases hok
  | ok target =>
    obtain ⟨hplain, heq⟩ := writeBundle_of_targetLocation now hdirectory htarget
    rw [heq] at hok ⊢
    obtain ⟨rendering, hrendered, hdelivers⟩ := delivers_writeAt hplain hok
    exact ⟨target, rendering, rfl, hrendered, hdelivers⟩

end Bundle

/-! ### Two files that meet -/

/-- A bundle with two files, to be written below an empty directory against a configuration that
makes the path of the first one. -/
def meetingRequest (name : String) : ScaffoldRequest :=
  ⟨.value (.mapping [("name", .text "demo"), ("description", .text "two files"),
      ("version", .text "1.0.0"),
      ("files", .list [
        .mapping [("path", .text "\x7b\x7bp\x7d\x7d.md"), ("content", .text "first")],
        .mapping [("path", .text "b.md"), ("content", .text "second")]])]),
    .mapping [("p", .text name)], PathName.ofText "out", false⟩

/-- A workspace that holds nothing but its directory. -/
def emptyWorkspace : Workspace Binary64 Number :=
  ⟨⟨[(["work"], .directory)]⟩, ["work"], none⟩

/-- If the paths are different after rendering, both files are found. -/
theorem writeBundle_delivers_apart :
    IsLossless ["work", "out"]
      ⟨[⟨"a.md", "first", none, false⟩, ⟨"b.md", "second", none, false⟩], []⟩
      [["work", "out", "a.md"], ["work", "out", "b.md"]]
      (writeBundle (.infinite false) (meetingRequest "a") emptyWorkspace).2.tree := by
  have hdirectory : emptyWorkspace.directory.IsPlain := by
    rw [Location.IsPlain]
    decide
  have hok : (writeBundle (.infinite false) (meetingRequest "a") emptyWorkspace).1
      = .ok [["work", "out", "a.md"], ["work", "out", "b.md"]] := by decide +kernel
  have htarget : (meetingRequest "a").targetLocation emptyWorkspace.directory
      = .ok ["work", "out"] := by decide +kernel
  have hrender : (renderSource (.infinite false) (meetingRequest "a").source
      (meetingRequest "a").configuration emptyWorkspace).1
        = .ok ⟨[⟨"a.md", "first", none, false⟩, ⟨"b.md", "second", none, false⟩], []⟩ := by
    decide +kernel
  obtain ⟨hdelivers, -⟩ :=
    writeBundle_delivers (.infinite false) (meetingRequest "a") emptyWorkspace hdirectory
  obtain ⟨target, rendering, htarget', hresult⟩ := hdelivers _ hok
  cases htarget.symm.trans htarget'
  cases hrender.symm.trans hresult.1
  exact hresult.2.isLossless_iff.2 (by decide +kernel)

/-- If they are equal after rendering, the check of the bundle finds nothing, the run succeeds, and
the first of the two files is lost. -/
theorem lost_meeting_file :
    (createBundle (.infinite false) none (meetingRequest "b") emptyWorkspace).1
        = .ok [["work", "out", "b.md"], ["work", "out", "b.md"]]
      ∧ (writeBundle (.infinite false) (meetingRequest "b") emptyWorkspace).1
        = .ok [["work", "out", "b.md"], ["work", "out", "b.md"]]
      ∧ (meetingRequest "b").targetLocation emptyWorkspace.directory = .ok ["work", "out"]
      ∧ (renderSource (.infinite false) (meetingRequest "b").source
          (meetingRequest "b").configuration emptyWorkspace).1
        = .ok ⟨[⟨"b.md", "first", none, false⟩, ⟨"b.md", "second", none, false⟩], []⟩
      ∧ (writeBundle (.infinite false) (meetingRequest "b") emptyWorkspace).2.tree.node?
          ["work", "out", "b.md"] = some (.file "second")
      ∧ ¬IsLossless ["work", "out"]
          ⟨[⟨"b.md", "first", none, false⟩, ⟨"b.md", "second", none, false⟩], []⟩
          [["work", "out", "b.md"], ["work", "out", "b.md"]]
          (writeBundle (.infinite false) (meetingRequest "b") emptyWorkspace).2.tree := by
  refine ⟨by decide +kernel, by decide +kernel, by decide +kernel, by decide +kernel,
    by decide +kernel, fun h => ?_⟩
  exact absurd h.distinct (by decide)

end Templating
