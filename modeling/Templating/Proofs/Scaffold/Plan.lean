import Templating.Proofs.Scaffold.Confinement

/-!
# Plans

Writing a bundle renders it and plans where each rendered file goes before anything is changed. The
lemmas here take a run apart at that point: either there is a plan, and the run ends as writing the
plan does, or there is none, and the run fails without a change to the tree. There is no plan if a
rendered path leads out of the target, or if something stands at the destination of a file that may
not replace it.

## Main definitions

* `RenderedFile.destination`: where a rendered file goes.
* `HasPlan`: a request is rendered, and no rendered file is refused.

## Main results

* `replaces_of_planFiles`: what a plan tells about the files that exist already.
* `writeAt_cases`: a run either has a plan or changes nothing.
* `writeBundle_eq`, `createBundle_eq`: runs that find the target and check the bundle first.
-/

namespace Templating

/-- Where a rendered file goes: its path, followed from the target (`PathName.locate`). -/
def RenderedFile.destination (target : Location) (f : RenderedFile) : Location :=
  (PathName.ofText f.path).locate target

/-- The destination of a file in a plain target is plain. -/
theorem isPlain_destination {target : Location} (htarget : target.IsPlain) (f : RenderedFile) :
    Location.IsPlain (f.destination target) :=
  htarget.locate _

/-- The locations of planned files are the destinations of the rendered ones. -/
theorem map_location_planned (target : Location) (files : List RenderedFile) :
    (files.map (RenderedFile.planned target)).map (·.location)
      = files.map (RenderedFile.destination target) := by
  rw [List.map_map]
  rfl

/-! ### What a plan tells -/

section Planning

variable {t : FileTree} {target : Location} {force : Bool}

/-- If `planFile` does not refuse a rendered file, nothing stands at its destination, or it may be
replaced. -/
theorem replaces_of_planFile {f : RenderedFile} {planned : PlannedFile}
    (h : planFile t target force f = .ok planned) :
    ∃ there, t.exists? [] (f.destination target) = .ok there
      ∧ (there = true → force = true ∨ f.overwrite = some true) := by
  obtain ⟨-, rfl⟩ := planFile_eq_ok h
  obtain ⟨location, hlocation, hplanned⟩ := bind_eq_ok_iff.1 h
  cases hthere : t.exists? [] location with
  | error fault =>
    rw [hthere] at hplanned
    cases hplanned
  | ok there =>
    rw [hthere] at hplanned
    dsimp only at hplanned
    split at hplanned
    · cases hplanned
    · rename_i hfree
      obtain rfl : location = f.destination target := congrArg PlannedFile.location
        (Except.ok.inj hplanned)
      refine ⟨there, hthere, ?_⟩
      rintro rfl
      simpa [or_iff_not_imp_left] using hfree

/-- A planned file that exists may be replaced, because of force or its own flag. -/
theorem replaces_of_planFiles {files : List RenderedFile} {planned : List PlannedFile}
    (h : planFiles t target force files = .ok planned) {f : RenderedFile} (hf : f ∈ files) :
    ∃ there, t.exists? [] (f.destination target) = .ok there
      ∧ (there = true → force = true ∨ f.overwrite = some true) := by
  obtain ⟨p, hp, -⟩ := exists_of_mapM_eq_ok h h f hf
  exact replaces_of_planFile hp

end Planning

/-! ### Runs -/

section Runs

variable {Time Span : Type} [Timeline Time Span]

/-- The request is rendered, and no rendered file is refused by `planFiles`. -/
structure HasPlan (now : Time) (target : Location) (r : ScaffoldRequest) (w : Workspace Time Span)
    (rendering : BundleRendering) : Prop where
  rendered : (renderSource now r.source r.configuration w).1 = .ok rendering
  planned : planFiles w.tree target r.force rendering.files
    = .ok (rendering.files.map (RenderedFile.planned target))

/-- A run that fails and leaves the file tree as it was. -/
def LeavesTree {α : Type} (w : Workspace Time Span) (run : Except Fault α × Workspace Time Span) :
    Prop :=
  (∃ fault, run.1 = .error fault) ∧ run.2.tree = w.tree

/-- **A run below a location ends as writing its plan does; without a plan it fails and changes
nothing.** What is said of a run is shown in these two cases, and `writeAt` is not taken apart
again. -/
theorem writeAt_cases (now : Time) (target : Location) (r : ScaffoldRequest)
    (w : Workspace Time Span) :
    ((¬∃ rendering, HasPlan now target r w rendering) ∧ LeavesTree w (writeAt now target r w))
      ∨ ∃ rendering, HasPlan now target r w rendering
        ∧ ((writeAt now target r w).1, (writeAt now target r w).2.tree)
          = writePlanned target (rendering.files.map (RenderedFile.planned target)) w.tree := by
  have htree := tree_renderSource now r.source r.configuration w
  rw [writeAt, bind_apply]
  rcases hrender : renderSource now r.source r.configuration w with ⟨fault | rendering, w'⟩
  all_goals rw [hrender] at htree
  · refine .inl ⟨?_, ⟨fault, rfl⟩, htree⟩
    rintro ⟨rendering, hrendered, -⟩
    rw [hrender] at hrendered
    cases hrendered
  · dsimp only at htree
    dsimp only [onTree]
    rw [writeRendering_eq, htree]
    cases hplan : planFiles w.tree target r.force rendering.files with
    | error fault =>
      refine .inl ⟨?_, ⟨fault, rfl⟩, rfl⟩
      rintro ⟨rendering', hrendered, hplanned⟩
      rw [hrender] at hrendered
      cases hrendered
      rw [hplan] at hplanned
      cases hplanned
    | ok planned =>
      obtain ⟨-, rfl⟩ := planFiles_eq_ok hplan
      exact .inr ⟨rendering, ⟨by rw [hrender], hplan⟩, rfl⟩

/-- Writing a bundle is `writeAt` for its target; without a target nothing happens. -/
theorem writeBundle_eq (now : Time) (r : ScaffoldRequest) (w : Workspace Time Span) :
    writeBundle now r w
      = match r.targetLocation w.directory with
        | .error fault => (.error fault, w)
        | .ok target => writeAt now target r w := by
  rw [writeBundle, bind_apply, writeBundle.located]
  cases r.targetLocation w.directory with
  | error fault => rfl
  | ok target => rfl

/-- Creating the files of a bundle is writing it if `checkSource` finds it valid; otherwise nothing
happens. -/
theorem createBundle_eq (now : Time) (templateId : Option String) (r : ScaffoldRequest)
    (w : Workspace Time Span) :
    createBundle now templateId r w
      = match checkSource templateId r.source with
        | .error fault => (.error fault, w)
        | .ok report =>
          if report.isValid then writeBundle now r w
          else (.error (.invalidBundle report.templateId report.errors.length), w) := by
  rw [createBundle, bind_apply, createBundle.checked]
  cases checkSource templateId r.source with
  | error fault => rfl
  | ok report =>
    dsimp only
    split
    · rfl
    · rfl

/-- Creating the files of a bundle either is `writeBundle`, or fails with no change at all, not even
of the cache. -/
theorem createBundle_cases (now : Time) (templateId : Option String) (r : ScaffoldRequest)
    (w : Workspace Time Span) :
    createBundle now templateId r w = writeBundle now r w
      ∨ ∃ fault, createBundle now templateId r w = (.error fault, w) := by
  rw [createBundle_eq]
  split
  · exact .inr ⟨_, rfl⟩
  · split
    · exact .inl rfl
    · exact .inr ⟨_, rfl⟩

end Runs

end Templating
