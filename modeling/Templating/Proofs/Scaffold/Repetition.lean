import Templating.Proofs.Bundle.Repetition
import Templating.Proofs.Files.Rewriting
import Templating.Proofs.Scaffold.Delivery

/-!
# Writing a bundle again

A run that wrote a bundle has left a tree in which the target directory and all destinations are
found, so doing it again makes no directory and creates no file. By force it puts every text where
a text stands already. Files that meet pass their destination on to the last of them a second time,
and what stands there in the end is what stood there before, so the tree is the same. Without force
it is the plan that looks at the tree the first run has left: every destination is occupied, so the
first rendered file that does not allow replacing is refused before anything is written.

The second run renders the bundle anew. It plans for the same files if the cache of the workspace
has not changed its mind about their bodies in between.

## Main definitions

* `Workspace.IsSteady`: the workspace renders a bundle to the same again.
* `IsRepeatable`: what is promised about doing again what a run did.

## Main results

* `foldl_put_eq_self`: texts put where the last of them stands change nothing.
* `writePlanned_again`: writing a plan again.
* `planFiles_of_hasFile`: planning where all destinations are occupied.
* `renderSource_again`: rendering again.
* `writeBundle_again`: writing a bundle again.
-/

namespace Templating

/-! ### Texts put in the place of texts -/

section Putting

variable {t : FileTree} {files : List PlannedFile} {location : Location}

/-- The tree with the text of a planned file at its location. This is what `writePlannedFile` does
to a tree in which a file stands there. -/
def FileTree.putFile (t : FileTree) (f : PlannedFile) : FileTree :=
  t.put f.location (.file f.content)

/-- All planned files are found as files. -/
def FileTree.HasFiles (t : FileTree) (files : List PlannedFile) : Prop :=
  ∀ f ∈ files, t.HasFile f.location

/-- A text that was put where another one is put later does not matter. Induction along the files:
at the first one that is put at the same location `FileTree.put_put` forgets the text, and any other
one changes places with it. -/
theorem foldl_put_of_mem (hfiles : t.HasFiles files) (hlocation : t.HasFile location)
    (hmem : ∃ f ∈ files, f.location = location) (text : String) :
    files.foldl FileTree.putFile (t.put location (.file text))
      = files.foldl FileTree.putFile t := by
  induction files generalizing t with
  | nil => obtain ⟨f, ⟨⟩, -⟩ := hmem
  | cons f files ih =>
    obtain ⟨hf, hrest⟩ := List.forall_mem_cons.1 hfiles
    rw [List.foldl_cons, List.foldl_cons, FileTree.putFile, FileTree.putFile]
    by_cases hsame : f.location = location
    · rw [hsame, FileTree.put_put]
    · obtain ⟨hne, old, hold⟩ := hlocation.node?
      rw [FileTree.put_comm (Ne.symm hsame) hne (by rw [hold]; exact Option.some_ne_none _)]
      refine ih (fun g hg => (hrest g hg).put hf f.content) (hlocation.put hf f.content) ?_
      obtain ⟨g, hg, hglocation⟩ := hmem
      rcases List.mem_cons.1 hg with rfl | hg
      · exact absurd hglocation hsame
      · exact ⟨g, hg, hglocation⟩

/-- A text that was put where no other one is put may as well be put last: it changes places with
each of the others. -/
theorem foldl_put_of_not_mem (hfiles : t.HasFiles files) (hlocation : t.HasFile location)
    (hnot : ∀ f ∈ files, f.location ≠ location) (text : String) :
    files.foldl FileTree.putFile (t.put location (.file text))
      = (files.foldl FileTree.putFile t).put location (.file text) := by
  induction files generalizing t with
  | nil => rfl
  | cons f files ih =>
    obtain ⟨hf, hrest⟩ := List.forall_mem_cons.1 hfiles
    rw [List.forall_mem_cons] at hnot
    obtain ⟨hne, old, hold⟩ := hlocation.node?
    rw [List.foldl_cons, List.foldl_cons, FileTree.putFile, FileTree.putFile,
      FileTree.put_comm (Ne.symm hnot.1) hne (by rw [hold]; exact Option.some_ne_none _)]
    exact ih (fun g hg => (hrest g hg).put hf f.content) (hlocation.put hf f.content) hnot.2

/-- **Texts put one after the other change nothing if the last one for each location stands there.**
Induction along the files: the first one is put again later (`foldl_put_of_mem`), or it is the last
for its location and stands there, so that putting it last changes nothing
(`foldl_put_of_not_mem`). -/
theorem foldl_put_eq_self (hfiles : t.HasFiles files)
    (hlast : ∀ before f after, files = before ++ f :: after →
      (∀ g ∈ after, g.location ≠ f.location) → t.node? f.location = some (.file f.content)) :
    files.foldl FileTree.putFile t = t := by
  induction files with
  | nil => rfl
  | cons f files ih =>
    obtain ⟨hf, hrest⟩ := List.forall_mem_cons.1 hfiles
    have hothers : files.foldl FileTree.putFile t = t :=
      ih hrest fun before g after hsplit =>
        hlast (f :: before) g after (by rw [hsplit, List.cons_append])
    rw [List.foldl_cons, FileTree.putFile]
    by_cases hmem : ∃ g ∈ files, g.location = f.location
    · rw [foldl_put_of_mem hrest hf hmem, hothers]
    · push Not at hmem
      rw [foldl_put_of_not_mem hrest hf hmem, hothers]
      exact FileTree.put_eq_self hf.node?.1 (hlast [] f files rfl hmem)

end Putting

/-! ### Writing a plan again -/

section Writing

variable {t t' : FileTree} {target : Location} {files : List PlannedFile}
  {locations : List Location}

/-- Writing a file retains every node: directories stay, and a file gets another text at most
(`FileTree.Retains`). -/
theorem retains_writePlannedFile {f : PlannedFile} (hplain : f.location.IsPlain) :
    Moves FileTree.Retains (writePlannedFile f) := by
  refine moves_writePlannedFile FileTree.Retains.refl FileTree.Retains.trans
    (FileTree.Retains.withDirectories hplain.dropLast) fun t t' hwritten => ?_
  obtain ⟨hne, rfl⟩ := FileTree.withText_eq_ok hplain hwritten
  exact .put hne (FileTree.not_directory_of_withText hplain hwritten) f.content

/-- Writing files one after the other retains every node, as writing each of them does
(`retains_writePlannedFile`). -/
theorem retains_mapM_writePlannedFile (hplain : ∀ f ∈ files, f.location.IsPlain) :
    Moves FileTree.Retains (files.mapM writePlannedFile) :=
  Moves.mapM FileTree.Retains.refl FileTree.Retains.trans fun f hf =>
    retains_writePlannedFile (hplain f hf)

/-- Files that were written are found: each one stands in the tree it was written to, and writing
the others retains it. -/
theorem hasFiles_of_mapM (hplain : ∀ f ∈ files, f.location.IsPlain)
    (h : files.mapM writePlannedFile t = (.ok locations, t')) : t'.HasFiles files := by
  induction files generalizing t locations with
  | nil => exact fun f hf => absurd hf List.not_mem_nil
  | cons f files ih =>
    rw [List.forall_mem_cons] at hplain
    obtain ⟨location, t₁, rest, hfirst, hrest, -⟩ := mapM_cons_apply_eq_ok_iff.1 h
    obtain ⟨-, t₂, hwritten⟩ := writePlannedFile_eq_ok hfirst
    have hretains := retains_mapM_writePlannedFile hplain.2 t₁
    rw [hrest] at hretains
    exact List.forall_mem_cons.2
      ⟨(FileTree.hasFile_of_withText hplain.1 hwritten).retained hretains, ih hplain.2 hrest⟩

/-- A file that is found is written by putting its text in the place of the old one
(`FileTree.putFile`). Its directory is there, so `makeDirectories` adds none. -/
theorem writePlannedFile_of_hasFile {f : PlannedFile} (h : t.HasFile f.location) :
    writePlannedFile f t = (.ok f.location, t.putFile f) := by
  obtain ⟨old, hfind⟩ := h
  obtain ⟨above, habove⟩ := FileTree.find_dropLast hfind
  rw [writePlannedFile, bind_apply, makeDirectories, FileTree.withDirectories_of_find habove]
  dsimp only
  rw [bind_apply, writeText, FileTree.withText_of_find hfind]
  rfl

/-- Where all files are there already, writing them puts their texts in place and makes nothing new:
`writePlannedFile_of_hasFile` for one file after the other. -/
theorem mapM_writePlannedFile_of_hasFiles (h : t.HasFiles files) :
    files.mapM writePlannedFile t
      = (.ok (files.map PlannedFile.location), files.foldl FileTree.putFile t) := by
  induction files generalizing t with
  | nil => rfl
  | cons f files ih =>
    obtain ⟨hf, hrest⟩ := List.forall_mem_cons.1 h
    exact mapM_cons_apply_eq_ok_iff.2 ⟨_, _, _, writePlannedFile_of_hasFile hf,
      ih fun g hg => (hrest g hg).put hf f.content, rfl⟩

/-- **A plan that was written leaves its files, and writing it again changes nothing.** The second
time is a sequence of puts (`mapM_writePlannedFile_of_hasFiles`), and what stands at each location
is the last text written there, so `foldl_put_eq_self` applies. -/
theorem writePlanned_again (htarget : target.IsPlain) (hplain : ∀ f ∈ files, f.location.IsPlain)
    (h : writePlanned target files t = (.ok locations, t')) :
    t'.HasFiles files ∧ writePlanned target files t' = (.ok locations, t') := by
  have hlocations := writePlanned_eq_ok h
  rw [writePlanned, bind_apply] at h
  split at h
  case h_2 => cases h
  case h_1 t₁ hmade =>
    have hfiles := hasFiles_of_mapM hplain h
    refine ⟨hfiles, ?_⟩
    -- The target was made first, and what was done afterwards retains it.
    have hfound : ∃ place, t'.find [] target = .ok (place, .directory) := by
      have hdirectories : FileTree.withDirectories [] target t = (.ok (), t₁) := by
        rw [makeDirectories] at hmade
        split at hmade
        · next heq =>
          cases hmade
          exact heq
        · cases hmade
      have hretains := retains_mapM_writePlannedFile hplain t₁
      rw [h] at hretains
      obtain ⟨node, hfind, hkind⟩ :=
        hretains.find (FileTree.find_of_withDirectories htarget hdirectories)
      exact ⟨_, (hkind.2 rfl) ▸ hfind⟩
    obtain ⟨place, hplace⟩ := hfound
    rw [writePlanned, bind_apply, makeDirectories, FileTree.withDirectories_of_find hplace]
    dsimp only
    rw [mapM_writePlannedFile_of_hasFiles hfiles, foldl_put_eq_self hfiles, hlocations]
    rintro before f after rfl hlast
    exact node?_mapM_writePlannedFile hplain h hlast

end Writing

/-! ### Planning again -/

section Planning

variable {t t' : FileTree} {target : Location} {force : Bool} {files : List RenderedFile}
  {planned : List PlannedFile}

/-- A rendered file that was planned has its destination, whatever the tree is. -/
theorem destination?_of_planFile {f : RenderedFile} {p : PlannedFile}
    (h : planFile t target force f = .ok p) :
    destination? target f.path = .ok (f.destination target) := by
  obtain ⟨-, rfl⟩ := planFile_eq_ok h
  obtain ⟨location, hlocation, hplanned⟩ := bind_eq_ok_iff.1 h
  obtain rfl : location = f.destination target := by
    split at hplanned
    · cases hplanned
    · split at hplanned
      · cases hplanned
      · exact congrArg PlannedFile.location (Except.ok.inj hplanned)
  exact hlocation

/-- If a file stands at the destination, `planFile` has it replaced by force or because the file
allows it, and refuses it otherwise. -/
theorem planFile_of_hasFile {f : RenderedFile}
    (hdestination : destination? target f.path = .ok (f.destination target))
    (hthere : t.HasFile (f.destination target)) (force : Bool) :
    planFile t target force f = if force || f.overwrite == some true then .ok (f.planned target)
      else .error (.alreadyExists (f.destination target).text) := by
  have hplan : planFile t target force f
      = if true && !(force || f.overwrite == some true) then
          .error (.alreadyExists (f.destination target).text)
        else .ok (f.planned target) := by
    rw [planFile, hdestination]
    dsimp only [bind, Except.bind]
    rw [hthere.exists?]
    rfl
  rw [hplan]
  cases force || f.overwrite == some true <;> rfl

/-- If all destinations are occupied, `planFiles` has a plan exactly if every file may be replaced;
otherwise the first file that may not is refused. -/
theorem planFiles_of_hasFile
    (hfiles : ∀ f ∈ files, destination? target f.path = .ok (f.destination target)
      ∧ t.HasFile (f.destination target)) (force : Bool) :
    ((∀ f ∈ files, force = true ∨ f.overwrite = some true) →
        planFiles t target force files = .ok (files.map (RenderedFile.planned target)))
      ∧ ∀ before f after, files = before ++ f :: after →
        (∀ g ∈ before, force = true ∨ g.overwrite = some true) → force = false →
        f.overwrite ≠ some true →
        planFiles t target force files = .error (.alreadyExists (f.destination target).text) := by
  have hfree {f : RenderedFile} (hf : f ∈ files)
      (hallowed : force = true ∨ f.overwrite = some true) :
      planFile t target force f = .ok (f.planned target) := by
    obtain ⟨hdestination, hthere⟩ := hfiles f hf
    rw [planFile_of_hasFile hdestination hthere, if_pos]
    simpa using hallowed
  constructor
  · intro hall
    refine mapM_eq_ok_iff.2 (List.forall₂_map_right_iff.2 (List.forall₂_same.2 fun f hf => ?_))
    exact hfree hf (hall f hf)
  · rintro before f after rfl hbefore hforce hkept
    have hf : planFile t target force f
        = .error (.alreadyExists (f.destination target).text) := by
      obtain ⟨hdestination, hthere⟩ :=
        hfiles f (List.mem_append_right _ List.mem_cons_self)
      rw [planFile_of_hasFile hdestination hthere, if_neg]
      simpa [hforce] using hkept
    have hfirst : before.mapM (planFile t target force)
        = .ok (before.map (RenderedFile.planned target)) :=
      mapM_eq_ok_iff.2 <| List.forall₂_map_right_iff.2 <| List.forall₂_same.2 fun g hg =>
        hfree (List.mem_append_left _ hg) (hbefore g hg)
    rw [planFiles, List.mapM_append, hfirst, List.mapM_cons, hf]
    rfl

/-- Writing does not look at the marks of what came from a cache: renderings with the same
`BundleRendering.unmarked` are written alike. -/
theorem writeRendering_of_unmarked_eq {rendering rendering' : BundleRendering}
    (h : rendering'.unmarked = rendering.unmarked) (target : Location) (force : Bool)
    (t : FileTree) :
    writeRendering target force rendering' t = writeRendering target force rendering t := by
  have hmap (files : List RenderedFile) : planFiles t target force files
      = planFiles t target force (files.map RenderedFile.unmarked) := by
    rw [planFiles, planFiles, List.mapM_map]
    rfl
  have hfiles : rendering'.files.map RenderedFile.unmarked
      = rendering.files.map RenderedFile.unmarked := congrArg BundleRendering.files h
  rw [writeRendering_eq, writeRendering_eq, hmap, hfiles, ← hmap]

end Planning

/-! ### Rendering again -/

section Rendering

variable {Time Span : Type} [Timeline Time Span]

/-- The workspace renders a bundle to the same again: it has no cache, or one without bounds, which
never loses a text, or one that has no other text for a body of the bundle than its own, where
different bodies have different keys. -/
def Workspace.IsSteady (w : Workspace Time Span) (source : BundleSource) (configuration : Value) :
    Prop :=
  ∀ c, w.cache = some c → (c.maxSize = none ∧ c.lifetime = none)
    ∨ ∀ b, source.bundle = .ok b → KeysTellApart (b.files.map FileDecl.content) configuration
      ∧ c.Keeps (IsTextFor (b.files.map FileDecl.content) configuration)

variable {now : Time} {source : BundleSource} {configuration : Value}
  {w again : Workspace Time Span} {rendering : BundleRendering}

/-- **A bundle that was rendered is rendered to the same again**, but for the marks of what came
from the cache. The workspace is steady (`Workspace.IsSteady`), so the second run gets the text of
the first for every body. -/
theorem renderSource_again (hsteady : w.IsSteady source configuration)
    (h : (renderSource now source configuration w).1 = .ok rendering)
    (hcache : again.cache = (renderSource now source configuration w).2.cache) (now' : Time) :
    ∃ rendering', (renderSource now' source configuration again).1 = .ok rendering'
      ∧ rendering'.unmarked = rendering.unmarked := by
  rw [renderSource] at h hcache
  rw [renderSource]
  cases hbundle : source.bundle with
  | error fault =>
    rw [hbundle] at h
    cases h
  | ok b =>
    rw [hbundle] at h hcache
    cases hw : w.cache with
    | none =>
      rw [hw] at h hcache
      dsimp only at hcache
      rw [hcache, hw]
      exact ⟨rendering, h, rfl⟩
    | some c =>
      rw [hw] at h hcache
      dsimp only at h hcache ⊢
      rcases hrun : b.renderThrough now configuration c with ⟨outcome, c'⟩
      rw [hrun] at h hcache
      obtain rfl : outcome = .ok rendering := h
      rw [hcache]
      rcases hsteady c hw with hunbounded | hbodies
      · exact (isMemory_of_unbounded _ configuration).renderThrough_again hunbounded hrun now'
      · obtain ⟨hkeys, hkeeps⟩ := hbodies b hbundle
        exact (isMemory_of_keeps hkeys).renderThrough_again hkeeps hrun now'

/-- Rendering does not change the working directory. -/
theorem directory_renderSource (now : Time) (source : BundleSource) (configuration : Value)
    (w : Workspace Time Span) :
    (renderSource now source configuration w).2.directory = w.directory := by
  rw [renderSource]
  split
  · rfl
  · split
    · rfl
    · rfl

end Rendering

/-! ### Writing a bundle again -/

/-- What is promised about doing again, with or without force, what a run did that returned
locations and left a tree. -/
structure IsRepeatable (target : Location) (rendering : BundleRendering)
    (locations : List Location) (t : FileTree)
    (again : Bool → Except Fault (List Location) × FileTree) : Prop where
  /-- By force it returns the same and leaves the tree. -/
  forced : again true = (.ok locations, t)
  /-- Without force it does so, too, if every rendered file allows it. -/
  allowed : (∀ f ∈ rendering.files, f.overwrite = some true) → again false = (.ok locations, t)
  /-- Otherwise it is refused because of the first file that does not, and leaves the tree. -/
  refused : (∃ f ∈ rendering.files, f.overwrite ≠ some true) →
    ∃ before f after, rendering.files = before ++ f :: after
      ∧ (∀ g ∈ before, g.overwrite = some true) ∧ f.overwrite ≠ some true
      ∧ again false = (.error (.alreadyExists (f.destination target).text), t)

section Bundle

variable {Time Span : Type} [Timeline Time Span]
variable {now : Time} {r : ScaffoldRequest} {target : Location} {w : Workspace Time Span}
  {locations : List Location}

/-- What a run returns, and the tree that it leaves. -/
def onlyTree (run : Except Fault (List Location) × Workspace Time Span) :
    Except Fault (List Location) × FileTree :=
  (run.1, run.2.tree)

/-- A run below a location writes what was rendered (`writeRendering`), and keeps everything but the
tree and what rendering does to the cache. -/
theorem writeAt_eq (now : Time) (target : Location) (r : ScaffoldRequest)
    (w : Workspace Time Span) :
    writeAt now target r w
      = match renderSource now r.source r.configuration w with
        | (.error fault, w') => (.error fault, w')
        | (.ok rendering, w') => onTree (writeRendering target r.force rendering) w' := by
  rw [writeAt, bind_apply]
  rcases renderSource now r.source r.configuration w with ⟨fault | rendering, w'⟩
  · rfl
  · rfl

/-- Once rendered, a bundle is written by `writeRendering`, which changes the tree alone. -/
theorem onlyTree_writeAt {rendering : BundleRendering}
    (h : (renderSource now r.source r.configuration w).1 = .ok rendering) :
    onlyTree (writeAt now target r w) = writeRendering target r.force rendering w.tree := by
  have htree := tree_renderSource now r.source r.configuration w
  rw [onlyTree, writeAt_eq]
  rcases hrender : renderSource now r.source r.configuration w with ⟨outcome, w'⟩
  rw [hrender] at h htree
  obtain rfl : outcome = .ok rendering := h
  rw [← htree]
  rfl

/-- Writing changes neither the working directory nor the cache that rendering leaves. -/
theorem frame_writeAt (now : Time) (target : Location) (r : ScaffoldRequest)
    (w : Workspace Time Span) : (writeAt now target r w).2.directory = w.directory
      ∧ (writeAt now target r w).2.cache
        = (renderSource now r.source r.configuration w).2.cache := by
  have hdirectory := directory_renderSource now r.source r.configuration w
  rw [writeAt_eq]
  rcases hrender : renderSource now r.source r.configuration w with ⟨fault | rendering, w'⟩
  all_goals rw [hrender] at hdirectory
  · exact ⟨hdirectory, rfl⟩
  · exact ⟨hdirectory, rfl⟩

/-- In a tree with all files of a plan, writing them is putting their texts in the place of others,
unless one of them may not be replaced. So the promises of `IsRepeatable` follow from
`planFiles_of_hasFile` and from what is known of writing the plan again. -/
theorem isRepeatable_of_hasFiles {rendering : BundleRendering} {t : FileTree}
    {again : Bool → Except Fault (List Location) × FileTree}
    (hfiles : ∀ f ∈ rendering.files, destination? target f.path = .ok (f.destination target)
      ∧ t.HasFile (f.destination target))
    (hwritten : writePlanned target (rendering.files.map (RenderedFile.planned target)) t
      = (.ok locations, t))
    (hagain : ∀ force, again force = writeRendering target force rendering t) :
    IsRepeatable target rendering locations t again := by
  have hall (force : Bool) (hallowed : ∀ f ∈ rendering.files,
      force = true ∨ f.overwrite = some true) : again force = (.ok locations, t) := by
    rw [hagain, writeRendering_eq, (planFiles_of_hasFile hfiles force).1 hallowed]
    exact hwritten
  refine ⟨hall true fun _ _ => .inl rfl, fun hallowed => hall false fun f hf =>
    .inr (hallowed f hf), fun hkept => ?_⟩
  obtain ⟨f, hf⟩ : ∃ f, rendering.files.find? (fun f => f.overwrite != some true) = some f := by
    obtain ⟨f, hf, hne⟩ := hkept
    exact Option.isSome_iff_exists.1 (List.find?_isSome.2 ⟨f, hf, bne_iff_ne.2 hne⟩)
  obtain ⟨hne, before, after, hsplit, hbefore⟩ := List.find?_eq_some_iff_append.1 hf
  have hallowed : ∀ g ∈ before, g.overwrite = some true := fun g hg => by
    simpa using hbefore g hg
  refine ⟨before, f, after, hsplit, hallowed, bne_iff_ne.1 hne, ?_⟩
  rw [hagain, writeRendering_eq, (planFiles_of_hasFile hfiles false).2 before f after hsplit
    (fun g hg => .inr (hallowed g hg)) rfl (bne_iff_ne.1 hne)]

/-- A run below a plain location that succeeds can be repeated. `renderSource_again` has the same
files planned, `writePlanned_again` has them written without a change, and
`isRepeatable_of_hasFiles` puts the two together. -/
theorem isRepeatable_writeAt (htarget : target.IsPlain)
    (hsteady : w.IsSteady r.source r.configuration)
    (h : (writeAt now target r w).1 = .ok locations) (now' : Time) :
    ∃ rendering, (renderSource now r.source r.configuration w).1 = .ok rendering
      ∧ IsRepeatable target rendering locations (writeAt now target r w).2.tree fun force =>
        onlyTree (writeAt now' target { r with force := force } (writeAt now target r w).2) := by
  rcases writeAt_cases now target r w with ⟨-, ⟨fault, hfault⟩, -⟩ | ⟨rendering, hplan, hrun⟩
  · cases h.symm.trans hfault
  · rw [h] at hrun
    have hplain : ∀ p ∈ rendering.files.map (RenderedFile.planned target), p.location.IsPlain :=
      List.forall_mem_map.2 fun f _ => isPlain_destination htarget f
    obtain ⟨hfiles, hagain⟩ := writePlanned_again htarget hplain hrun.symm
    refine ⟨rendering, hplan.rendered,
      isRepeatable_of_hasFiles (fun f hf => ⟨?_, ?_⟩) hagain fun force => ?_⟩
    · obtain ⟨p, hp, -⟩ := exists_of_mapM_eq_ok hplan.planned hplan.planned f hf
      exact destination?_of_planFile hp
    · exact hfiles (f.planned target) (List.mem_map_of_mem hf)
    · obtain ⟨rendering', hrendered, hsame⟩ :=
        renderSource_again hsteady hplan.rendered (frame_writeAt now target r w).2 now'
      rw [onlyTree_writeAt (r := { r with force := force }) hrendered]
      exact writeRendering_of_unmarked_eq hsame target force _

/-- **Writing a bundle again changes nothing.** If writing a bundle succeeds, doing it again by
force returns the same and leaves the tree as it was, and so does doing it again without force if
every rendered file allows replacing; otherwise the first rendered file that does not is refused,
and the tree is left as it was. This holds at whatever time, whatever the bundle, the configuration
and the tree were, and even where rendered files meet, provided that the cache of the workspace, if
there is one, does not change its mind (`Workspace.IsSteady`). The same holds below any plain
location. -/
theorem writeBundle_again (now now' : Time) (r : ScaffoldRequest) (w : Workspace Time Span)
    (hdirectory : w.directory.IsPlain) (hsteady : w.IsSteady r.source r.configuration) :
    (∀ locations, (writeBundle now r w).1 = .ok locations →
        ∃ target rendering, r.targetLocation w.directory = .ok target
          ∧ (renderSource now r.source r.configuration w).1 = .ok rendering
          ∧ IsRepeatable target rendering locations (writeBundle now r w).2.tree fun force =>
            onlyTree (writeBundle now' { r with force := force } (writeBundle now r w).2))
      ∧ ∀ (target : Location) (locations : List Location), target.IsPlain →
        (writeAt now target r w).1 = .ok locations →
          ∃ rendering, (renderSource now r.source r.configuration w).1 = .ok rendering
            ∧ IsRepeatable target rendering locations (writeAt now target r w).2.tree fun force =>
              onlyTree (writeAt now' target { r with force := force }
                (writeAt now target r w).2) := by
  refine ⟨fun locations hok => ?_, fun target locations htarget hok =>
    isRepeatable_writeAt htarget hsteady hok now'⟩
  cases htarget : r.targetLocation w.directory with
  | error fault =>
    rw [writeBundle_eq, htarget] at hok
    cases hok
  | ok target =>
    obtain ⟨hplain, heq⟩ := writeBundle_of_targetLocation now hdirectory htarget
    have hdirectory' := (frame_writeAt now target r w).1
    rw [heq] at hok ⊢
    obtain ⟨rendering, hrendered, hrepeatable⟩ := isRepeatable_writeAt hplain hsteady hok now'
    refine ⟨target, rendering, rfl, hrendered, ?_⟩
    -- The working directory is the same after the first run, so the target is, too.
    have hagain (force : Bool) :
        writeBundle now' { r with force := force } (writeAt now target r w).2
          = writeAt now' target { r with force := force } (writeAt now target r w).2 := by
      have htarget' : ({ r with force := force } : ScaffoldRequest).targetLocation
          (writeAt now target r w).2.directory = .ok target := by
        rw [hdirectory']
        exact htarget
      rw [writeBundle_eq, htarget']
    simp only [hagain]
    exact hrepeatable

/-- A workspace that holds nothing but its directory and a cache without bounds. -/
def rememberingWorkspace : Workspace Binary64 Number :=
  ⟨⟨[(["work"], .directory)]⟩, ["work"], some (.empty none none)⟩

/-- Two files that meet are written again by force, and refused without it. -/
theorem writeBundle_again_meeting_files :
    onlyTree (writeBundle .zero { meetingRequest "b" with force := true }
          (writeBundle (.infinite false) (meetingRequest "b") rememberingWorkspace).2)
        = (.ok [["work", "out", "b.md"], ["work", "out", "b.md"]],
          (writeBundle (.infinite false) (meetingRequest "b") rememberingWorkspace).2.tree)
      ∧ onlyTree (writeBundle .zero { meetingRequest "b" with force := false }
          (writeBundle (.infinite false) (meetingRequest "b") rememberingWorkspace).2)
        = (.error (.alreadyExists "/work/out/b.md"),
          (writeBundle (.infinite false) (meetingRequest "b") rememberingWorkspace).2.tree) := by
  have hdirectory : rememberingWorkspace.directory.IsPlain := by
    rw [Location.IsPlain]
    decide
  have hsteady : rememberingWorkspace.IsSteady (meetingRequest "b").source
      (meetingRequest "b").configuration := by
    rintro c ⟨⟩
    exact .inl ⟨rfl, rfl⟩
  have hok : (writeBundle (.infinite false) (meetingRequest "b") rememberingWorkspace).1
      = .ok [["work", "out", "b.md"], ["work", "out", "b.md"]] := by decide +kernel
  have hrender : (renderSource (.infinite false) (meetingRequest "b").source
      (meetingRequest "b").configuration rememberingWorkspace).1
        = .ok ⟨[⟨"b.md", "first", none, false⟩, ⟨"b.md", "second", none, false⟩], []⟩ := by
    decide +kernel
  obtain ⟨hagain, -⟩ := writeBundle_again (.infinite false) .zero (meetingRequest "b")
    rememberingWorkspace hdirectory hsteady
  obtain ⟨target, rendering, htarget, hrendered, hrepeatable⟩ := hagain _ hok
  cases hrender.symm.trans hrendered
  have hplace : (meetingRequest "b").targetLocation rememberingWorkspace.directory
      = .ok ["work", "out"] := by decide +kernel
  cases hplace.symm.trans htarget
  refine ⟨hrepeatable.forced, ?_⟩
  obtain ⟨before, f, after, hsplit, hbefore, -, hrefused⟩ :=
    hrepeatable.refused ⟨_, List.mem_cons_self, by decide⟩
  cases before with
  | nil =>
    cases hsplit
    exact hrefused
  | cons g before =>
    obtain ⟨rfl, -⟩ := List.cons.inj hsplit
    cases hbefore _ List.mem_cons_self

end Bundle

end Templating
