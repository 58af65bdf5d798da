import Templating.Proofs.Files.Frames
import Templating.Scaffold.Workspace

/-!
# Writing stays below the target

Whatever a bundle and a configuration are, writing the rendered bundle changes nothing outside the
target directory, except that directories are made on the way to it, and this holds as well where
writing fails half way. The paths of the rendered files are texts from anywhere: they may lead from
the root, climb with two dots, or hold empty parts. All that counts is the location that such a
path leads to from the target. If one of them lies elsewhere, nothing is written at all.

## Main definitions

* `Confined`: what may become of a tree by writing below a target.
* `writeAt`: renders a bundle and writes it below a location.
* `StaysBelow`: what is promised about writing below a target.

## Main results

* `confined_writePlannedFile`, `confined_writePlanned`: one file, and the whole plan.
* `planFiles_eq_ok`: what a plan that is not refused tells.
* `staysBelow_writeAt`, `writeBundle_staysBelow`: writing a bundle.
-/

namespace Templating

/-! ### Confined changes -/

/-- What stands at a location is as before, or the location is the target or lies below it, or it is
on the way to the target and a directory was made where nothing was. It is reflexive and transitive,
as `Moves.bind` and `Moves.mapM` ask for. -/
def Confined (target : Location) (t t' : FileTree) : Prop :=
  ∀ location, t'.node? location = t.node? location ∨ target <+: location
    ∨ (location <+: target ∧ t.node? location = none ∧ t'.node? location = some .directory)

namespace Confined

variable {target : Location} {t t' : FileTree}

theorem refl (t : FileTree) : Confined target t t :=
  fun _ => .inl rfl

/-- What changes twice below a target has changed below it. -/
theorem trans (t t' t'' : FileTree) (h : Confined target t t') (h' : Confined target t' t'') :
    Confined target t t'' := by
  intro location
  rcases h location with hsame | hbelow | ⟨hway, hnone, hmade⟩
  · rw [← hsame]
    exact h' location
  · exact .inr (.inl hbelow)
  · rcases h' location with hsame' | hbelow' | ⟨-, hnone', -⟩
    · exact .inr (.inr ⟨hway, hnone, hsame'.trans hmade⟩)
    · exact .inr (.inl hbelow')
    · cases hmade.symm.trans hnone'

/-- Making the directories on the way to a place that is on the way to the target, or below it, is
confined, by `FileTree.node?_withDirectories`. -/
theorem withDirectories {place location : Location} (hplace : place <+: location)
    (htarget : target <+: location) (hplain : place.IsPlain) (t : FileTree) :
    Confined target t (FileTree.withDirectories [] place t).2 := by
  intro here
  rcases FileTree.node?_withDirectories hplain here with
    hsame | ⟨hway, hnone, hmade⟩
  · exact .inl hsame
  · rcases List.prefix_or_prefix_of_prefix (hway.trans hplace) htarget with habove | hbelow
    · exact .inr (.inr ⟨habove, hnone, hmade⟩)
    · exact .inr (.inl hbelow)

/-- Writing a text at the target or below it is confined, by `FileTree.withText_eq_ok`. -/
theorem withText {location : Location} {text : String} (htarget : target <+: location)
    (hplain : location.IsPlain) (h : FileTree.withText text [] location t = .ok t') :
    Confined target t t' := by
  obtain ⟨hne, rfl⟩ := FileTree.withText_eq_ok hplain h
  intro here
  rw [List.nil_append, FileTree.node?_put hne]
  split
  · rename_i heq
    exact .inr (.inl (heq ▸ htarget))
  · exact .inl rfl

end Confined

/-! ### Planning -/

section Planning

variable {t t' : FileTree} {target : Location} {force : Bool}

/-- What is planned for a rendered file. -/
def RenderedFile.planned (target : Location) (f : RenderedFile) : PlannedFile :=
  ⟨(PathName.ofText f.path).locate target, f.content⟩

/-- A rendered file that `planFile` does not refuse goes to the target or below it. -/
theorem planFile_eq_ok {f : RenderedFile} {planned : PlannedFile}
    (h : planFile t target force f = .ok planned) :
    target <+: (PathName.ofText f.path).locate target ∧ planned = f.planned target := by
  obtain ⟨location, hlocation, hplanned⟩ := bind_eq_ok_iff.1 h
  have hbelow : target <+: location ∧ location = (PathName.ofText f.path).locate target := by
    rw [destination?] at hlocation
    dsimp only at hlocation
    split at hlocation
    · cases hlocation
    · split at hlocation
      · rename_i hinitial
        cases hlocation
        exact ⟨List.isPrefixOf_iff_prefix.1 hinitial, rfl⟩
      · cases hlocation
  obtain ⟨hbelow, rfl⟩ := hbelow
  refine ⟨hbelow, ?_⟩
  split at hplanned
  · cases hplanned
  · split at hplanned
    · cases hplanned
    · cases hplanned
      rfl

/-- If no rendered file is refused, all of them go to the target or below it, and the plan is theirs
in their order. Induction on the files. -/
theorem planFiles_eq_ok {files : List RenderedFile} {planned : List PlannedFile}
    (h : planFiles t target force files = .ok planned) :
    (∀ f ∈ files, target <+: (PathName.ofText f.path).locate target)
      ∧ planned = files.map (RenderedFile.planned target) := by
  induction mapM_eq_ok_iff.1 h with
  | nil => exact ⟨fun f hf => absurd hf List.not_mem_nil, rfl⟩
  | @cons f p files planned hf hrest ih =>
    obtain ⟨hbelow, rfl⟩ := planFile_eq_ok hf
    obtain ⟨hall, rfl⟩ := ih (mapM_eq_ok_iff.2 hrest)
    exact ⟨List.forall_mem_cons.2 ⟨hbelow, hall⟩, rfl⟩

end Planning

/-! ### Writing what is planned -/

section Writing

variable {t t' : FileTree} {target : Location}

/-- A plan all of which lies at the target or below it. -/
def PlannedBelow (target : Location) (files : List PlannedFile) : Prop :=
  ∀ f ∈ files, target <+: f.location ∧ f.location.IsPlain

/-- Every planned file lies below the target, at a plain location by `Location.IsPlain.locate`. -/
theorem plannedBelow_of_planFiles {force : Bool} {files : List RenderedFile}
    {planned : List PlannedFile} (htarget : target.IsPlain)
    (h : planFiles t target force files = .ok planned) : PlannedBelow target planned := by
  obtain ⟨hall, rfl⟩ := planFiles_eq_ok h
  intro p hp
  obtain ⟨f, hf, rfl⟩ := List.mem_map.1 hp
  exact ⟨hall f hf, htarget.locate _⟩

/-- Writing one file moves a tree as making the directories before it and writing its text do
(`moves_makeDirectories`, `moves_writeText`). -/
theorem moves_writePlannedFile {R : FileTree → FileTree → Prop} (hrefl : ∀ t, R t t)
    (htrans : ∀ t t' t'', R t t' → R t' t'' → R t t'') {f : PlannedFile}
    (hdirectories : ∀ t, R t (FileTree.withDirectories [] f.location.dropLast t).2)
    (htext : ∀ t t', FileTree.withText f.content [] f.location t = .ok t' → R t t') :
    Moves R (writePlannedFile f) :=
  (moves_makeDirectories hdirectories).bind htrans fun _ =>
    (moves_writeText hrefl htext).bind htrans fun _ => moves_pure hrefl _

/-- Writing a plan moves a tree as making the target and writing each of the files do. What is to be
shown of a run is shown of these two. -/
theorem moves_writePlanned {R : FileTree → FileTree → Prop} (hrefl : ∀ t, R t t)
    (htrans : ∀ t t' t'', R t t' → R t' t'' → R t t'') {files : List PlannedFile}
    (htarget : ∀ t, R t (FileTree.withDirectories [] target t).2)
    (hfiles : ∀ f ∈ files, Moves R (writePlannedFile f)) : Moves R (writePlanned target files) :=
  (moves_makeDirectories htarget).bind htrans fun _ => Moves.mapM hrefl htrans hfiles

/-- Writing one file stays below the target, whether it fails or not, by
`moves_writePlannedFile`. -/
theorem confined_writePlannedFile {f : PlannedFile} (hbelow : target <+: f.location)
    (hplain : f.location.IsPlain) : Moves (Confined target) (writePlannedFile f) :=
  moves_writePlannedFile Confined.refl Confined.trans
    (Confined.withDirectories (List.dropLast_prefix _) hbelow hplain.dropLast)
    fun _ _ => Confined.withText hbelow hplain

/-- **Writing a plan stays below the target, whichever file it fails at**, by
`moves_writePlanned`. -/
theorem confined_writePlanned {files : List PlannedFile} (htarget : target.IsPlain)
    (hfiles : PlannedBelow target files) :
    Moves (Confined target) (writePlanned target files) :=
  moves_writePlanned Confined.refl Confined.trans
    (Confined.withDirectories (List.prefix_refl _) (List.prefix_refl _) htarget)
    fun f hf => confined_writePlannedFile (hfiles f hf).1 (hfiles f hf).2

/-- Writing one file ends with writing its text, and what it returns is its location. -/
theorem writePlannedFile_eq_ok {f : PlannedFile} {location : Location}
    (h : writePlannedFile f t = (.ok location, t')) :
    location = f.location ∧ ∃ t₁, FileTree.withText f.content [] f.location t₁ = .ok t' := by
  rw [writePlannedFile, bind_apply] at h
  split at h
  · rename_i t₁ _
    rw [bind_apply, writeText] at h
    cases hwritten : FileTree.withText f.content [] f.location t₁ with
    | error fault =>
      rw [hwritten] at h
      cases h
    | ok t₂ =>
      rw [hwritten] at h
      cases h
      exact ⟨rfl, t₁, hwritten⟩
  · cases h

/-- What writing files returns are their locations, in their order. Induction on the files. -/
theorem mapM_writePlannedFile_eq_ok {files : List PlannedFile} {locations : List Location}
    (h : files.mapM writePlannedFile t = (.ok locations, t')) :
    locations = files.map (·.location) := by
  induction files generalizing t locations with
  | nil =>
    cases h
    rfl
  | cons f files ih =>
    obtain ⟨location, t₁, rest, hfirst, hrest, rfl⟩ := mapM_cons_apply_eq_ok_iff.1 h
    rw [(writePlannedFile_eq_ok hfirst).1, ih hrest]
    rfl

/-- Writing a plan succeeds if writing its files does, in the tree with the target. -/
theorem exists_mapM_of_writePlanned {files : List PlannedFile} {locations : List Location}
    (h : writePlanned target files t = (.ok locations, t')) :
    ∃ t₁, files.mapM writePlannedFile t₁ = (.ok locations, t') := by
  rw [writePlanned, bind_apply] at h
  split at h
  · exact ⟨_, h⟩
  · cases h

theorem writePlanned_eq_ok {files : List PlannedFile} {locations : List Location}
    (h : writePlanned target files t = (.ok locations, t')) :
    locations = files.map (·.location) := by
  obtain ⟨t₁, hfiles⟩ := exists_mapM_of_writePlanned h
  exact mapM_writePlannedFile_eq_ok hfiles

/-- Writing a rendered bundle is writing its plan (`planFiles`, `writePlanned`); without one nothing
happens. -/
theorem writeRendering_eq (t : FileTree) (target : Location) (force : Bool)
    (rendering : BundleRendering) : writeRendering target force rendering t
      = match planFiles t target force rendering.files with
        | .ok planned => writePlanned target planned t
        | .error fault => (.error fault, t) := by
  rw [writeRendering, bind_apply, writeRendering.planned]
  cases planFiles t target force rendering.files with
  | ok planned => rfl
  | error fault => rfl

end Writing

/-! ### Writing a bundle -/

section Bundle

variable {Time Span : Type} [Timeline Time Span]

/-- Renders a bundle and writes it below a location. -/
def writeAt (now : Time) (target : Location) (r : ScaffoldRequest) :
    WorkspaceM Time Span (List Location) := do
  let rendering ← renderSource now r.source r.configuration
  onTree (writeRendering target r.force rendering)

/-- A rendered file goes neither to the target nor below it. -/
def BundleRendering.Leaves (rendering : BundleRendering) (target : Location) : Prop :=
  ∃ f ∈ rendering.files, ¬target <+: (PathName.ofText f.path).locate target

/-- What is promised about a run that writes a bundle below a target, whether it fails or not. -/
structure StaysBelow (now : Time) (r : ScaffoldRequest) (target : Location)
    (w : Workspace Time Span) (run : Except Fault (List Location) × Workspace Time Span) :
    Prop where
  /-- Changes are confined to the target. -/
  confined : Confined target w.tree run.2.tree
  /-- What is returned are the places of the rendered files, at the target or below it. -/
  returned : ∀ locations, run.1 = .ok locations →
    (∃ rendering, (renderSource now r.source r.configuration w).1 = .ok rendering
        ∧ locations = rendering.files.map fun f => (PathName.ofText f.path).locate target)
      ∧ ∀ location ∈ locations, target <+: location
  /-- The run fails without any change if there is no rendering or a rendered path leads out of the
  target. -/
  refused : (∀ rendering, (renderSource now r.source r.configuration w).1 = .ok rendering →
      rendering.Leaves target) →
    (∃ fault, run.1 = .error fault) ∧ run.2.tree = w.tree

variable {now : Time} {r : ScaffoldRequest} {target : Location} {w : Workspace Time Span}

/-- Rendering does not touch the file tree: `renderSource` changes the cache at most. -/
theorem tree_renderSource (now : Time) (source : BundleSource) (configuration : Value)
    (w : Workspace Time Span) : (renderSource now source configuration w).2.tree = w.tree := by
  rw [renderSource]
  split
  · rfl
  · split
    · rfl
    · rfl

/-- **Writing below a plain location stays below it.** Rendering touches no file, and the plan of
what is rendered lies below (`plannedBelow_of_planFiles`). -/
theorem staysBelow_writeAt (now : Time) (r : ScaffoldRequest) (htarget : target.IsPlain)
    (w : Workspace Time Span) : StaysBelow now r target w (writeAt now target r w) := by
  have htree := tree_renderSource now r.source r.configuration w
  rw [writeAt, bind_apply]
  rcases hrender : renderSource now r.source r.configuration w with ⟨fault | rendering, w'⟩
  · -- Without a rendering nothing is written.
    rw [hrender] at htree
    exact ⟨htree ▸ Confined.refl _, by rintro locations ⟨⟩, fun _ => ⟨⟨fault, rfl⟩, htree⟩⟩
  · rw [hrender] at htree
    dsimp only at htree
    dsimp only [onTree]
    rw [writeRendering_eq, htree]
    cases hplan : planFiles w.tree target r.force rendering.files with
    | error fault =>
      exact ⟨Confined.refl _, by rintro locations ⟨⟩, fun _ => ⟨⟨fault, rfl⟩, rfl⟩⟩
    | ok planned =>
      have hbelow := plannedBelow_of_planFiles htarget hplan
      obtain ⟨hinside, hplanned⟩ := planFiles_eq_ok hplan
      refine ⟨confined_writePlanned htarget hbelow w.tree, fun locations hok => ?_,
        fun hleaves => ?_⟩
      · have hlocations := writePlanned_eq_ok (Prod.ext hok rfl)
        refine ⟨⟨rendering, by rw [hrender], ?_⟩, fun location hlocation => ?_⟩
        · rw [hlocations, hplanned, List.map_map]
          rfl
        · rw [hlocations] at hlocation
          obtain ⟨f, hf, rfl⟩ := List.mem_map.1 hlocation
          exact (hbelow f hf).1
      · obtain ⟨f, hf, houtside⟩ := hleaves rendering (by rw [hrender])
        exact absurd (hinside f hf) houtside

/-- A target that can be told is plain, and `writeBundle` is `writeAt` for it. -/
theorem writeBundle_of_targetLocation (now : Time) (hdirectory : w.directory.IsPlain)
    (h : r.targetLocation w.directory = .ok target) :
    target.IsPlain ∧ writeBundle now r w = writeAt now target r w := by
  constructor
  · rw [ScaffoldRequest.targetLocation] at h
    split at h
    · cases h
    · split at h
      · cases h
      · cases h
        exact hdirectory.locate r.target
  · rw [writeBundle, bind_apply, writeBundle.located, h]
    rfl

/-- **Writing a bundle stays below its target**, whatever the bundle, the configuration, the file
tree and the cache are: changes are confined to the target, what is returned are the places of the
rendered files, which lie there, and if there is no rendering or a rendered path leads out of the
target, the run fails without any change. The same holds below any plain location. Without a target
nothing happens. -/
theorem writeBundle_staysBelow (now : Time) (r : ScaffoldRequest) (w : Workspace Time Span)
    (hdirectory : w.directory.IsPlain) :
    (∀ target, r.targetLocation w.directory = .ok target →
        StaysBelow now r target w (writeBundle now r w))
      ∧ (∀ fault, r.targetLocation w.directory = .error fault →
        writeBundle now r w = (.error fault, w))
      ∧ ∀ target : Location, target.IsPlain →
        StaysBelow now r target w (writeAt now target r w) := by
  refine ⟨fun target htarget => ?_, fun fault hfault => ?_, fun target htarget => ?_⟩
  · obtain ⟨hplain, heq⟩ := writeBundle_of_targetLocation now hdirectory htarget
    rw [heq]
    exact staysBelow_writeAt now r hplain w
  · rw [writeBundle, bind_apply, writeBundle.located, hfault]
  · exact staysBelow_writeAt now r htarget w

/-- A bundle with one file, whose path the configuration makes climb to a neighbour of the target
with a longer name. -/
def climbingRequest : ScaffoldRequest :=
  ⟨.record ⟨"demo", "a file", "1.0.0", [⟨"\x7b\x7b p \x7d\x7d/a", "x", none, none⟩], []⟩,
    .mapping [("p", .text "/work/out/../out2")], PathName.ofText "out", true⟩

/-- That bundle is refused, and nothing is changed. -/
theorem writeBundle_staysBelow_climbingRequest :
    ∃ fault, (writeBundle (.infinite false : Binary64) climbingRequest
          ⟨⟨[(["work"], .directory)]⟩, ["work"], none⟩).1 = .error fault
        ∧ (writeBundle (.infinite false : Binary64) climbingRequest
          ⟨⟨[(["work"], .directory)]⟩, ["work"], none⟩).2.tree = ⟨[(["work"], .directory)]⟩ := by
  have hdirectory : Location.IsPlain ["work"] := by
    rw [Location.IsPlain]
    decide
  have htarget : climbingRequest.targetLocation ["work"] = .ok ["work", "out"] := by
    decide +kernel
  have hrender : (renderSource (.infinite false : Binary64) climbingRequest.source
      climbingRequest.configuration ⟨⟨[(["work"], .directory)]⟩, ["work"], none⟩).1
        = .ok ⟨[⟨"/work/out/../out2/a", "x", none, false⟩], []⟩ := by decide +kernel
  obtain ⟨hbelow, -⟩ := writeBundle_staysBelow (.infinite false : Binary64) climbingRequest
    ⟨⟨[(["work"], .directory)]⟩, ["work"], none⟩ hdirectory
  obtain ⟨⟨fault, hfault⟩, htree⟩ := (hbelow _ htarget).refused fun rendering hok => by
    cases hrender.symm.trans hok
    refine ⟨_, List.mem_cons_self, ?_⟩
    decide +kernel
  exact ⟨fault, hfault, htree⟩

end Bundle

end Templating
