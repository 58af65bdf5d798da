import Templating.Proofs.Files.Rooted
import Templating.Proofs.Scaffold.Plan

/-!
# What is replaced

Without force, writing a bundle replaces a file that was there before only if the bundle asks for
it: some rendered file goes to its location, and every rendered file that does allows it. All else
that stood in the tree still stands, whether the run succeeds, is refused, or fails after some of
the files have been written. It is the plan that sees to this, because it looks for what exists
before anything is written; the files of one bundle may well replace each other.

## Main definitions

* `Overwrites`: what may become of a tree by writing given texts at given locations.
* `BundleRendering.Replaces`: the rendered files that go to a location allow replacing it.
* `Spares`: what is promised about what stood in the tree.

## Main results

* `overwrites_writePlanned`, `keepsRooted_writePlanned`: writing a plan.
* `spares_writeAt`, `writeBundle_spares`: writing a bundle.
-/

namespace Templating

/-! ### Overwriting -/

/-- Whatever stands in the tree still does afterwards, except that a file may have a text that is
given for its location. -/
def Overwrites (Given : Location → String → Prop) (t t' : FileTree) : Prop :=
  ∀ location node, t.node? location = some node →
    t'.node? location = some node
      ∨ (∃ text, node = .file text) ∧ ∃ text, Given location text
        ∧ t'.node? location = some (.file text)

namespace Overwrites

variable {Given : Location → String → Prop} {t t' : FileTree}

theorem refl (t : FileTree) : Overwrites Given t t :=
  fun _ _ h => .inl h

/-- What is overwritten in two steps is overwritten with given texts in both. -/
theorem trans (t t' t'' : FileTree) (h : Overwrites Given t t') (h' : Overwrites Given t' t'') :
    Overwrites Given t t'' := by
  intro location node hnode
  rcases h location node hnode with hsame | ⟨hfile, text, hgiven, htext⟩
  · exact h' location node hsame
  · rcases h' location (.file text) htext with hsame | ⟨-, text', hgiven', htext'⟩
    · exact .inr ⟨hfile, text, hgiven, hsame⟩
    · exact .inr ⟨hfile, text', hgiven', htext'⟩

/-- Making directories overwrites nothing, by `FileTree.node?_withDirectories`. -/
theorem withDirectories {location : Location} (hplain : location.IsPlain) (t : FileTree) :
    Overwrites Given t (FileTree.withDirectories [] location t).2 := by
  intro here node hnode
  rcases FileTree.node?_withDirectories hplain here with hsame | ⟨-, hnone, -⟩
  · exact .inl (hsame.trans hnode)
  · cases hnone.symm.trans hnode

/-- Writing a text overwrites the file at its location, if there is one, with the text given for
it. -/
theorem withText {location : Location} {text : String} (hgiven : Given location text)
    (hplain : location.IsPlain) (h : FileTree.withText text [] location t = .ok t') :
    Overwrites Given t t' := by
  obtain ⟨hne, rfl⟩ := FileTree.withText_eq_ok hplain h
  have hfile := FileTree.not_directory_of_withText hplain h
  intro here node hnode
  rw [List.nil_append] at hfile ⊢
  rw [FileTree.node?_put hne]
  split
  · rename_i heq
    subst heq
    cases node with
    | directory => exact absurd hnode hfile
    | file old => exact .inr ⟨⟨old, rfl⟩, text, hgiven, rfl⟩
  · exact .inl hnode

end Overwrites

section Writing

variable {target : Location}

/-- A text is planned for a location. -/
def IsPlanned (files : List PlannedFile) (location : Location) (text : String) : Prop :=
  ⟨location, text⟩ ∈ files

/-- Writing a file overwrites with its text what stands at its location, and nothing else, by
`moves_writePlannedFile`. -/
theorem overwrites_writePlannedFile (Given : Location → String → Prop) {f : PlannedFile}
    (hgiven : Given f.location f.content) (hplain : f.location.IsPlain) :
    Moves (Overwrites Given) (writePlannedFile f) :=
  moves_writePlannedFile Overwrites.refl Overwrites.trans
    (Overwrites.withDirectories hplain.dropLast) fun _ _ => Overwrites.withText hgiven hplain

/-- Writing files one after the other overwrites nothing but files with what is planned, by
`Moves.mapM`. -/
theorem overwrites_mapM_writePlannedFile {files : List PlannedFile}
    (hplain : ∀ f ∈ files, f.location.IsPlain) :
    Moves (Overwrites (IsPlanned files)) (files.mapM writePlannedFile) :=
  Moves.mapM Overwrites.refl Overwrites.trans fun f hf =>
    overwrites_writePlannedFile (IsPlanned files) hf (hplain f hf)

/-- **Writing a plan overwrites nothing but files with what is planned, whichever file it fails
at**, by `moves_writePlanned`. -/
theorem overwrites_writePlanned {files : List PlannedFile} (htarget : target.IsPlain)
    (hplain : ∀ f ∈ files, f.location.IsPlain) :
    Moves (Overwrites (IsPlanned files)) (writePlanned target files) :=
  moves_writePlanned Overwrites.refl Overwrites.trans (Overwrites.withDirectories htarget)
    fun f hf => overwrites_writePlannedFile (IsPlanned files) hf (hplain f hf)

/-- A change that keeps trees rooted (`FileTree.IsRooted`). -/
def KeepsRooted (t t' : FileTree) : Prop :=
  t.IsRooted → t'.IsRooted

/-- Writing a plan keeps a tree rooted, whichever file it fails at:
`FileTree.IsRooted.withDirectories` and `FileTree.IsRooted.withText` for its steps. -/
theorem keepsRooted_writePlanned (files : List PlannedFile) :
    Moves KeepsRooted (writePlanned target files) := by
  have hrefl (t : FileTree) : KeepsRooted t t := id
  have htrans (t t' t'' : FileTree) (h : KeepsRooted t t') (h' : KeepsRooted t' t'') :
      KeepsRooted t t'' := fun ht => h' (h ht)
  have hdirectories (location : Location) (t : FileTree) :
      KeepsRooted t (FileTree.withDirectories [] location t).2 :=
    fun ht => ht.withDirectories t.node?_root location
  exact moves_writePlanned hrefl htrans (hdirectories target) fun f _ =>
    moves_writePlannedFile hrefl htrans (hdirectories _) fun t _ hwritten ht =>
      ht.withText t.node?_root hwritten

end Writing

/-! ### Writing a bundle -/

/-- Some rendered file goes to the location, and every one that does may replace what is there. -/
structure BundleRendering.Replaces (rendering : BundleRendering) (target location : Location) :
    Prop where
  goes : ∃ f ∈ rendering.files, f.destination target = location
  allows : ∀ f ∈ rendering.files, f.destination target = location → f.overwrite = some true

section Bundle

variable {Time Span : Type} [Timeline Time Span]

/-- What is promised about what stood in the tree when a bundle was written below a target without
force, whether the run fails or not. -/
structure Spares (now : Time) (target : Location) (r : ScaffoldRequest) (w : Workspace Time Span)
    (t' : FileTree) : Prop where
  /-- It still stands, unless it was a file that the rendered bundle replaces with the content of a
  rendered file. -/
  stands : ∀ location node, w.tree.node? location = some node →
    t'.node? location = some node
      ∨ ∃ rendering, (renderSource now r.source r.configuration w).1 = .ok rendering
        ∧ rendering.Replaces target location
        ∧ (∃ text, node = .file text)
        ∧ ∃ f ∈ rendering.files, f.destination target = location
          ∧ t'.node? location = some (.file f.content)
  /-- The tree still hangs together. -/
  rooted : t'.IsRooted

variable {now : Time} {r : ScaffoldRequest} {target : Location} {w : Workspace Time Span}

theorem spares_self (hrooted : w.tree.IsRooted) : Spares now target r w w.tree :=
  ⟨fun _ _ hnode => .inl hnode, hrooted⟩

/-- If there is a plan without force, the rendered files that go to something that stands in the
tree may replace it. In a rooted tree it is found there (`FileTree.IsRooted.exists?_ne_false`), so
`replaces_of_planFiles` leaves the flag of each file. -/
theorem HasPlan.replaces {rendering : BundleRendering} (h : HasPlan now target r w rendering)
    (htarget : target.IsPlain) (hrooted : w.tree.IsRooted) (hforce : r.force = false)
    {f : RenderedFile} (hf : f ∈ rendering.files)
    (hthere : w.tree.node? (f.destination target) ≠ none) :
    rendering.Replaces target (f.destination target) := by
  refine ⟨⟨f, hf, rfl⟩, fun g hg heq => ?_⟩
  obtain ⟨there, hexists, hallowed⟩ := replaces_of_planFiles h.planned hg
  rw [heq] at hexists
  have hfound : w.tree.exists? [] (f.destination target) ≠ .ok false :=
    hrooted.exists?_ne_false (isPlain_destination htarget f) hthere
  cases there with
  | false => exact absurd hexists hfound
  | true =>
    rcases hallowed rfl with hforced | hoverwrite
    · rw [hforce] at hforced
      cases hforced
    · exact hoverwrite

/-- **Writing below a plain location without force spares what the bundle does not replace**, in
both cases of `writeAt_cases`. -/
theorem spares_writeAt (htarget : target.IsPlain) (hrooted : w.tree.IsRooted)
    (hforce : r.force = false) : Spares now target r w (writeAt now target r w).2.tree := by
  rcases writeAt_cases now target r w with ⟨-, -, htree⟩ | ⟨rendering, hplan, hrun⟩
  · rw [htree]
    exact spares_self hrooted
  · obtain ⟨-, htree⟩ := Prod.ext_iff.1 hrun
    dsimp only at htree
    rw [htree]
    have hplain : ∀ p ∈ rendering.files.map (RenderedFile.planned target), p.location.IsPlain := by
      intro p hp
      obtain ⟨f, -, rfl⟩ := List.mem_map.1 hp
      exact isPlain_destination htarget f
    refine ⟨fun location node hnode => ?_, keepsRooted_writePlanned _ w.tree hrooted⟩
    rcases overwrites_writePlanned htarget hplain w.tree location node hnode with
      hsame | ⟨hfile, text, hplanned, htext⟩
    · exact .inl hsame
    · obtain ⟨f, hf, heq⟩ := List.mem_map.1 hplanned
      obtain ⟨rfl, rfl⟩ := PlannedFile.mk.inj heq
      have hthere : w.tree.node? (f.destination target) ≠ none := by
        rw [RenderedFile.destination, hnode]
        exact Option.some_ne_none node
      exact .inr ⟨rendering, hplan.rendered, hplan.replaces htarget hrooted hforce hf hthere, hfile,
        f, hf, rfl, htext⟩

/-- **Without force, writing a bundle or creating its files spares whatever stood in the tree**,
unless every rendered file that goes there may replace it and there is one; this holds whether the
run succeeds or fails, and wherever it fails. The same holds below any plain location. Without a
target nothing happens. -/
theorem writeBundle_spares (now : Time) (r : ScaffoldRequest) (w : Workspace Time Span)
    (hdirectory : w.directory.IsPlain) (hrooted : w.tree.IsRooted) (hforce : r.force = false) :
    (∀ target, r.targetLocation w.directory = .ok target →
        Spares now target r w (writeBundle now r w).2.tree
        ∧ ∀ templateId, Spares now target r w (createBundle now templateId r w).2.tree)
      ∧ (∀ fault, r.targetLocation w.directory = .error fault →
        (writeBundle now r w).2 = w ∧ ∀ templateId, (createBundle now templateId r w).2 = w)
      ∧ ∀ target : Location, target.IsPlain →
        Spares now target r w (writeAt now target r w).2.tree := by
  refine ⟨fun target htarget => ?_, fun fault hfault => ?_,
    fun target htarget => spares_writeAt htarget hrooted hforce⟩
  · have hwrite : Spares now target r w (writeBundle now r w).2.tree := by
      obtain ⟨hplain, heq⟩ := writeBundle_of_targetLocation now hdirectory htarget
      rw [heq]
      exact spares_writeAt hplain hrooted hforce
    refine ⟨hwrite, fun templateId => ?_⟩
    rcases createBundle_cases now templateId r w with heq | ⟨fault, heq⟩
    · rwa [heq]
    · rw [heq]
      exact spares_self hrooted
  · have hwrite : (writeBundle now r w).2 = w := by rw [writeBundle_eq, hfault]
    refine ⟨hwrite, fun templateId => ?_⟩
    rcases createBundle_cases now templateId r w with heq | ⟨fault, heq⟩
    · rwa [heq]
    · rw [heq]

/-- A bundle with two files for one place, of which only the first may replace what is there. -/
def halfwayRequest : ScaffoldRequest :=
  ⟨.record ⟨"demo", "two files", "1.0.0",
      [⟨"a", "x", some true, none⟩, ⟨"./a", "y", none, none⟩], []⟩,
    .mapping [], PathName.ofText "out", false⟩

/-- A workspace with one file below the target. -/
def occupiedWorkspace : Workspace Binary64 Number :=
  ⟨⟨[(["work"], .directory), (["work", "out"], .directory), (["work", "out", "a"], .file "old")]⟩,
    ["work"], none⟩

/-- The request writes into a directory below the working one. -/
theorem targetLocation_halfwayRequest :
    halfwayRequest.targetLocation occupiedWorkspace.directory = .ok ["work", "out"] := by
  decide +kernel

/-- Its bundle renders to two files for one destination, of which only the first may be replaced. -/
theorem renderSource_halfwayRequest :
    (renderSource (.infinite false) halfwayRequest.source halfwayRequest.configuration
        occupiedWorkspace).1
      = .ok ⟨[⟨"a", "x", some true, false⟩, ⟨"./a", "y", none, false⟩], []⟩ := by
  decide +kernel

/-- What is there stays as it is. -/
theorem writeBundle_spares_halfwayRequest :
    (writeBundle (.infinite false) halfwayRequest occupiedWorkspace).2.tree.node?
      ["work", "out", "a"] = some (.file "old") := by
  have hdirectory : occupiedWorkspace.directory.IsPlain := by
    rw [Location.IsPlain]
    decide
  have hrooted : occupiedWorkspace.tree.IsRooted := by decide
  obtain ⟨hspares, -⟩ := writeBundle_spares (.infinite false) halfwayRequest occupiedWorkspace
    hdirectory hrooted rfl
  rcases (hspares _ targetLocation_halfwayRequest).1.stands ["work", "out", "a"] (.file "old")
    (by decide) with
    hsame | ⟨rendering, hok, hreplaces, -⟩
  · exact hsame
  · cases renderSource_halfwayRequest.symm.trans hok
    have hallowed := hreplaces.allows ⟨"./a", "y", none, false⟩ (by decide) (by decide +kernel)
    cases hallowed

end Bundle

end Templating
