import Templating.Proofs.Bundle.Faults
import Templating.Proofs.Scaffold.Plan
import Templating.Proofs.Value.Places

/-!
# Paths without a warning

The check of a path looks for two dots between separators of either kind, and for a separator or a
drive at the beginning. Writing a file looks at something else: it follows the parts between slashes
from the target, where the other separator is a character like any other, and compares locations.
A path without either warning passes that comparison below every target. Each part between slashes
divides into parts between separators, so none of them can be two dots, and a path that does not
begin with a separator does not begin with a slash. What is compared are rendered paths: a declared
path counts only as far as rendering leaves it unchanged.

## Main definitions

* `IsUnwarned`: the check of a path warns of neither.
* `StaysInside`: what is promised about such a path.

## Main results

* `splitOn_map`: the parts of a text some of whose characters were made separators.
* `outside_of_writeAt_eq_error`: a path is refused only if it leads out of the target.
* `staysInside_of_isUnwarned`: a path without a warning is never refused.
-/

namespace Templating

open Templating.Text

/-! ### Parts of a path -/

/-- If characters of a text are replaced, the separator not among them, its parts are divided
further, each on its own. The check of a path replaces backslashes in this way before it looks for
two dots. -/
theorem splitOn_map {separator : Char} {f : Char → Char} (hseparator : f separator = separator)
    (cs : List Char) : splitOn separator (cs.map f)
      = (splitOn separator cs).flatMap fun part => splitOn separator (part.map f) := by
  fun_induction splitOn separator cs with
  | case1 => rfl
  | case2 cs ih =>
    rw [List.map_cons, hseparator, splitOn, if_pos rfl, ih]
    rfl
  | case3 c cs _ hnil => exact absurd hnil (splitOn_ne_nil separator cs)
  | case4 c cs _ part parts hcs ih =>
    rw [hcs, List.flatMap_cons] at ih
    rw [List.map_cons, List.flatMap_cons, List.map_cons, splitOn, splitOn, ih]
    split
    · rfl
    · obtain ⟨first, more, hfirst⟩ := List.exists_cons_of_ne_nil
        (splitOn_ne_nil separator (part.map f))
      rw [hfirst]
      rfl

/-- Parts none of which leads up are followed one after the other. Induction on the parts. -/
theorem Location.follow_of_not_mem {start : Location} {parts : List String} (h : ".." ∉ parts) :
    start.follow parts = start ++ parts := by
  induction parts generalizing start with
  | nil => exact (List.append_nil start).symm
  | cons part rest ih =>
    rw [List.mem_cons, not_or] at h
    have hstep : start.follow (part :: rest) = Location.follow (start ++ [part]) rest := by
      rw [follow, List.foldl_cons, if_neg (Ne.symm h.1)]
      rfl
    rw [hstep, ih h.2, List.append_assoc, List.singleton_append]

namespace PathName

/-- A path without two dots between separators has no part that leads up: `climbs` divides it at
more characters than `PathName.ofText` does, by `splitOn_map`. -/
theorem not_mem_parts_of_not_climbs {path : String} (h : climbs path.toList = false) :
    ".." ∉ (ofText path).parts := by
  intro hmem
  obtain ⟨part, hpart, hdots⟩ := List.mem_map.1 (List.mem_filter.1 hmem).1
  have hchars : part = ['.', '.'] := by rw [← String.toList_ofList (l := part), hdots]; rfl
  have hclimbs : climbs path.toList = true := by
    rw [climbs, List.contains_iff_mem, splitOn_map (by decide), List.mem_flatMap]
    exact ⟨part, hpart, by rw [hchars]; decide⟩
  rw [h] at hclimbs
  cases hclimbs

/-- A path that does not begin with a separator leads from the directory where it is followed. -/
theorem isAbsolute_of_not_isAbsolutePath {path : String}
    (h : isAbsolutePath path.toList = false) : (ofText path).isAbsolute = false := by
  have hnone : path.toList.takeWhile (· = '/') = [] := by
    cases hpath : path.toList with
    | nil => rfl
    | cons c rest =>
      rw [hpath] at h
      have hseparator : separatesPath c = false := (Bool.or_eq_false_iff.1 h).1
      rw [separatesPath, Bool.or_eq_false_iff] at hseparator
      rw [List.takeWhile_cons_of_neg (by rw [hseparator.1]; exact Bool.false_ne_true)]
  rw [isAbsolute, ofText, hnone]
  rfl

end PathName

/-! ### Warnings -/

/-- The check of a path (`checkPath`) warns neither that it may climb nor that it is absolute. -/
structure IsUnwarned (limits : Limits) (path : String) : Prop where
  relative : "File path is absolute, consider using relative paths"
    ∉ (checkPath limits path).warnings
  straight : "File path uses relative navigation, which may be unsafe"
    ∉ (checkPath limits path).warnings

variable {limits : Limits} {path : String}

/-- There is no warning about a path that is not absolute and does not climb out, since `checkPath`
gives each of the two warnings for one reason only. -/
theorem isUnwarned_iff : IsUnwarned limits path
    ↔ isAbsolutePath path.toList = false ∧ climbs path.toList = false := by
  have hiff : IsUnwarned limits path ↔ "File path is absolute, consider using relative paths"
        ∉ (checkPath limits path).warnings
      ∧ "File path uses relative navigation, which may be unsafe"
        ∉ (checkPath limits path).warnings := ⟨fun h => ⟨h.1, h.2⟩, fun h => ⟨h.1, h.2⟩⟩
  rw [hiff, checkPath, Findings.of]
  refine and_congr ?_ ?_
  · cases isAbsolutePath path.toList <;> simp
  · cases climbs path.toList <;> simp

/-- **A path without a warning leads below every directory**: `locate` starts there and follows
parts none of which leads up. -/
theorem IsUnwarned.locate_eq (h : IsUnwarned limits path) (target : Location) :
    (PathName.ofText path).locate target = target ++ (PathName.ofText path).parts := by
  obtain ⟨habsolute, hclimbs⟩ := isUnwarned_iff.1 h
  rw [PathName.locate, PathName.start, PathName.isAbsolute_of_not_isAbsolutePath habsolute]
  exact Location.follow_of_not_mem (PathName.not_mem_parts_of_not_climbs hclimbs)

/-- It has a destination below every target, unless it holds a null character, by
`IsUnwarned.locate_eq`. -/
theorem IsUnwarned.destination?_eq (h : IsUnwarned limits path) (target : Location) :
    destination? target path
      = if (PathName.ofText path).hasNull then .error (.system .nullCharacter)
        else .ok (target ++ (PathName.ofText path).parts) := by
  rw [destination?, h.locate_eq]
  dsimp only
  rw [if_pos (List.isPrefixOf_iff_prefix.2 (List.prefix_append _ _))]

/-! ### Refused paths -/

section Refused

variable {Time Span : Type} [Timeline Time Span]
variable {now : Time} {target : Location} {r : ScaffoldRequest} {w : Workspace Time Span}
  {text : String}

/-- No fault of rendering is one of writing. -/
theorem Fault.IsOfRendering.not_isOfWriting {fault : Fault} (h : fault.IsOfRendering) :
    ¬fault.IsOfWriting := by
  cases fault with
  | integerTooLong => exact id
  | numberTooLarge => exact id
  | configurationNotMapping => exact id
  | _ => exact h.elim

/-- Rendering a bundle does not fail as writing it may: its faults are those of
`Fault.IsOfRendering`, or of the bundle itself. -/
theorem failsOnly_renderSource (now : Time) (source : BundleSource) (configuration : Value)
    (w : Workspace Time Span) :
    FailsOnly (fun fault => ¬fault.IsOfWriting) (renderSource now source configuration w).1 := by
  rw [renderSource]
  cases hbundle : source.bundle with
  | error fault =>
    refine failsOnly_error ?_
    cases source with
    | record b => cases hbundle
    | value v =>
      rw [BundleSource.bundle] at hbundle
      cases hdecode : Bundle.decode v with
      | accepted b =>
        rw [hdecode] at hbundle
        cases hbundle
      | refused issues =>
        rw [hdecode] at hbundle
        cases hbundle
        exact id
  | ok b =>
    dsimp only
    cases w.cache with
    | none =>
      exact (b.failsOnly_renderPlainly configuration).imp fun _ =>
        Fault.IsOfRendering.not_isOfWriting
    | some c =>
      exact (b.neverFailsBut_renderThrough now configuration c).imp fun _ =>
        Fault.IsOfRendering.not_isOfWriting

/-- A plan that is refused because of a path that leads out of the target has such a path. Induction
on the files, the first refused one being the reason. -/
theorem outside_of_planFiles_eq_error {t : FileTree} {force : Bool} {files : List RenderedFile}
    (h : planFiles t target force files = .error (.outsideTarget path text)) :
    ∃ f ∈ files, f.path = path ∧ text = target.text ∧ ¬target <+: f.destination target := by
  induction files with
  | nil => cases h
  | cons f files ih =>
    rw [planFiles, List.mapM_cons] at h
    rcases bind_eq_error_iff.1 h with hfirst | ⟨planned, -, hrest⟩
    · refine ⟨f, List.mem_cons_self, ?_⟩
      rcases bind_eq_error_iff.1 hfirst with hdestination | ⟨location, -, hplanned⟩
      · rw [destination?] at hdestination
        dsimp only at hdestination
        split at hdestination
        · cases hdestination
        · split at hdestination
          · cases hdestination
          · next hnot =>
            cases hdestination
            exact ⟨rfl, rfl, fun hprefix => hnot (List.isPrefixOf_iff_prefix.2 hprefix)⟩
      · split at hplanned
        · cases hplanned
        · split at hplanned
          · cases hplanned
          · cases hplanned
    · rcases bind_eq_error_iff.1 hrest with hothers | ⟨others, -, hnone⟩
      · obtain ⟨g, hg, hgpath⟩ := ih hothers
        exact ⟨g, List.mem_cons_of_mem f hg, hgpath⟩
      · cases hnone

/-- A run is refused because of a path that leads out of the target only if a rendered file has this
path and goes neither to the target nor below it. Rendering has no such fault
(`failsOnly_renderSource`), nor has the file system. -/
theorem outside_of_writeAt_eq_error
    (h : (writeAt now target r w).1 = .error (.outsideTarget path text)) :
    ∃ rendering, (renderSource now r.source r.configuration w).1 = .ok rendering
      ∧ ∃ f ∈ rendering.files,
        f.path = path ∧ text = target.text ∧ ¬target <+: f.destination target := by
  have hrender := failsOnly_renderSource now r.source r.configuration w
  rw [writeAt, bind_apply] at h
  rcases hout : renderSource now r.source r.configuration w with ⟨fault | rendering, w'⟩
  all_goals rw [hout] at h hrender
  · cases h
    exact absurd trivial (hrender _ rfl)
  · refine ⟨rendering, rfl, ?_⟩
    dsimp only [onTree] at h
    rw [writeRendering_eq] at h
    cases hplan : planFiles w'.tree target r.force rendering.files with
    | error fault =>
      rw [hplan] at h
      cases h
      exact outside_of_planFiles_eq_error hplan
    | ok planned =>
      rw [hplan] at h
      exact (neverFailsBut_writePlanned target planned w'.tree _ h).elim

/-- Finding the target is not refused because of a rendered path, so the refusal is one of
`writeAt`. -/
theorem exists_writeAt_of_writeBundle_eq_error
    (h : (writeBundle now r w).1 = .error (.outsideTarget path text)) :
    ∃ target, r.targetLocation w.directory = .ok target
      ∧ (writeAt now target r w).1 = .error (.outsideTarget path text) := by
  rw [writeBundle_eq] at h
  cases htarget : r.targetLocation w.directory with
  | ok target =>
    rw [htarget] at h
    exact ⟨target, rfl, h⟩
  | error fault =>
    rw [htarget] at h
    cases h
    rw [ScaffoldRequest.targetLocation] at htarget
    split at htarget
    · cases htarget
    · split at htarget
      · cases htarget
      · cases htarget

/-- The rendered files come from files of the bundle, in their order, each with its path
rendered. -/
theorem paths_of_renderSource {rendering : BundleRendering}
    (h : (renderSource now r.source r.configuration w).1 = .ok rendering) :
    ∃ b selected, r.source.bundle = .ok b
      ∧ selectFiles r.configuration b.files = .ok (selected, rendering.skipped)
      ∧ List.Forall₂ (fun f g => Template.renderText f.path r.configuration = .ok g.path)
          selected rendering.files := by
  rw [renderSource] at h
  cases hbundle : r.source.bundle with
  | error fault =>
    rw [hbundle] at h
    cases h
  | ok b =>
    rw [hbundle] at h
    cases hcache : w.cache with
    | none =>
      rw [hcache] at h
      obtain ⟨selected, hselect, hfiles⟩ := Bundle.forall₂_of_renderPlainly h
      exact ⟨b, selected, rfl, hselect, hfiles.imp fun _ _ => And.left⟩
    | some c =>
      rw [hcache] at h
      -- Nothing is asked of the bodies, so that any cache will do.
      have hthrough : Upholds (fun _ _ => True)
          (fun rendering : BundleRendering => ∃ selected,
            selectFiles r.configuration b.files = .ok (selected, rendering.skipped)
              ∧ List.Forall₂ (IsRenderedFrom r.configuration fun _ _ => True) selected
                rendering.files)
          (b.renderThrough now r.configuration : CacheM Time Span BundleRendering) :=
        Bundle.upholds_renderThrough now fun f _ =>
          (upholds_renderThrough now fun _ _ _ _ => trivial).imp fun _ _ => trivial
      obtain ⟨selected, hselect, hfiles⟩ := (hthrough c fun _ _ => trivial).2 rendering h
      exact ⟨b, selected, rfl, hselect, hfiles.imp fun _ _ => And.left⟩

end Refused

/-! ### Paths that are never refused -/

section Inside

variable (Time : Type) {Span : Type} [Timeline Time Span]

/-- What is promised about a path. -/
structure StaysInside (path : String) : Prop where
  /-- It has a destination below every target, unless it holds a null character. -/
  destination : ∀ target, destination? target path
    = if (PathName.ofText path).hasNull then .error (.system .nullCharacter)
      else .ok (target ++ (PathName.ofText path).parts)
  /-- A file that declares it goes below every target, if rendering leaves it unchanged. -/
  declared : ∀ (now : Time) (r : ScaffoldRequest) (w : Workspace Time Span)
    (rendering : BundleRendering),
    Template.renderText path r.configuration = .ok path →
    (renderSource now r.source r.configuration w).1 = .ok rendering →
    ∃ b selected, r.source.bundle = .ok b
      ∧ selectFiles r.configuration b.files = .ok (selected, rendering.skipped)
      ∧ List.Forall₂ (fun f g => f.path = path → g.path = path
          ∧ ∀ target, g.destination target = target ++ (PathName.ofText path).parts)
        selected rendering.files
  /-- No run that writes a bundle is refused because it leads out of the target. -/
  unrefused : ∀ (now : Time) (r : ScaffoldRequest) (w : Workspace Time Span) (text : String),
    (writeBundle now r w).1 ≠ .error (.outsideTarget path text)
      ∧ ∀ target, (writeAt now target r w).1 ≠ .error (.outsideTarget path text)

/-- **A path about which the check warns neither that it may climb nor that it is absolute is never
refused for leading out of the target**, whatever the target, the bundle, the configuration and the
file tree are. -/
theorem staysInside_of_isUnwarned {limits : Limits} {path : String} (h : IsUnwarned limits path) :
    StaysInside Time path := by
  have hbelow (now : Time) (r : ScaffoldRequest) (w : Workspace Time Span) (text : String)
      (target : Location) : (writeAt now target r w).1 ≠ .error (.outsideTarget path text) := by
    intro herror
    obtain ⟨rendering, -, f, -, rfl, -, houtside⟩ := outside_of_writeAt_eq_error herror
    refine houtside ?_
    rw [RenderedFile.destination, h.locate_eq]
    exact List.prefix_append _ _
  refine ⟨h.destination?_eq, fun now r w rendering hsame hrendered => ?_,
    fun now r w text => ⟨fun herror => ?_, hbelow now r w text⟩⟩
  · obtain ⟨b, selected, hbundle, hselect, hfiles⟩ := paths_of_renderSource hrendered
    refine ⟨b, selected, hbundle, hselect, hfiles.imp fun f g hpath heq => ?_⟩
    rw [heq, hsame] at hpath
    obtain rfl := Except.ok.inj hpath
    exact ⟨rfl, h.locate_eq⟩
  · obtain ⟨target, -, hwrite⟩ := exists_writeAt_of_writeBundle_eq_error herror
    exact hbelow now r w text target hwrite

/-- A path with separators of both kinds, with empty parts, and with dots in all places where they
do no harm. -/
def dottedPath : String :=
  "..a\\.b//./c../..."

/-- A bundle with one file, at that path. -/
def dottedRequest : ScaffoldRequest :=
  ⟨.record ⟨"demo", "a file", "1.0.0", [⟨dottedPath, "x", none, none⟩], []⟩, .mapping [],
    PathName.ofText "out", false⟩

/-- The path goes below the target, the other separator being part of a name. -/
theorem staysInside_of_isUnwarned_dottedPath :
    destination? ["work", "out"] dottedPath = .ok ["work", "out", "..a\\.b", "c..", "..."]
      ∧ (writeBundle (.infinite false : Binary64) dottedRequest
          ⟨⟨[(["work"], .directory)]⟩, ["work"], none⟩).1
        ≠ .error (.outsideTarget dottedPath "/work/out") := by
  have hunwarned : IsUnwarned .standard dottedPath := ⟨by decide +kernel, by decide +kernel⟩
  have hinside := staysInside_of_isUnwarned Binary64 hunwarned
  refine ⟨?_, (hinside.unrefused _ _ _ _).1⟩
  rw [hinside.destination, if_neg (by decide +kernel)]
  decide +kernel

end Inside

end Templating
