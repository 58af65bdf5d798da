import Templating.Proofs.Cache.Contents
import Templating.Proofs.Guard.Faults
import Templating.Proofs.Template.EvaluatedGuards
import Templating.Scaffold.Write

/-!
# What can go wrong with a bundle

Rendering a template fails only because of the size of an integer. Rendering a bundle fails
besides if the configuration is no mapping, and writing what was rendered fails because of what
stands in the way or because of a path that leads out of the target directory. Whatever these
computations do to a cache or to the files, the data of the bundle is not what they refuse.

## Main definitions

* `Fault.IsOfRendering`, `Fault.IsOfWriting`: the faults of rendering a bundle and of writing it.
* `Fault.IsOfFileSystem`: the faults of changing a file tree.

## Main results

* `Template.renderText_error`: the faults of rendering a template.
* `Bundle.failsOnly_renderPlainly`, `Bundle.neverFailsBut_renderThrough`: those of rendering a
  bundle without and with a cache.
* `neverFailsBut_writePlanned`, `neverFailsBut_writeRendering`: those of writing it.
-/

namespace Templating

/-! ### Rendering -/

/-- The faults of rendering a bundle: an integer that is too large, or a configuration that is no
mapping. -/
def Fault.IsOfRendering : Fault → Prop
  | .integerTooLong | .numberTooLarge | .configurationNotMapping _ => True
  | _ => False

/-- Evaluating a guard fails only as rendering does, by `Guard.evaluate_error`. -/
theorem Guard.failsOnly_evaluate (guard : String) (configuration : Value) :
    FailsOnly Fault.IsOfRendering (evaluate guard configuration) := by
  intro fault hfault
  rcases evaluate_error hfault with rfl | rfl <;> trivial

/-- A value is not inserted only because of an integer that is too long. -/
theorem Value.failsOnly_inserted (v : Value) : FailsOnly (· = .integerTooLong) v.inserted := by
  rw [inserted]
  split
  · exact failsOnly_error rfl
  · exact failsOnly_ok _

namespace Template

/-- A template cannot be rendered only because of the size of an integer: one that is too long to be
read or written, or one beyond the floating point numbers where its truth is asked for. The first
comes from a guard or from `Value.inserted`, the second from a guard. -/
theorem renderText_error {template : String} {configuration : Value} {fault : Fault}
    (h : renderText template configuration = .error fault) :
    fault = .integerTooLong ∨ fault = .numberTooLarge := by
  obtain hresolve | ⟨resolved, -, hsubstitute⟩ := bind_eq_error_iff.1 h
  · rw [resolveConditionals, resolveSpans_eq_error_iff] at hresolve
    obtain ⟨i, -, hfault⟩ := List.exists_of_findSome?_eq_some hresolve
    rw [faultAt, guardFault?] at hfault
    split at hfault
    · cases hfault
    · next fault' hevaluate =>
      cases hfault
      exact Guard.evaluate_error hevaluate
  · refine .inl ?_
    have hreplacement : ∀ t : Token,
        FailsOnly (· = .integerTooLong) (t.replacement configuration) := by
      intro t
      rw [Token.replacement]
      split
      · exact failsOnly_ok _
      · split
        · exact failsOnly_ok _
        · split
          · exact failsOnly_ok _
          · exact Value.failsOnly_inserted _
    exact (FailsOnly.mapM hreplacement _).bind (fun _ => failsOnly_ok _) fault hsubstitute

/-- Rendering a template fails only as rendering a bundle does. -/
theorem failsOnly_renderText (template : String) (configuration : Value) :
    FailsOnly Fault.IsOfRendering (renderText template configuration) := by
  intro fault hfault
  rcases renderText_error hfault with rfl | rfl <;> trivial

end Template

/-- Taking a configuration has faults of rendering only. -/
theorem failsOnly_configurationOf (v : Value) :
    FailsOnly Fault.IsOfRendering (configurationOf v) := by
  rw [configurationOf]
  split
  · exact failsOnly_ok v
  · exact failsOnly_error trivial

/-- So has `selectFiles`, by the faults of the conditions. Induction on the files. -/
theorem failsOnly_selectFiles (configuration : Value) (files : List FileDecl) :
    FailsOnly Fault.IsOfRendering (selectFiles configuration files) := by
  induction files with
  | nil => exact failsOnly_ok _
  | cons f rest ih =>
    have hselected : FailsOnly Fault.IsOfRendering (f.isSelected configuration) := by
      rw [FileDecl.isSelected]
      split
      · exact failsOnly_ok _
      · exact Guard.failsOnly_evaluate _ _
    exact hselected.bind fun _ => ih.bind fun _ => failsOnly_ok _

/-- So has `renderBody`: the configuration is checked first, and then the body is rendered. -/
theorem failsOnly_renderBody (configuration : Value) (body : String) :
    FailsOnly Fault.IsOfRendering (renderBody configuration body) := by
  refine (failsOnly_configurationOf configuration).bind fun v fault hfault => ?_
  rw [renderPlainly] at hfault
  cases hrender : Template.renderText body v with
  | ok content =>
    rw [hrender] at hfault
    cases hfault
  | error fault' =>
    rw [hrender] at hfault
    cases hfault
    exact Template.failsOnly_renderText body v _ hrender

/-- **Rendering a bundle without a cache fails only because of an integer or the configuration**
(`Fault.IsOfRendering`), whatever its files are. -/
theorem Bundle.failsOnly_renderPlainly (b : Bundle) (configuration : Value) :
    FailsOnly Fault.IsOfRendering (b.renderPlainly configuration) := by
  have hfile (f : FileDecl) : FailsOnly Fault.IsOfRendering
      (f.renderBy (renderBody configuration) configuration) := by
    rw [FileDecl.renderBy, ofExcept_eq_self]
    exact (Template.failsOnly_renderText _ _).bind fun _ =>
      (failsOnly_renderBody configuration _).bind fun _ => failsOnly_ok _
  exact (failsOnly_selectFiles configuration _).bind fun _ =>
    (FailsOnly.mapM hfile _).bind fun _ => failsOnly_ok _

section Cached

variable {Time Span : Type} [Timeline Time Span]

/-- Rendering a template through a cache fails only as rendering it does: a key cannot be made only
because of an integer that is too long, and the cache itself never fails. -/
theorem neverFailsBut_renderThrough (now : Time) (template : String) (configuration : Value) :
    NeverFailsBut Fault.IsOfRendering
      (renderThrough now template configuration : CacheM Time Span Rendered) := by
  intro c
  rw [renderThrough_apply, cacheKey]
  split
  · next hkey =>
    split at hkey
    · cases hkey
      exact failsOnly_error trivial
    · cases hkey
  · next key _ =>
    rcases c.get now key with ⟨- | content, c'⟩
    · dsimp only
      split
      · next fault hrender =>
        exact failsOnly_error (Template.failsOnly_renderText _ _ fault hrender)
      · exact failsOnly_ok _
    · exact failsOnly_ok _

/-- **The same through a cache**, from whatever contents of the cache. -/
theorem Bundle.neverFailsBut_renderThrough (now : Time) (b : Bundle) (configuration : Value) :
    NeverFailsBut Fault.IsOfRendering
      (b.renderThrough now configuration : CacheM Time Span BundleRendering) := by
  have hbody (content : String) : NeverFailsBut Fault.IsOfRendering
      (Bundle.renderThrough.body configuration now content : CacheM Time Span Rendered) :=
    (neverFailsBut_ofExcept (failsOnly_configurationOf configuration)).bind fun _ =>
      Templating.neverFailsBut_renderThrough now content _
  have hfile (f : FileDecl) : NeverFailsBut Fault.IsOfRendering
      (f.renderBy (Bundle.renderThrough.body configuration now) configuration
        : CacheM Time Span RenderedFile) :=
    (neverFailsBut_ofExcept (Template.failsOnly_renderText _ _)).bind fun _ =>
      (hbody f.content).bind fun _ => neverFailsBut_pure _
  exact (neverFailsBut_ofExcept (failsOnly_selectFiles configuration _)).bind fun _ =>
    (NeverFailsBut.mapM hfile _).bind fun _ => neverFailsBut_pure _

end Cached

/-! ### Writing -/

/-- The faults of writing a rendered bundle: one of the file system, a path that leads out of the
target directory, or something that stands in the way. -/
def Fault.IsOfWriting : Fault → Prop
  | .system _ | .outsideTarget _ _ | .alreadyExists _ => True
  | _ => False

/-- Planning where a file goes fails only as writing does: `destination?` refuses the path, or
something stands there already. -/
theorem failsOnly_planFile (t : FileTree) (target : Location) (force : Bool) (f : RenderedFile) :
    FailsOnly Fault.IsOfWriting (planFile t target force f) := by
  have hdestination : FailsOnly Fault.IsOfWriting (destination? target f.path) := by
    rw [destination?]
    dsimp only
    split
    · exact failsOnly_error trivial
    · split
      · exact failsOnly_ok _
      · exact failsOnly_error trivial
  refine hdestination.bind fun location => ?_
  cases t.exists? [] location with
  | error fault => exact failsOnly_error trivial
  | ok there =>
    dsimp only
    split
    · exact failsOnly_error trivial
    · exact failsOnly_ok _

/-- The faults with which a change of the file tree fails. A null character in a name and a missing
home directory are found before, when names are resolved. -/
def Fault.IsOfFileSystem : Fault → Prop
  | .system .nullCharacter | .system .noHomeDirectory => False
  | .system _ => True
  | _ => False

/-- The faults of the file system are faults of writing. -/
theorem Fault.IsOfFileSystem.isOfWriting {fault : Fault} (h : fault.IsOfFileSystem) :
    fault.IsOfWriting := by
  cases fault with
  | system _ => trivial
  | _ => exact h.elim

/-- Making directories has faults of the file system only. Induction along
`FileTree.withDirectories`. -/
theorem neverFailsBut_makeDirectories (start : Location) (parts : List String) :
    NeverFailsBut Fault.IsOfFileSystem (makeDirectories start parts) := by
  have hfault (t : FileTree) : FailsOnly (fun fault => (Fault.system fault).IsOfFileSystem)
      (FileTree.withDirectories start parts t).1 := by
    fun_induction FileTree.withDirectories start parts t with
    | case1 => exact failsOnly_ok _
    | case2 _ _ _ ih => exact ih
    | case3 => exact failsOnly_error trivial
    | case4 _ _ _ _ _ _ _ ih => exact ih
    | case5 =>
      refine failsOnly_error ?_
      split
      · trivial
      · trivial
    | case6 _ _ _ _ _ _ _ ih => exact ih
  intro t
  have hmade := hfault t
  rw [makeDirectories]
  rcases hout : FileTree.withDirectories start parts t with ⟨fault | -, t'⟩
  · rw [hout] at hmade
    exact failsOnly_error (hmade fault rfl)
  · exact failsOnly_ok _

/-- So has writing text, by induction along `FileTree.withText`. -/
theorem neverFailsBut_writeText (start : Location) (parts : List String) (text : String) :
    NeverFailsBut Fault.IsOfFileSystem (writeText start parts text) := by
  have hfault (t : FileTree) : FailsOnly (fun fault => (Fault.system fault).IsOfFileSystem)
      (FileTree.withText text start parts t) := by
    fun_induction FileTree.withText text start parts t with
    | case1 => exact failsOnly_error trivial
    | case2 _ _ _ ih => exact ih
    | case3 => exact failsOnly_error trivial
    | case4 _ _ _ _ _ _ _ ih => exact ih
    | case5 => exact failsOnly_ok _
    | case6 => exact failsOnly_error trivial
    | case7 => exact failsOnly_ok _
    | case8 => exact failsOnly_error trivial
  intro t
  have hwritten := hfault t
  rw [writeText]
  cases hout : FileTree.withText text start parts t with
  | error fault => exact failsOnly_error (hwritten fault hout)
  | ok t' => exact failsOnly_ok _

/-- Writing a plan fails only because of the file system. -/
theorem neverFailsBut_writePlanned (target : Location) (files : List PlannedFile) :
    NeverFailsBut Fault.IsOfFileSystem (writePlanned target files) := by
  have hfile (f : PlannedFile) : NeverFailsBut Fault.IsOfFileSystem (writePlannedFile f) :=
    (neverFailsBut_makeDirectories _ _).bind fun _ =>
      (neverFailsBut_writeText _ _ _).bind fun _ => neverFailsBut_pure _
  exact (neverFailsBut_makeDirectories _ _).bind fun _ => NeverFailsBut.mapM hfile files

/-- **Writing a rendered bundle fails only because of the file system, a path or a file in the
way.** First all files are planned, and then the plan is written. -/
theorem neverFailsBut_writeRendering (target : Location) (force : Bool)
    (rendering : BundleRendering) :
    NeverFailsBut Fault.IsOfWriting (writeRendering target force rendering) := by
  have hplanned : NeverFailsBut Fault.IsOfWriting
      (writeRendering.planned target force rendering) := fun t =>
    FailsOnly.mapM (failsOnly_planFile t target force) rendering.files
  exact hplanned.bind fun files =>
    (neverFailsBut_writePlanned target files).imp fun _ => Fault.IsOfFileSystem.isOfWriting

end Templating
