import Templating.Proofs.Bundle.Faults
import Templating.Proofs.Scaffold.Plan

/-!
# Refusals

A request that is refused leaves the file tree as it was. It is refused if its bundle is not valid
or no record, if the bundle cannot be rendered, if a rendered path leads out of the target, or if
something exists at the destination of a file that may not replace it, whichever of the files that
is: no plan is made then, and nothing is changed before there is one. Put the other way round, a
run that fails after it changed something fails with a fault of the file system.

## Main definitions

* `Impediment`: what stands against a request.
* `RefusesWhole`: what is promised about a request that is refused.

## Main results

* `Impediment.not_hasPlan`: an impeded request has no plan.
* `tree_writeAt_of_error`: a fault that is not of the file system comes without a change.
* `refusesWhole`: a request.
-/

namespace Templating

variable {Time Span : Type} [Timeline Time Span]

/-- What stands against writing a request below its target. -/
inductive Impediment (now : Time) (target : Location) (r : ScaffoldRequest)
    (w : Workspace Time Span) : Prop where
  /-- The bundle is no record. -/
  | unfit {fault : Fault} (hunfit : r.source.bundle = .error fault)
  /-- The bundle cannot be rendered. -/
  | unrendered {fault : Fault}
      (hfault : (renderSource now r.source r.configuration w).1 = .error fault)
  /-- A rendered path leads out of the target. -/
  | outside {rendering : BundleRendering}
      (hrendered : (renderSource now r.source r.configuration w).1 = .ok rendering)
      (hleaves : rendering.Leaves target)
  /-- Something exists at the destination of a rendered file that may not replace it. -/
  | occupied {rendering : BundleRendering} {f : RenderedFile}
      (hrendered : (renderSource now r.source r.configuration w).1 = .ok rendering)
      (hf : f ∈ rendering.files)
      (hthere : w.tree.exists? [] (f.destination target) = .ok true)
      (hforce : r.force = false) (hkept : f.overwrite ≠ some true)

variable {now : Time} {target : Location} {r : ScaffoldRequest} {w : Workspace Time Span}

/-- An impeded request has no plan (`HasPlan`). The cases are the kinds of impediments. -/
theorem Impediment.not_hasPlan (h : Impediment now target r w) :
    ¬∃ rendering, HasPlan now target r w rendering := by
  rintro ⟨rendering, hrendering, hplanned⟩
  cases h with
  | unfit hunfit =>
    rw [renderSource, hunfit] at hrendering
    cases hrendering
  | unrendered hfault => cases hrendering.symm.trans hfault
  | outside hrendered hleaves =>
    cases hrendering.symm.trans hrendered
    obtain ⟨f, hf, houtside⟩ := hleaves
    exact houtside ((planFiles_eq_ok hplanned).1 f hf)
  | occupied hrendered hf hthere hforce hkept =>
    cases hrendering.symm.trans hrendered
    obtain ⟨there, hexists, hallowed⟩ := replaces_of_planFiles hplanned hf
    cases hthere.symm.trans hexists
    rcases hallowed rfl with hforced | hoverwrite
    · rw [hforce] at hforced
      cases hforced
    · exact hkept hoverwrite

/-- An impeded request fails, and the file tree stays as it was, by `writeAt_cases`. -/
theorem Impediment.leavesTree_writeAt (h : Impediment now target r w) :
    LeavesTree w (writeAt now target r w) := by
  rcases writeAt_cases now target r w with ⟨-, hleaves⟩ | ⟨rendering, hplan, -⟩
  · exact hleaves
  · exact absurd ⟨rendering, hplan⟩ h.not_hasPlan

/-- If a run fails with a fault that is not of the file system, the tree stays as it was: writing
the plan has no other faults (`neverFailsBut_writePlanned`). -/
theorem tree_writeAt_of_error {fault : Fault} (h : (writeAt now target r w).1 = .error fault)
    (hfault : ¬fault.IsOfFileSystem) : (writeAt now target r w).2.tree = w.tree := by
  rcases writeAt_cases now target r w with ⟨-, -, htree⟩ | ⟨rendering, -, hrun⟩
  · exact htree
  · rw [h] at hrun
    exact absurd (neverFailsBut_writePlanned target _ w.tree fault (Prod.ext_iff.1 hrun).1.symm)
      hfault

/-- A failure that is none of the file system leaves the tree as it was. -/
theorem tree_writeBundle_of_error {fault : Fault} (h : (writeBundle now r w).1 = .error fault)
    (hfault : ¬fault.IsOfFileSystem) : (writeBundle now r w).2.tree = w.tree := by
  rw [writeBundle_eq] at h ⊢
  split at h
  · rfl
  · exact tree_writeAt_of_error h hfault

/-- What is promised about a request that is refused. -/
structure RefusesWhole (now : Time) (r : ScaffoldRequest) (w : Workspace Time Span) : Prop where
  /-- With something against it, writing the bundle or creating its files fails, and the tree stays
  as it was. -/
  impeded : ∀ target, r.targetLocation w.directory = .ok target → Impediment now target r w →
    LeavesTree w (writeBundle now r w)
      ∧ ∀ templateId, LeavesTree w (createBundle now templateId r w)
  /-- The files of a bundle that is not valid are not created, and nothing at all is changed. -/
  invalid : ∀ templateId report, checkSource templateId r.source = .ok report →
    report.isValid = false → createBundle now templateId r w
      = (.error (.invalidBundle report.templateId report.errors.length), w)
  /-- If writing the bundle fails, the tree stays as it was unless the fault is of the file
  system. -/
  unwritten : ∀ fault, (writeBundle now r w).1 = .error fault → ¬fault.IsOfFileSystem →
    (writeBundle now r w).2.tree = w.tree
  /-- If creating its files fails, the tree stays as it was unless the fault is of the file
  system. -/
  uncreated : ∀ templateId fault, (createBundle now templateId r w).1 = .error fault →
    ¬fault.IsOfFileSystem → (createBundle now templateId r w).2.tree = w.tree
  /-- The same holds of writing below any location. -/
  below : ∀ target, (Impediment now target r w → LeavesTree w (writeAt now target r w))
    ∧ ∀ fault, (writeAt now target r w).1 = .error fault → ¬fault.IsOfFileSystem →
      (writeAt now target r w).2.tree = w.tree

/-- **A request that is refused leaves the file tree as it was**, in writing a bundle and in
creating its files. -/
theorem refusesWhole (now : Time) (r : ScaffoldRequest) (w : Workspace Time Span) :
    RefusesWhole now r w := by
  refine ⟨fun target htarget himpeded => ?_, fun templateId report hreport hinvalid => ?_,
    fun fault => tree_writeBundle_of_error, fun templateId fault h hfault => ?_,
    fun target => ⟨Impediment.leavesTree_writeAt, fun fault => tree_writeAt_of_error⟩⟩
  · have hwrite : LeavesTree w (writeBundle now r w) := by
      rw [writeBundle_eq, htarget]
      exact himpeded.leavesTree_writeAt
    refine ⟨hwrite, fun templateId => ?_⟩
    rcases createBundle_cases now templateId r w with heq | ⟨fault, heq⟩
    · rwa [heq]
    · rw [heq]
      exact ⟨⟨fault, rfl⟩, rfl⟩
  · rw [createBundle_eq, hreport]
    simp only [hinvalid, Bool.false_eq_true, if_false]
  · rcases createBundle_cases now templateId r w with heq | ⟨fault', heq⟩
    · rw [heq] at h ⊢
      exact tree_writeBundle_of_error h hfault
    · rw [heq]

end Templating
