import Templating.Check.Bundle
import Templating.Proofs.Guard.Faults
import Templating.Proofs.Outcome

/-!
# What can go wrong with a check

A check reports what is wrong with its subject and does not fail because of it, with one
exception: an integer with more digits than are ever read or written, in a guard that is read or
in a value that a message shows.

## Main results

* `failsOnly_checkBody`, `failsOnly_checkOptions`, `failsOnly_checkEntry`: the parts of a check.
* `failsOnly_checkBundle`: the check of a bundle.
-/

namespace Templating

/-- Failing only because of an integer with too many digits (`Fault.integerTooLong`). -/
abbrev FailsOnlyOnDigits {α : Type} (outcome : Except Fault α) : Prop :=
  FailsOnly (· = .integerTooLong) outcome

/-- A guard that cannot be read, although it is not misspelt, holds an integer that is too long:
`Guard.parse` fails in these two ways only. -/
theorem eq_integerTooLong_of_parse {guard : String} {fault : Fault}
    (h : Guard.parse guard = .error fault)
    (hnot : ∀ g, fault ≠ .guard g) : fault = .integerTooLong := by
  rcases Guard.parse_error h with ⟨g, rfl⟩ | hlong
  · exact absurd rfl (hnot g)
  · exact hlong

/-- A value is shown in a message (`Value.displayed`) unless one of its integers is too long. -/
theorem Value.failsOnly_displayed (v : Value) : FailsOnlyOnDigits v.displayed := by
  rw [displayed]
  split
  · exact failsOnly_error rfl
  · exact failsOnly_ok _

/-! ### Bodies -/

/-- **One step of the scan of a body**: a token that opens a span has its guard read by
`Guard.parse`, and nothing else can go wrong (`eq_integerTooLong_of_parse`). -/
theorem BodyScan.failsOnly_step (s : BodyScan) (t : Template.Token) :
    FailsOnlyOnDigits (s.step t) := by
  rw [step]
  split
  · exact failsOnly_ok _
  · exact failsOnly_ok _
  · split
    · rw [meetOpening]
      split
      · exact failsOnly_ok _
      · exact failsOnly_ok _
      · next fault hnot hparse => exact failsOnly_error (eq_integerTooLong_of_parse hparse hnot)
    · exact failsOnly_ok _
    · exact failsOnly_ok _

/-- The check of a body fails only because of an integer in a guard: the scan is a fold of
`BodyScan.step`. -/
theorem failsOnly_checkBody (limits : Limits) (body : String) :
    FailsOnlyOnDigits (checkBody limits body) :=
  (FailsOnly.foldlM BodyScan.failsOnly_step _ _).bind fun _ => failsOnly_ok _

/-- The check of an entry's body fails only as `checkBody` does, or as `Value.displayed` does, which
shows the path of the entry where something is said about the body. -/
theorem failsOnly_checkEntryBody (limits : Limits) (entry : Value) :
    FailsOnlyOnDigits (checkEntryBody limits entry) := by
  rw [checkEntryBody]
  split
  · refine (failsOnly_checkBody limits _).bind fun f => ?_
    split
    · exact failsOnly_ok _
    · exact (Value.failsOnly_displayed _).bind fun _ => failsOnly_ok _
  · exact failsOnly_ok _

theorem failsOnly_checkBodies (limits : Limits) (bundle : Entries) :
    FailsOnlyOnDigits (checkBodies limits bundle) :=
  (FailsOnly.mapM (failsOnly_checkEntryBody limits) _).bind fun _ => failsOnly_ok _

/-! ### Options -/

/-- The check of one option fails only where `kindErrors` shows the value of its type, which may be
an integer that is too long. The other checks of an option never fail. -/
theorem failsOnly_checkOption (seen : SeenNames) (number : Nat) (option : Value) :
    FailsOnlyOnDigits (checkOption seen number option) := by
  cases option with
  | mapping entries =>
    have hkind : FailsOnlyOnDigits
        (kindErrors ("Option " ++ number.repr) (Entries.get? "type" entries)) := by
      rw [kindErrors]
      split
      · exact failsOnly_ok _
      · exact (Value.failsOnly_displayed _).bind fun _ => failsOnly_ok _
    exact hkind.bind fun _ => failsOnly_ok _
  | _ => exact failsOnly_ok _

/-- The walk over the options fails only as `checkOption` does. Induction on the options, for any
names met so far. -/
theorem failsOnly_checkOptionsFrom (options : List Value) : ∀ (seen : SeenNames) (number : Nat),
    FailsOnlyOnDigits (checkOptionsFrom seen number options) := by
  induction options with
  | nil => exact fun _ _ => failsOnly_ok _
  | cons option rest ih =>
    intro seen number
    exact (failsOnly_checkOption seen number option).bind fun _ =>
      (ih _ _).bind fun _ => failsOnly_ok _

/-- The check of options fails only because of an integer in a message: it is `checkOptionsFrom`
from its beginning. -/
theorem failsOnly_checkOptions (options : List Value) :
    FailsOnlyOnDigits (checkOptions options) :=
  (failsOnly_checkOptionsFrom options [] 1).bind fun _ => failsOnly_ok _

/-- The check of what a bundle declares fails only as `checkOptions` does. -/
theorem failsOnly_checkDeclarations (limits : Limits) (bundle : Entries) :
    FailsOnlyOnDigits (checkDeclarations limits bundle) := by
  have hoptions : FailsOnlyOnDigits (checkOptionsField (bundle.get? "options")) := by
    rw [checkOptionsField.eq_def]
    split
    · exact failsOnly_checkOptions _
    · exact failsOnly_ok _
  exact hoptions.bind fun _ => failsOnly_ok _

/-! ### Files -/

/-- The check of a file entry fails only where `conditionErrors` reads its guard, whatever its other
fields are. -/
theorem failsOnly_checkEntry (limits : Limits) (entry : Value) :
    FailsOnlyOnDigits (checkEntry limits entry) := by
  cases entry with
  | mapping entries =>
    have hcondition (condition : Option Value) : FailsOnlyOnDigits (conditionErrors condition) := by
      rw [conditionErrors.eq_def]
      split
      · exact failsOnly_ok _
      · exact failsOnly_ok _
      · split
        · exact failsOnly_ok _
        · exact failsOnly_ok _
        · next fault hnot hparse => exact failsOnly_error (eq_integerTooLong_of_parse hparse hnot)
      · exact failsOnly_ok _
    exact (hcondition _).bind fun _ => failsOnly_ok _
  | _ => exact failsOnly_ok _

/-- The walk over the entries fails only as `checkEntry` does. Induction on the entries, for any
findings so far. -/
theorem failsOnly_checkEntriesFrom (limits : Limits) (files : List Value) :
    ∀ (number : Nat) (found : FileFindings),
      FailsOnlyOnDigits (checkEntriesFrom limits number found files) := by
  induction files with
  | nil => exact fun _ _ => failsOnly_ok _
  | cons entry rest ih =>
    intro number found
    exact (failsOnly_checkEntry limits entry).bind fun _ => ih _ _

/-- The check of files fails only so: no files, or a walk by `checkEntriesFrom`. -/
theorem failsOnly_checkFiles (limits : Limits) (bundle : Entries) :
    FailsOnlyOnDigits (checkFiles limits bundle) := by
  rw [checkFiles]
  split
  · exact failsOnly_ok _
  · exact failsOnly_checkEntriesFrom limits _ _ _

/-! ### Bundles -/

/-- **The check of a bundle fails only because of an integer with too many digits.** Its parts
`checkBodies`, `checkDeclarations` and `checkFiles` follow one another, and each fails only so. -/
theorem failsOnly_checkBundle (limits : Limits) (templateId : String) (bundle : Entries) :
    FailsOnlyOnDigits (checkBundle limits templateId bundle) :=
  (failsOnly_checkBodies limits bundle).bind fun _ =>
    (failsOnly_checkDeclarations limits bundle).bind fun _ =>
      (failsOnly_checkFiles limits bundle).bind fun _ => failsOnly_ok _

end Templating
