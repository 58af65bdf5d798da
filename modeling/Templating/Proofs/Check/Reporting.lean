import Mathlib.Data.List.Flatten
import Mathlib.Data.List.Perm.Basic
import Templating.Check.Bundle
import Templating.Check.Summary
import Templating.Proofs.Outcome

/-!
# What a report says

The findings about a bundle pass through several lists: those about single options and files, those
of the four sections, those of the whole report, the groups of its summary, and its text. On the way
nothing is lost and nothing is added. Each list of errors decides by itself whether its subject is
valid, the whole report has the findings of its sections, the summary divides its errors into two
groups that keep their order, and the text shows each group under its heading.

## Main definitions

* `Findings.IsSound`: findings are valid exactly if there are no errors.
* `AboutBody`, `HasPathFindings`, `aboutEntries`: what is said about a body, a path and all entries.
* `Report.Gathers`: a report has the findings of its parts.
* `Report.IsDividedBy`: a summary has the findings of a report.
* `Report.IsShownBy`: a text shows the groups of a summary.

## Main results

* `checkEntriesFrom_eq_ok`: what one entry after the other adds to the findings about files.
* `gathers_of_checkBundle`: the report about a bundle.
* `Report.Gathers.isDividedBy_summary`, `Report.isShownBy_text`: its summary and its text.
* `checkBundle_keeps_findings`: all of it for the check of a bundle.
-/

namespace Templating

open Templating.Text

/-! ### Findings of single checks -/

namespace Findings

/-- Findings are valid exactly if there are no errors. Every list of findings in a report is, and
that makes the verdicts of its parts agree with that of the whole. -/
def IsSound (f : Findings) : Prop :=
  f.isValid = true ↔ f.errors = []

/-- Findings that are made by `Findings.of` are sound: validity is computed from the errors. The
checks below end in it. -/
theorem isSound_of (errors warnings : List String) : (of errors warnings).IsSound :=
  List.isEmpty_iff

end Findings

section Checks

variable {limits : Limits}

/-- The findings about an entry are sound, whether it is a mapping or not. -/
theorem isSound_of_checkEntry {entry : Value} {f : Findings} (h : checkEntry limits entry = .ok f) :
    f.IsSound := by
  cases entry with
  | mapping entries =>
    obtain ⟨conditions, -, ⟨⟩⟩ := bind_eq_ok_iff.1 h
    exact Findings.isSound_of _ _
  | _ =>
    cases h
    exact Findings.isSound_of _ _

/-- The findings about the options are sound, whatever stands in their field. -/
theorem isSound_of_checkOptionsField {field : Option Value} {f : Findings}
    (h : checkOptionsField field = .ok f) : f.IsSound := by
  rw [checkOptionsField.eq_def] at h
  split at h
  · obtain ⟨found, -, ⟨⟩⟩ := bind_eq_ok_iff.1 h
    exact Findings.isSound_of _ _
  · cases h
    exact Findings.isSound_of [] []

theorem isSound_of_checkBody {body : String} {f : Findings} (h : checkBody limits body = .ok f) :
    f.IsSound := by
  obtain ⟨s, -, ⟨⟩⟩ := bind_eq_ok_iff.1 h
  exact Findings.isSound_of _ _

/-- The findings about a path are sound. -/
theorem isSound_checkPathField (field : Option Value) : (checkPathField limits field).IsSound := by
  rw [checkPathField.eq_def]
  split
  · split
    · exact Findings.isSound_of _ _
    · exact Findings.isSound_of _ _
  · exact Findings.isSound_of _ _

theorem isSound_of_checkBodies {bundle : Entries} {f : Findings}
    (h : checkBodies limits bundle = .ok f) : f.IsSound := by
  obtain ⟨found, -, ⟨⟩⟩ := bind_eq_ok_iff.1 h
  exact Findings.isSound_of _ _

/-! ### Entry by entry -/

/-- What is said about the body of an entry, if it has one: what `checkBody` finds, under the path
of the entry. The path is shown only where there is something to say, so it matters only then
whether it can be shown. -/
def AboutBody (limits : Limits) (entry : Value) (said : List String × List String) : Prop :=
  match entry.entry? "content" with
  | some (.text body) => ∃ f, checkBody limits body = .ok f ∧ f.IsSound
    ∧ ((f.errors = [] ∧ f.warnings = [] ∧ said = ([], []))
      ∨ ∃ key, ((entry.entry? "path").getD (.text "")).displayed = .ok key
        ∧ said = (aboutFile key f.errors, aboutFile key f.warnings))
  | _ => said = ([], [])

/-- What `checkEntryBody` says about an entry is about its body. -/
theorem aboutBody_of_checkEntryBody {entry : Value} {said : List String × List String}
    (h : checkEntryBody limits entry = .ok said) : AboutBody limits entry said := by
  rw [checkEntryBody] at h
  rw [AboutBody]
  cases hcontent : entry.entry? "content" with
  | none =>
    rw [hcontent] at h
    cases h
    rfl
  | some v =>
    rw [hcontent] at h
    cases v with
    | text body =>
      obtain ⟨f, hf, hsaid⟩ := bind_eq_ok_iff.1 h
      refine ⟨f, hf, isSound_of_checkBody hf, ?_⟩
      split at hsaid
      · next hnone =>
        cases hsaid
        rw [Bool.and_eq_true, List.isEmpty_iff, List.isEmpty_iff] at hnone
        exact .inl ⟨hnone.1, hnone.2, rfl⟩
      · obtain ⟨key, hkey, ⟨⟩⟩ := bind_eq_ok_iff.1 hsaid
        exact .inr ⟨key, hkey, rfl⟩
    | _ =>
      cases h
      rfl

/-- The findings about an entry begin with those about its path, as `checkPathField` makes them. -/
def HasPathFindings (limits : Limits) (entry : Value) (f : Findings) : Prop :=
  ∀ entries, entry = .mapping entries → ∀ path,
    checkPathField limits (Entries.get? "path" entries) = path →
    path.IsSound ∧ path.errors <+: f.errors ∧ path.warnings <+: f.warnings

/-- What `checkEntry` finds about an entry begins so: the path is the first field that it looks
at. -/
theorem hasPathFindings_of_checkEntry {entry : Value} {f : Findings}
    (h : checkEntry limits entry = .ok f) : HasPathFindings limits entry f := by
  rintro entries rfl path rfl
  obtain ⟨conditions, -, ⟨⟩⟩ := bind_eq_ok_iff.1 h
  refine ⟨isSound_checkPathField _, ?_, List.prefix_append _ _⟩
  rw [Findings.of, List.append_assoc, List.append_assoc]
  exact List.prefix_append _ _

/-- What is said about entries, the first of which has a given number, each under its key.
`messages` takes the errors or the warnings. -/
def aboutEntries (messages : Findings → List String) (number : Nat) (files : List Value)
    (checks : List Findings) : List String :=
  ((files.zipIdx number).zip checks).flatMap fun p =>
    aboutFile (entryKey p.1.2 p.1.1) (messages p.2)

/-- Findings that are kept under some key after `addResult` were kept before or are the ones that
are added. -/
theorem mem_addResult {results : List (String × Findings)} {key : String} {f : Findings}
    {p : String × Findings} (h : p ∈ addResult results key f) : p ∈ results ∨ p.2 = f := by
  rw [addResult] at h
  split at h
  · exact .inl h
  · rcases List.mem_append.1 h with h | h
    · exact .inl h
    · rw [List.mem_singleton.1 h]
      exact .inr rfl

/-- **One entry after the other.** Every entry adds to the findings about all files what is said
about it, and nothing else is added; what stands under a key are findings about an entry. Induction
on the entries, for any findings so far whose validity agrees with their errors. -/
theorem checkEntriesFrom_eq_ok {files : List Value} {number : Nat} {found result : FileFindings}
    (h : checkEntriesFrom limits number found files = .ok result)
    (hfound : found.isValid = found.errors.isEmpty) :
    ∃ checks, files.mapM (checkEntry limits) = .ok checks
      ∧ result.errors = found.errors ++ aboutEntries (·.errors) number files checks
      ∧ result.warnings = found.warnings ++ aboutEntries (·.warnings) number files checks
      ∧ result.isValid = result.errors.isEmpty
      ∧ ∀ p ∈ result.fileResults, p ∈ found.fileResults ∨ p.2 ∈ checks := by
  induction files generalizing number found with
  | nil =>
    cases h
    exact ⟨[], rfl, (List.append_nil _).symm, (List.append_nil _).symm, hfound, fun p => .inl⟩
  | cons entry rest ih =>
    obtain ⟨f, hf, hrest⟩ := bind_eq_ok_iff.1 h
    obtain ⟨checks, hchecks, herrors, hwarnings, hvalid, hresults⟩ := ih hrest rfl
    refine ⟨f :: checks, mapM_eq_ok_iff.2 (.cons hf (mapM_eq_ok_iff.1 hchecks)),
      herrors.trans (List.append_assoc _ _ _), hwarnings.trans (List.append_assoc _ _ _), hvalid,
      fun p hp => ?_⟩
    rcases hresults p hp with hp | hp
    · refine (mem_addResult hp).imp_right ?_
      rintro rfl
      exact List.mem_cons_self
    · exact .inr (List.mem_cons_of_mem f hp)

end Checks

/-! ### The report -/

/-- What a bundle's files are reproached with as a whole: that there are none, or that some have the
same path (`repeatedPathErrors`). -/
def commonFileErrors (bundle : Entries) : List String :=
  match filesOf bundle with
  | [] => ["Template must have at least one file"]
  | files => repeatedPathErrors files

/-- A report has the findings of its parts: it is valid exactly if it has no errors, and so is each
section and each file; its findings are those of its sections, and the sections have the findings
about the single options, bodies and entries of the bundle (`AboutBody`, `aboutEntries`). -/
structure Report.Gathers (limits : Limits) (bundle : Entries) (r : Report) : Prop where
  sections : r.metadata.IsSound ∧ r.bodies.IsSound ∧ r.declarations.IsSound
    ∧ r.files.toFindings.IsSound
  fileResults : ∀ p ∈ r.files.fileResults, p.2.IsSound
  whole : r.isValid = true ↔ r.errors = []
  errors : r.errors
    = r.metadata.errors ++ r.bodies.errors ++ r.declarations.errors ++ r.files.errors
  warnings : r.warnings
    = r.metadata.warnings ++ r.bodies.warnings ++ r.declarations.warnings ++ r.files.warnings
  options : ∃ options, checkOptionsField (bundle.get? "options") = .ok options ∧ options.IsSound
    ∧ options.errors <:+ r.declarations.errors ∧ options.warnings <:+ r.declarations.warnings
  contents : ∃ said, List.Forall₂ (AboutBody limits) (filesOf bundle) said
    ∧ r.bodies.errors = said.flatMap (·.1) ∧ r.bodies.warnings = said.flatMap (·.2)
  entries : ∃ checks, (filesOf bundle).mapM (checkEntry limits) = .ok checks
    ∧ (∀ f ∈ checks, f.IsSound) ∧ List.Forall₂ (HasPathFindings limits) (filesOf bundle) checks
    ∧ r.files.errors
      = commonFileErrors bundle ++ aboutEntries (·.errors) 1 (filesOf bundle) checks
    ∧ r.files.warnings = aboutEntries (·.warnings) 1 (filesOf bundle) checks

section Reports

variable {limits : Limits} {bundle : Entries}

/-- What `checkFiles` returns: first what is said about the files as a whole, then what is said
about each entry (`checkEntriesFrom_eq_ok`). -/
theorem checkFiles_eq_ok {found : FileFindings} (h : checkFiles limits bundle = .ok found) :
    ∃ checks, (filesOf bundle).mapM (checkEntry limits) = .ok checks
      ∧ found.errors = commonFileErrors bundle ++ aboutEntries (·.errors) 1 (filesOf bundle) checks
      ∧ found.warnings = aboutEntries (·.warnings) 1 (filesOf bundle) checks
      ∧ found.isValid = found.errors.isEmpty
      ∧ ∀ p ∈ found.fileResults, p.2 ∈ checks := by
  rw [checkFiles] at h
  rw [commonFileErrors]
  cases hfiles : filesOf bundle with
  | nil =>
    rw [hfiles] at h
    cases h
    exact ⟨[], rfl, rfl, rfl, rfl, fun _ hp => absurd hp List.not_mem_nil⟩
  | cons entry rest =>
    rw [hfiles] at h
    obtain ⟨checks, hchecks, herrors, hwarnings, hvalid, hresults⟩ := checkEntriesFrom_eq_ok h rfl
    refine ⟨checks, hchecks, herrors, hwarnings, hvalid, fun p hp => ?_⟩
    exact (hresults p hp).resolve_left List.not_mem_nil

/-- Several sound findings are all valid exactly if none of them has errors. -/
theorem isValid_sections_iff {sections : List Findings} (h : ∀ f ∈ sections, f.IsSound) :
    sections.all (·.isValid) = true ↔ sections.flatMap (·.errors) = [] := by
  rw [List.all_eq_true, List.flatMap_eq_nil_iff]
  exact forall₂_congr fun f hf => h f hf

/-- What `checkDeclarations` returns ends in the findings about the options. -/
theorem checkDeclarations_eq_ok {found : Findings}
    (h : checkDeclarations limits bundle = .ok found) :
    found.IsSound ∧ ∃ options, checkOptionsField (bundle.get? "options") = .ok options
      ∧ options.IsSound ∧ options.errors <:+ found.errors
      ∧ options.warnings <:+ found.warnings := by
  obtain ⟨options, hoptions, ⟨⟩⟩ := bind_eq_ok_iff.1 h
  exact ⟨Findings.isSound_of _ _, options, hoptions, isSound_of_checkOptionsField hoptions,
    List.suffix_append _ _, List.suffix_append _ _⟩

/-- The findings about each of several entries are sound. -/
theorem isSound_of_mapM_checkEntry {files : List Value} {checks : List Findings}
    (h : files.mapM (checkEntry limits) = .ok checks) : ∀ f ∈ checks, f.IsSound := by
  rw [mapM_eq_ok_iff] at h
  induction h with
  | nil => exact List.forall_mem_nil _
  | cons hf _ ih => exact List.forall_mem_cons.2 ⟨isSound_of_checkEntry hf, ih⟩

/-- **The check of a bundle reports the findings of its parts.** The four checks that `checkBundle`
makes are taken apart; each field of `Report.Gathers` is what the lemma on one of them says. -/
theorem gathers_of_checkBundle {templateId : String} {r : Report}
    (h : checkBundle limits templateId bundle = .ok r) : r.Gathers limits bundle := by
  obtain ⟨bodies, hbodies, h⟩ := bind_eq_ok_iff.1 h
  obtain ⟨declarations, hdeclarations, h⟩ := bind_eq_ok_iff.1 h
  obtain ⟨files, hfiles, ⟨⟩⟩ := bind_eq_ok_iff.1 h
  obtain ⟨said, hsaid, hbodiesEq⟩ := bind_eq_ok_iff.1 hbodies
  obtain ⟨hdeclarationsSound, hoptions⟩ := checkDeclarations_eq_ok hdeclarations
  obtain ⟨checks, hchecks, herrors, hwarnings, hvalid, hresults⟩ := checkFiles_eq_ok hfiles
  have hmetadataSound : (checkMetadata bundle).IsSound := Findings.isSound_of _ _
  have hbodiesSound : bodies.IsSound := isSound_of_checkBodies hbodies
  have hchecksSound : ∀ f ∈ checks, f.IsSound := isSound_of_mapM_checkEntry hchecks
  have hfilesSound : files.toFindings.IsSound := by
    rw [Findings.IsSound, FileFindings.toFindings, hvalid]
    exact List.isEmpty_iff
  have hsections : ∀ f ∈ [checkMetadata bundle, bodies, declarations, files.toFindings],
      f.IsSound :=
    List.forall_mem_cons.2 ⟨hmetadataSound, List.forall_mem_cons.2 ⟨hbodiesSound,
      List.forall_mem_cons.2 ⟨hdeclarationsSound, List.forall_mem_singleton.2 hfilesSound⟩⟩⟩
  exact
    { sections := ⟨hmetadataSound, hbodiesSound, hdeclarationsSound, hfilesSound⟩
      fileResults := fun p hp => hchecksSound _ (hresults p hp)
      whole := isValid_sections_iff hsections
      errors := by simp [Report.ofSections, FileFindings.toFindings]
      warnings := by simp [Report.ofSections, FileFindings.toFindings]
      options := hoptions
      contents := by
        cases hbodiesEq
        exact ⟨said, (mapM_eq_ok_iff.1 hsaid).imp fun _ _ => aboutBody_of_checkEntryBody, rfl, rfl⟩
      entries := ⟨checks, hchecks, hchecksSound,
        (mapM_eq_ok_iff.1 hchecks).imp fun _ _ => hasPathFindings_of_checkEntry, herrors,
        hwarnings⟩ }

end Reports

/-! ### The summary -/

/-- The findings of the sections of a report, one after the other, each with the name of its
section. `messages` takes the errors or the warnings. -/
def Report.named (messages : Findings → List String) (r : Report) : List String :=
  (messages r.metadata).map ("Metadata: " ++ ·) ++ (messages r.bodies).map ("Syntax: " ++ ·)
    ++ (messages r.declarations).map ("Configuration: " ++ ·)
    ++ (messages r.files.toFindings).map ("Files: " ++ ·)

/-- A summary has the findings of a report: its two groups of errors keep their order and together
have every error as often as the report has it (`List.Perm`), it has the warnings of the report, and
its groups of errors are empty exactly if the report is valid. -/
structure Report.IsDividedBy (r : Report) (s : Summary) : Prop where
  critical : s.critical.Sublist (r.named (·.errors))
  errors : s.errors.Sublist (r.named (·.errors))
  together : (s.critical ++ s.errors).Perm (r.named (·.errors))
  warnings : s.warnings = r.named (·.warnings)
  isValid : s.critical = [] ∧ s.errors = [] ↔ r.isValid = true

/-- `Report.named` as one pass over the sections, the form in which `Report.summary` is computed. -/
theorem Report.flatMap_sections (messages : Findings → List String) (r : Report) :
    (r.sections.flatMap fun p => (messages p.2).map (inSection p.1)) = r.named messages := by
  have hsection (name : String) : inSection name = ((name ++ ": ") ++ ·) := funext fun _ => rfl
  simp only [Report.sections, Report.named, hsection, List.flatMap_cons, List.flatMap_nil,
    List.append_nil, List.append_assoc]
  rfl

/-- A group of errors keeps the order of the report: it is picked from each section in turn. -/
theorem Report.filter_sublist_named (r : Report) (keep : String → Bool) :
    (r.sections.flatMap fun p => (p.2.errors.filter keep).map (inSection p.1)).Sublist
      (r.named (·.errors)) := by
  rw [← r.flatMap_sections]
  exact List.Sublist.flatMap_right _ fun p _ => List.filter_sublist.map _

/-- **The two groups together are the errors of the report.** In each section an error is critical
or it is not, and the sections are put together in the same order for both groups. -/
theorem Report.critical_append_errors_perm (r : Report) :
    (r.summary.critical ++ r.summary.errors).Perm (r.named (·.errors)) := by
  have hsection : ∀ p ∈ r.sections, ((p.2.errors.filter isCritical).map (inSection p.1)
      ++ (p.2.errors.filter fun e => !isCritical e).map (inSection p.1)).Perm
        (p.2.errors.map (inSection p.1)) := by
    intro p _
    rw [← List.map_append]
    exact (List.filter_append_perm isCritical p.2.errors).map _
  rw [← r.flatMap_sections]
  exact (List.flatMap_append_perm r.sections _ _).trans (List.Perm.flatMap_left _ hsection)

/-- There are no findings with names exactly if no section has any. -/
theorem Report.named_eq_nil_iff {messages : Findings → List String} {r : Report} :
    r.named messages = [] ↔ messages r.metadata ++ messages r.bodies ++ messages r.declarations
      ++ messages r.files.toFindings = [] := by
  simp only [Report.named, List.append_eq_nil_iff, List.map_eq_nil_iff]

/-- **The summary of a report has the findings of the report**, if the report has those of its
parts: then its validity is that of its errors. -/
theorem Report.Gathers.isDividedBy_summary {limits : Limits} {bundle : Entries} {r : Report}
    (h : r.Gathers limits bundle) : r.IsDividedBy r.summary := by
  have hvalid : r.summary.critical = [] ∧ r.summary.errors = [] ↔ r.isValid = true := by
    rw [← List.append_eq_nil_iff, ← List.perm_nil, r.critical_append_errors_perm.congr_left,
      List.perm_nil, h.whole, h.errors]
    exact Report.named_eq_nil_iff
  exact ⟨r.filter_sublist_named _, r.filter_sublist_named _, r.critical_append_errors_perm,
    r.flatMap_sections _, hvalid⟩

/-! ### The text -/

/-- A heading with entries below it, each in a line of its own; nothing if there are no entries.
This is what `Report.groupLines` comes to in the text (`join_groupLines`). -/
def listed (heading : String) (entries : List String) : String :=
  if entries.isEmpty then ""
  else heading ++ ":\n" ++ String.join (entries.map fun entry => "  - " ++ entry ++ "\n") ++ "\n"

/-- A text shows the groups of a summary: it has the entries of each group below the heading of the
group, in the order of the group, and nothing else but a first line and a verdict. It ends by saying
that the bundle is valid exactly if it is. -/
structure Report.IsShownBy (r : Report) (s : Summary) (text : String) : Prop where
  groups : text = "Template Validation Results for '" ++ r.templateId ++ "':\n\n"
    ++ listed "Critical Issues" s.critical ++ listed "Errors" s.errors
    ++ listed "Warnings" s.warnings ++ listed "Suggestions" s.suggestions ++ r.verdict
  verdict : "Template is valid and ready to use".toList <:+ text.toList ↔ r.isValid = true

/-- Lines with a line feed between them are lines that each end in one, but for the last. Induction
on the lines. -/
theorem join_lines (lines : List String) (last : String) :
    join "\n" (lines ++ [last]) = String.join (lines.map (· ++ "\n")) ++ last := by
  induction lines with
  | nil => simp [join]
  | cons line rest ih =>
    have hne : rest ++ [last] ≠ [] := List.append_ne_nil_of_right_ne_nil _ (List.cons_ne_nil _ _)
    rw [join] at ih ⊢
    rw [List.cons_append, String.intercalate_cons_of_ne_nil hne, ih, List.map_cons,
      String.join_cons]
    simp only [String.append_assoc]

/-- The lines of a group come to the group as it is `listed`. -/
theorem join_groupLines (title : String) (findings : List String) :
    String.join ((Report.groupLines title findings).map (· ++ "\n")) = listed title findings := by
  rw [Report.groupLines, listed]
  split
  · rfl
  · simp [String.join_cons, String.join_append, Function.comp_def, String.append_assoc]

/-- The two verdicts end differently, so the end of the text tells which one it has. -/
theorem Report.suffix_verdict_iff {r : Report} {before : String} :
    "Template is valid and ready to use".toList <:+ (before ++ r.verdict).toList
      ↔ r.isValid = true := by
  rw [String.toList_append, Report.verdict]
  cases r.isValid with
  | true => exact iff_of_true (List.suffix_append _ _) rfl
  | false =>
    refine iff_of_false (fun hsuffix => ?_) Bool.false_ne_true
    have hverdict : "Template is valid and ready to use".toList
        <:+ "Template has validation issues that need to be resolved".toList :=
      List.suffix_of_suffix_length_le hsuffix (List.suffix_append _ _) (by decide)
    exact absurd hverdict (by decide)

/-- **The text of a report shows the groups of its summary.** The lines of `Report.text` are put
together by `join_lines`, and group by group by `join_groupLines`. -/
theorem Report.isShownBy_text (r : Report) : r.IsShownBy r.summary r.text := by
  have hgroups : r.text = "Template Validation Results for '" ++ r.templateId ++ "':\n\n"
      ++ listed "Critical Issues" r.summary.critical ++ listed "Errors" r.summary.errors
      ++ listed "Warnings" r.summary.warnings ++ listed "Suggestions" r.summary.suggestions
      ++ r.verdict := by
    rw [Report.text, Report.lines, join_lines]
    simp only [List.map_append, String.join_append, join_groupLines]
    simp [String.join_cons, String.append_assoc]
  refine ⟨hgroups, ?_⟩
  rw [hgroups]
  exact Report.suffix_verdict_iff

/-- **The check of a bundle neither loses findings nor adds any.** The report has the findings of
its parts (`Report.Gathers`), its summary has those of the report (`Report.IsDividedBy`), and its
text shows those of the summary (`Report.IsShownBy`). -/
theorem checkBundle_keeps_findings {limits : Limits} {bundle : Entries} {templateId : String}
    {r : Report} (h : checkBundle limits templateId bundle = .ok r) :
    r.Gathers limits bundle ∧ r.IsDividedBy r.summary ∧ r.IsShownBy r.summary r.text :=
  have hgathers := gathers_of_checkBundle h
  ⟨hgathers, hgathers.isDividedBy_summary, r.isShownBy_text⟩

/-- A bundle with flaws in most of its parts: two files with the same path, one of them empty and
one with an open span, and an option of no kind that exists. -/
def flawedBundle : Entries :=
  [("name", .text "a/b"), ("description", .text "d"), ("version", .text "2"),
    ("files", .list [
      .mapping [("path", .text "p"), ("content", .text "")],
      .mapping [("path", .text "p"), ("content", .text "\x7b% if x %\x7d")]]),
    ("options", .list [.mapping [("name", .text "x"), ("type", .text "text")]])]

/-- Its errors are of both groups, and come from three sections. -/
theorem checkBundle_keeps_findings_flawed :
    ∃ r, checkBundle .standard "demo" flawedBundle = .ok r
      ∧ r.summary.critical = ["Configuration: Option 1: invalid type 'text'",
        "Configuration: Option 1: description is required", "Files: Duplicate file paths: p"]
      ∧ r.summary.errors
        = ["Syntax: File 'p': Mismatched if/endif blocks: 1 if blocks, 0 endif blocks",
          "Configuration: Template name contains invalid characters"]
      ∧ r.Gathers .standard flawedBundle ∧ r.IsDividedBy r.summary
      ∧ r.IsShownBy r.summary r.text := by
  have hmap : (checkBundle .standard "demo" flawedBundle).map
      (fun r => (r.summary.critical, r.summary.errors))
        = .ok (["Configuration: Option 1: invalid type 'text'",
          "Configuration: Option 1: description is required", "Files: Duplicate file paths: p"],
          ["Syntax: File 'p': Mismatched if/endif blocks: 1 if blocks, 0 endif blocks",
            "Configuration: Template name contains invalid characters"]) := by
    decide +kernel
  obtain ⟨r, hr, hsummary⟩ := map_eq_ok_iff.1 hmap
  exact ⟨r, hr, congrArg (·.1) hsummary, congrArg (·.2) hsummary, checkBundle_keeps_findings hr⟩

end Templating
