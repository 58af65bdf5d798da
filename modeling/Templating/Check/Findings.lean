import Templating.Bundle.Basic

/-!
# Findings

What a check finds: errors, which make its subject invalid, and warnings, which do not. The check
of a bundle has four sections, and its report holds the findings of each together with those of
all of them.

## Main definitions

* `Findings`, `FileFindings`: what one check finds.
* `Report`: what the check of a bundle finds.
* `Summary`: the findings of a report by urgency.
-/

namespace Templating

/-- What a check finds. Checks build it with `Findings.of`, so that it is valid if there are no
errors. -/
structure Findings where
  isValid : Bool
  errors : List String
  warnings : List String
  deriving DecidableEq

namespace Findings

/-- Findings are valid if there are no errors. -/
def of (errors warnings : List String) : Findings :=
  ⟨errors.isEmpty, errors, warnings⟩

/-- No findings. -/
def none : Findings :=
  ⟨true, [], []⟩

/-- Accepts a mapping as findings. -/
def decode : Value → Checked Findings :=
  Decode.closedRecord ["is_valid", "errors", "warnings"] fun entries =>
    Findings.mk
      <$> Decode.defaulted "is_valid" Decode.flag true entries
      <*> Decode.defaulted "errors" (Decode.listOf Decode.text) [] entries
      <*> Decode.defaulted "warnings" (Decode.listOf Decode.text) [] entries

/-- The findings as a value. -/
def encode (f : Findings) : Value :=
  .mapping [("is_valid", .bool f.isValid), ("errors", encodeTexts f.errors),
    ("warnings", encodeTexts f.warnings)]

end Findings

/-- What the check of the files of a bundle finds: the findings over all files, and those of each
file under its key. -/
structure FileFindings where
  isValid : Bool
  errors : List String
  warnings : List String
  fileResults : List (String × Findings)
  deriving DecidableEq

namespace FileFindings

/-- No findings. -/
def none : FileFindings :=
  ⟨true, [], [], []⟩

/-- The findings over all files. -/
def toFindings (f : FileFindings) : Findings :=
  ⟨f.isValid, f.errors, f.warnings⟩

/-- Accepts a mapping as findings about files. -/
def decode : Value → Checked FileFindings :=
  Decode.closedRecord ["is_valid", "errors", "warnings", "file_results"] fun entries =>
    FileFindings.mk
      <$> Decode.defaulted "is_valid" Decode.flag true entries
      <*> Decode.defaulted "errors" (Decode.listOf Decode.text) [] entries
      <*> Decode.defaulted "warnings" (Decode.listOf Decode.text) [] entries
      <*> Decode.defaulted "file_results" (Decode.mappingOf Findings.decode) [] entries

/-- The findings as a value. -/
def encode (f : FileFindings) : Value :=
  .mapping [("is_valid", .bool f.isValid), ("errors", encodeTexts f.errors),
    ("warnings", encodeTexts f.warnings),
    ("file_results", .mapping (f.fileResults.map fun (key, r) => (key, r.encode)))]

end FileFindings

/-- What the check of a bundle finds: everything together, and section by section. The sections are
about the fields of the bundle, the bodies of its files, its declarations, and its file entries. It
is put together by `Report.ofSections`. -/
structure Report where
  templateId : String
  isValid : Bool
  errors : List String
  warnings : List String
  metadata : Findings
  bodies : Findings
  declarations : Findings
  files : FileFindings
  deriving DecidableEq

namespace Report

/-- Accepts a mapping as a report. -/
def decode : Value → Checked Report :=
  Decode.closedRecord ["template_id", "is_valid", "errors", "warnings", "metadata", "syntax",
      "configuration", "files"] fun entries =>
    Report.mk
      <$> Decode.required "template_id" Decode.text entries
      <*> Decode.required "is_valid" Decode.flag entries
      <*> Decode.defaulted "errors" (Decode.listOf Decode.text) [] entries
      <*> Decode.defaulted "warnings" (Decode.listOf Decode.text) [] entries
      <*> Decode.defaulted "metadata" Findings.decode .none entries
      <*> Decode.defaulted "syntax" Findings.decode .none entries
      <*> Decode.defaulted "configuration" Findings.decode .none entries
      <*> Decode.defaulted "files" FileFindings.decode .none entries

/-- The report as a value. -/
def encode (r : Report) : Value :=
  .mapping [("template_id", .text r.templateId), ("is_valid", .bool r.isValid),
    ("errors", encodeTexts r.errors), ("warnings", encodeTexts r.warnings),
    ("metadata", r.metadata.encode), ("syntax", r.bodies.encode),
    ("configuration", r.declarations.encode), ("files", r.files.encode)]

end Report

/-- The findings of a report by urgency, with suggestions what to do about them. -/
structure Summary where
  critical : List String
  errors : List String
  warnings : List String
  suggestions : List String
  deriving DecidableEq

namespace Summary

/-- Accepts a mapping as a summary. -/
def decode : Value → Checked Summary :=
  Decode.closedRecord ["critical", "errors", "warnings", "suggestions"] fun entries =>
    Summary.mk
      <$> Decode.defaulted "critical" (Decode.listOf Decode.text) [] entries
      <*> Decode.defaulted "errors" (Decode.listOf Decode.text) [] entries
      <*> Decode.defaulted "warnings" (Decode.listOf Decode.text) [] entries
      <*> Decode.defaulted "suggestions" (Decode.listOf Decode.text) [] entries

/-- The summary as a value. -/
def encode (s : Summary) : Value :=
  .mapping [("critical", encodeTexts s.critical), ("errors", encodeTexts s.errors),
    ("warnings", encodeTexts s.warnings), ("suggestions", encodeTexts s.suggestions)]

end Summary

end Templating
