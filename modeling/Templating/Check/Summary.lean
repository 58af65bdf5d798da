import Templating.Check.Findings
import Templating.Text.Search

/-!
# The text of a report

The findings of a report are grouped by urgency: an error is critical if it speaks of something
that is required, missing, malformed, unclosed, of invalid type or duplicate. Each finding is
shown with the name of its section. The text of a report lists the groups that are not empty and
ends with a verdict.

## Main definitions

* `Report.summary`: the findings by urgency.
* `Report.text`: the report as text.
-/

namespace Templating

open Templating.Text

/-- What a critical error speaks of. -/
def criticalMarkers : List String :=
  ["required", "missing", "malformed", "unclosed", "invalid type", "duplicate"]

/-- Whether an error is critical: one of the `criticalMarkers` occurs in it, in letters of either
case. -/
def isCritical (error : String) : Bool :=
  let lowered := error.toList.map Char.toLower
  criticalMarkers.any fun marker => occursIn marker.toList lowered

/-- The sections of a report by name. -/
def Report.sections (r : Report) : List (String × Findings) :=
  [("Metadata", r.metadata), ("Syntax", r.bodies), ("Configuration", r.declarations),
    ("Files", r.files.toFindings)]

/-- A finding with the name of its section. -/
def inSection (name finding : String) : String :=
  name ++ ": " ++ finding

/-- Suggestions what to do about findings. -/
def suggestionsFor (critical errors warnings : List String) : List String :=
  (if critical.isEmpty then [] else ["Fix critical errors before using this template"])
    ++ (if errors.isEmpty then [] else ["Review and fix validation errors"])
    ++ (if warnings.isEmpty then []
      else ["Consider addressing warnings for better template quality"])

namespace Report

/-- The findings of a report by urgency: errors that are critical (`isCritical`), other errors, and
warnings, each in the order of the sections. -/
def summary (r : Report) : Summary :=
  let critical := r.sections.flatMap fun (name, f) =>
    (f.errors.filter isCritical).map (inSection name)
  let errors := r.sections.flatMap fun (name, f) =>
    (f.errors.filter fun e => !isCritical e).map (inSection name)
  let warnings := r.sections.flatMap fun (name, f) => f.warnings.map (inSection name)
  ⟨critical, errors, warnings, suggestionsFor critical errors warnings⟩

/-- The lines of a group of findings; none if the group is empty. -/
def groupLines (title : String) (findings : List String) : List String :=
  if findings.isEmpty then []
  else (title ++ ":") :: (findings.map ("  - " ++ ·) ++ [""])

/-- The verdict of a report. -/
def verdict (r : Report) : String :=
  if r.isValid then "Template is valid and ready to use"
  else "Template has validation issues that need to be resolved"

/-- The lines of a report: a title, the groups of its `summary`, and the verdict. -/
def lines (r : Report) : List String :=
  let s := r.summary
  ["Template Validation Results for '" ++ r.templateId ++ "':", ""]
    ++ groupLines "Critical Issues" s.critical
    ++ groupLines "Errors" s.errors
    ++ groupLines "Warnings" s.warnings
    ++ groupLines "Suggestions" s.suggestions
    ++ [r.verdict]

/-- The report as text. -/
def text (r : Report) : String :=
  join "\n" r.lines

end Report

end Templating
