import Templating.Bundle.Source
import Templating.Check.Files

/-!
# Checking a bundle

The check of a bundle has four sections. The first looks at the fields of the bundle and their
kinds, the second at the bodies of its files, the third at its name, version and options, and the
last at its file entries. The report is valid if all sections are.

## Main definitions

* `checkMetadata`, `checkDeclarations`: the first and the third section.
* `checkBundle`: the report about a bundle.
-/

namespace Templating

open Templating.Text

/-! ### Fields -/

/-- The fields that every bundle has. -/
def requiredFields : List String :=
  ["name", "description", "version", "files"]

/-- The fields that hold text. -/
def textFields : List String :=
  ["name", "description", "version"]

/-- Whether a field is there and is something other than text; `null` counts as not there. -/
def isOtherThanText : Option Value → Bool
  | none => false
  | some .null => false
  | some (.text _) => false
  | some _ => true

/-- Whether a field is there and is something other than a list. -/
def isOtherThanList : Option Value → Bool
  | none => false
  | some .null => false
  | some (.list _) => false
  | some _ => true

/-- Whether the name is longer than a description that is not empty. -/
def nameExceedsDescription (name description : Option Value) : Bool :=
  match name, description with
  | some (.text name), some (.text description) =>
    description != "" && decide (description.length < name.length)
  | _, _ => false

/-- The findings about the fields of a bundle and their kinds. What the fields say is looked at by
`checkDeclarations`. -/
def checkMetadata (bundle : Entries) : Findings :=
  .of
    ((requiredFields.filter fun name => !bundle.has name).map
        (fun name => "Required metadata field '" ++ name ++ "' is missing")
      ++ (textFields.filter fun name => isOtherThanText (bundle.get? name)).map
        (fun name => "Template " ++ name ++ " must be a string")
      ++ (if isOtherThanList (bundle.get? "files") then ["Template files must be a list"] else [])
      ++ (if isOtherThanList (bundle.get? "options") then
          ["Template options must be a list"]
        else []))
    (if nameExceedsDescription (bundle.get? "name") (bundle.get? "description") then
      ["Template name is longer than description"]
    else [])

/-! ### Declarations -/

/-- Whether a character may stand in the name of a bundle. -/
def inBundleName (c : Char) : Bool :=
  c.isAlphanum || isBlank c || c == '_' || c == '.' || c == '-'

/-- The errors about the name of a bundle: its characters (`inBundleName`) and its length. -/
def bundleNameErrors (limits : Limits) : Option Value → List String
  | some (.text name) =>
    if name = "" then []
    else
      (if name.toList.all inBundleName then []
        else ["Template name contains invalid characters"])
      ++ (if limits.nameLength < name.length then
          ["Template name is too long (max " ++ integerText limits.nameLength ++ " characters)"]
        else [])
  | _ => []

/-- The warning about the description of a bundle. -/
def descriptionWarnings (limits : Limits) : Option Value → List String
  | some (.text description) =>
    if limits.descriptionLength < description.length then
      ["Template description is very long (max " ++ integerText limits.descriptionLength
        ++ " characters recommended)"]
    else []
  | _ => []

/-- Whether a text consists of three numbers with points between them. One line feed at its end
is allowed. -/
def isThreePartVersion (version : String) : Bool :=
  let parts := splitOn '.' (withoutFinalNewline version.toList)
  decide (parts.length = 3) && parts.all fun part => !part.isEmpty && part.all isDigit

/-- The warning about the version of a bundle. -/
def versionWarnings : Option Value → List String
  | some (.text version) =>
    if isBlankText version || isThreePartVersion version then []
    else ["Template version should follow semantic versioning (e.g., 1.0.0)"]
  | _ => []

/-- Whether a field is absent, nothing, or a list without items. -/
def lacksItems : Option Value → Bool
  | none => true
  | some .null => true
  | some (.list items) => items.isEmpty
  | _ => false

/-- The findings about the options of a bundle, if they are a list. -/
def checkOptionsField : Option Value → Except Fault Findings
  | some (.list options) => checkOptions options
  | _ => .ok .none

/-- The findings about the name, the version and the options of a bundle (`checkOptionsField`). -/
def checkDeclarations (limits : Limits) (bundle : Entries) : Except Fault Findings := do
  let options ← checkOptionsField (bundle.get? "options")
  return .of
    ((textFields.filter fun name => isBlankField (bundle.get? name)).map
        (fun name => "Template " ++ name ++ " is required")
      ++ (if lacksItems (bundle.get? "files") then
          ["Template must have at least one file"]
        else [])
      ++ bundleNameErrors limits (bundle.get? "name")
      ++ options.errors)
    (descriptionWarnings limits (bundle.get? "description")
      ++ versionWarnings (bundle.get? "version")
      ++ options.warnings)

/-! ### The report -/

/-- The report that consists of four sections: their findings together, each section also by itself,
and valid if all of them are. -/
def Report.ofSections (templateId : String) (metadata bodies declarations : Findings)
    (files : FileFindings) : Report :=
  let sections := [metadata, bodies, declarations, files.toFindings]
  { templateId
    isValid := sections.all (·.isValid)
    errors := sections.flatMap (·.errors)
    warnings := sections.flatMap (·.warnings)
    metadata, bodies, declarations, files }

/-- The report about a bundle that is given by the entries of a mapping. -/
def checkBundle (limits : Limits) (templateId : String) (bundle : Entries) :
    Except Fault Report := do
  let bodies ← checkBodies limits bundle
  let declarations ← checkDeclarations limits bundle
  let files ← checkFiles limits bundle
  return .ofSections templateId (checkMetadata bundle) bodies declarations files

end Templating
