import Templating.Check.Body
import Templating.Check.Options

/-!
# Checking file entries

The files of a bundle are given by mappings with a path and a body. A path may not hold
characters that file systems refuse, and a path that may lead out of the target directory is
warned about. No two entries may have the same path. Each entry has findings of its own under its
path, or under its number if it has no path; entries are counted from one.

## Main definitions

* `checkPath`, `checkEntry`: the findings about a path and about one entry.
* `repeatedPaths`: the paths that more than one entry has.
* `checkFiles`: the findings about the entries of a bundle.
* `checkBodies`: the findings about the bodies of a bundle.
-/

namespace Templating

open Templating.Text

/-! ### Paths -/

/-- Whether a character is refused in paths. -/
def isRefusedInPath (c : Char) : Bool :=
  ['<', '>', '"', '|', '?', '*'].contains c

/-- Whether a character separates the parts of a path. -/
def separatesPath (c : Char) : Bool :=
  c = '/' || c = '\\'

/-- Whether one of the parts between separators (`separatesPath`) consists of two dots. -/
def climbs (path : List Char) : Bool :=
  (splitOn '/' (path.map fun c => if separatesPath c then '/' else c)).contains ['.', '.']

/-- Whether a path begins with a separator, or with a letter, a colon and a separator: paths of more
than one kind of system are warned about. -/
def isAbsolutePath : List Char → Bool
  | [] => false
  | c :: rest =>
    separatesPath c ||
      match rest with
      | c' :: c'' :: _ => c.isAlpha && c' = ':' && separatesPath c''
      | _ => false

/-- The findings about a path. -/
def checkPath (limits : Limits) (path : String) : Findings :=
  let cs := path.toList
  .of
    ((if cs.any isRefusedInPath then
        ["File path contains invalid characters (<>\"|?*)"]
      else [])
      ++ (if cs.contains '\x00' then ["File path contains null bytes"] else []))
    ((if limits.pathLength < cs.length then
        ["File path is very long and may cause issues on some systems"]
      else [])
      ++ (if climbs cs then ["File path uses relative navigation, which may be unsafe"] else [])
      ++ (if isAbsolutePath cs then
          ["File path is absolute, consider using relative paths"]
        else []))

/-! ### Entries -/

/-- The findings about the path of an entry (`checkPath`), which has to be a text that is not
blank. -/
def checkPathField (limits : Limits) : Option Value → Findings
  | some (.text path) =>
    if isBlankText path then .of ["File path is required"] [] else checkPath limits path
  | _ => .of ["File path is required"] []

/-- The findings about the body of an entry, which is not read here; `checkEntryBody` reads it. -/
def checkContentField : Option Value → Findings
  | none => .of ["File content is required"] []
  | some .null => .of ["File content is required"] []
  | some (.text s) => .of [] (if s = "" then ["File content is empty"] else [])
  | some _ => .of ["File content must be a string"] []

/-- The error about the flag of an entry. -/
def overwriteErrors : Option Value → List String
  | none => []
  | some .null => []
  | some (.bool _) => []
  | some _ => ["Overwrite flag must be a boolean"]

/-- The error about the guard of an entry, with the wording of `Guard.parse`. -/
def conditionErrors : Option Value → Except Fault (List String)
  | none => .ok []
  | some .null => .ok []
  | some (.text guard) =>
    match Guard.parse guard with
    | .ok _ => .ok []
    | .error (.guard fault) =>
      .ok ["Invalid file condition '" ++ guard ++ "': " ++ fault.message]
    | .error fault => .error fault
  | some _ => .ok ["File condition must be a string"]

/-- The findings about an entry. -/
def checkEntry (limits : Limits) (entry : Value) : Except Fault Findings :=
  match entry with
  | .mapping entries => do
    let path := checkPathField limits (Entries.get? "path" entries)
    let content := checkContentField (Entries.get? "content" entries)
    let conditionErrors ← conditionErrors (Entries.get? "condition" entries)
    return .of
      (path.errors ++ content.errors ++ overwriteErrors (Entries.get? "overwrite" entries)
        ++ conditionErrors)
      (path.warnings ++ content.warnings)
  | _ => .ok (.of ["File entry must be a mapping"] [])

/-! ### All entries -/

/-- The path of an entry, if it has one that is not blank. -/
def entryPath? (entry : Value) : Option String :=
  match entry.entry? "path" with
  | some (.text path) => if isBlankText path then none else some path
  | _ => none

/-- The search for repeated paths: those met so far, and those met more than once in the order of
their second occurrence. `repeatedPaths` goes along the entries with it. -/
structure PathSearch where
  seen : List String
  repeated : List String

/-- Meets a path. -/
def PathSearch.meet (s : PathSearch) (path : String) : PathSearch :=
  ⟨path :: s.seen,
    if s.seen.contains path && !s.repeated.contains path then s.repeated ++ [path]
    else s.repeated⟩

/-- The paths that more than one entry has, each once, in the order of their second occurrence
(`PathSearch.meet`). -/
def repeatedPaths (files : List Value) : List String :=
  ((files.filterMap entryPath?).foldl PathSearch.meet ⟨[], []⟩).repeated

/-- The key of the entry with a given number: its path, or its number if it has none. Nothing keeps
a path from being spelled like a number. -/
def entryKey (number : Nat) (entry : Value) : String :=
  (entryPath? entry).getD ("#" ++ number.repr)

/-- What is said about a file under its key; nothing if there is nothing to say. -/
def aboutFile (key : String) (messages : List String) : List String :=
  if messages.isEmpty then [] else ["File '" ++ key ++ "': " ++ join ", " messages]

/-- The findings by key, with those about one more entry. A key keeps its first findings. -/
def addResult (results : List (String × Findings)) (key : String) (f : Findings) :
    List (String × Findings) :=
  if (results.lookup key).isSome then results else results ++ [(key, f)]

/-- The findings about entries, the first of which has a given number, added to earlier ones. The
results of single entries are added by `addResult`. -/
def checkEntriesFrom (limits : Limits) (number : Nat) (found : FileFindings) :
    List Value → Except Fault FileFindings
  | [] => .ok found
  | entry :: rest => do
    let key := entryKey number entry
    let f ← checkEntry limits entry
    let errors := found.errors ++ aboutFile key f.errors
    checkEntriesFrom limits (number + 1)
      ⟨errors.isEmpty, errors, found.warnings ++ aboutFile key f.warnings,
        addResult found.fileResults key f⟩ rest

/-- The files of a bundle, if they are a list. -/
def filesOf (bundle : Entries) : List Value :=
  match bundle.get? "files" with
  | some (.list files) => files
  | _ => []

/-- The error about repeated paths. -/
def repeatedPathErrors (files : List Value) : List String :=
  let repeated := repeatedPaths files
  if repeated.isEmpty then [] else ["Duplicate file paths: " ++ join ", " repeated]

/-- The findings about the file entries of a bundle, of which there has to be one: repeated paths
first (`repeatedPathErrors`), then entry by entry. -/
def checkFiles (limits : Limits) (bundle : Entries) : Except Fault FileFindings :=
  match filesOf bundle with
  | [] => .ok ⟨false, ["Template must have at least one file"], [], []⟩
  | files =>
    let errors := repeatedPathErrors files
    checkEntriesFrom limits 1 ⟨errors.isEmpty, errors, [], []⟩ files

/-! ### Bodies -/

/-- The findings about the body of an entry, as they appear among those about all bodies. -/
def checkEntryBody (limits : Limits) (entry : Value) : Except Fault (List String × List String) :=
  match entry.entry? "content" with
  | some (.text body) => do
    let f ← checkBody limits body
    if f.errors.isEmpty && f.warnings.isEmpty then return ([], [])
    let key ← ((entry.entry? "path").getD (.text "")).displayed
    return (aboutFile key f.errors, aboutFile key f.warnings)
  | _ => .ok ([], [])

/-- The findings about the bodies of a bundle, in the order of its files (`checkEntryBody`). -/
def checkBodies (limits : Limits) (bundle : Entries) : Except Fault Findings := do
  let found ← (filesOf bundle).mapM (checkEntryBody limits)
  return .of (found.flatMap (·.1)) (found.flatMap (·.2))

end Templating
