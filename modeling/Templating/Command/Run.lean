import Templating.Check.Summary
import Templating.Command.Request
import Templating.Configuration.Build
import Templating.Configuration.Pairs
import Templating.Files.Reading
import Templating.Scaffold.Notices
import Templating.Template.Variables
import Templating.Value.JsonReader

/-!
# Running a command line

A run reads and writes files below a working directory and ends in one of three ways. It finishes
with an exit code, with what it prints and with what it logs; or the command line interrupts it
before it begins; or it fails with a fault. Whatever was written before a fault stays.

Exit code 1 says that a bundle is not valid or cannot be written, exit code 2 that its
configuration cannot be built.

## Main definitions

* `Ending`: how a run ends.
* `perform`: does what a request asks for.
* `run`: the run of a command line.
-/

namespace Templating.Command

/-- What a run that finishes shows, and its exit code. -/
structure Behavior where
  exitCode : Nat
  output : String
  log : String
  deriving DecidableEq

/-- How a run ends: with a behavior, by an interruption before it begins, or by a fault that nobody
reports. -/
inductive Ending where
  | finished (b : Behavior)
  | interrupted (i : Interruption)
  | failed (fault : Fault)
  deriving DecidableEq

/-- The exit code of an interruption. -/
def Interruption.exitCode : Interruption → Nat
  | help => 0
  | misuse => 2

/-- Lines, each with a line feed at its end. -/
def linesOf (lines : List String) : String :=
  Text.concat (lines.map (· ++ "\n"))

/-- The notices as they are logged, if they are shown. -/
def logged (verbose : Bool) (notices : List Notice) : String :=
  if verbose then linesOf (notices.map Notice.text) else ""

/-- A computation that leaves the files alone. -/
def purely {α : Type} (outcome : Except Fault α) : FilesM α :=
  fun t => (outcome, t)

/-! ### Templates -/

/-- The configuration that texts `KEY=VALUE` give where no option declares a type: `inferredValues`,
and then `buildConfiguration`. -/
def contextConfiguration (pairs : List String) : Except Fault Value := do
  let values ← inferredValues pairs
  buildConfiguration (.list []) values

/-- A text with a line feed at its end. -/
def terminated (s : String) : String :=
  if s.toList.getLast? = some '\n' then s else s ++ "\n"

/-- Renders a template, into a file or as output. -/
def renderTemplate (directory : Location) (verbose : Bool) (template : PathName)
    (pairs : List String) (output : Option PathName) : FilesM Behavior := do
  let configuration ← purely (contextConfiguration pairs)
  let source ← readText directory template
  let content ← purely (Template.renderText source configuration)
  let log := logged verbose (Template.templateNotices source configuration)
  match output with
  | none => return ⟨0, terminated content, log⟩
  | some name =>
    writeNamed directory name content
    return ⟨0, "", log⟩

/-- The variables that a template inserts (`Template.variableNames`), and then those that only its
guards mention (`Template.guardPaths`). -/
def mentionedVariables (source : String) : Except Fault (List String) := do
  let inserted := Template.variableNames source
  let guarded ← Template.guardPaths source
  return inserted ++ guarded.filter fun name => !inserted.contains name

/-- Lists the variables of a template. -/
def listVariables (directory : Location) (template : PathName) (pairs : List String)
    (onlyMissing : Bool) : FilesM Behavior := do
  let source ← readText directory template
  let names ← purely
    (if onlyMissing then (contextConfiguration pairs).map (Template.missingVariables source)
      else mentionedVariables source)
  return ⟨0, linesOf names, ""⟩

/-! ### Bundles -/

/-- Reads a bundle from a JSON file. -/
def readBundle (directory : Location) (name : PathName) : FilesM Entries := do
  let text ← readText directory name
  match ← purely (Json.read text) with
  | .mapping entries => return entries
  | _ => throw (.jsonNotMapping name.text)

/-- Checks a bundle. -/
def validateBundle (directory : Location) (verbose : Bool) (name : PathName)
    (identifier : Option String) (asJson : Bool) : FilesM Behavior := do
  let entries ← readBundle directory name
  let templateId := (identifier.filter (· != "")).getD name.stem
  let report ← purely (checkBundle .standard templateId entries)
  let output := if asJson then Json.indented report.encode else report.text
  return ⟨if report.isValid then 0 else 1, linesOf [output], logged verbose report.notices⟩

/-- The options that a bundle declares. -/
def declaredOptions (entries : Entries) : Value :=
  match entries.get? "options" with
  | none => .list []
  | some v => if holdsNothing v then .list [] else v

/-- The configuration of a bundle for texts `KEY=VALUE`. -/
def bundleConfiguration (entries : Entries) (pairs : List String) : Except Fault Value := do
  let supplied ← keyValues pairs
  buildConfiguration (declaredOptions entries) (.mapping supplied)

/-- What a fault is reported as when files cannot be written; none if it ends the run. -/
def refusal? : Fault → Option String
  | .system (.alreadyThere path) => some ("[Errno 17] File exists: " ++ quotedText path)
  | .system .nullCharacter => some "embedded null byte"
  | .alreadyExists path => some (Fault.alreadyExists path).message
  | .outsideTarget path target => some (Fault.outsideTarget path target).message
  | .refusedRecord issues => some (Fault.refusedRecord issues).message
  | .integerTooLong => some Fault.integerTooLong.message
  | _ => none

/-- The line that reports an error. -/
def errorLine (message : String) : String :=
  linesOf ["error: " ++ message]

/-- Writes the files of a bundle that is not checked (`writeBundle`), and returns where they are.
There is no cache. -/
def writeFiles (directory : Location) (r : ScaffoldRequest) : FilesM (List Location) :=
  fun t =>
    let w : Workspace Binary64 Number := ⟨t, directory, none⟩
    match writeBundle Binary64.zero r w with
    | (outcome, w) => (outcome, w.tree)

/-- Writes the files of a bundle, and reports why if that is refused (`refusal?`). Any other fault
ends the run. -/
def writeOrReport (directory : Location) (verbose : Bool) (notices : List Notice)
    (r : ScaffoldRequest) : FilesM Behavior :=
  fun t =>
    let log := logged verbose (notices ++ scaffoldNotices directory r t)
    match writeFiles directory r t with
    | (.ok written, t) =>
      let count := written.length.repr
      (.ok ⟨0, linesOf ["Created " ++ count ++ " file(s) in " ++ r.target.text], log⟩, t)
    | (.error fault, t) =>
      match refusal? fault with
      | some message => (.ok ⟨1, "", log ++ errorLine message⟩, t)
      | none => (.error fault, t)

/-- Checks a bundle and writes its files. A bundle that is not valid, or a configuration that cannot
be built, is reported and nothing is written. -/
def scaffoldBundle (directory : Location) (verbose : Bool) (name : PathName)
    (target : Option PathName) (pairs : List String) (force : Bool) : FilesM Behavior := do
  let entries ← readBundle directory name
  let source : BundleSource := .value (.mapping entries)
  let report ← purely (checkSource (some name.stem) source)
  let log := logged verbose report.notices
  if !report.isValid then return ⟨1, "", log ++ linesOf [report.text]⟩
  match bundleConfiguration entries pairs with
  | .error (.configuration fault) => return ⟨2, "", log ++ errorLine fault.message⟩
  | .error fault => throw fault
  | .ok configuration =>
    let target := target.getD (.ofLocation directory)
    writeOrReport directory verbose report.notices ⟨source, configuration, target, force⟩

/-! ### Runs -/

/-- Does what a request asks for. -/
def perform (directory : Location) (r : Request) : FilesM Behavior :=
  match r.action with
  | .render template pairs output => renderTemplate directory r.verbose template pairs output
  | .list template pairs onlyMissing => listVariables directory template pairs onlyMissing
  | .validate bundle identifier asJson =>
    validateBundle directory r.verbose bundle identifier asJson
  | .scaffold bundle target pairs force =>
    scaffoldBundle directory r.verbose bundle target pairs force

/-- The run of a command line in a working directory: the request is read (`Request.ofArguments`)
before anything is done. -/
def run (directory : Location) (args : List String) : StateM FileTree Ending :=
  fun t =>
    match Request.ofArguments args with
    | .error i => (.interrupted i, t)
    | .ok r =>
      match perform directory r t with
      | (.ok b, t) => (.finished b, t)
      | (.error fault, t) => (.failed fault, t)

end Templating.Command
