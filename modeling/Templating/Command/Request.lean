import Templating.Command.Intake
import Templating.Files.PathName

/-!
# Requests

The command line names a command, and gives options before the command that concern every
command and options and an operand after it that concern this one. There are four commands: one
renders a template, one lists the variables of a template, one checks a bundle, and one writes
the files of a bundle.

## Main definitions

* `Action`: what is to be done.
* `Request`: what is to be done, and whether notices are shown.
* `Request.ofArguments`: the request that a command line makes.
-/

namespace Templating.Command

/-- What is to be done. -/
inductive Action where
  /-- Render a template, into a file if one is given. -/
  | render (template : PathName) (pairs : List String) (output : Option PathName)
  /-- List the variables of a template, or only those without a value. -/
  | list (template : PathName) (pairs : List String) (onlyMissing : Bool)
  /-- Check a bundle under a name. -/
  | validate (bundle : PathName) (identifier : Option String) (asJson : Bool)
  /-- Write the files of a bundle into a directory. -/
  | scaffold (bundle : PathName) (directory : Option PathName) (pairs : List String)
    (force : Bool)

/-- What is to be done, and whether notices are shown. -/
structure Request where
  verbose : Bool
  action : Action

/-- The option that asks for the help. -/
def helpRule : OptionRule :=
  ⟨.help, some 'h', "help", false⟩

/-- The option that gives a value to a template. -/
def contextRule : OptionRule :=
  ⟨.context, some 'c', "context", true⟩

/-- The options before the command. -/
def commonRules : List OptionRule :=
  [helpRule, ⟨.verbose, some 'v', "verbose", false⟩]

/-- The options of a command; none for a word that is no command. -/
def rulesOf? : String → Option (List OptionRule)
  | "render" => some [helpRule, contextRule, ⟨.output, some 'o', "output", true⟩]
  | "variables" => some [helpRule, contextRule, ⟨.missing, none, "missing", false⟩]
  | "validate" =>
    some [helpRule, ⟨.identifier, none, "id", true⟩, ⟨.json, none, "json", false⟩]
  | "init" =>
    some [helpRule, ⟨.directory, some 'd', "directory", true⟩, contextRule,
      ⟨.force, some 'f', "force", false⟩]
  | _ => none

/-- What a command with its options and its operand asks for. -/
def actionOf? (command : String) (operand : PathName) (k : Intake) : Option Action :=
  match command with
  | "render" =>
    some (.render operand (k.values .context) ((k.value? .output).map PathName.ofText))
  | "variables" => some (.list operand (k.values .context) (k.has .missing))
  | "validate" => some (.validate operand (k.value? .identifier) (k.has .json))
  | "init" =>
    some (.scaffold operand ((k.value? .directory).map PathName.ofText) (k.values .context)
      (k.has .force))
  | _ => none

/-- Takes in the options before the command (`commonRules`); what is left begins with the
command. -/
def beforeCommand (k : Intake) : List (Role × String) →
    Except Interruption (Intake × List String)
  | [] => .ok (k, [])
  | (.operand command, _) :: rest => .ok (k, command :: rest.map (·.2))
  | (.separator, _) :: _ => .error .misuse
  | (role, _) :: rest => do
    let k ← k.step commonRules role
    beforeCommand k rest

/-- What a command and its arguments ask for. -/
def actionOfArguments (command : String) (args : List String) : Except Interruption Action := do
  match rulesOf? command with
  | none => throw .misuse
  | some rules =>
    let k ← Intake.ofArguments rules args
    match k.hasSurplus, k.operand.bind fun operand => actionOf? command (.ofText operand) k with
    | false, some action => return action
    | _, _ => throw .misuse

/-- The request that a command line makes: the common options, and the command with its own
(`actionOfArguments`). -/
def Request.ofArguments (args : List String) : Except Interruption Request := do
  let known ← roles commonRules args
  match ← beforeCommand .start (known.zip args) with
  | (_, []) => throw .misuse
  | (k, command :: args) =>
    let action ← actionOfArguments command args
    if k.hasSurplus then throw .misuse
    return ⟨k.has .verbose, action⟩

end Templating.Command
