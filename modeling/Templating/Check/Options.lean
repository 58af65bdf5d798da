import Templating.Check.Findings
import Templating.Text.Blank
import Templating.Value.Display
import Templating.Value.Equality

/-!
# Checking options

The options of a bundle are declared by mappings. Each needs a name that can be used as a
variable, a known type and a description; a select option needs choices; and no two options may
have the same name. A default of another type than the option's is warned about. Options are
counted from one in messages.

## Main definitions

* `checkOption`: the errors and warnings about one option.
* `checkOptions`: the findings about all of them.
-/

namespace Templating

open Templating.Text

/-- Whether a field is absent, nothing, or blank text. -/
def isBlankField : Option Value → Bool
  | none => true
  | some .null => true
  | some (.text s) => isBlankText s
  | _ => false

/-- Whether a text begins with a letter and goes on with letters, digits and underscores. One
line feed at its end is allowed. -/
def isOptionName (name : String) : Bool :=
  match withoutFinalNewline name.toList with
  | [] => false
  | c :: cs => c.isAlpha && cs.all fun c => c.isAlphanum || c == '_'

/-- The type of an option that a field names (`OptionKind.choices`). -/
def kindOfField : Option Value → Option OptionKind
  | some (.text s) => OptionKind.choices.lookup s
  | _ => none

/-- The items of a field that holds a list with items. -/
def choicesOfField : Option Value → List Value
  | some (.list items) => items
  | _ => []

/-- Whether a default fits the type of an option. A truth value is no number here, and a text has to
be among the choices of a selection, if there are any. -/
def defaultFits (kind : OptionKind) (default : Value) (choices : List Value) : Bool :=
  match kind, default with
  | .boolean, .bool _ => true
  | .boolean, _ => false
  | .number, .number _ => true
  | .number, _ => false
  | .string, .text _ => true
  | .select, .text s => choices.isEmpty || choices.any fun c => (Value.text s).equal c
  | _, _ => false

/-- The names of options met so far, each with the number of the first option of that name. -/
abbrev SeenNames := List (String × Nat)

/-- The names of options met so far, with the name of one more option. The first option of a name
stays. -/
def SeenNames.note (seen : SeenNames) (number : Nat) (name : Option Value) : SeenNames :=
  match name with
  | some (.text s) => if s = "" || (seen.lookup s).isSome then seen else seen ++ [(s, number)]
  | _ => seen

/-- The error about a name that an earlier option has. -/
def duplicateErrors (label : String) (seen : SeenNames) (name : Option Value) : List String :=
  match name with
  | some (.text s) =>
    match seen.lookup s with
    | some first =>
      if s = "" then []
      else
        [label ++ ": duplicate name '" ++ s ++ "' (also used by option " ++ first.repr ++ ")"]
    | none => []
  | _ => []

/-- The error about the name of an option. -/
def nameErrors (label : String) (name : Option Value) : List String :=
  match name with
  | some (.text s) =>
    if isBlankText s then [label ++ ": name is required"]
    else if isOptionName s then []
    else
      [label
        ++ ": name must start with a letter and contain only letters, numbers, and underscores"]
  | _ => [label ++ ": name is required"]

/-- The error about the type of an option, which shows what stands there (`Value.displayed`). -/
def kindErrors (label : String) (kind : Option Value) : Except Fault (List String) :=
  match kindOfField kind with
  | some _ => .ok []
  | none => do
    let shown ← (kind.getD .null).displayed
    return [label ++ ": invalid type '" ++ shown ++ "'"]

/-- The warning about the default of an option. -/
def defaultWarnings (label : String) (kind : Option OptionKind) (default : Option Value)
    (choices : List Value) : List String :=
  match kind, default with
  | some kind, some default =>
    if default.isNull || defaultFits kind default choices then []
    else [label ++ ": default value does not match type '" ++ kind.name ++ "'"]
  | _, _ => []

/-- The errors and the warnings about the option with a given number, field by field. -/
def checkOption (seen : SeenNames) (number : Nat) (option : Value) :
    Except Fault (List String × List String) :=
  let label := "Option " ++ number.repr
  match option with
  | .mapping entries => do
    let name := Entries.get? "name" entries
    let kind := kindOfField (Entries.get? "type" entries)
    let choices := choicesOfField (Entries.get? "choices" entries)
    let kindErrors ← kindErrors label (Entries.get? "type" entries)
    let errors := nameErrors label name ++ kindErrors
      ++ (if isBlankField (Entries.get? "description" entries) then
          [label ++ ": description is required"]
        else [])
      ++ (if kind = some .select && choices.isEmpty then
          [label ++ ": select type requires choices"]
        else [])
      ++ duplicateErrors label seen name
    return (errors, defaultWarnings label kind (Entries.get? "default" entries) choices)
  | _ => .ok ([label ++ ": must be a mapping"], [])

/-- The name of the option that a value declares. -/
def declaredName : Value → Option Value
  | .mapping entries => Entries.get? "name" entries
  | _ => none

/-- The errors and the warnings about options, the first of which has a given number; `SeenNames` is
carried along. -/
def checkOptionsFrom (seen : SeenNames) (number : Nat) :
    List Value → Except Fault (List String × List String)
  | [] => .ok ([], [])
  | option :: rest => do
    let (errors, warnings) ← checkOption seen number option
    let (moreErrors, moreWarnings) ←
      checkOptionsFrom (seen.note number (declaredName option)) (number + 1) rest
    return (errors ++ moreErrors, warnings ++ moreWarnings)

/-- The findings about the options of a bundle. -/
def checkOptions (options : List Value) : Except Fault Findings := do
  let (errors, warnings) ← checkOptionsFrom [] 1 options
  return .of errors warnings

end Templating
