import Templating.Bundle.Basic
import Templating.Fault
import Templating.Value.Equality
import Templating.Text.Blank

/-!
# Values of options

Values for options are often given as texts. A text given for a boolean or a number option is
read as one; a value given for a select option has to be one of its choices, if it has any; and
any other value is taken as it is.

## Main definitions

* `coerce`: the value of an option.
-/

namespace Templating

open Templating.Text

/-- The truth value that a word stands for, in any case and with blank space around it. -/
def truthWord? (text : String) : Option Bool :=
  let word := String.ofList ((trim text.toList).map Char.toLower)
  if ["true", "yes", "y", "on", "1"].contains word then some true
  else if ["false", "no", "n", "off", "0"].contains word then some false
  else none

/-- The number that a text denotes: an integer if it can be read as one (`Numeral.integer?`), else a
floating point number (`Numeral.decimal?`). -/
def numberText? (text : String) : Option Number :=
  let cs := trim text.toList
  ((Numeral.integer? cs).map .int).or ((Numeral.decimal? cs).map .binary)

/-- The value of an option for which a value is given. A text is converted to the type of the option
(`truthWord?`, `numberText?`); a selection has to be among its choices; any other value stays as it
is. -/
def coerce (option : OptionDecl) (v : Value) : Except Fault Value :=
  match option.kind, v with
  | .boolean, .text s =>
    match truthWord? s with
    | some b => .ok (.bool b)
    | none => .error (.configuration (.notBoolean option.name s))
  | .number, .text s =>
    match numberText? s with
    | some n => .ok (.number n)
    | none => .error (.configuration (.notNumber option.name s))
  | .select, v =>
    match option.choices with
    | some (c :: cs) =>
      if (c :: cs).any fun choice => v.equal (.text choice) then .ok v
      else .error (.configuration (.notAmongChoices option.name (c :: cs)))
    | _ => .ok v
  | _, v => .ok v

end Templating
