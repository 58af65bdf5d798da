import Templating.Text.DecimalDigit
import Templating.Text.Search

/-!
# Options on the command line

An option has a word, which is given after two hyphens, and perhaps a letter, which is given
after one. A word may be shortened as long as it stays unambiguous. A value is attached to a word
by an equality sign, and to a letter directly or by an equality sign.

An argument that begins with a hyphen and names no option is still an operand if it looks like a
negative number or has a blank in it. After two hyphens that stand alone every argument is an
operand.

## Main definitions

* `OptionRule`: the options.
* `Role`: what an argument is.
* `recognise`: what a single argument is.
* `roles`: what the arguments of a command are.
-/

namespace Templating.Command

open Templating.Text

/-- What an option sets. -/
inductive Setting where
  | help
  | verbose
  | context
  | output
  | missing
  | identifier
  | json
  | directory
  | force
  deriving DecidableEq

/-- An option that a command knows. -/
structure OptionRule where
  setting : Setting
  letter : Option Char
  word : String
  takesValue : Bool

/-- Why a run ends before it begins: the help is asked for, or the arguments are wrong. -/
inductive Interruption where
  | help
  | misuse
  deriving DecidableEq

/-- A value that is attached to an option in one argument. -/
structure Attached where
  afterSign : Bool
  value : List Char

/-- What an argument is. -/
inductive Role where
  | operand (s : String)
  | separator
  /-- An option given by its word. -/
  | word (rule : OptionRule) (attached : Option String)
  /-- An option given by its letter. -/
  | letter (rule : OptionRule) (attached : Option Attached)
  /-- Something that looks like an option but is none. -/
  | unknown

/-- The option with a letter. -/
def byLetter? (rules : List OptionRule) (c : Char) : Option OptionRule :=
  rules.find? fun rule => rule.letter == some c

/-- The options that a word or its beginning names. A word that is spelled out names one option
only. -/
def byWord (rules : List OptionRule) (word : List Char) : List OptionRule :=
  match rules.find? fun rule => rule.word.toList == word with
  | some rule => [rule]
  | none => rules.filter fun rule => startsWith word rule.word.toList

/-- Whether the text after a hyphen looks like a number: digits, or digits or none, a point and
digits. A line feed may follow. -/
def looksNumeric (cs : List Char) : Bool :=
  let body := if cs.getLast? = some '\n' then cs.dropLast else cs
  match body.dropWhile isDigit with
  | [] => !body.isEmpty
  | '.' :: fraction => !fraction.isEmpty && fraction.all isDigit
  | _ => false

/-- What an argument is that begins with a hyphen and names no option. -/
def withoutRule (arg : String) : Role :=
  if looksNumeric (arg.toList.drop 1) || arg.toList.contains ' ' then .operand arg else .unknown

/-- What a letter after a hyphen and the characters after it are. -/
def recogniseLetter (rules : List OptionRule) (arg : String) (c : Char) (rest : List Char) :
    Role :=
  match byLetter? rules c, rest with
  | none, _ => withoutRule arg
  | some rule, [] => .letter rule none
  | some rule, '=' :: value => .letter rule (some ⟨true, value⟩)
  | some rule, value => .letter rule (some ⟨false, value⟩)

/-- What a word after two hyphens, perhaps with a value, is. -/
def recogniseWord (rules : List OptionRule) (arg : String) (cs : List Char) :
    Except Interruption Role :=
  let attached := match cs.dropWhile (· ≠ '=') with
    | _ :: value => some (String.ofList value)
    | [] => none
  match byWord rules (cs.takeWhile (· ≠ '=')) with
  | [] => .ok (withoutRule arg)
  | [rule] => .ok (.word rule attached)
  | _ => .error .misuse

/-- What an argument is; wrong if it is the beginning of several words (`recogniseWord`). -/
def recognise (rules : List OptionRule) (arg : String) : Except Interruption Role :=
  match arg.toList with
  | '-' :: '-' :: cs => recogniseWord rules arg cs
  | '-' :: c :: rest => .ok (recogniseLetter rules arg c rest)
  | _ => .ok (.operand arg)

/-- What the arguments of a command are. Behind the separator all of them are operands. -/
def roles (rules : List OptionRule) : List String → Except Interruption (List Role)
  | [] => .ok []
  | arg :: rest =>
    if arg = "--" then .ok (.separator :: rest.map .operand)
    else do
      let role ← recognise rules arg
      let others ← roles rules rest
      return role :: others

end Templating.Command
