import Templating.Command.Option

/-!
# Taking in arguments

The arguments of a command are taken in from left to right. Options contribute settings; an
option that takes a value and has none attached waits for an operand, which has to be the next
argument. The first operand that no option waits for is the operand of the command. Letters of
options without a value may share one hyphen. The help ends the intake where it is asked for, and
so does a mistake; operands too many and unknown options are noted only.

## Main definitions

* `Intake`: what has been taken in.
* `Intake.step`: takes in one argument.
* `Intake.ofArguments`: takes in the arguments of a command.
-/

namespace Templating.Command

/-- What has been taken in: settings in their order, each with its value if it has one; the
operand; and whether there was anything that has no place. -/
structure Intake where
  settings : List (Setting × String)
  operand : Option String
  hasSurplus : Bool
  /-- Settings that are held back, and the one that waits for a value. -/
  waiting : Option (List (Setting × String) × Setting)
  /-- Whether the last argument was taken as the operand. -/
  afterOperand : Bool

namespace Intake

/-- Nothing taken in. -/
def start : Intake :=
  ⟨[], none, false, none, false⟩

/-- Accepts settings, unless they ask for the help. -/
def accept (settings : List (Setting × String)) (k : Intake) : Except Interruption Intake :=
  if settings.any fun entry => entry.1 = .help then .error .help
  else .ok { k with settings := k.settings ++ settings, waiting := none, afterOperand := false }

/-- Accepts settings of which the last, an option without an attached value, may wait for the next
argument (`Intake.waiting`). -/
def acceptOpen (held : List (Setting × String)) (rule : OptionRule) (k : Intake) :
    Except Interruption Intake :=
  if rule.takesValue then
    .ok { k with waiting := some (held, rule.setting), afterOperand := false }
  else k.accept (held ++ [(rule.setting, "")])

/-- Notes something that has no place. -/
def noteSurplus (k : Intake) : Intake :=
  { k with hasSurplus := true, afterOperand := false }

/-- Takes in an option given by its word. -/
def takeWord (rule : OptionRule) (attached : Option String) (k : Intake) :
    Except Interruption Intake :=
  match attached with
  | none => k.acceptOpen [] rule
  | some value => if rule.takesValue then k.accept [(rule.setting, value)] else .error .misuse

/-- Takes in an option given by its letter with characters attached: a value, or, after an option
that takes none, the letters of further options. The recursion is along the characters. -/
def takeLetters (rules : List OptionRule) (k : Intake) (held : List (Setting × String))
    (rule : OptionRule) (afterSign : Bool) (cs : List Char) : Except Interruption Intake :=
  if rule.takesValue then k.accept (held ++ [(rule.setting, String.ofList cs)])
  else if afterSign then .error .misuse
  else
    match cs with
    | [] => .error .misuse
    | c :: rest =>
      if c = '-' then .error .misuse
      else
        let held := held ++ [(rule.setting, "")]
        match byLetter? rules c with
        | none => k.noteSurplus.accept held
        | some next =>
          match rest with
          | [] => k.acceptOpen held next
          | '=' :: value => takeLetters rules k held next true value
          | value => takeLetters rules k held next false value
termination_by cs.length

/-- Takes in an operand that no option waits for. -/
def takeOperand (s : String) (k : Intake) : Intake :=
  match k.operand with
  | none => { k with operand := some s, afterOperand := true }
  | some _ => k.noteSurplus

/-- Takes in the separator. It has its place before the operand and directly after it. -/
def takeSeparator (k : Intake) : Intake :=
  if k.operand.isNone || k.afterOperand then { k with afterOperand := false } else k.noteSurplus

/-- Takes in one argument. An option that waits for a value takes an operand, and nothing else. -/
def step (rules : List OptionRule) (k : Intake) (role : Role) : Except Interruption Intake :=
  match k.waiting, role with
  | some (held, setting), .operand s => k.accept (held ++ [(setting, s)])
  | some _, _ => .error .misuse
  | none, .operand s => .ok (k.takeOperand s)
  | none, .separator => .ok k.takeSeparator
  | none, .unknown => .ok k.noteSurplus
  | none, .word rule attached => k.takeWord rule attached
  | none, .letter rule none => k.acceptOpen [] rule
  | none, .letter rule (some a) => k.takeLetters rules [] rule a.afterSign a.value

/-- Takes in the arguments of a command, in the roles that `roles` finds for them, by
`Intake.step`. -/
def ofArguments (rules : List OptionRule) (args : List String) : Except Interruption Intake := do
  let k ← (← roles rules args).foldlM (step rules) start
  if k.waiting.isSome then throw .misuse
  return k

/-- Whether a setting was given. -/
def has (setting : Setting) (k : Intake) : Bool :=
  k.settings.any fun entry => entry.1 = setting

/-- The values given for a setting, in their order. -/
def values (setting : Setting) (k : Intake) : List String :=
  (k.settings.filter fun entry => entry.1 = setting).map (·.2)

/-- The value given last for a setting. -/
def value? (setting : Setting) (k : Intake) : Option String :=
  (k.values setting).getLast?

end Intake

end Templating.Command
