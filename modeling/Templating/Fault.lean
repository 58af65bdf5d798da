import Templating.Record.Issue

/-!
# What can go wrong

Every operation of the library that can fail does so with a `Fault`: one cause out of a fixed
list, with the data that its message shows. The wording of each message is fixed in one place,
`Fault.message`. Causes that stem from the limits of numbers or of the file system carry no
message of their own.

## Main definitions

* `GuardFault`: why a guard cannot be read.
* `ConfigurationFault`: why a configuration cannot be built.
* `Fault`: the causes.
* `Fault.message`: the wording.
-/

namespace Templating

/-- Why a guard cannot be read. Positions count the characters before the place. -/
inductive GuardFault where
  | unexpectedCharacter (c : Char) (position : Nat)
  | empty
  | unexpected (lexeme : String) (position : Nat)
  | closingExpected (position : Nat)
  | unexpectedEnd (position : Nat)
  | nestedTooDeeply (position : Nat)
  deriving DecidableEq

/-- The wording of a guard fault, as it stands in an error and in the notice of an unreadable guard
(`Notice.unreadableGuard`). -/
def GuardFault.message : GuardFault → String
  | unexpectedCharacter c position =>
    "unexpected character '" ++ String.singleton c ++ "' at position " ++ position.repr
  | empty => "empty expression"
  | unexpected lexeme position => "unexpected '" ++ lexeme ++ "' at position " ++ position.repr
  | closingExpected position => "expected ')' at position " ++ position.repr
  | unexpectedEnd position => "unexpected end of expression at position " ++ position.repr
  | nestedTooDeeply position => "expression nested too deeply at position " ++ position.repr

/-- Why a configuration cannot be built. -/
inductive ConfigurationFault where
  | notBoolean (option value : String)
  | notNumber (option value : String)
  | notAmongChoices (option : String) (choices : List String)
  | valueRequired (option : String)
  /-- A value that is no mapping stands where the key leads on below it. -/
  | conflictAbove (key segment : String)
  /-- A mapping stands where the key ends, and the value is none. -/
  | conflictBelow (key : String)
  | emptyKey
  deriving DecidableEq

/-- The wording of a configuration fault, with the option or the key that it is about. -/
def ConfigurationFault.message : ConfigurationFault → String
  | notBoolean option value => "option '" ++ option ++ "' expects a boolean, got '" ++ value ++ "'"
  | notNumber option value => "option '" ++ option ++ "' expects a number, got '" ++ value ++ "'"
  | notAmongChoices option choices =>
    "option '" ++ option ++ "' must be one of: " ++ String.intercalate ", " choices
  | valueRequired option => "option '" ++ option ++ "' requires a value"
  | conflictAbove key segment =>
    "'" ++ key ++ "' conflicts with the value already set for '" ++ segment ++ "'"
  | conflictBelow key => "'" ++ key ++ "' conflicts with nested values already set beneath it"
  | emptyKey => "configuration keys must not be empty"

/-- Why a file system refuses an operation. Its wording is not given: it is the file system's
own. -/
inductive SystemFault where
  | notFound
  /-- A file stands where a directory is to be made. -/
  | alreadyThere (path : String)
  | notDirectory
  | isDirectory
  | nameTooLong
  | nullCharacter
  | noHomeDirectory
  deriving DecidableEq

/-- Why an operation failed. Every computation that may fail has one of these as its error. -/
inductive Fault where
  /-- A guard cannot be read. -/
  | guard (fault : GuardFault)
  /-- An integer has more digits than are ever read or written. -/
  | integerTooLong
  /-- An integer lies beyond the floating point numbers where its truth was asked for. -/
  | numberTooLarge
  /-- A conditional span is closed while none is open. -/
  | noOpenSpan
  /-- A cache is to hold fewer than one entry. -/
  | cacheSizeNotPositive
  /-- The entries of a cache are to have no lifetime. -/
  | cacheLifetimeNotPositive
  /-- A configuration cannot be built. -/
  | configuration (fault : ConfigurationFault)
  /-- Data does not have the shape of a record. -/
  | refusedRecord (issues : List Issue)
  /-- What is checked as a bundle is no mapping but a value of the named kind. -/
  | bundleNotMapping (kind : String)
  /-- A value that has to hold several others is of another kind. -/
  | notIterable
  /-- A list that has to hold pairs holds something of another length. -/
  | notPair
  /-- A text that looks like a number cannot be read as one. -/
  | unreadableNumber
  /-- A text that has to be a key, an equality sign and a value lacks the sign. -/
  | notKeyValue (pair : String)
  /-- The key before the equality sign is blank. -/
  | blankKey
  /-- A text is not JSON. -/
  | malformedJson
  /-- A JSON text is no mapping. -/
  | jsonNotMapping (path : String)
  /-- A bundle with errors is to be written. -/
  | invalidBundle (templateId : String) (errors : Nat)
  /-- A bundle that is no mapping is asked for its name. -/
  | bundleWithoutName
  /-- A rendered path leads out of the target directory. -/
  | outsideTarget (path target : String)
  /-- A file is to be written where something exists already. -/
  | alreadyExists (path : String)
  /-- The file system refuses an operation. -/
  | system (fault : SystemFault)
  /-- What is to be rendered is no text but a value of the named kind. -/
  | templateNotText (kind : String)
  /-- What is rendered against is no mapping but a value of the named kind. -/
  | configurationNotMapping (kind : String)
  deriving DecidableEq

/-- The wording of a fault. -/
def Fault.message : Fault → String
  | guard fault => fault.message
  | integerTooLong => ""
  | numberTooLarge => ""
  | noOpenSpan => ""
  | cacheSizeNotPositive => "max_size must be a positive integer or None"
  | cacheLifetimeNotPositive => "ttl must be positive or None"
  | configuration fault => fault.message
  | refusedRecord issues => Issue.messages issues
  | bundleNotMapping kind => "bundle must be a mapping or TemplateBundle, not " ++ kind
  | notIterable => ""
  | notPair => ""
  | unreadableNumber => ""
  | notKeyValue pair => "invalid key/value pair '" ++ pair ++ "'. Expected KEY=VALUE syntax."
  | blankKey => "keys must not be empty"
  | malformedJson => ""
  | jsonNotMapping path => path ++ " does not contain a JSON object"
  | invalidBundle templateId errors =>
    "template '" ++ templateId ++ "' failed validation with " ++ errors.repr ++ " error(s)"
  | bundleWithoutName => ""
  | outsideTarget path target => path ++ " resolves outside " ++ target
  | alreadyExists path => path ++ " already exists"
  | system _ => ""
  | templateNotText kind => "template must be a str, not " ++ kind
  | configurationNotMapping kind => "configuration must be a mapping, not " ++ kind

end Templating
