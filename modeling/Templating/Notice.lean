import Templating.Fault
import Templating.Files.PathName
import Templating.Text.Quoted

/-!
# Notices

A notice tells what an operation did on the way that its result does not show. The operations
themselves give none: what they would give notice of is computed beside them where it is asked
for.

## Main definitions

* `Notice`: the notices.
* `Notice.text`: a notice as a line of a log.
-/

namespace Templating

/-- Something that an operation did on the way, told to whoever keeps a log. -/
inductive Notice where
  /-- A guard that cannot be read counts as false. -/
  | unreadableGuard (guard : String) (fault : GuardFault)
  /-- An opening tag without a partner stays as it is. -/
  | unmatchedOpening (position : Nat)
  /-- A closing tag without a partner stays as it is. -/
  | unmatchedClosing (position : Nat)
  /-- The guard of a file is false. -/
  | skippedFile (path condition : String)
  /-- A bundle has been checked. -/
  | checked (templateId : String) (errors warnings : Nat)
  /-- A file has been written. -/
  | wrote (location : Location)
  deriving DecidableEq

/-- A text between quotes, with escapes where it needs them (`Text.quotedChars`). -/
def quotedText (s : String) : String :=
  String.ofList (Text.quotedChars s.toList)

/-- A notice as a line of a log, with the level of the notice and the part of the program that
gives it. -/
def Notice.text : Notice → String
  | unreadableGuard guard fault =>
    "DEBUG stencil.expression: treating unparsable guard " ++ quotedText guard ++ " as false: "
      ++ fault.message
  | unmatchedOpening position =>
    "DEBUG stencil.conditionals: unmatched if at offset " ++ position.repr ++ " left verbatim"
  | unmatchedClosing position =>
    "DEBUG stencil.conditionals: unmatched endif at offset " ++ position.repr ++ " left verbatim"
  | skippedFile path condition =>
    "DEBUG stencil.bundle: skipping " ++ path ++ ": condition " ++ quotedText condition
      ++ " not met"
  | checked templateId errors warnings =>
    "DEBUG stencil.validator: validated template " ++ templateId ++ ": " ++ errors.repr
      ++ " error(s), " ++ warnings.repr ++ " warning(s)"
  | wrote location => "INFO stencil.scaffold: wrote " ++ location.text

end Templating
