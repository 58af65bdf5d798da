import Templating.Guard.Parse
import Templating.Template.Token
import Templating.Value.Path

/-!
# Variables of a template

The variables of a template are the names in its placeholders. A name is a letter or underscore
followed by letters, digits, underscores and dots; a placeholder with any other content names
no variable. The paths that the guards of a template read are listed separately.

## Main definitions

* `isVariableName`: the shape of a name.
* `variableNames`: the variables of a template.
* `missingVariables`: those for which a configuration has no value.
* `guardPaths`: the paths that the guards of a template read.
-/

namespace Templating.Template

open Templating.Text

/-- Whether a character may begin a variable name. -/
def startsVariable (c : Char) : Bool :=
  c.isAlpha || c == '_'

/-- Whether a character may stand inside a variable name. -/
def inVariable (c : Char) : Bool :=
  c.isAlphanum || c == '_' || c == '.'

/-- Whether a text has the shape of a variable name. One line feed at its end is allowed
(`withoutFinalNewline`). -/
def isVariableName (s : String) : Bool :=
  match withoutFinalNewline s.toList with
  | [] => false
  | c :: cs => startsVariable c && cs.all inVariable

namespace Token

/-- The variable that a token names; none for other tokens and for misshapen names
(`isVariableName`), which stay in the text. -/
def reference? (t : Token) : Option String :=
  match t.shape with
  | .placeholder inner =>
    let name := String.ofList (trim inner)
    if isVariableName name then some name else none
  | _ => none

end Token

/-- The variables of a template (`Token.reference?`), each once, in order of first occurrence. -/
def variableNames (template : String) : List String :=
  ((tokenize template).filterMap Token.reference?).eraseDups

/-- Whether what stands at a path can be inserted: it is there and is not `null`. -/
def isSupplied : Option Value → Bool
  | none => false
  | some v => !v.isNull

/-- The variables of a template for which a configuration has no value. -/
def missingVariables (template : String) (configuration : Value) : List String :=
  (variableNames template).filter fun name => !isSupplied (configuration.resolve name)

/-- The paths that the guard of a token reads. A guard that cannot be read contributes none. -/
def Token.guardPaths (t : Token) : Except Fault (List String) :=
  match t.tag? with
  | some (.opening guard) =>
    match Guard.parse guard with
    | .ok e => .ok e.paths
    | .error (.guard _) => .ok []
    | .error fault => .error fault
  | _ => .ok []

/-- The paths that the guards of a template read (`Token.guardPaths`), each once, in order of first
occurrence. Tags without a partner count as well. -/
def guardPaths (template : String) : Except Fault (List String) := do
  let paths ← (tokenize template).mapM Token.guardPaths
  return paths.flatten.eraseDups

end Templating.Template
