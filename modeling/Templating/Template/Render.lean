import Templating.Template.Conditional
import Templating.Template.Variables
import Templating.Value.Inserted

/-!
# Rendering a template

A template is rendered in two steps: its conditional spans are resolved, and in the text that
results every placeholder with a supplied variable is replaced by the text of its value.
Placeholders without a supplied variable stay as they are, and inserted texts are not scanned
again.

## Main definitions

* `substitute`: a text with its placeholders replaced.
* `renderText`: a template rendered in a configuration.
-/

namespace Templating.Template

/-- What a token becomes where values are inserted: the text of the value that it names
(`Value.inserted`), or its own text. -/
def Token.replacement (configuration : Value) (t : Token) : Except Fault String :=
  match t.reference? with
  | none => .ok t.text
  | some name =>
    match configuration.resolve name with
    | none => .ok t.text
    | some v => if v.isNull then .ok t.text else v.inserted

/-- A text with values inserted for its placeholders, token by token (`Token.replacement`). -/
def substitute (text : String) (configuration : Value) : Except Fault String := do
  let parts ← (tokenize text).mapM (Token.replacement configuration)
  return Text.concat parts

/-- A rendered template: its spans are resolved first (`resolveConditionals`), and then values are
inserted (`substitute`). -/
def renderText (template : String) (configuration : Value) : Except Fault String := do
  let resolved ← resolveConditionals template configuration
  substitute resolved configuration

end Templating.Template
