/-!
# Issues of records

Data from outside is accepted as a record only if it has the record's shape. What keeps it from
being one is listed as issues, each with the place in the data and the kind of the issue.

## Main definitions

* `Issue`: an issue at a place.
* `Issue.message`: its wording.
-/

namespace Templating

/-- One step into nested data: the key of a mapping or the index of a list. -/
inductive PlaceStep where
  | key (name : String)
  | index (i : Nat)
  deriving DecidableEq

/-- The text of a step. -/
def PlaceStep.text : PlaceStep → String
  | key name => name
  | index i => i.repr

/-- What is wrong with a piece of data. -/
inductive IssueKind where
  | missing
  | notText
  | notList
  | notMapping
  | notRecord
  | notBool
  | unreadableBool
  | notInteger
  | notNumber
  | unreadableNumber
  | noChoice
  | tooSmall
  | unknownKey
  deriving DecidableEq

/-- The name of a kind of issue. -/
def IssueKind.name : IssueKind → String
  | missing => "missing"
  | notText => "string_type"
  | notList => "list_type"
  | notMapping => "dict_type"
  | notRecord => "model_type"
  | notBool => "bool_type"
  | unreadableBool => "bool_parsing"
  | notInteger => "int_type"
  | notNumber => "float_type"
  | unreadableNumber => "float_parsing"
  | noChoice => "literal_error"
  | tooSmall => "greater_than_equal"
  | unknownKey => "extra_forbidden"

/-- An issue at a place, which is given by the steps that lead to it from the outside. -/
structure Issue where
  place : List PlaceStep
  kind : IssueKind
  deriving DecidableEq

namespace Issue

/-- The issue as it appears one level further out, with one more step in front. -/
def under (step : PlaceStep) (issue : Issue) : Issue :=
  { issue with place := step :: issue.place }

/-- The wording of an issue: its place, with dots between the steps, and its kind. -/
def message (issue : Issue) : String :=
  String.intercalate "." (issue.place.map PlaceStep.text) ++ ": " ++ issue.kind.name

/-- The wording of several issues. -/
def messages (issues : List Issue) : String :=
  String.intercalate "; " (issues.map message)

end Issue

end Templating
