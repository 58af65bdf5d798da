import Templating.Fault
import Templating.Number.Numeral
import Templating.Value.Basic

/-!
# Accepting data as records

A decoder accepts a value as a piece of typed data or refuses it with all its issues. Decoders of
parts are combined so that the issues of every part are reported, in the order of the parts.

Some kinds of data are accepted in more than one form. A flag may also be one of twelve words,
the number one or zero. A measure may also be an integer, a truth value or a decimal text.

## Main definitions

* `Checked`: what a decoder returns; an applicative functor that collects issues.
* `Decode.text`, `Decode.flag`, `Decode.measure`, `Decode.scalar`, …: decoders of simple data.
* `Decode.listOf`, `Decode.mappingOf`, `Decode.optional`: decoders of compound data.
* `Decode.required`, `Decode.defaulted`, `Decode.openRecord`, `Decode.closedRecord`: decoders of
  records.
-/

namespace Templating

/-- Accepted data, or the issues that keep it from being accepted. It collects issues, where
`Except` would stop at the first. -/
inductive Checked (α : Type) where
  | accepted (a : α)
  | refused (issues : List Issue)
  deriving DecidableEq

namespace Checked

variable {α β : Type}

/-- Applies a function to accepted data. -/
def map (f : α → β) : Checked α → Checked β
  | accepted a => accepted (f a)
  | refused issues => refused issues

/-- Applies an accepted function to accepted data; issues of both are collected, those of the
function first. -/
def seq (f : Checked (α → β)) (a : Checked α) : Checked β :=
  match f, a with
  | accepted f, accepted a => accepted (f a)
  | accepted _, refused issues => refused issues
  | refused issues, accepted _ => refused issues
  | refused issues, refused more => refused (issues ++ more)

instance : Applicative Checked where
  pure := accepted
  map f a := a.map f
  seq f a := f.seq (a ())

/-- The same outcome as seen one level further out. -/
def under (step : PlaceStep) : Checked α → Checked α
  | accepted a => accepted a
  | refused issues => refused (issues.map (Issue.under step))

/-- Refuses data for one issue with the data itself. -/
def refuse (kind : IssueKind) : Checked α :=
  refused [⟨[], kind⟩]

/-- The outcomes of several parts as one, with the issues of all of them. -/
def collect : List (Checked α) → Checked (List α)
  | [] => pure []
  | a :: rest => List.cons <$> a <*> collect rest

/-- Accepted data only if no issue stands against it. -/
def against (issues : List Issue) (a : Checked α) : Checked α :=
  match issues with
  | [] => a
  | issues => (fun (a : α) (_ : Unit) => a) <$> a <*> refused issues

/-- Accepted data, or a fault with the issues. -/
def toExcept : Checked α → Except Fault α
  | accepted a => .ok a
  | refused issues => .error (.refusedRecord issues)

end Checked

namespace Decode

variable {α : Type}

/-! ### Simple data -/

/-- Accepts a text. -/
def text : Value → Checked String
  | .text s => .accepted s
  | _ => .refuse .notText

/-- The words for true and for false that a flag may be written with. -/
def flagWord? (word : String) : Option Bool :=
  if ["1", "on", "t", "true", "y", "yes"].contains word then some true
  else if ["0", "off", "f", "false", "n", "no"].contains word then some false
  else none

/-- The flag that an integer stands for. -/
def flagOfInt (i : Int) : Checked Bool :=
  if i = 0 then .accepted false
  else if i = 1 then .accepted true
  else .refuse .unreadableBool

/-- Accepts a truth value, a word for one in any case (`flagWord?`), and one and zero. A floating
point number is considered only if it is whole and fits into 64 bits. -/
def flag : Value → Checked Bool
  | .bool b => .accepted b
  | .text s =>
    match flagWord? (String.ofList (s.toList.map Char.toLower)) with
    | some b => .accepted b
    | none => .refuse .unreadableBool
  | .number (.int i) => flagOfInt i
  | .number (.binary x) =>
    match x.toInt? with
    | some i => if i.natAbs < Nat.pow 2 63 then flagOfInt i else .refuse .notBool
    | none => .refuse .notBool
  | _ => .refuse .notBool

/-- The text without its underscores, if it has any, none of them at an end or beside another. -/
def withoutUnderscores? (cs : List Char) : Option (List Char) :=
  if cs.head? = some '_' ∨ cs.getLast? = some '_' ∨ ¬ cs.contains '_' ∨ hasDouble cs then none
  else some (cs.filter (· ≠ '_'))
where
  /-- Whether two underscores stand side by side. -/
  hasDouble : List Char → Bool
    | '_' :: '_' :: _ => true
    | _ :: cs => hasDouble cs
    | [] => false

/-- The number that a text in plain ASCII denotes, with no blank around it. -/
def plainDecimal? (cs : List Char) : Option Binary64 :=
  if cs.all fun c => c.toNat < 0x80 && !Numeral.isPadding c && c != '_' then Numeral.decimal? cs
  else none

/-- The number that a text denotes: blank characters around it are passed over, or else the
underscores within it. -/
def decimalText? (cs : List Char) : Option Binary64 :=
  (plainDecimal? (Numeral.unpadded cs)).or ((withoutUnderscores? cs).bind plainDecimal?)

/-- Accepts a floating point number, an integer that is not too large to be one, a truth value as
one or zero, and a decimal text (`decimalText?`). -/
def number : Value → Checked Binary64
  | .number (.binary x) => .accepted x
  | .number (.int i) =>
    match Binary64.ofInt? i with
    | some x => .accepted x
    | none => .refuse .notNumber
  | .bool b => .accepted (.ofInt (if b then 1 else 0))
  | .text s =>
    match decimalText? s.toList with
    | some x => .accepted x
    | none => .refuse .unreadableNumber
  | _ => .refuse .notNumber

/-- Accepts a number that is not below zero; not-a-number is not below zero. -/
def measure (v : Value) : Checked Binary64 :=
  match number v with
  | .accepted x => if (Number.binary x).less (.int 0) then .refuse .tooSmall else .accepted x
  | .refused issues => .refused issues

/-- Accepts a scalar. Anything else is none of the four kinds of scalars. -/
def scalar (v : Value) : Checked Scalar :=
  match v.scalar? with
  | some s => .accepted s
  | none =>
    .refused [⟨[.key "bool"], .notBool⟩, ⟨[.key "int"], .notInteger⟩,
      ⟨[.key "float"], .notNumber⟩, ⟨[.key "str"], .notText⟩]

/-- Accepts a text that is the name of one of several choices. -/
def choice (choices : List (String × α)) : Value → Checked α
  | .text s =>
    match choices.lookup s with
    | some a => .accepted a
    | none => .refuse .noChoice
  | _ => .refuse .noChoice

/-! ### Compound data -/

/-- Accepts a list whose items are accepted, and tells the place of an issue by its index. -/
def listOf (item : Value → Checked α) : Value → Checked (List α)
  | .list items => .collect (items.zipIdx.map fun (v, i) => (item v).under (.index i))
  | _ => .refuse .notList

/-- Accepts a mapping whose values are accepted, and tells the place of an issue by its key. -/
def mappingOf (item : Value → Checked α) : Value → Checked (List (String × α))
  | .mapping entries =>
    .collect (entries.map fun (key, v) => (item v).under (.key key) |>.map fun a => (key, a))
  | _ => .refuse .notMapping

/-- Accepts `null` as well, as no data. -/
def optional (item : Value → Checked α) : Value → Checked (Option α)
  | .null => .accepted none
  | v => (item v).map some

/-! ### Records -/

/-- A field that has to be there. -/
def required (name : String) (item : Value → Checked α) (entries : Entries) : Checked α :=
  match entries.get? name with
  | some v => (item v).under (.key name)
  | none => .refused [⟨[.key name], .missing⟩]

/-- A field that has a default where it is not there. -/
def defaulted (name : String) (item : Value → Checked α) (default : α) (entries : Entries) :
    Checked α :=
  match entries.get? name with
  | some v => (item v).under (.key name)
  | none => .accepted default

/-- Accepts a mapping with the given fields; other keys are passed over, where `closedRecord`
refuses them. -/
def openRecord (fields : Entries → Checked α) : Value → Checked α
  | .mapping entries => fields entries
  | _ => .refuse .notRecord

/-- The issues of keys that no field of a record has. -/
def unknownKeys (names : List String) (entries : Entries) : List Issue :=
  (entries.filter fun entry => !names.contains entry.1).map fun entry =>
    ⟨[.key entry.1], .unknownKey⟩

/-- Accepts a mapping with the given fields and no other keys. -/
def closedRecord (names : List String) (fields : Entries → Checked α) : Value → Checked α
  | .mapping entries => .against (unknownKeys names entries) (fields entries)
  | _ => .refuse .notRecord

end Decode

end Templating
