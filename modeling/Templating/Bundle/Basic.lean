import Templating.Record.Checked

/-!
# Bundles

A bundle is a named set of file templates with the options that a user may set. Each file has a
path, which is a template itself, a body, and optionally a guard that decides whether the file is
generated and a flag that allows it to replace an existing one.

A bundle is accepted from a mapping; keys that it does not know are passed over. Written back as
a value it has all its fields, in the order of their declaration.

## Main definitions

* `OptionDecl`, `FileDecl`, `Bundle`: the records, each with `decode` and `encode`.
* `Bundle.encodeBrief`: the bundle as a value without the fields that are not set.
-/

namespace Templating

/-- The text as a value. -/
def encodeTexts (ss : List String) : Value :=
  .list (ss.map .text)

/-- A value that may be absent; `null` if it is. -/
def encodeOptional {α : Type} (encode : α → Value) : Option α → Value
  | none => .null
  | some a => encode a

/-! ### Options -/

/-- The type of an option's value. -/
inductive OptionKind where
  | string
  | boolean
  | number
  | select
  deriving DecidableEq

namespace OptionKind

/-- The name of the type. -/
def name : OptionKind → String
  | string => "string"
  | boolean => "boolean"
  | number => "number"
  | select => "select"

/-- The types by name, as `Decode.choice` reads them. -/
def choices : List (String × OptionKind) :=
  [string, boolean, number, select].map fun k => (k.name, k)

end OptionKind

/-- A parameter that a user may set: its type, its default and what it may be set to. -/
structure OptionDecl where
  name : String
  kind : OptionKind
  description : String
  default : Option Scalar
  choices : Option (List String)
  required : Bool
  deriving DecidableEq

namespace OptionDecl

/-- Accepts a mapping as an option. -/
def decode : Value → Checked OptionDecl :=
  Decode.openRecord fun entries =>
    OptionDecl.mk
      <$> Decode.required "name" Decode.text entries
      <*> Decode.required "type" (Decode.choice OptionKind.choices) entries
      <*> Decode.required "description" Decode.text entries
      <*> Decode.defaulted "default" (Decode.optional Decode.scalar) none entries
      <*> Decode.defaulted "choices" (Decode.optional (Decode.listOf Decode.text)) none entries
      <*> Decode.defaulted "required" Decode.flag false entries

/-- The option as a value. -/
def encode (o : OptionDecl) : Value :=
  .mapping [("name", .text o.name), ("type", .text o.kind.name),
    ("description", .text o.description), ("default", encodeOptional Scalar.value o.default),
    ("choices", encodeOptional encodeTexts o.choices), ("required", .bool o.required)]

end OptionDecl

/-! ### Files -/

/-- A file template. Its path and its body are templates, too, and its condition is a guard. -/
structure FileDecl where
  path : String
  content : String
  overwrite : Option Bool
  condition : Option String
  deriving DecidableEq

namespace FileDecl

/-- Accepts a mapping as a file template. -/
def decode : Value → Checked FileDecl :=
  Decode.openRecord fun entries =>
    FileDecl.mk
      <$> Decode.required "path" Decode.text entries
      <*> Decode.required "content" Decode.text entries
      <*> Decode.defaulted "overwrite" (Decode.optional Decode.flag) none entries
      <*> Decode.defaulted "condition" (Decode.optional Decode.text) none entries

/-- The file template as a value. -/
def encode (f : FileDecl) : Value :=
  .mapping [("path", .text f.path), ("content", .text f.content),
    ("overwrite", encodeOptional .bool f.overwrite),
    ("condition", encodeOptional .text f.condition)]

end FileDecl

/-! ### Bundles -/

/-- A named set of file templates with its options. -/
structure Bundle where
  name : String
  description : String
  version : String
  files : List FileDecl
  options : List OptionDecl
  deriving DecidableEq

namespace Bundle

/-- Accepts a mapping as a bundle. -/
def decode : Value → Checked Bundle :=
  Decode.openRecord fun entries =>
    Bundle.mk
      <$> Decode.required "name" Decode.text entries
      <*> Decode.required "description" Decode.text entries
      <*> Decode.required "version" Decode.text entries
      <*> Decode.required "files" (Decode.listOf FileDecl.decode) entries
      <*> Decode.defaulted "options" (Decode.listOf OptionDecl.decode) [] entries

/-- The bundle as a value. -/
def encode (b : Bundle) : Value :=
  .mapping [("name", .text b.name), ("description", .text b.description),
    ("version", .text b.version), ("files", .list (b.files.map FileDecl.encode)),
    ("options", .list (b.options.map OptionDecl.encode))]

end Bundle

/-! ### Brief forms -/

namespace Value

mutual

/-- The value without the mapping entries, at any depth, that hold `null`. -/
def withoutNulls : Value → Value
  | list items => list (withoutNullsInItems items)
  | mapping entries => mapping (withoutNullsInEntries entries)
  | v => v

/-- The part of `Value.withoutNulls` for the items of a list, all of which stay. -/
def withoutNullsInItems : List Value → List Value
  | [] => []
  | v :: rest => v.withoutNulls :: withoutNullsInItems rest

/-- The part of `Value.withoutNulls` for the entries of a mapping. -/
def withoutNullsInEntries : List (String × Value) → List (String × Value)
  | [] => []
  | (_, null) :: rest => withoutNullsInEntries rest
  | (key, v) :: rest => (key, v.withoutNulls) :: withoutNullsInEntries rest

end

end Value

/-- The bundle as a value without the fields that are not set (`Value.withoutNulls`). -/
def Bundle.encodeBrief (b : Bundle) : Value :=
  b.encode.withoutNulls

end Templating
