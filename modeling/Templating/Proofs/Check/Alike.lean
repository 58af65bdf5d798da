import Templating.Check.Bundle
import Templating.Proofs.Outcome
import Templating.Proofs.Record.Fields

/-!
# Checking a bundle and the data it comes from

A bundle that was accepted as a record is checked in its brief form, in which fields that are not
set are left out and keys that no field has are gone. The check reads a field in the same way
whether it is absent or holds nothing, and it never looks at a key that no field has. So the data
that a bundle was accepted from is checked with the same outcome, as long as the flags of its files
are truth values: a flag that is written in another form is an error in the data, and a truth value
in the record.

## Main definitions

* `FilesAlike`, `OptionsAlike`, `BundlesAlike`: mappings that the check cannot tell apart.
* `HasPlainFlags`: the flags of the files of a bundle are truth values.

## Main results

* `checkEntry_congr`, `checkOption_congr`: the checks of alike files and options.
* `BundlesAlike.checkBundle_eq`: the check of alike bundles.
* `BundlesAlike.of_decode`: a bundle in its brief form is alike to the data it was accepted from.
* `checkBundle_of_record`: the two are checked with the same outcome.
-/

namespace Templating

/-- Two values are mappings in a relation `Alike`, which is `FilesAlike` or `OptionsAlike` below. -/
def MappingsAlike (Alike : Entries → Entries → Prop) (v w : Value) : Prop :=
  ∃ entries entries', v = .mapping entries ∧ w = .mapping entries' ∧ Alike entries entries'

section Lists

variable {ε α β : Type} {Alike : α → α → Prop} {xs ys : List α}

/-- A computation that does not tell alike items apart does not tell lists of them apart. Induction
on the pairs of alike items. -/
theorem mapM_eq_of_forall₂ (f : α → Except ε β) (hf : ∀ x y, Alike x y → f x = f y)
    (h : List.Forall₂ Alike xs ys) : xs.mapM f = ys.mapM f := by
  induction h with
  | nil => rfl
  | cons hfirst _ ih => rw [List.mapM_cons, List.mapM_cons, hf _ _ hfirst, ih]

theorem filterMap_eq_of_forall₂ (f : α → Option β) (hf : ∀ x y, Alike x y → f x = f y)
    (h : List.Forall₂ Alike xs ys) : xs.filterMap f = ys.filterMap f := by
  induction h with
  | nil => rfl
  | cons hfirst _ ih => rw [List.filterMap_cons, List.filterMap_cons, hf _ _ hfirst, ih]

end Lists

/-! ### Files -/

/-- Two mappings have the same path and body, and the same flag and guard if they have any. Other
keys are not looked at, and `given` does not tell a field that holds nothing from one that is
absent. -/
structure FilesAlike (file file' : Entries) : Prop where
  path : file.get? "path" = file'.get? "path"
  content : file.get? "content" = file'.get? "content"
  overwrite : given (file.get? "overwrite") = given (file'.get? "overwrite")
  condition : given (file.get? "condition") = given (file'.get? "condition")

section Files

variable {limits : Limits} {v w : Value} {files files' : List Value}

/-- **Alike files are checked with the same outcome.** Flag and guard are looked at by functions to
which nothing is the same as an absent field (`eq_of_given_eq`). -/
theorem checkEntry_congr (h : MappingsAlike FilesAlike v w) :
    checkEntry limits v = checkEntry limits w := by
  obtain ⟨file, file', rfl, rfl, hpath, hcontent, hoverwrite, hcondition⟩ := h
  rw [checkEntry, checkEntry, hpath, hcontent, eq_of_given_eq overwriteErrors rfl hoverwrite,
    eq_of_given_eq conditionErrors rfl hcondition]

/-- The bodies of alike files are checked with the same outcome. -/
theorem checkEntryBody_congr (h : MappingsAlike FilesAlike v w) :
    checkEntryBody limits v = checkEntryBody limits w := by
  obtain ⟨file, file', rfl, rfl, hpath, hcontent, -, -⟩ := h
  simp only [checkEntryBody, Value.entry?, hpath, hcontent]

theorem entryPath?_congr (h : MappingsAlike FilesAlike v w) : entryPath? v = entryPath? w := by
  obtain ⟨file, file', rfl, rfl, hpath, -, -, -⟩ := h
  simp only [entryPath?, Value.entry?, hpath]

theorem repeatedPathErrors_congr (h : List.Forall₂ (MappingsAlike FilesAlike) files files') :
    repeatedPathErrors files = repeatedPathErrors files' := by
  rw [repeatedPathErrors, repeatedPathErrors, repeatedPaths, repeatedPaths,
    filterMap_eq_of_forall₂ entryPath? (fun _ _ => entryPath?_congr) h]

/-- The walk over the entries does not tell alike files apart. Induction on the pairs, for any
number and any findings so far. -/
theorem checkEntriesFrom_congr (h : List.Forall₂ (MappingsAlike FilesAlike) files files') :
    ∀ (number : Nat) (found : FileFindings),
      checkEntriesFrom limits number found files = checkEntriesFrom limits number found files' := by
  induction h with
  | nil => exact fun _ _ => rfl
  | cons hfirst _ ih =>
    intro number found
    rw [checkEntriesFrom, checkEntriesFrom, checkEntry_congr hfirst, entryKey, entryKey,
      entryPath?_congr hfirst]
    exact bind_congr fun f => ih _ _

end Files

/-! ### Options -/

/-- Two mappings have the same name, type and description, and the same default and choices if they
have any. The flag is not among them: the check never looks at it. -/
structure OptionsAlike (option option' : Entries) : Prop where
  name : option.get? "name" = option'.get? "name"
  kind : option.get? "type" = option'.get? "type"
  description : option.get? "description" = option'.get? "description"
  default : given (option.get? "default") = given (option'.get? "default")
  choices : given (option.get? "choices") = given (option'.get? "choices")

section Options

variable {v w : Value} {options options' : List Value}

/-- **Alike options are checked with the same outcome**, for any names met before. Default and
choices are looked at by functions to which nothing is the same as an absent field. -/
theorem checkOption_congr (h : MappingsAlike OptionsAlike v w) (seen : SeenNames) (number : Nat) :
    checkOption seen number v = checkOption seen number w := by
  obtain ⟨option, option', rfl, rfl, hname, hkind, hdescription, hdefault, hchoices⟩ := h
  have hdefaults (label : String) (kind : Option OptionKind) (choices : List Value) :
      defaultWarnings label kind (Entries.get? "default" option) choices
        = defaultWarnings label kind (Entries.get? "default" option') choices :=
    eq_of_given_eq (defaultWarnings label kind · choices) (by cases kind <;> rfl) hdefault
  simp only [checkOption, hname, hkind, hdescription, hdefaults,
    eq_of_given_eq choicesOfField rfl hchoices]

/-- Alike options have the same name, which is all that the walk over options remembers of them. -/
theorem declaredName_congr (h : MappingsAlike OptionsAlike v w) :
    declaredName v = declaredName w := by
  obtain ⟨option, option', rfl, rfl, hname, -⟩ := h
  exact hname

/-- The walk over the options does not tell alike ones apart. Induction on the pairs, for any names
met so far. -/
theorem checkOptions_congr (h : List.Forall₂ (MappingsAlike OptionsAlike) options options') :
    checkOptions options = checkOptions options' := by
  have hfrom : ∀ (seen : SeenNames) (number : Nat),
      checkOptionsFrom seen number options = checkOptionsFrom seen number options' := by
    induction h with
    | nil => exact fun _ _ => rfl
    | cons hfirst _ ih =>
      intro seen number
      rw [checkOptionsFrom, checkOptionsFrom, checkOption_congr hfirst, declaredName_congr hfirst,
        ih]
  rw [checkOptions, checkOptions, hfrom]

end Options

/-! ### Bundles -/

/-- The options that a field lists; a field that is not there lists none. The data may leave the
field out where the record has an empty list. -/
inductive ListsOptions : Option Value → List Value → Prop where
  | absent : ListsOptions none []
  | list (options : List Value) : ListsOptions (some (.list options)) options

/-- Two mappings have the same name, description and version, and list files and options that are
alike, pair by pair. -/
structure BundlesAlike (bundle bundle' : Entries) : Prop where
  texts : ∀ name ∈ textFields, bundle.get? name = bundle'.get? name
  files : ∃ files files', bundle.get? "files" = some (.list files)
    ∧ bundle'.get? "files" = some (.list files')
    ∧ List.Forall₂ (MappingsAlike FilesAlike) files files'
  options : ∃ options options', ListsOptions (bundle.get? "options") options
    ∧ ListsOptions (bundle'.get? "options") options'
    ∧ List.Forall₂ (MappingsAlike OptionsAlike) options options'

/-- A key is there exactly if something is found under it. -/
theorem Entries.has_eq_isSome_get? (key : String) (entries : Entries) :
    entries.has key = (entries.get? key).isSome := by
  rw [has, get?]
  induction entries with
  | nil => rfl
  | cons entry rest ih =>
    obtain ⟨key', v⟩ := entry
    rw [List.any_cons, ih, List.lookup_cons]
    by_cases h : key = key'
    · simp [h]
    · rw [beq_eq_false_iff_ne.2 h, beq_eq_false_iff_ne.2 (Ne.symm h), Bool.false_or]

section Bundles

variable {limits : Limits} {bundle bundle' : Entries}

/-- A field is checked as the options that it lists are, and an absent one as an empty list. -/
theorem ListsOptions.checkOptionsField_eq {field : Option Value} {options : List Value}
    (h : ListsOptions field options) : checkOptionsField field = checkOptions options := by
  cases h <;> rfl

/-- A field that lists options is of no other kind than a list. -/
theorem ListsOptions.isOtherThanList_eq {field : Option Value} {options : List Value}
    (h : ListsOptions field options) : isOtherThanList field = false := by
  cases h <;> rfl

namespace BundlesAlike

theorem filesOf (h : BundlesAlike bundle bundle') :
    List.Forall₂ (MappingsAlike FilesAlike) (filesOf bundle) (Templating.filesOf bundle') := by
  obtain ⟨files, files', hfiles, hfiles', halike⟩ := h.files
  rwa [Templating.filesOf, Templating.filesOf, hfiles, hfiles']

/-- The metadata of alike bundles is checked with the same outcome: the fields that have to be there
are, in both, and those of text are equal. -/
theorem checkMetadata_eq (h : BundlesAlike bundle bundle') :
    checkMetadata bundle = checkMetadata bundle' := by
  obtain ⟨files, files', hfiles, hfiles', -⟩ := h.files
  obtain ⟨options, options', hoptions, hoptions', -⟩ := h.options
  have hhas : ∀ name ∈ requiredFields, (!bundle.has name) = !bundle'.has name := by
    intro name hname
    rw [Entries.has_eq_isSome_get?, Entries.has_eq_isSome_get?]
    rcases List.mem_append.1 (show name ∈ textFields ++ ["files"] from hname) with htext | hlist
    · rw [h.texts name htext]
    · rw [List.mem_singleton.1 hlist, hfiles, hfiles']
      rfl
  have htexts : ∀ name ∈ textFields,
      isOtherThanText (bundle.get? name) = isOtherThanText (bundle'.get? name) :=
    fun name hname => by rw [h.texts name hname]
  rw [checkMetadata, checkMetadata, List.filter_congr hhas, List.filter_congr htexts, hfiles,
    hfiles', hoptions.isOtherThanList_eq, hoptions'.isOtherThanList_eq,
    h.texts "name" (by decide), h.texts "description" (by decide)]
  rfl

/-- What alike bundles declare is checked with the same outcome, their options among it
(`checkOptions_congr`). -/
theorem checkDeclarations_eq (h : BundlesAlike bundle bundle') :
    checkDeclarations limits bundle = checkDeclarations limits bundle' := by
  obtain ⟨files, files', hfiles, hfiles', hfilesAlike⟩ := h.files
  obtain ⟨options, options', hoptions, hoptions', hoptionsAlike⟩ := h.options
  have hblank : ∀ name ∈ textFields,
      isBlankField (bundle.get? name) = isBlankField (bundle'.get? name) :=
    fun name hname => by rw [h.texts name hname]
  have hitems : lacksItems (bundle.get? "files") = lacksItems (bundle'.get? "files") := by
    rw [hfiles, hfiles']
    cases hfilesAlike <;> rfl
  rw [checkDeclarations, checkDeclarations, List.filter_congr hblank, hitems,
    hoptions.checkOptionsField_eq, hoptions'.checkOptionsField_eq,
    checkOptions_congr hoptionsAlike, h.texts "name" (by decide), h.texts "description" (by decide),
    h.texts "version" (by decide)]

/-- The files of alike bundles are checked with the same outcome (`checkEntriesFrom_congr`,
`repeatedPathErrors_congr`). -/
theorem checkFiles_eq (h : BundlesAlike bundle bundle') :
    checkFiles limits bundle = checkFiles limits bundle' := by
  have halike := h.filesOf
  rw [checkFiles, checkFiles]
  generalize Templating.filesOf bundle = files at halike ⊢
  generalize Templating.filesOf bundle' = files' at halike ⊢
  cases halike with
  | nil => rfl
  | cons hfirst hrest =>
    dsimp only
    rw [repeatedPathErrors_congr (.cons hfirst hrest)]
    exact checkEntriesFrom_congr (.cons hfirst hrest) 1 _

/-- **Bundles that are alike are checked with the same outcome**, part by part. -/
theorem checkBundle_eq (h : BundlesAlike bundle bundle') (templateId : String) :
    checkBundle limits templateId bundle = checkBundle limits templateId bundle' := by
  rw [checkBundle, checkBundle, checkBodies, checkBodies,
    mapM_eq_of_forall₂ (checkEntryBody limits) (fun _ _ => checkEntryBody_congr) h.filesOf,
    h.checkDeclarations_eq, h.checkFiles_eq, h.checkMetadata_eq]

end BundlesAlike

end Bundles

/-! ### Brief forms -/

namespace Value

/-- `withoutNullsInItems` as a `List.map`. -/
theorem withoutNullsInItems_eq_map (items : List Value) :
    withoutNullsInItems items = items.map withoutNulls := by
  induction items with
  | nil => rfl
  | cons v rest ih => rw [withoutNullsInItems, List.map_cons, ih]

/-- A list of texts holds nothing that could be left out. -/
@[simp]
theorem withoutNulls_encodeTexts (ss : List String) :
    (encodeTexts ss).withoutNulls = encodeTexts ss := by
  rw [encodeTexts, withoutNulls, withoutNullsInItems_eq_map, List.map_map]
  rfl

end Value

/-- The brief form of a bundle has all fields of the bundle, none of which may be absent, with its
files and options in their brief forms. -/
theorem Bundle.encodeBrief_eq (b : Bundle) :
    b.encodeBrief = .mapping [("name", .text b.name), ("description", .text b.description),
      ("version", .text b.version),
      ("files", .list (b.files.map fun f => f.encode.withoutNulls)),
      ("options", .list (b.options.map fun o => o.encode.withoutNulls))] := by
  simp only [encodeBrief, encode, Value.withoutNulls, Value.withoutNullsInEntries,
    Value.withoutNullsInItems_eq_map, List.map_map, Function.comp_def]

/-- The brief form of a file is alike to the data it was accepted from, if its flag is a truth value
there (`hflag`). What the file holds is told by `FileDecl.isReadFrom_of_decode`. -/
theorem FileDecl.filesAlike_of_decode {v : Value} {f : FileDecl} (h : decode v = .accepted f)
    (hflag : ∀ w, v.entry? "overwrite" = some w → w = .null ∨ ∃ b, w = .bool b) :
    MappingsAlike FilesAlike v f.encode.withoutNulls := by
  obtain ⟨entries, rfl, hread⟩ := isReadFrom_of_decode h
  have hoverwrite : given (Entries.get? "overwrite" entries) = f.overwrite.map .bool := by
    rcases hread.overwrite with ⟨habsent, hnone⟩ | ⟨w, b, hw, hb, hsome⟩
    · rw [habsent, hnone, Option.map_none]
    · obtain ⟨hfield, hnull⟩ := Option.filter_eq_some_iff.1 hw
      obtain rfl | ⟨b', rfl⟩ := hflag w hfield
      · cases hnull
      · cases hb
        rw [hw, hsome, Option.map_some]
  refine ⟨entries, _, rfl, rfl, hread.path, hread.content, hoverwrite.trans ?_,
    hread.condition.trans ?_⟩
  · obtain ⟨path, content, overwrite, condition⟩ := f
    cases overwrite <;> cases condition <;> rfl
  · obtain ⟨path, content, overwrite, condition⟩ := f
    cases overwrite <;> cases condition <;> rfl

/-- The brief form of an option is alike to the data it was accepted from, in whatever form its flag
was given, since `OptionsAlike` does not ask for that. -/
theorem OptionDecl.optionsAlike_of_decode {v : Value} {o : OptionDecl}
    (h : decode v = .accepted o) : MappingsAlike OptionsAlike v o.encode.withoutNulls := by
  obtain ⟨entries, rfl, hread⟩ := isReadFrom_of_decode h
  refine ⟨entries, _, rfl, rfl, hread.name, hread.kind, hread.description,
    hread.default.trans ?_, hread.choices.trans ?_⟩
  · obtain ⟨name, kind, description, default, choices, required⟩ := o
    rcases default with - | (b | n | s) <;> cases choices <;> rfl
  · obtain ⟨name, kind, description, default, choices, required⟩ := o
    cases choices with
    | none => rcases default with - | (b | n | s) <;> rfl
    | some ss =>
      rw [Option.map_some, ← Value.withoutNulls_encodeTexts ss]
      rcases default with - | (b | n | s) <;> rfl

/-- The flags of the files of a bundle are truth values, where they are there and hold anything. A
flag in another form is an error in the data (`bool_of_overwriteErrors`) and none in the record. -/
def HasPlainFlags (bundle : Entries) : Prop :=
  ∀ files, bundle.get? "files" = some (.list files) → ∀ file ∈ files,
    ∀ w, file.entry? "overwrite" = some w → w = .null ∨ ∃ b, w = .bool b

/-- **The brief form of a bundle is alike to the data it was accepted from**, file by file and
option by option. -/
theorem BundlesAlike.of_decode {bundle : Entries} {b : Bundle}
    (h : Bundle.decode (.mapping bundle) = .accepted b) (hflags : HasPlainFlags bundle) :
    ∃ brief, b.encodeBrief = .mapping brief ∧ BundlesAlike bundle brief := by
  have hread := Bundle.isReadFrom_of_decode h
  obtain ⟨files, hfiles, hdecoded⟩ := hread.files
  have hfilesAlike : List.Forall₂ (MappingsAlike FilesAlike) files
      (b.files.map fun f => f.encode.withoutNulls) := by
    rw [List.forall₂_map_right_iff]
    exact ((List.forall₂_and_left _ _).2 ⟨hflags files hfiles, hdecoded⟩).imp
      fun file f hfile => FileDecl.filesAlike_of_decode hfile.2 hfile.1
  have hoptions : ∃ options, ListsOptions (bundle.get? "options") options
      ∧ List.Forall₂ (MappingsAlike OptionsAlike) options
        (b.options.map fun o => o.encode.withoutNulls) := by
    rcases hread.options with ⟨habsent, hnone⟩ | ⟨options, hoptions, hdecoded⟩
    · rw [habsent, ← hnone]
      exact ⟨[], .absent, .nil⟩
    · rw [hoptions]
      refine ⟨options, .list options, ?_⟩
      rw [List.forall₂_map_right_iff]
      exact hdecoded.imp fun option o => OptionDecl.optionsAlike_of_decode
  obtain ⟨options, hlists, hoptionsAlike⟩ := hoptions
  refine ⟨_, b.encodeBrief_eq, ⟨?_, ⟨files, _, hfiles, rfl, hfilesAlike⟩,
    ⟨options, _, hlists, .list _, hoptionsAlike⟩⟩⟩
  intro name hname
  obtain rfl | rfl | rfl : name = "name" ∨ name = "description" ∨ name = "version" := by
    simpa [textFields] using hname
  · exact hread.name
  · exact hread.description
  · exact hread.version

/-- **A bundle and the data it was accepted from are checked with the same outcome**, whatever else
the data holds, if the flags of its files are truth values there. The two are alike
(`BundlesAlike.of_decode`), and the check does not tell alike bundles apart
(`BundlesAlike.checkBundle_eq`). -/
theorem checkBundle_of_record {bundle : Entries} {b : Bundle}
    (h : Bundle.decode (.mapping bundle) = .accepted b) (hflags : HasPlainFlags bundle)
    (limits : Limits) (templateId : String) :
    ((BundleSource.record b).entries >>= checkBundle limits templateId)
      = ((BundleSource.value (.mapping bundle)).entries >>= checkBundle limits templateId) := by
  obtain ⟨brief, hbrief, halike⟩ := BundlesAlike.of_decode h hflags
  have hrecord : (BundleSource.record b).entries = .ok brief := by
    rw [BundleSource.entries, BundleSource.toValue, hbrief]
  have hvalue : (BundleSource.value (.mapping bundle)).entries = .ok bundle := rfl
  rw [hrecord, hvalue]
  exact (halike.checkBundle_eq templateId).symm

/-- Data with fields that hold nothing, a flag that is written as a word, and keys that no field
has. -/
def looseData : Entries :=
  [("author", .text "a"), ("version", .text "1.0"), ("name", .text "demo"),
    ("description", .text "two files"),
    ("files", .list [
      .mapping [("path", .text "a"), ("mode", .int 420), ("content", .text "\x7b% if p %\x7d"),
        ("overwrite", .null), ("condition", .null)],
      .mapping [("condition", .text "p =="), ("content", .text ""), ("path", .text "a"),
        ("overwrite", .bool true)]]),
    ("options", .list [
      .mapping [("name", .text "p"), ("type", .text "select"), ("description", .text "d"),
        ("choices", .null), ("default", .null), ("required", .text "YES"), ("hint", .null)],
      .mapping [("default", .text "3"), ("name", .text "p"), ("type", .text "number"),
        ("description", .text " ")]])]

/-- The bundle that this data is accepted as. -/
def looseRecord : Bundle :=
  { name := "demo"
    description := "two files"
    version := "1.0"
    files := [⟨"a", "\x7b% if p %\x7d", none, none⟩, ⟨"a", "", some true, some "p =="⟩]
    options := [⟨"p", .select, "d", none, none, true⟩,
      ⟨"p", .number, " ", some (.text "3"), none, false⟩] }

/-- That data and its bundle are checked with the same report, which has errors. -/
theorem checkBundle_of_record_loose :
    Bundle.decode (.mapping looseData) = .accepted looseRecord ∧ HasPlainFlags looseData
      ∧ ∃ report, ((BundleSource.record looseRecord).entries >>= checkBundle .standard "demo")
          = .ok report
        ∧ checkBundle .standard "demo" looseData = .ok report ∧ report.isValid = false := by
  have hdecode : Bundle.decode (.mapping looseData) = .accepted looseRecord := by decide +kernel
  have hflags : HasPlainFlags looseData := by
    rintro files ⟨⟩ file hfile w hw
    rcases List.mem_cons.1 hfile with rfl | hfile
    · cases hw
      exact .inl rfl
    · rw [List.mem_singleton.1 hfile] at hw
      cases hw
      exact .inr ⟨true, rfl⟩
  have hmap : (checkBundle .standard "demo" looseData).map (·.isValid) = .ok false := by
    decide +kernel
  obtain ⟨report, hreport, hvalid⟩ := map_eq_ok_iff.1 hmap
  exact ⟨hdecode, hflags, report,
    (checkBundle_of_record hdecode hflags .standard "demo").trans hreport, hreport, hvalid⟩

end Templating
