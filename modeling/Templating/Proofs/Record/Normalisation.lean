import Templating.Proofs.Record.Fields
import Templating.Record.Kind

/-!
# Data that went through a record

A record is accepted from data in several forms and written back in one. What was written back is
accepted as the same record, so that writing it back once more changes nothing: after the first
time no flag is read from a word or a number any more, no field is left to its default, and there
are no keys to be passed over.

A decoder *settles* with a way of writing if whatever it accepted it accepts again, as the same,
from the way it is written. Decoders of simple data do, and those that are put together from
decoders that do; each record is one case of this.

## Main definitions

* `Decode.Settles`: what was accepted is accepted in its written form, as the same.

## Main results

* `Decode.Settles.listOf`, `Decode.Settles.mappingOf`, `Decode.Settles.optional`: compound data.
* `Decode.Settles.required`, `Decode.Settles.defaulted`: fields of records.
* `OptionDecl.settles`, `Bundle.settles`, `Report.settles`, …: the records.
* `RecordKind.normalise_written`: data that went through a record comes back unchanged.
-/

namespace Templating

/-! ### Accepted parts -/

namespace Checked

variable {α β : Type} {f : α → β} {outcome : Checked α} {a : α}

/-- What was accepted is accepted under a function: the direction of `map_eq_accepted_iff` that
builds a record up from its fields. -/
theorem map_of_accepted (f : α → β) (h : outcome = accepted a) : f <$> outcome = accepted (f a) :=
  map_eq_accepted_iff.2 ⟨a, h, rfl⟩

/-- Two parts that are accepted are accepted together: the same direction of `seq_eq_accepted_iff`,
for one field more. -/
theorem seq_of_accepted {outcomes : Checked (α → β)} (hf : outcomes = accepted f)
    (h : outcome = accepted a) : outcomes <*> outcome = accepted (f a) :=
  seq_eq_accepted_iff.2 ⟨f, a, hf, h, rfl⟩

end Checked

namespace Decode

open Checked

variable {α : Type} {item : Value → Checked α} {encode : α → Value}

/-- What the decoder accepted it accepts again, and as the same, from the way it is written by
`encode`. The first form of the data, `v`, is not what is written, so nothing is said of how it is
read. -/
def Settles (decode : Value → Checked α) (encode : α → Value) : Prop :=
  ∀ ⦃v a⦄, decode v = accepted a → decode (encode a) = accepted a

/-! ### Simple data -/

/-- A text is written as it is read, so `text` settles by computation. -/
theorem settles_text : Settles text .text :=
  fun _ _ _ => rfl

/-- A flag is written as a truth value, which `flag` reads as itself, from whatever word or number
it came. -/
theorem settles_flag : Settles flag .bool :=
  fun _ _ _ => rfl

/-- A scalar is written as its value (`Scalar.value`), from which `scalar` reads it back. -/
theorem settles_scalar : Settles scalar Scalar.value :=
  fun _ _ _ => scalar_eq_accepted_iff.2 rfl

/-- The type of an option is written as its name, and no two types have one name
(`choice_optionKind_eq_accepted_iff`). -/
theorem settles_optionKind : Settles (choice OptionKind.choices) fun k => .text k.name :=
  fun _ _ _ => choice_optionKind_eq_accepted_iff.2 rfl

/-- No scalar is written as nothing, so `Settles.optional` applies to a default that may be
absent. -/
theorem value_ne_null (s : Scalar) : s.value ≠ .null := by
  cases s <;> rintro ⟨⟩

/-- A measure is not below zero, in whatever form it was given; it is written as the floating point
number that `measure` compared with zero, and stands the same comparison again. -/
theorem settles_measure : Settles measure .binary := by
  intro v x h
  rw [measure] at h
  split at h
  · next y _ =>
    split at h
    · cases h
    · next hsmall =>
      cases h
      exact if_neg hsmall
  · cases h

/-! ### Compound data -/

/-- **Lists settle if their items do.** What `listOf` accepted is given by `listOf_eq_accepted_iff`,
item by item; induction on the pairs of items and results. -/
theorem Settles.listOf (h : Settles item encode) :
    Settles (listOf item) fun as => .list (as.map encode) := by
  intro v as haccepted
  obtain ⟨items, rfl, hitems⟩ := listOf_eq_accepted_iff.1 haccepted
  refine listOf_eq_accepted_iff.2 ⟨_, rfl, ?_⟩
  clear haccepted
  induction hitems with
  | nil => exact .nil
  | cons hw _ ih => exact .cons (h hw) ih

/-- A list of texts settles: `Settles.listOf` at `settles_text`. -/
theorem settles_texts : Settles (listOf text) encodeTexts :=
  settles_text.listOf

/-- What `mappingOf` accepts: a mapping of which every value is accepted, with the keys in their
order. The place that a value's issues are put under does not matter for acceptance. -/
theorem mappingOf_eq_accepted_iff {v : Value} {fields : List (String × α)} :
    mappingOf item v = accepted fields ↔ ∃ entries, v = .mapping entries
      ∧ List.Forall₂ (fun entry field => item entry.2 = accepted field.2 ∧ entry.1 = field.1)
        entries fields := by
  cases v with
  | mapping entries =>
    have hentry (entry : String × Value) (field : String × α) :
        ((item entry.2).under (.key entry.1)).map (fun a => (entry.1, a)) = accepted field
          ↔ item entry.2 = accepted field.2 ∧ entry.1 = field.1 := by
      obtain ⟨key, a⟩ := field
      refine map_eq_accepted_iff.trans ?_
      simp only [under_eq_accepted_iff, Prod.mk.injEq]
      constructor
      · rintro ⟨_, ha, hkey, rfl⟩
        exact ⟨ha, hkey⟩
      · exact fun ⟨ha, hkey⟩ => ⟨a, ha, hkey, rfl⟩
    simp only [mappingOf, collect_eq_accepted_iff, List.forall₂_map_left_iff, hentry,
      Value.mapping.injEq, exists_eq_left']
  | _ => simp [mappingOf, refuse]

/-- **Mappings settle if their values do.** Its values are read as they are written, with the keys
in their order; induction as in `Settles.listOf`. -/
theorem Settles.mappingOf (h : Settles item encode) :
    Settles (mappingOf item)
      fun fields => .mapping (fields.map fun (key, a) => (key, encode a)) := by
  intro v fields haccepted
  obtain ⟨entries, rfl, hentries⟩ := mappingOf_eq_accepted_iff.1 haccepted
  refine mappingOf_eq_accepted_iff.2 ⟨_, rfl, ?_⟩
  clear haccepted
  induction hentries with
  | nil => exact .nil
  | cons hentry _ ih => exact .cons ⟨h hentry.1, rfl⟩ ih

/-- What is not nothing is read by `optional` as the decoder of the item reads it. -/
theorem optional_of_ne_null {v : Value} (h : v ≠ .null) : optional item v = some <$> item v := by
  cases v with
  | null => exact absurd rfl h
  | _ => rfl

/-- **What may be absent settles**, where nothing that is there is written as nothing (`hnull`):
else a value would come back as an absent one. -/
theorem Settles.optional (h : Settles item encode) (hnull : ∀ a, encode a ≠ .null) :
    Settles (optional item) (encodeOptional encode) := by
  intro v a? haccepted
  cases a? with
  | none => rfl
  | some a =>
    have hv : v ≠ .null := by
      rintro rfl
      cases haccepted
    rw [optional_of_ne_null hv] at haccepted
    obtain ⟨_, hitem, ⟨⟩⟩ := map_eq_accepted_iff.1 haccepted
    rw [encodeOptional, optional_of_ne_null (hnull a)]
    exact map_of_accepted some (h hitem)

/-! ### Fields of records -/

variable {name : String} {entries written : Entries} {default a : α}

/-- A field that has to be there is read again from where it is written. The record that is
`written` is another one than `entries`; it only has to have the field under the same name. -/
theorem Settles.required (h : Settles item encode)
    (hfield : required name item entries = accepted a)
    (hwritten : written.get? name = some (encode a)) :
    Decode.required name item written = accepted a := by
  obtain ⟨v, -, hv⟩ := required_eq_accepted_iff.1 hfield
  exact required_eq_accepted_iff.2 ⟨_, hwritten, h hv⟩

/-- So is one that was left to its default, if the default is what its written form stands for
(`hdefault`): the default is written out, and from then on the field is there. -/
theorem Settles.defaulted (h : Settles item encode)
    (hdefault : item (encode default) = accepted default)
    (hfield : defaulted name item default entries = accepted a)
    (hwritten : written.get? name = some (encode a)) :
    Decode.defaulted name item default written = accepted a := by
  refine defaulted_eq_accepted_iff.2 (.inr ⟨_, hwritten, ?_⟩)
  rcases defaulted_eq_accepted_iff.1 hfield with ⟨-, rfl⟩ | ⟨v, -, hv⟩
  · exact hdefault
  · exact h hv

/-- What `closedRecord` accepts: a mapping without keys that the record does not know, of which the
`fields` are accepted. -/
theorem closedRecord_eq_accepted_iff {names : List String} {fields : Entries → Checked α}
    {v : Value} : closedRecord names fields v = accepted a ↔ ∃ entries, v = .mapping entries
      ∧ unknownKeys names entries = [] ∧ fields entries = accepted a := by
  cases v with
  | mapping entries =>
    rw [closedRecord]
    simp only [Value.mapping.injEq, exists_eq_left']
    cases unknownKeys names entries with
    | nil => simp [against]
    | cons issue issues =>
      refine iff_of_false (fun h => ?_) (by simp)
      obtain ⟨_, _, -, ⟨⟩, -⟩ := seq_eq_accepted_iff.1 h
  | _ => simp [closedRecord, refuse]

end Decode

/-! ### The records -/

open Decode Checked

/-- A flag that may be absent: `Settles.optional` at `settles_flag`, for the fields of `FileDecl`
and of the rendered files. -/
theorem settles_optionalFlag : Settles (optional flag) (encodeOptional .bool) :=
  settles_flag.optional nofun

/-- A text that may be absent: `Settles.optional` at `settles_text`, for the condition of a file. -/
theorem settles_optionalText : Settles (optional text) (encodeOptional .text) :=
  settles_text.optional nofun

/-- **Options settle.** The fields that `OptionDecl.decode` accepted are taken apart by
`seq_eq_accepted_iff`, the last one first, and put together again in the written record, each by the
lemma on its kind of field. The records below go the same way; what differs is which fields they
have and which of them may be absent. -/
theorem OptionDecl.settles : Settles decode encode := by
  intro v o h
  obtain ⟨entries, rfl, h⟩ := openRecord_eq_accepted_iff.1 h
  obtain ⟨_, required, h₁, hrequired, rfl⟩ := seq_eq_accepted_iff.1 h
  obtain ⟨_, choices, h₂, hchoices, rfl⟩ := seq_eq_accepted_iff.1 h₁
  obtain ⟨_, default, h₃, hdefault, rfl⟩ := seq_eq_accepted_iff.1 h₂
  obtain ⟨_, description, h₄, hdescription, rfl⟩ := seq_eq_accepted_iff.1 h₃
  obtain ⟨_, kind, h₅, hkind, rfl⟩ := seq_eq_accepted_iff.1 h₄
  obtain ⟨name, hname, rfl⟩ := map_eq_accepted_iff.1 h₅
  refine openRecord_eq_accepted_iff.2 ⟨_, rfl, ?_⟩
  refine seq_of_accepted ?_ (settles_flag.defaulted rfl hrequired rfl)
  refine seq_of_accepted ?_ ((settles_texts.optional nofun).defaulted rfl hchoices rfl)
  refine seq_of_accepted ?_ ((settles_scalar.optional value_ne_null).defaulted rfl hdefault rfl)
  refine seq_of_accepted ?_ (settles_text.required hdescription rfl)
  refine seq_of_accepted ?_ (settles_optionKind.required hkind rfl)
  exact map_of_accepted mk (settles_text.required hname rfl)

/-- **Files settle**, with a flag and a condition that may be absent (`settles_optionalFlag`,
`settles_optionalText`). -/
theorem FileDecl.settles : Settles decode encode := by
  intro v f h
  obtain ⟨entries, rfl, h⟩ := openRecord_eq_accepted_iff.1 h
  obtain ⟨_, condition, h₁, hcondition, rfl⟩ := seq_eq_accepted_iff.1 h
  obtain ⟨_, overwrite, h₂, hoverwrite, rfl⟩ := seq_eq_accepted_iff.1 h₁
  obtain ⟨_, content, h₃, hcontent, rfl⟩ := seq_eq_accepted_iff.1 h₂
  obtain ⟨path, hpath, rfl⟩ := map_eq_accepted_iff.1 h₃
  refine openRecord_eq_accepted_iff.2 ⟨_, rfl, ?_⟩
  refine seq_of_accepted ?_ (settles_optionalText.defaulted rfl hcondition rfl)
  refine seq_of_accepted ?_ (settles_optionalFlag.defaulted rfl hoverwrite rfl)
  refine seq_of_accepted ?_ (settles_text.required hcontent rfl)
  exact map_of_accepted mk (settles_text.required hpath rfl)

/-- **Bundles settle**: `FileDecl.settles` and `OptionDecl.settles` under `Settles.listOf`. Keys
that a bundle does not know are passed over at the first reading and are not written back. -/
theorem Bundle.settles : Settles decode encode := by
  intro v b h
  obtain ⟨entries, rfl, h⟩ := openRecord_eq_accepted_iff.1 h
  obtain ⟨_, options, h₁, hoptions, rfl⟩ := seq_eq_accepted_iff.1 h
  obtain ⟨_, files, h₂, hfiles, rfl⟩ := seq_eq_accepted_iff.1 h₁
  obtain ⟨_, version, h₃, hversion, rfl⟩ := seq_eq_accepted_iff.1 h₂
  obtain ⟨_, description, h₄, hdescription, rfl⟩ := seq_eq_accepted_iff.1 h₃
  obtain ⟨name, hname, rfl⟩ := map_eq_accepted_iff.1 h₄
  refine openRecord_eq_accepted_iff.2 ⟨_, rfl, ?_⟩
  refine seq_of_accepted ?_ (OptionDecl.settles.listOf.defaulted rfl hoptions rfl)
  refine seq_of_accepted ?_ (FileDecl.settles.listOf.required hfiles rfl)
  refine seq_of_accepted ?_ (settles_text.required hversion rfl)
  refine seq_of_accepted ?_ (settles_text.required hdescription rfl)
  exact map_of_accepted mk (settles_text.required hname rfl)

/-- Findings settle. `Findings.decode` knows no other keys than its own, and none are written
(`closedRecord_eq_accepted_iff`). -/
theorem Findings.settles : Settles decode encode := by
  intro v f h
  obtain ⟨entries, rfl, -, h⟩ := closedRecord_eq_accepted_iff.1 h
  obtain ⟨_, warnings, h₁, hwarnings, rfl⟩ := seq_eq_accepted_iff.1 h
  obtain ⟨_, errors, h₂, herrors, rfl⟩ := seq_eq_accepted_iff.1 h₁
  obtain ⟨isValid, hisValid, rfl⟩ := map_eq_accepted_iff.1 h₂
  refine closedRecord_eq_accepted_iff.2 ⟨_, rfl, rfl, ?_⟩
  refine seq_of_accepted ?_ (settles_texts.defaulted rfl hwarnings rfl)
  refine seq_of_accepted ?_ (settles_texts.defaulted rfl herrors rfl)
  exact map_of_accepted mk (settles_flag.defaulted rfl hisValid rfl)

/-- Findings about the files of a bundle settle; those of single files stand in a mapping from
paths, which `Settles.mappingOf` keeps in its order. -/
theorem FileFindings.settles : Settles decode encode := by
  intro v f h
  obtain ⟨entries, rfl, -, h⟩ := closedRecord_eq_accepted_iff.1 h
  obtain ⟨_, fileResults, h₁, hfileResults, rfl⟩ := seq_eq_accepted_iff.1 h
  obtain ⟨_, warnings, h₂, hwarnings, rfl⟩ := seq_eq_accepted_iff.1 h₁
  obtain ⟨_, errors, h₃, herrors, rfl⟩ := seq_eq_accepted_iff.1 h₂
  obtain ⟨isValid, hisValid, rfl⟩ := map_eq_accepted_iff.1 h₃
  refine closedRecord_eq_accepted_iff.2 ⟨_, rfl, rfl, ?_⟩
  refine seq_of_accepted ?_ (Findings.settles.mappingOf.defaulted rfl hfileResults rfl)
  refine seq_of_accepted ?_ (settles_texts.defaulted rfl hwarnings rfl)
  refine seq_of_accepted ?_ (settles_texts.defaulted rfl herrors rfl)
  exact map_of_accepted mk (settles_flag.defaulted rfl hisValid rfl)

/-- **Reports settle**, from the settling of the findings about each part of the bundle. -/
theorem Report.settles : Settles decode encode := by
  intro v r h
  obtain ⟨entries, rfl, -, h⟩ := closedRecord_eq_accepted_iff.1 h
  obtain ⟨_, files, h₁, hfiles, rfl⟩ := seq_eq_accepted_iff.1 h
  obtain ⟨_, declarations, h₂, hdeclarations, rfl⟩ := seq_eq_accepted_iff.1 h₁
  obtain ⟨_, bodies, h₃, hbodies, rfl⟩ := seq_eq_accepted_iff.1 h₂
  obtain ⟨_, metadata, h₄, hmetadata, rfl⟩ := seq_eq_accepted_iff.1 h₃
  obtain ⟨_, warnings, h₅, hwarnings, rfl⟩ := seq_eq_accepted_iff.1 h₄
  obtain ⟨_, errors, h₆, herrors, rfl⟩ := seq_eq_accepted_iff.1 h₅
  obtain ⟨_, isValid, h₇, hisValid, rfl⟩ := seq_eq_accepted_iff.1 h₆
  obtain ⟨templateId, htemplateId, rfl⟩ := map_eq_accepted_iff.1 h₇
  refine closedRecord_eq_accepted_iff.2 ⟨_, rfl, rfl, ?_⟩
  refine seq_of_accepted ?_ (FileFindings.settles.defaulted rfl hfiles rfl)
  refine seq_of_accepted ?_ (Findings.settles.defaulted rfl hdeclarations rfl)
  refine seq_of_accepted ?_ (Findings.settles.defaulted rfl hbodies rfl)
  refine seq_of_accepted ?_ (Findings.settles.defaulted rfl hmetadata rfl)
  refine seq_of_accepted ?_ (settles_texts.defaulted rfl hwarnings rfl)
  refine seq_of_accepted ?_ (settles_texts.defaulted rfl herrors rfl)
  refine seq_of_accepted ?_ (settles_flag.required hisValid rfl)
  exact map_of_accepted mk (settles_text.required htemplateId rfl)

/-- Summaries settle, four lists of texts. -/
theorem Summary.settles : Settles decode encode := by
  intro v s h
  obtain ⟨entries, rfl, -, h⟩ := closedRecord_eq_accepted_iff.1 h
  obtain ⟨_, suggestions, h₁, hsuggestions, rfl⟩ := seq_eq_accepted_iff.1 h
  obtain ⟨_, warnings, h₂, hwarnings, rfl⟩ := seq_eq_accepted_iff.1 h₁
  obtain ⟨_, errors, h₃, herrors, rfl⟩ := seq_eq_accepted_iff.1 h₂
  obtain ⟨critical, hcritical, rfl⟩ := map_eq_accepted_iff.1 h₃
  refine closedRecord_eq_accepted_iff.2 ⟨_, rfl, rfl, ?_⟩
  refine seq_of_accepted ?_ (settles_texts.defaulted rfl hsuggestions rfl)
  refine seq_of_accepted ?_ (settles_texts.defaulted rfl hwarnings rfl)
  refine seq_of_accepted ?_ (settles_texts.defaulted rfl herrors rfl)
  exact map_of_accepted mk (settles_texts.defaulted rfl hcritical rfl)

/-- Rendered files settle, with two flags, of which one may be absent. -/
theorem RenderedFile.settles : Settles decode encode := by
  intro v f h
  obtain ⟨entries, rfl, -, h⟩ := closedRecord_eq_accepted_iff.1 h
  obtain ⟨_, cacheHit, h₁, hcacheHit, rfl⟩ := seq_eq_accepted_iff.1 h
  obtain ⟨_, overwrite, h₂, hoverwrite, rfl⟩ := seq_eq_accepted_iff.1 h₁
  obtain ⟨_, content, h₃, hcontent, rfl⟩ := seq_eq_accepted_iff.1 h₂
  obtain ⟨path, hpath, rfl⟩ := map_eq_accepted_iff.1 h₃
  refine closedRecord_eq_accepted_iff.2 ⟨_, rfl, rfl, ?_⟩
  refine seq_of_accepted ?_ (settles_flag.defaulted rfl hcacheHit rfl)
  refine seq_of_accepted ?_ (settles_optionalFlag.defaulted rfl hoverwrite rfl)
  refine seq_of_accepted ?_ (settles_text.required hcontent rfl)
  exact map_of_accepted mk (settles_text.required hpath rfl)

/-- Skipped files settle, two texts that have to be there. -/
theorem SkippedFile.settles : Settles decode encode := by
  intro v f h
  obtain ⟨entries, rfl, -, h⟩ := closedRecord_eq_accepted_iff.1 h
  obtain ⟨_, condition, h₁, hcondition, rfl⟩ := seq_eq_accepted_iff.1 h
  obtain ⟨path, hpath, rfl⟩ := map_eq_accepted_iff.1 h₁
  refine closedRecord_eq_accepted_iff.2 ⟨_, rfl, rfl, ?_⟩
  refine seq_of_accepted ?_ (settles_text.required hcondition rfl)
  exact map_of_accepted mk (settles_text.required hpath rfl)

/-- The rendering of a bundle settles: two lists of records that settle, either of which may be left
out. -/
theorem BundleRendering.settles : Settles decode encode := by
  intro v r h
  obtain ⟨entries, rfl, -, h⟩ := closedRecord_eq_accepted_iff.1 h
  obtain ⟨_, skipped, h₁, hskipped, rfl⟩ := seq_eq_accepted_iff.1 h
  obtain ⟨files, hfiles, rfl⟩ := map_eq_accepted_iff.1 h₁
  refine closedRecord_eq_accepted_iff.2 ⟨_, rfl, rfl, ?_⟩
  refine seq_of_accepted ?_ (SkippedFile.settles.listOf.defaulted rfl hskipped rfl)
  exact map_of_accepted mk (RenderedFile.settles.listOf.defaulted rfl hfiles rfl)

/-- A rendering with its time settles; the time is a measure (`settles_measure`). -/
theorem TimedRendering.settles : Settles decode encode := by
  intro v r h
  obtain ⟨entries, rfl, -, h⟩ := closedRecord_eq_accepted_iff.1 h
  obtain ⟨_, cacheHit, h₁, hcacheHit, rfl⟩ := seq_eq_accepted_iff.1 h
  obtain ⟨_, milliseconds, h₂, hmilliseconds, rfl⟩ := seq_eq_accepted_iff.1 h₁
  obtain ⟨content, hcontent, rfl⟩ := map_eq_accepted_iff.1 h₂
  refine closedRecord_eq_accepted_iff.2 ⟨_, rfl, rfl, ?_⟩
  refine seq_of_accepted ?_ (settles_flag.defaulted rfl hcacheHit rfl)
  refine seq_of_accepted ?_ (settles_measure.required hmilliseconds rfl)
  exact map_of_accepted mk (settles_text.required hcontent rfl)

/-! ### Normalisation -/

/-- What is written back of data that was accepted is accepted and written back as it is: `Settles`,
put in terms of reading and writing in one, which is what `RecordKind.normalise` does. -/
theorem Decode.Settles.written {α : Type} {decode : Value → Checked α} {encode : α → Value}
    (h : Settles decode encode) {v d : Value} (hd : (decode v).map encode = accepted d) :
    (decode d).map encode = accepted d := by
  obtain ⟨a, ha, rfl⟩ := map_eq_accepted_iff.1 hd
  exact map_of_accepted encode (h ha)

/-- **Normalising is idempotent.** Data that was accepted as a record of some `kind` and written
back is accepted as a record of that kind again, and comes back unchanged. Each kind is one of the
records above. -/
theorem RecordKind.normalise_written (kind : RecordKind) {v d : Value}
    (h : kind.normalise v = accepted d) : kind.normalise d = accepted d := by
  cases kind with
  | timedRendering => exact TimedRendering.settles.written h
  | optionDecl => exact OptionDecl.settles.written h
  | fileDecl => exact FileDecl.settles.written h
  | bundle => exact Bundle.settles.written h
  | findings => exact Findings.settles.written h
  | fileFindings => exact FileFindings.settles.written h
  | report => exact Report.settles.written h
  | summary => exact Summary.settles.written h
  | renderedFile => exact RenderedFile.settles.written h
  | skippedFile => exact SkippedFile.settles.written h
  | bundleRendering => exact BundleRendering.settles.written h

/-- A bundle whose flags are a word and a number, whose fields are out of order, and which has a key
that no bundle knows: `RecordKind.normalise_written` at what is written back of it. -/
theorem RecordKind.normalise_written_bundle :
    let given : Value := .mapping [("version", .text "1.0.0"), ("name", .text "demo"),
      ("description", .text "one file"), ("author", .int 7),
      ("files", .list [.mapping [("content", .text "x"), ("path", .text "a"),
        ("overwrite", .text "YES")]]),
      ("options", .list [.mapping [("name", .text "p"), ("type", .text "number"),
        ("description", .text "a number"), ("default", .int 5), ("required", .int 1)]])]
    let written : Value := .mapping [("name", .text "demo"), ("description", .text "one file"),
      ("version", .text "1.0.0"),
      ("files", .list [.mapping [("path", .text "a"), ("content", .text "x"),
        ("overwrite", .bool true), ("condition", .null)]]),
      ("options", .list [.mapping [("name", .text "p"), ("type", .text "number"),
        ("description", .text "a number"), ("default", .int 5), ("choices", .null),
        ("required", .bool true)]])]
    bundle.normalise given = accepted written ∧ bundle.normalise written = accepted written := by
  intro given written
  have h : bundle.normalise given = accepted written := by rfl
  exact ⟨h, normalise_written .bundle h⟩

end Templating
