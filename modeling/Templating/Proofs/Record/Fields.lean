import Mathlib.Data.List.Forall2
import Templating.Bundle.Basic

/-!
# What an accepted record holds

Data that is accepted as a record gives the record its fields, part by part: where a decoder is put
together from decoders of parts, it accepts a piece of data with what the parts accept theirs with.
A field that may be absent may also hold nothing, which comes to the same; where a piece of data is
accepted in one form only, the field can be read off the data again.

## Main definitions

* `given`: what a field holds, with nothing for a field that is absent.
* `FileDecl.IsReadFrom`, `OptionDecl.IsReadFrom`, `Bundle.IsReadFrom`: the fields of a record as the
  data has them.

## Main results

* `Checked.seq_eq_accepted_iff`, `Checked.collect_eq_accepted_iff`: parts put together.
* `Decode.required_eq_accepted_iff`, `Decode.defaulted_eq_accepted_iff`, …: fields of records.
* `FileDecl.isReadFrom_of_decode`, `OptionDecl.isReadFrom_of_decode`, `Bundle.isReadFrom_of_decode`:
  the records of a bundle.
-/

namespace Templating

/-! ### Outcomes -/

namespace Checked

variable {α β : Type}

/-- A function is applied to what was accepted, and to nothing else. -/
theorem map_eq_accepted_iff {f : α → β} {outcome : Checked α} {b : β} :
    f <$> outcome = accepted b ↔ ∃ a, outcome = accepted a ∧ f a = b := by
  change outcome.map f = accepted b ↔ _
  cases outcome <;> simp [map]

/-- **Two parts put together.** A record is accepted with what its parts are accepted with; applied
from right to left, the lemma takes a decoder of a record apart into its fields. -/
theorem seq_eq_accepted_iff {f : Checked (α → β)} {outcome : Checked α} {b : β} :
    f <*> outcome = accepted b ↔ ∃ g a, f = accepted g ∧ outcome = accepted a ∧ g a = b := by
  change f.seq outcome = accepted b ↔ _
  cases f <;> cases outcome <;> simp [seq]

/-- Naming the place of a part (`under`) does not change what it is accepted with. -/
theorem under_eq_accepted_iff {step : PlaceStep} {outcome : Checked α} {a : α} :
    outcome.under step = accepted a ↔ outcome = accepted a := by
  cases outcome <;> simp [under]

/-- Several parts are accepted by `collect` with what each of them is accepted with. Induction on
the parts; the step is `seq_eq_accepted_iff`. -/
theorem collect_eq_accepted_iff {outcomes : List (Checked α)} {as : List α} :
    collect outcomes = accepted as
      ↔ List.Forall₂ (fun outcome a => outcome = accepted a) outcomes as := by
  induction outcomes generalizing as with
  | nil =>
    rw [collect, List.forall₂_nil_left_iff]
    exact ⟨fun h => (accepted.inj h).symm, fun h => h ▸ rfl⟩
  | cons outcome rest ih =>
    simp only [collect, seq_eq_accepted_iff, map_eq_accepted_iff, ih,
      List.forall₂_cons_left_iff]
    constructor
    · rintro ⟨_, as', ⟨a, ha, rfl⟩, hrest, rfl⟩
      exact ⟨a, as', ha, hrest, rfl⟩
    · rintro ⟨a, as', ha, hrest, rfl⟩
      exact ⟨_, as', ⟨a, ha, rfl⟩, hrest, rfl⟩

end Checked

/-! ### Simple and compound data -/

namespace Decode

open Checked

variable {α : Type}

/-- `text` accepts a text as itself, so the field can be read off the record. -/
theorem text_eq_accepted_iff {v : Value} {s : String} : text v = accepted s ↔ v = .text s := by
  cases v <;> simp [text, refuse]

/-- `scalar` accepts a scalar from its own value only, for each pair of constructors. -/
theorem scalar_eq_accepted_iff {v : Value} {s : Scalar} :
    scalar v = accepted s ↔ v = s.value := by
  cases v <;> cases s <;> simp [scalar, Value.scalar?, Scalar.value]

/-- `listOf` accepts a list item by item. The index that an item is numbered with for its issues
plays no part: the induction is over the items with any first number. -/
theorem listOf_eq_accepted_iff {item : Value → Checked α} {v : Value} {as : List α} :
    listOf item v = accepted as
      ↔ ∃ items, v = .list items ∧ List.Forall₂ (fun w a => item w = accepted a) items as := by
  cases v with
  | list items =>
    have hindexed : ∀ n, List.Forall₂ (fun outcome a => outcome = accepted a)
        ((items.zipIdx n).map fun p => (item p.1).under (.index p.2)) as
          ↔ List.Forall₂ (fun w a => item w = accepted a) items as := by
      induction items generalizing as with
      | nil => exact fun _ => by simp
      | cons w rest ih =>
        intro n
        simp only [List.zipIdx_cons, List.map_cons, List.forall₂_cons_left_iff,
          under_eq_accepted_iff, ih]
    simp only [listOf, collect_eq_accepted_iff, Value.list.injEq, exists_eq_left']
    exact hindexed 0
  | _ => simp [listOf, refuse]

/-- A list of texts is accepted in one form only, its own (`encodeTexts`). -/
theorem listOf_text_eq_accepted_iff {v : Value} {ss : List String} :
    listOf text v = accepted ss ↔ v = encodeTexts ss := by
  have htexts (items : List Value) :
      List.Forall₂ (fun w s => text w = accepted s) items ss ↔ items = ss.map .text := by
    rw [← List.forall₂_eq_eq_eq, List.forall₂_map_right_iff]
    simp only [text_eq_accepted_iff]
  simp only [listOf_eq_accepted_iff, htexts, exists_eq_right, encodeTexts]

/-- The type of an option is accepted by its name, and no two types share one. -/
theorem choice_optionKind_eq_accepted_iff {v : Value} {kind : OptionKind} :
    choice OptionKind.choices v = accepted kind ↔ v = .text kind.name := by
  cases v with
  | text s =>
    have hlookup : OptionKind.choices.lookup s = some kind ↔ s = kind.name := by
      constructor
      · intro h
        obtain ⟨before, after, hchoices, -⟩ := List.lookup_eq_some_iff.1 h
        have hmem : (s, kind) ∈ OptionKind.choices := hchoices ▸ by simp
        obtain ⟨k, -, ⟨⟩⟩ := List.mem_map.1 hmem
        rfl
      · rintro rfl
        cases kind <;> rfl
    rw [choice, Value.text.injEq, ← hlookup]
    cases OptionKind.choices.lookup s <;> simp [refuse]
  | _ => simp [choice, refuse]

end Decode

/-! ### Fields -/

/-- What a field holds; a field that holds nothing counts as one that is not there. Optional fields
are read through it, by `defaulted_optional_eq_accepted_iff`. -/
def given (field : Option Value) : Option Value :=
  field.filter fun v => !v.isNull

/-- A field that holds nothing is `given` nothing, as one that is absent. -/
theorem given_null : given (some .null) = none :=
  rfl

/-- A field that holds something is `given` that. -/
theorem given_of_ne_null {v : Value} (h : v ≠ .null) : given (some v) = some v := by
  cases v with
  | null => exact absurd rfl h
  | _ => rfl

/-- What treats nothing as an absent field looks only at what the field holds, and so at `given`.
Each side is applied to what is given and not to the field itself. -/
theorem eq_of_given_eq {β : Type} (f : Option Value → β) (hnull : f (some .null) = f none)
    {field field' : Option Value} (h : given field = given field') : f field = f field' := by
  have happly (field : Option Value) : f (given field) = f field := by
    cases field with
    | none => rfl
    | some v =>
      by_cases hv : v = .null
      · rw [hv, given_null, hnull]
      · rw [given_of_ne_null hv]
  rw [← happly field, h, happly]

namespace Decode

open Checked

variable {α : Type} {name : String} {item : Value → Checked α} {entries : Entries}

/-- A `required` field is there and accepted. -/
theorem required_eq_accepted_iff {a : α} : required name item entries = accepted a
    ↔ ∃ v, entries.get? name = some v ∧ item v = accepted a := by
  rw [required]
  cases entries.get? name <;> simp [under_eq_accepted_iff]

/-- A `defaulted` field is absent and has the default, or it is there and accepted. -/
theorem defaulted_eq_accepted_iff {default a : α} :
    defaulted name item default entries = accepted a
      ↔ (entries.get? name = none ∧ default = a)
        ∨ ∃ v, entries.get? name = some v ∧ item v = accepted a := by
  rw [defaulted]
  cases entries.get? name <;> simp [under_eq_accepted_iff]

/-- A field that may be absent and may hold nothing. The two come to the same in `given`, so the
condition has two cases and not three. -/
theorem defaulted_optional_eq_accepted_iff {a : Option α} :
    defaulted name (optional item) none entries = accepted a
      ↔ (given (entries.get? name) = none ∧ a = none)
        ∨ ∃ v b, given (entries.get? name) = some v ∧ item v = accepted b ∧ a = some b := by
  rw [defaulted_eq_accepted_iff]
  cases entries.get? name with
  | none => simp [given, eq_comm]
  | some v =>
    by_cases hnull : v = .null
    · subst hnull
      simp [given_null, optional, eq_comm]
    · have hoptional : optional item v = some <$> item v := by
        cases v with
        | null => exact absurd rfl hnull
        | _ => rfl
      simp [given_of_ne_null hnull, hoptional, map_eq_accepted_iff, eq_comm]

/-- What is accepted in one form only (`hitem`) can be read off the record: the field holds what the
record has, in its written form, or nothing at all. -/
theorem given_eq_map_of_defaulted {encode : α → Value} {a : Option α}
    (h : defaulted name (optional item) none entries = accepted a)
    (hitem : ∀ v b, item v = accepted b → v = encode b) :
    given (entries.get? name) = a.map encode := by
  rcases defaulted_optional_eq_accepted_iff.1 h with ⟨habsent, rfl⟩ | ⟨v, b, hv, hb, rfl⟩
  · exact habsent
  · rw [hv, hitem v b hb, Option.map_some]

/-- A text that is required can be read off the record: it stands in the data under its name. -/
theorem get?_of_required_text {s : String} (h : required name text entries = accepted s) :
    entries.get? name = some (.text s) := by
  obtain ⟨v, hv, htext⟩ := required_eq_accepted_iff.1 h
  rw [hv, text_eq_accepted_iff.1 htext]

end Decode

/-! ### The records of a bundle -/

open Decode Checked

/-- The fields of a file as the data has them. The flag may be written in several forms, so of it
only what it is read as is told; every other field is told outright. -/
structure FileDecl.IsReadFrom (f : FileDecl) (entries : Entries) : Prop where
  path : entries.get? "path" = some (.text f.path)
  content : entries.get? "content" = some (.text f.content)
  overwrite : (given (entries.get? "overwrite") = none ∧ f.overwrite = none)
    ∨ ∃ v b, given (entries.get? "overwrite") = some v ∧ flag v = accepted b ∧ f.overwrite = some b
  condition : given (entries.get? "condition") = f.condition.map .text

/-- The fields of an option as the data has them. The flag may be written in several forms, as in
`FileDecl.IsReadFrom`, and unlike there it may not hold nothing. -/
structure OptionDecl.IsReadFrom (o : OptionDecl) (entries : Entries) : Prop where
  name : entries.get? "name" = some (.text o.name)
  kind : entries.get? "type" = some (.text o.kind.name)
  description : entries.get? "description" = some (.text o.description)
  default : given (entries.get? "default") = o.default.map Scalar.value
  choices : given (entries.get? "choices") = o.choices.map encodeTexts
  required : (entries.get? "required" = none ∧ false = o.required)
    ∨ ∃ v, entries.get? "required" = some v ∧ flag v = accepted o.required

/-- The fields of a bundle as the data has them: its files and options are accepted from the items
of two lists, of which the second may be absent. -/
structure Bundle.IsReadFrom (b : Bundle) (entries : Entries) : Prop where
  name : entries.get? "name" = some (.text b.name)
  description : entries.get? "description" = some (.text b.description)
  version : entries.get? "version" = some (.text b.version)
  files : ∃ files, entries.get? "files" = some (.list files)
    ∧ List.Forall₂ (fun v f => FileDecl.decode v = accepted f) files b.files
  options : (entries.get? "options" = none ∧ [] = b.options)
    ∨ ∃ options, entries.get? "options" = some (.list options)
      ∧ List.Forall₂ (fun v o => OptionDecl.decode v = accepted o) options b.options

/-- `openRecord` accepts a mapping with what its `fields` are accepted with. -/
theorem openRecord_eq_accepted_iff {α : Type} {fields : Entries → Checked α} {v : Value} {a : α} :
    openRecord fields v = accepted a ↔ ∃ entries, v = .mapping entries
      ∧ fields entries = accepted a := by
  cases v <;> simp [openRecord, refuse]

/-- **What an accepted file holds.** `FileDecl.decode` is taken apart by `seq_eq_accepted_iff`, the
last field first; each field is then read off by the lemma on its kind. -/
theorem FileDecl.isReadFrom_of_decode {v : Value} {f : FileDecl} (h : decode v = accepted f) :
    ∃ entries, v = .mapping entries ∧ f.IsReadFrom entries := by
  obtain ⟨entries, rfl, h⟩ := openRecord_eq_accepted_iff.1 h
  obtain ⟨_, condition, h₁, hcondition, rfl⟩ := seq_eq_accepted_iff.1 h
  obtain ⟨_, overwrite, h₂, hoverwrite, rfl⟩ := seq_eq_accepted_iff.1 h₁
  obtain ⟨_, content, h₃, hcontent, rfl⟩ := seq_eq_accepted_iff.1 h₂
  obtain ⟨path, hpath, rfl⟩ := map_eq_accepted_iff.1 h₃
  exact ⟨entries, rfl, get?_of_required_text hpath, get?_of_required_text hcontent,
    defaulted_optional_eq_accepted_iff.1 hoverwrite,
    given_eq_map_of_defaulted hcondition fun _ _ => text_eq_accepted_iff.1⟩

/-- **What an accepted option holds**, by the same steps over the six fields of
`OptionDecl.decode`. -/
theorem OptionDecl.isReadFrom_of_decode {v : Value} {o : OptionDecl} (h : decode v = accepted o) :
    ∃ entries, v = .mapping entries ∧ o.IsReadFrom entries := by
  obtain ⟨entries, rfl, h⟩ := openRecord_eq_accepted_iff.1 h
  obtain ⟨_, required, h₁, hrequired, rfl⟩ := seq_eq_accepted_iff.1 h
  obtain ⟨_, choices, h₂, hchoices, rfl⟩ := seq_eq_accepted_iff.1 h₁
  obtain ⟨_, default, h₃, hdefault, rfl⟩ := seq_eq_accepted_iff.1 h₂
  obtain ⟨_, description, h₄, hdescription, rfl⟩ := seq_eq_accepted_iff.1 h₃
  obtain ⟨_, kind, h₅, hkind, rfl⟩ := seq_eq_accepted_iff.1 h₄
  obtain ⟨name, hname, rfl⟩ := map_eq_accepted_iff.1 h₅
  obtain ⟨w, hw, hkind⟩ := required_eq_accepted_iff.1 hkind
  rw [choice_optionKind_eq_accepted_iff.1 hkind] at hw
  exact ⟨entries, rfl, get?_of_required_text hname, hw, get?_of_required_text hdescription,
    given_eq_map_of_defaulted hdefault fun _ _ => scalar_eq_accepted_iff.1,
    given_eq_map_of_defaulted hchoices fun _ _ => listOf_text_eq_accepted_iff.1,
    defaulted_eq_accepted_iff.1 hrequired⟩

/-- **What an accepted bundle holds**, by the same steps; its files and options come with what each
item was accepted as. -/
theorem Bundle.isReadFrom_of_decode {entries : Entries} {b : Bundle}
    (h : decode (.mapping entries) = accepted b) : b.IsReadFrom entries := by
  obtain ⟨_, options, h₁, hoptions, rfl⟩ := seq_eq_accepted_iff.1 h
  obtain ⟨_, files, h₂, hfiles, rfl⟩ := seq_eq_accepted_iff.1 h₁
  obtain ⟨_, version, h₃, hversion, rfl⟩ := seq_eq_accepted_iff.1 h₂
  obtain ⟨_, description, h₄, hdescription, rfl⟩ := seq_eq_accepted_iff.1 h₃
  obtain ⟨name, hname, rfl⟩ := map_eq_accepted_iff.1 h₄
  refine ⟨get?_of_required_text hname, get?_of_required_text hdescription,
    get?_of_required_text hversion, ?_, ?_⟩
  · obtain ⟨v, hv, hlist⟩ := required_eq_accepted_iff.1 hfiles
    obtain ⟨items, rfl, hitems⟩ := listOf_eq_accepted_iff.1 hlist
    exact ⟨items, hv, hitems⟩
  · refine (defaulted_eq_accepted_iff.1 hoptions).imp_right ?_
    rintro ⟨v, hv, hlist⟩
    obtain ⟨items, rfl, hitems⟩ := listOf_eq_accepted_iff.1 hlist
    exact ⟨items, hv, hitems⟩

end Templating
