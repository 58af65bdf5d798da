import Templating.Bundle.Basic

/-!
# What is accepted as a record

Data is accepted as a record exactly if every field is accepted, so a decoder that is put together
from decoders of parts accepts what its parts accept. From this it is read off which values are
accepted as an option, as a file and as a bundle.

## Main definitions

* `Checked.IsAccepted`: the data was accepted.
* `Value.IsFlag`: the values that a flag may be given as.

## Main results

* `Checked.isAccepted_seq`, `Checked.isAccepted_collect`: parts put together.
* `Decode.isAccepted_required`, `Decode.isAccepted_defaulted`, …: fields of records.
* `OptionDecl.isAccepted_decode`, `FileDecl.isAccepted_decode`, `Bundle.isAccepted_decode`: the
  records of a bundle.
-/

namespace Templating

/-! ### Outcomes -/

namespace Checked

variable {α β : Type}

/-- The data was accepted: the `outcome` is the `accepted` one of its two cases. -/
def IsAccepted (outcome : Checked α) : Prop :=
  ∃ a, outcome = accepted a

/-- What is `accepted` was accepted, whatever the value. A simp lemma, with the ones below: together
they push `IsAccepted` through a decoder down to its parts. -/
@[simp]
theorem isAccepted_accepted (a : α) : (accepted a).IsAccepted :=
  ⟨a, rfl⟩

/-- What is `refused`, for whatever issues, was not accepted. -/
@[simp]
theorem not_isAccepted_refused (issues : List Issue) :
    ¬(refused issues : Checked α).IsAccepted := by
  rintro ⟨a, ⟨⟩⟩

/-- What is refused for one issue (`refuse`) was not accepted. -/
@[simp]
theorem not_isAccepted_refuse (kind : IssueKind) : ¬(refuse kind : Checked α).IsAccepted :=
  not_isAccepted_refused _

/-- Data that was not accepted was `refused` for some issues, since an outcome has two cases. -/
theorem not_isAccepted_iff {outcome : Checked α} :
    ¬outcome.IsAccepted ↔ ∃ issues, outcome = refused issues := by
  cases outcome <;> simp

/-- A function that is applied to what was accepted refuses nothing. -/
@[simp]
theorem isAccepted_map (f : α → β) (outcome : Checked α) :
    (f <$> outcome).IsAccepted ↔ outcome.IsAccepted := by
  cases outcome with
  | accepted a => exact iff_of_true ⟨f a, rfl⟩ ⟨a, rfl⟩
  | refused issues => exact iff_of_false (not_isAccepted_refused _) (not_isAccepted_refused _)

/-- **Two parts are accepted together exactly if both are.** Issues of both parts are collected, but
either part alone refuses the whole. -/
@[simp]
theorem isAccepted_seq (f : Checked (α → β)) (outcome : Checked α) :
    (f <*> outcome).IsAccepted ↔ f.IsAccepted ∧ outcome.IsAccepted := by
  change (f.seq outcome).IsAccepted ↔ _
  cases f <;> cases outcome <;> simp [seq]

/-- Naming the place of a part (`under`) does not change whether it was accepted. -/
@[simp]
theorem isAccepted_under (step : PlaceStep) (outcome : Checked α) :
    (outcome.under step).IsAccepted ↔ outcome.IsAccepted := by
  cases outcome <;> simp [under]

/-- Several parts are accepted by `collect` exactly if each of them is. Induction on the parts; the
step is `isAccepted_seq`. -/
@[simp]
theorem isAccepted_collect {outcomes : List (Checked α)} :
    (collect outcomes).IsAccepted ↔ ∀ outcome ∈ outcomes, outcome.IsAccepted := by
  induction outcomes with
  | nil => exact iff_of_true ⟨[], rfl⟩ (by simp)
  | cons outcome outcomes ih =>
    rw [collect, isAccepted_seq, isAccepted_map, ih, List.forall_mem_cons]

end Checked

/-! ### Simple and compound data -/

/-- The value is one that a flag may be given as: a truth value, one of twelve words in any case, or
a number that is zero or one. `isAccepted_flag` says that `Decode.flag` accepts these and no
others. -/
def Value.IsFlag : Value → Prop
  | .bool _ => True
  | .text s =>
    String.ofList (s.toList.map Char.toLower) ∈ ["1", "on", "t", "true", "y", "yes"]
      ∨ String.ofList (s.toList.map Char.toLower) ∈ ["0", "off", "f", "false", "n", "no"]
  | .number (.int i) => i = 0 ∨ i = 1
  | .number (.binary x) => x.toInt? = some 0 ∨ x.toInt? = some 1
  | _ => False

namespace Decode

open Checked

variable {α : Type}

/-- `text` accepts the texts, and no other value is turned into one. -/
theorem isAccepted_text {v : Value} : (text v).IsAccepted ↔ ∃ s, v = .text s := by
  cases v <;> simp [text]

/-- `flagOfInt` accepts zero and one. -/
theorem isAccepted_flagOfInt {i : Int} : (flagOfInt i).IsAccepted ↔ i = 0 ∨ i = 1 := by
  rw [flagOfInt]
  split
  · simp [*]
  · split <;> simp [*]

/-- **`flag` accepts exactly the values of `Value.IsFlag`.** One case for each constructor of
`Value`; a floating point number counts by its exact whole value, a text by its lower case form. -/
theorem isAccepted_flag {v : Value} : (flag v).IsAccepted ↔ v.IsFlag := by
  match v with
  | .null | .list _ | .mapping _ => exact iff_of_false (not_isAccepted_refuse _) id
  | .bool b => exact iff_of_true (isAccepted_accepted b) trivial
  | .number (.int i) => exact isAccepted_flagOfInt
  | .number (.binary x) =>
    rw [flag, Value.IsFlag]
    cases x.toInt? with
    | none => simp
    | some i =>
      dsimp only
      by_cases hi : i.natAbs < Nat.pow 2 63
      · simp [hi, isAccepted_flagOfInt]
      · -- An integer that does not fit into 64 bits is neither zero nor one.
        have hzero : i ≠ 0 := by rintro rfl; exact hi (by decide)
        have hone : i ≠ 1 := by rintro rfl; exact hi (by decide)
        simp [hi, hzero, hone]
  | .text s =>
    rw [flag, Value.IsFlag, flagWord?]
    split
    · next b h =>
      refine iff_of_true (isAccepted_accepted b) ?_
      split at h
      · next hyes => exact .inl (by simpa using hyes)
      · split at h
        · next hno => exact .inr (by simpa using hno)
        · cases h
    · next h =>
      refine iff_of_false (not_isAccepted_refuse _) ?_
      split at h
      · cases h
      · next hyes =>
        split at h
        · cases h
        · next hno => simpa using ⟨by simpa using hyes, by simpa using hno⟩

/-- `scalar` accepts exactly the values that are scalars. -/
theorem isAccepted_scalar {v : Value} : (scalar v).IsAccepted ↔ v.scalar?.isSome = true := by
  rw [scalar]
  cases v.scalar? <;> simp

/-- `choice` accepts the texts that name one of the choices. -/
theorem isAccepted_choice {choices : List (String × α)} {v : Value} :
    (choice choices v).IsAccepted ↔ ∃ s, v = .text s ∧ (choices.lookup s).isSome = true := by
  cases v with
  | text s =>
    simp only [choice, Value.text.injEq, exists_eq_left']
    cases choices.lookup s <;> simp
  | _ => simp [choice]

/-- `listOf` accepts the lists of which every item is accepted. The decoder numbers the items for
the places of its issues, so the two directions go over between an item and its index. -/
theorem isAccepted_listOf {item : Value → Checked α} {v : Value} :
    (listOf item v).IsAccepted ↔ ∃ items, v = .list items ∧ ∀ w ∈ items, (item w).IsAccepted := by
  cases v with
  | list items =>
    simp only [listOf, isAccepted_collect, List.forall_mem_map, Prod.forall, isAccepted_under,
      Value.list.injEq, exists_eq_left']
    constructor
    · intro h w hw
      obtain ⟨i, hi, rfl⟩ := List.getElem_of_mem hw
      exact h _ i (List.mem_zipIdx_iff_getElem?.2 (List.getElem?_eq_getElem hi))
    · exact fun h w i hw => h w (List.fst_mem_of_mem_zipIdx hw)
  | _ => simp [listOf]

/-- `optional` accepts nothing, and else what the decoder of the item accepts. -/
theorem isAccepted_optional {item : Value → Checked α} {v : Value} :
    (optional item v).IsAccepted ↔ v = .null ∨ (item v).IsAccepted := by
  have hmap : ((item v).map some).IsAccepted ↔ (item v).IsAccepted := isAccepted_map some (item v)
  cases v with
  | null => simp [optional]
  | _ => simpa [optional] using hmap

variable {name : String} {item : Value → Checked α} {entries : Entries}

/-- A `required` field has to be there, with a value that is accepted. -/
theorem isAccepted_required : (required name item entries).IsAccepted
    ↔ ∃ v, entries.get? name = some v ∧ (item v).IsAccepted := by
  rw [required]
  cases entries.get? name <;> simp

/-- A `required` field with a text: `isAccepted_required` and `isAccepted_text` in one, in the form
in which the records below use it. -/
theorem isAccepted_required_text :
    (required name text entries).IsAccepted ↔ ∃ s, entries.get? name = some (.text s) := by
  simp only [isAccepted_required, isAccepted_text]
  constructor
  · rintro ⟨v, hv, s, rfl⟩
    exact ⟨s, hv⟩
  · rintro ⟨s, hs⟩
    exact ⟨_, hs, s, rfl⟩

/-- A `defaulted` field may be missing; if it is there, its value has to be accepted. -/
theorem isAccepted_defaulted {default : α} : (defaulted name item default entries).IsAccepted
    ↔ ∀ v, entries.get? name = some v → (item v).IsAccepted := by
  rw [defaulted]
  cases entries.get? name <;> simp

/-- `openRecord` accepts the mappings of which the `fields` are accepted, whatever other entries
they have. -/
theorem isAccepted_openRecord {fields : Entries → Checked α} {v : Value} :
    (openRecord fields v).IsAccepted ↔ ∃ entries, v = .mapping entries
      ∧ (fields entries).IsAccepted := by
  cases v <;> simp [openRecord]

end Decode

/-! ### The records of a bundle -/

open Decode

/-- **What is accepted as an option.** `OptionDecl.decode` is put together from decoders of fields,
so the lemmas above read the condition off it: first the structure of the record, then the
fields. -/
theorem OptionDecl.isAccepted_decode {v : Value} : (OptionDecl.decode v).IsAccepted
    ↔ ∃ entries : Entries, v = .mapping entries
      ∧ (∃ s, entries.get? "name" = some (.text s))
      ∧ (∃ w, entries.get? "type" = some w
        ∧ ∃ s, w = .text s ∧ (OptionKind.choices.lookup s).isSome = true)
      ∧ (∃ s, entries.get? "description" = some (.text s))
      ∧ (∀ w, entries.get? "default" = some w → w = .null ∨ w.scalar?.isSome = true)
      ∧ (∀ w, entries.get? "choices" = some w →
        w = .null ∨ ∃ items, w = .list items ∧ ∀ item ∈ items, ∃ s, item = .text s)
      ∧ ∀ w, entries.get? "required" = some w → w.IsFlag := by
  simp only [OptionDecl.decode, isAccepted_openRecord, Checked.isAccepted_seq,
    Checked.isAccepted_map, isAccepted_required_text, and_assoc]
  simp only [isAccepted_required, isAccepted_defaulted, isAccepted_optional, isAccepted_text,
    isAccepted_choice, isAccepted_scalar, isAccepted_listOf, isAccepted_flag]

/-- **What is accepted as a file**, read off `FileDecl.decode` in the same way. -/
theorem FileDecl.isAccepted_decode {v : Value} : (FileDecl.decode v).IsAccepted
    ↔ ∃ entries : Entries, v = .mapping entries
      ∧ (∃ s, entries.get? "path" = some (.text s))
      ∧ (∃ s, entries.get? "content" = some (.text s))
      ∧ (∀ w, entries.get? "overwrite" = some w → w = .null ∨ w.IsFlag)
      ∧ ∀ w, entries.get? "condition" = some w → w = .null ∨ ∃ s, w = .text s := by
  simp only [FileDecl.decode, isAccepted_openRecord, Checked.isAccepted_seq,
    Checked.isAccepted_map, isAccepted_required_text, and_assoc]
  simp only [isAccepted_defaulted, isAccepted_optional, isAccepted_text, isAccepted_flag]

/-- **What is accepted as a bundle**: besides its texts, that every file and every option is
accepted by `FileDecl.decode` and `OptionDecl.decode`. -/
theorem Bundle.isAccepted_decode {entries : Entries} :
    (Bundle.decode (.mapping entries)).IsAccepted
      ↔ (∃ s, entries.get? "name" = some (.text s))
        ∧ (∃ s, entries.get? "description" = some (.text s))
        ∧ (∃ s, entries.get? "version" = some (.text s))
        ∧ (∃ v, entries.get? "files" = some v
          ∧ ∃ files, v = .list files ∧ ∀ file ∈ files, (FileDecl.decode file).IsAccepted)
        ∧ ∀ v, entries.get? "options" = some v → ∃ options, v = .list options
          ∧ ∀ option ∈ options, (OptionDecl.decode option).IsAccepted := by
  simp only [Bundle.decode, openRecord, Checked.isAccepted_seq, Checked.isAccepted_map,
    isAccepted_required_text, and_assoc]
  simp only [isAccepted_required, isAccepted_defaulted, isAccepted_listOf]

end Templating
