import Templating.Proofs.Bundle.Faults
import Templating.Proofs.Check.Faults
import Templating.Proofs.Record.Acceptance
import Templating.Renderer
import Templating.Scaffold.Workspace

/-!
# What the check of a bundle lets through

A bundle that the check finds valid has its name, description and version as texts, and files
whose fields are of the kinds that a file needs. Its options have names and types, but the check
asks nothing further of the kinds of their other fields, and it passes over options that are
nothing at all. A valid bundle is therefore accepted as a record, and can be rendered and written,
exactly if its options fit.

## Main definitions

* `BundleKinds`: what the check asks of the kinds of values in a bundle.
* `OptionsFit`: what it does not ask, and a bundle needs.
* `IsRefused`: data did not have the shape of a record.

## Main results

* `kinds_of_checkBundle`: a valid bundle has the kinds that are asked for.
* `BundleKinds.isAccepted_decode_iff`: such a bundle is accepted as a record exactly if its options
  fit.
* `isRefused_renderBundle_iff`, `isRefused_createBundle_iff`: rendering and writing a bundle refuse
  it as a record exactly if it is not accepted as one.
* `isAccepted_checked_bundle_iff`: all of it for a bundle that was found valid.
-/

namespace Templating

/-! ### What the check asks for -/

/-- The kinds of values that the check asks of a file. They are all that `FileDecl.decode` needs
(`FileKinds.isAccepted_decode`). -/
structure FileKinds (file : Entries) : Prop where
  path : ∃ s, file.get? "path" = some (.text s)
  content : ∃ s, file.get? "content" = some (.text s)
  overwrite : ∀ v, file.get? "overwrite" = some v → v = .null ∨ ∃ b, v = .bool b
  condition : ∀ v, file.get? "condition" = some v → v = .null ∨ ∃ s, v = .text s

/-- The kinds of values that the check asks of an option. They are less than `OptionDecl.decode`
needs; the rest is `OptionFits`. -/
structure OptionKinds (option : Entries) : Prop where
  name : ∃ s, option.get? "name" = some (.text s)
  kind : ∃ v, option.get? "type" = some v
    ∧ ∃ s, v = .text s ∧ (OptionKind.choices.lookup s).isSome = true

/-- The kinds of values that the check asks of a bundle, and of its files and options in turn. Of
the options it passes over what is nothing at all. -/
structure BundleKinds (bundle : Entries) : Prop where
  texts : ∀ name ∈ textFields, ∃ s, bundle.get? name = some (.text s)
  files : ∃ v, bundle.get? "files" = some v ∧ ∃ files, v = .list files
    ∧ ∀ file ∈ files, ∃ entries, file = .mapping entries ∧ FileKinds entries
  options : ∀ v, bundle.get? "options" = some v → v = .null ∨ ∃ options, v = .list options
    ∧ ∀ option ∈ options, ∃ entries, option = .mapping entries ∧ OptionKinds entries

section Files

variable {limits : Limits}

/-- `checkPathField` has no error only for a text. -/
theorem exists_text_of_checkPathField {field : Option Value}
    (h : (checkPathField limits field).errors = []) : ∃ s, field = some (.text s) := by
  rw [checkPathField.eq_def] at h
  split at h
  · next s => exact ⟨s, rfl⟩
  · cases h

/-- `checkContentField` has no error only for a text, which may be empty. -/
theorem exists_text_of_checkContentField {field : Option Value}
    (h : (checkContentField field).errors = []) : ∃ s, field = some (.text s) := by
  rw [checkContentField.eq_def] at h
  split at h
  · cases h
  · cases h
  · next s => exact ⟨s, rfl⟩
  · cases h

/-- `overwriteErrors` is empty only for nothing and for a truth value: a word or a number, which
`Decode.flag` would read, is an error to the check. -/
theorem bool_of_overwriteErrors {v : Value} (h : overwriteErrors (some v) = []) :
    v = .null ∨ ∃ b, v = .bool b := by
  cases v with
  | null => exact .inl rfl
  | bool b => exact .inr ⟨b, rfl⟩
  | _ => cases h

/-- `conditionErrors` is empty only for nothing and for a text, whose guard can then be read. -/
theorem text_of_conditionErrors {v : Value} (h : conditionErrors (some v) = .ok []) :
    v = .null ∨ ∃ s, v = .text s := by
  cases v with
  | null => exact .inl rfl
  | text s => exact .inr ⟨s, rfl⟩
  | _ => cases h

/-- **A file entry without errors has the kinds that are asked for.** The errors of `checkEntry` are
those of its four fields, so each field has none and is of its kind by the lemmas above. -/
theorem kinds_of_checkEntry {file : Value} {f : Findings} (h : checkEntry limits file = .ok f)
    (hvalid : f.errors = []) : ∃ entries, file = .mapping entries ∧ FileKinds entries := by
  cases file with
  | mapping entries =>
    obtain ⟨conditions, hcondition, ⟨⟩⟩ := bind_eq_ok_iff.1 h
    obtain ⟨hfields, rfl⟩ := List.append_eq_nil_iff.1 hvalid
    obtain ⟨htexts, hoverwrite⟩ := List.append_eq_nil_iff.1 hfields
    obtain ⟨hpath, hcontent⟩ := List.append_eq_nil_iff.1 htexts
    refine ⟨entries, rfl, exists_text_of_checkPathField hpath,
      exists_text_of_checkContentField hcontent, fun v hv => ?_, fun v hv => ?_⟩
    · rw [hv] at hoverwrite
      exact bool_of_overwriteErrors hoverwrite
    · rw [hv] at hcondition
      exact text_of_conditionErrors hcondition
  | _ =>
    cases h
    cases hvalid

/-- Putting a key in front of messages (`aboutFile`) keeps their number, so there are none under the
key exactly if there were none. -/
theorem aboutFile_eq_nil_iff {key : String} {messages : List String} :
    aboutFile key messages = [] ↔ messages = [] := by
  cases messages <;> simp [aboutFile]

/-- If the findings over several entries are valid, every entry has the kinds that are asked for.
Findings are valid from the start exactly if they have no errors, and they keep to that. Induction
on the entries, for any findings so far. -/
theorem kinds_of_checkEntriesFrom {files : List Value} : ∀ {number : Nat}
    {found result : FileFindings}, checkEntriesFrom limits number found files = .ok result →
    found.isValid = found.errors.isEmpty → result.isValid = true →
    found.errors = [] ∧ ∀ file ∈ files, ∃ entries, file = .mapping entries ∧ FileKinds entries := by
  induction files with
  | nil =>
    rintro number found result ⟨⟩ hfound hvalid
    exact ⟨List.isEmpty_iff.1 (hfound.symm.trans hvalid), fun _ h => absurd h List.not_mem_nil⟩
  | cons file rest ih =>
    intro number found result h _ hvalid
    obtain ⟨f, hf, hrest⟩ := bind_eq_ok_iff.1 h
    obtain ⟨herrors, hkinds⟩ := ih hrest rfl hvalid
    obtain ⟨hfound, habout⟩ := List.append_eq_nil_iff.1 herrors
    have hfile := kinds_of_checkEntry hf (aboutFile_eq_nil_iff.1 habout)
    exact ⟨hfound, List.forall_mem_cons.2 ⟨hfile, hkinds⟩⟩

/-- A bundle that has files at all has them in a list under `"files"`. -/
theorem get?_files_of_ne_nil {bundle : Entries} (h : filesOf bundle ≠ []) :
    bundle.get? "files" = some (.list (filesOf bundle)) := by
  rw [filesOf] at h ⊢
  split at h
  · next files hfield => rw [hfield]
  · exact absurd rfl h

/-- **Valid files are a list of entries of the kinds that are asked for.** Without a list, or with
an empty one, `checkFiles` has an error. -/
theorem kinds_of_checkFiles {bundle : Entries} {found : FileFindings}
    (h : checkFiles limits bundle = .ok found) (hvalid : found.isValid = true) :
    ∃ v, bundle.get? "files" = some v ∧ ∃ files, v = .list files
      ∧ ∀ file ∈ files, ∃ entries, file = .mapping entries ∧ FileKinds entries := by
  rw [checkFiles] at h
  split at h
  · cases h
    cases hvalid
  · next hnonempty =>
    exact ⟨_, get?_files_of_ne_nil hnonempty, _, rfl, (kinds_of_checkEntriesFrom h rfl hvalid).2⟩

end Files

section Options

/-- `nameErrors` is empty only for a text. -/
theorem exists_text_of_nameErrors {label : String} {field : Option Value}
    (h : nameErrors label field = []) : ∃ s, field = some (.text s) := by
  rw [nameErrors.eq_def] at h
  split at h
  · next s => exact ⟨s, rfl⟩
  · cases h

/-- `kindErrors` is empty only for a text that names one of the types of options. -/
theorem exists_kind_of_kindErrors {label : String} {field : Option Value}
    (h : kindErrors label field = .ok []) : ∃ v, field = some v
      ∧ ∃ s, v = .text s ∧ (OptionKind.choices.lookup s).isSome = true := by
  rw [kindErrors] at h
  split at h
  · next kind hkind =>
    rw [kindOfField.eq_def] at hkind
    split at hkind
    · next s => exact ⟨_, rfl, s, rfl, Option.isSome_of_eq_some hkind⟩
    · cases hkind
  · obtain ⟨shown, -, ⟨⟩⟩ := bind_eq_ok_iff.1 h

/-- The check has nothing to say against the name and the type of an option, under whatever label it
would say it. -/
structure OptionPasses (option : Entries) : Prop where
  name : ∃ label, nameErrors label (option.get? "name") = []
  kind : ∃ label, kindErrors label (option.get? "type") = .ok []

/-- An option that passes has the kinds that are asked for, by `exists_text_of_nameErrors` and
`exists_kind_of_kindErrors`. -/
theorem OptionPasses.kinds {option : Entries} (h : OptionPasses option) : OptionKinds option := by
  obtain ⟨_, hname⟩ := h.name
  obtain ⟨_, hkind⟩ := h.kind
  exact ⟨exists_text_of_nameErrors hname, exists_kind_of_kindErrors hkind⟩

/-- An option without errors passes: the errors about its name and its type are among those of
`checkOption`. -/
theorem passes_of_checkOption {seen : SeenNames} {number : Nat} {option : Value}
    {warnings : List String} (h : checkOption seen number option = .ok ([], warnings)) :
    ∃ entries, option = .mapping entries ∧ OptionPasses entries := by
  cases option with
  | mapping entries =>
    obtain ⟨kinds, hkind, hrest⟩ := bind_eq_ok_iff.1 h
    obtain ⟨herrors, -⟩ := Prod.mk.inj (Except.ok.inj hrest)
    obtain ⟨hdescribed, -⟩ := List.append_eq_nil_iff.1 (List.append_eq_nil_iff.1 herrors).1
    obtain ⟨hnamed, -⟩ := List.append_eq_nil_iff.1 hdescribed
    obtain ⟨hname, rfl⟩ := List.append_eq_nil_iff.1 hnamed
    exact ⟨entries, rfl, ⟨_, hname⟩, ⟨_, hkind⟩⟩
  | _ => cases h

/-- The same for every option on the walk, by induction on the options for any names met so far. -/
theorem passes_of_checkOptionsFrom {options : List Value} : ∀ {seen : SeenNames} {number : Nat}
    {warnings : List String}, checkOptionsFrom seen number options = .ok ([], warnings) →
    ∀ option ∈ options, ∃ entries, option = .mapping entries ∧ OptionPasses entries := by
  induction options with
  | nil => exact fun _ _ h => absurd h List.not_mem_nil
  | cons option rest ih =>
    intro seen number warnings h
    obtain ⟨⟨errors, _⟩, hoption, h⟩ := bind_eq_ok_iff.1 h
    obtain ⟨⟨moreErrors, _⟩, hrest, h⟩ := bind_eq_ok_iff.1 h
    obtain ⟨herrors, -⟩ := Prod.mk.inj (Except.ok.inj h)
    obtain ⟨rfl, rfl⟩ := List.append_eq_nil_iff.1 herrors
    exact List.forall_mem_cons.2 ⟨passes_of_checkOption hoption, ih hrest⟩

/-- Options without errors pass: the walk from its beginning. -/
theorem passes_of_checkOptions {options : List Value} {f : Findings}
    (h : checkOptions options = .ok f) (hvalid : f.errors = []) :
    ∀ option ∈ options, ∃ entries, option = .mapping entries ∧ OptionPasses entries := by
  obtain ⟨⟨errors, warnings⟩, hoptions, ⟨⟩⟩ := bind_eq_ok_iff.1 h
  obtain rfl : errors = [] := hvalid
  exact passes_of_checkOptionsFrom hoptions

/-- **Options without errors have the kinds that are asked for**: `passes_of_checkOptions`, in the
form that `kinds_of_checkBundle` needs. -/
theorem kinds_of_checkOptions {options : List Value} {f : Findings}
    (h : checkOptions options = .ok f) (hvalid : f.errors = []) :
    ∀ option ∈ options, ∃ entries, option = .mapping entries ∧ OptionKinds entries := by
  intro option hoption
  obtain ⟨entries, rfl, hpasses⟩ := passes_of_checkOptions h hvalid option hoption
  exact ⟨entries, rfl, hpasses.kinds⟩

end Options

section Bundles

variable {limits : Limits} {bundle : Entries}

/-- A field that is neither blank (`isBlankField`) nor other than text (`isOtherThanText`) is a
text. What is not there counts as blank, and what is no text does not. -/
theorem exists_text_of_not_isBlankField {field : Option Value} (hblank : isBlankField field = false)
    (htext : isOtherThanText field = false) : ∃ s, field = some (.text s) := by
  match field with
  | none => cases hblank
  | some .null => cases hblank
  | some (.text s) => exact ⟨s, rfl⟩
  | some (.bool _) | some (.number _) | some (.list _) | some (.mapping _) => cases htext

/-- A field that `isOtherThanList` passes is a list or nothing. -/
theorem list_of_not_isOtherThanList {v : Value} (h : isOtherThanList (some v) = false) :
    v = .null ∨ ∃ items, v = .list items := by
  cases v with
  | null => exact .inl rfl
  | list items => exact .inr ⟨items, rfl⟩
  | _ => cases h

/-- If there are no errors about the items that fail a test, no item fails it. The errors of
`checkMetadata` have this form, one for each field in a list of names. -/
theorem not_of_map_filter_eq_nil {α : Type} {items : List α} {fails : α → Bool}
    {error : α → String} (h : (items.filter fails).map error = []) :
    ∀ a ∈ items, fails a = false := by
  intro a ha
  simpa using List.filter_eq_nil_iff.1 (List.map_eq_nil_iff.1 h) a ha

/-- Valid metadata has no field of text with another kind of value, and no other kind of value than
a list for its options; a text that is missing is found elsewhere, by `checkDeclarations`. -/
theorem kinds_of_checkMetadata (h : (checkMetadata bundle).isValid = true) :
    (∀ name ∈ textFields, isOtherThanText (bundle.get? name) = false)
      ∧ isOtherThanList (bundle.get? "options") = false := by
  obtain ⟨hfields, hlist⟩ := List.append_eq_nil_iff.1 (List.isEmpty_iff.1 h)
  obtain ⟨-, htexts⟩ := List.append_eq_nil_iff.1 (List.append_eq_nil_iff.1 hfields).1
  refine ⟨not_of_map_filter_eq_nil htexts, ?_⟩
  split at hlist
  · cases hlist
  · next h => simpa using h

/-- **A bundle that the check finds valid has the kinds of values that are asked for.** Its report
is valid only if each part of the check is, and each part asks for some of the kinds. -/
theorem kinds_of_checkBundle {templateId : String} {report : Report}
    (h : checkBundle limits templateId bundle = .ok report) (hvalid : report.isValid = true) :
    BundleKinds bundle := by
  obtain ⟨bodies, -, h⟩ := bind_eq_ok_iff.1 h
  obtain ⟨declarations, hdeclarations, h⟩ := bind_eq_ok_iff.1 h
  obtain ⟨files, hfiles, ⟨⟩⟩ := bind_eq_ok_iff.1 h
  obtain ⟨hmetadata, -, hdeclared, hvalidFiles⟩ : (checkMetadata bundle).isValid = true
      ∧ bodies.isValid = true ∧ declarations.isValid = true ∧ files.isValid = true := by
    simpa [Report.ofSections, FileFindings.toFindings] using hvalid
  obtain ⟨options, hoptions, ⟨⟩⟩ := bind_eq_ok_iff.1 hdeclarations
  obtain ⟨htexts, hlist⟩ := kinds_of_checkMetadata hmetadata
  obtain ⟨hfields, herrors⟩ := List.append_eq_nil_iff.1 (List.isEmpty_iff.1 hdeclared)
  obtain ⟨hblank, -⟩ := List.append_eq_nil_iff.1 (List.append_eq_nil_iff.1 hfields).1
  refine ⟨fun name hname => ?_, kinds_of_checkFiles hfiles hvalidFiles, fun v hv => ?_⟩
  · exact exists_text_of_not_isBlankField (not_of_map_filter_eq_nil hblank name hname)
      (htexts name hname)
  · rw [hv] at hlist hoptions
    obtain rfl | ⟨items, rfl⟩ := list_of_not_isOtherThanList hlist
    · exact .inl rfl
    · exact .inr ⟨items, rfl, kinds_of_checkOptions hoptions herrors⟩

end Bundles

/-! ### What a record needs besides -/

/-- What the check does not ask of an option, and an option needs: its description is a text, its
default a scalar if it has one, its choices are texts, and its flag is one (`Value.IsFlag`). -/
structure OptionFits (option : Entries) : Prop where
  description : ∃ s, option.get? "description" = some (.text s)
  default : ∀ v, option.get? "default" = some v → v = .null ∨ v.scalar?.isSome = true
  choices : ∀ v, option.get? "choices" = some v →
    v = .null ∨ ∃ items, v = .list items ∧ ∀ item ∈ items, ∃ s, item = .text s
  required : ∀ v, option.get? "required" = some v → v.IsFlag

/-- What the check does not ask of the options of a bundle, and a bundle needs: if the field is
there it holds a list, which may not be replaced by nothing, and every option fits
(`OptionFits`). -/
def OptionsFit (bundle : Entries) : Prop :=
  ∀ v, bundle.get? "options" = some v → ∃ options, v = .list options
    ∧ ∀ option ∈ options, ∀ entries, option = .mapping entries → OptionFits entries

/-- **A file of the kinds that are asked for is accepted as one**: the check of a file asks for all
that `FileDecl.decode` needs. -/
theorem FileKinds.isAccepted_decode {file : Entries} (h : FileKinds file) :
    (FileDecl.decode (.mapping file)).IsAccepted := by
  refine FileDecl.isAccepted_decode.2
    ⟨file, rfl, h.path, h.content, fun v hv => ?_, h.condition⟩
  obtain rfl | ⟨b, rfl⟩ := h.overwrite v hv
  · exact .inl rfl
  · exact .inr trivial

/-- **An option of the kinds that are asked for is accepted as one exactly if it fits.** Of the
condition of `OptionDecl.isAccepted_decode`, `OptionKinds` is one half and `OptionFits` the
other. -/
theorem OptionKinds.isAccepted_decode_iff {option : Entries} (h : OptionKinds option) :
    (OptionDecl.decode (.mapping option)).IsAccepted ↔ OptionFits option := by
  rw [OptionDecl.isAccepted_decode]
  constructor
  · rintro ⟨entries, ⟨⟩, -, -, hdescription, hdefault, hchoices, hrequired⟩
    exact ⟨hdescription, hdefault, hchoices, hrequired⟩
  · rintro ⟨hdescription, hdefault, hchoices, hrequired⟩
    exact ⟨option, rfl, h.name, h.kind, hdescription, hdefault, hchoices, hrequired⟩

/-- The options of a bundle that lists them have the kinds that are asked for. -/
theorem BundleKinds.options_of_list {bundle : Entries} (h : BundleKinds bundle)
    {options : List Value} (hoptions : bundle.get? "options" = some (.list options)) :
    ∀ option ∈ options, ∃ entries, option = .mapping entries ∧ OptionKinds entries := by
  rcases h.options _ hoptions with hnull | ⟨options', hlist, hkinds⟩
  · cases hnull
  · cases hlist
    exact hkinds

/-- **A bundle of the kinds that are asked for is accepted as one exactly if its options fit.** Its
texts and files are accepted without more, and its options by
`OptionKinds.isAccepted_decode_iff`. -/
theorem BundleKinds.isAccepted_decode_iff {bundle : Entries} (h : BundleKinds bundle) :
    (Bundle.decode (.mapping bundle)).IsAccepted ↔ OptionsFit bundle := by
  rw [Bundle.isAccepted_decode]
  constructor
  · rintro ⟨-, -, -, -, hoptions⟩ v hv
    obtain ⟨options, rfl, haccepted⟩ := hoptions v hv
    have hkinds := h.options_of_list hv
    refine ⟨options, rfl, fun option hoption entries hentries => ?_⟩
    obtain ⟨entries', rfl, hkind⟩ := hkinds option hoption
    cases hentries
    exact hkind.isAccepted_decode_iff.1 (haccepted _ hoption)
  · intro hfit
    refine ⟨h.texts _ (by decide), h.texts _ (by decide), h.texts _ (by decide), ?_, ?_⟩
    · obtain ⟨v, hv, files, rfl, hfiles⟩ := h.files
      refine ⟨_, hv, files, rfl, fun file hfile => ?_⟩
      obtain ⟨entries, rfl, hkind⟩ := hfiles file hfile
      exact hkind.isAccepted_decode
    · intro v hv
      obtain ⟨options, rfl, hfits⟩ := hfit v hv
      have hkinds := h.options_of_list hv
      refine ⟨options, rfl, fun option hoption => ?_⟩
      obtain ⟨entries, rfl, hkind⟩ := hkinds option hoption
      exact hkind.isAccepted_decode_iff.2 (hfits _ hoption entries rfl)

/-! ### Rendering and writing -/

section Refusal

/-- The fault is not that data lacks the shape of a record. Rendering and writing can fail in many
ways; all but one are kept apart by this. -/
def Fault.IsNoRefusal (fault : Fault) : Prop :=
  ∀ issues, fault ≠ .refusedRecord issues

/-- Data did not have the shape of a record: the `outcome` is the fault `refusedRecord`, for some
issues. -/
def IsRefused {α : Type} (outcome : Except Fault α) : Prop :=
  ∃ issues, outcome = .error (.refusedRecord issues)

/-- A fault is a refusal exactly if it is `refusedRecord`. -/
theorem isRefused_error_iff {α : Type} {fault : Fault} :
    IsRefused (.error fault : Except Fault α) ↔ ∃ issues, fault = .refusedRecord issues := by
  simp [IsRefused]

theorem FailsOnly.not_isRefused {α : Type} {outcome : Except Fault α}
    (h : FailsOnly Fault.IsNoRefusal outcome) : ¬IsRefused outcome := by
  rintro ⟨issues, hrefused⟩
  exact h _ hrefused issues rfl

/-- The faults of rendering (`Fault.IsOfRendering`) are no refusals. -/
theorem Fault.IsOfRendering.isNoRefusal {fault : Fault} (h : fault.IsOfRendering) :
    fault.IsNoRefusal := by
  rintro issues rfl
  exact h

/-- The faults of writing (`Fault.IsOfWriting`) are no refusals. -/
theorem Fault.IsOfWriting.isNoRefusal {fault : Fault} (h : fault.IsOfWriting) :
    fault.IsNoRefusal := by
  rintro issues rfl
  exact h

/-- A bundle that was accepted is not refused while it is rendered without a cache. -/
theorem Bundle.not_isRefused_renderPlainly (b : Bundle) (configuration : Value) :
    ¬IsRefused (b.renderPlainly configuration) :=
  ((b.failsOnly_renderPlainly configuration).imp
    fun _ => Fault.IsOfRendering.isNoRefusal).not_isRefused

variable {Time Span : Type} [Timeline Time Span] {bundle : Entries}

/-- Nor is it while it is rendered through a cache, in whatever state the cache is. -/
theorem Bundle.not_isRefused_renderThrough (now : Time) (b : Bundle) (configuration : Value)
    (c : Cache Time Span) : ¬IsRefused (b.renderThrough now configuration c).1 :=
  ((b.neverFailsBut_renderThrough now configuration c).imp
    fun _ => Fault.IsOfRendering.isNoRefusal).not_isRefused

/-- **Rendering a bundle refuses it as a record exactly if it is not accepted as one**:
`renderBundle` reads the bundle first, and what follows fails in other ways only. -/
theorem isRefused_renderBundle_iff (r : Renderer Time Span) (configuration : Value)
    (cache : Option Nat) :
    IsRefused (r.renderBundle (.value (.mapping bundle)) configuration cache).1
      ↔ ¬(Bundle.decode (.mapping bundle)).IsAccepted := by
  rw [Renderer.renderBundle, BundleSource.bundle]
  cases hdecode : Bundle.decode (.mapping bundle) with
  | refused issues => exact iff_of_true ⟨issues, rfl⟩ (Checked.not_isAccepted_refused issues)
  | accepted b =>
    refine iff_of_false ?_ (not_not_intro ⟨b, rfl⟩)
    cases cache with
    | none => exact b.not_isRefused_renderPlainly configuration
    | some i => exact b.not_isRefused_renderThrough r.now configuration (r.cacheAt (some i))

/-- The same for `renderSource`, which writing goes through. -/
theorem isRefused_renderSource_iff (now : Time) (configuration : Value)
    (w : Workspace Time Span) :
    IsRefused (renderSource now (.value (.mapping bundle)) configuration w).1
      ↔ ¬(Bundle.decode (.mapping bundle)).IsAccepted := by
  rw [renderSource, BundleSource.bundle]
  cases hdecode : Bundle.decode (.mapping bundle) with
  | refused issues => exact iff_of_true ⟨issues, rfl⟩ (Checked.not_isAccepted_refused issues)
  | accepted b =>
    refine iff_of_false ?_ (not_not_intro ⟨b, rfl⟩)
    dsimp only [Checked.toExcept]
    cases w.cache with
    | none => exact b.not_isRefused_renderPlainly configuration
    | some c => exact b.not_isRefused_renderThrough now configuration c

/-- Where to write to is found, or not found, without a look at the bundle. -/
theorem failsOnly_targetLocation (request : ScaffoldRequest) (directory : Location) :
    FailsOnly Fault.IsNoRefusal (request.targetLocation directory) := by
  rw [ScaffoldRequest.targetLocation]
  split
  · exact failsOnly_error (by rintro issues ⟨⟩)
  · split
    · exact failsOnly_error (by rintro issues ⟨⟩)
    · exact failsOnly_ok _

variable {request : ScaffoldRequest}

/-- **Writing a bundle refuses it as a record exactly if it is not accepted as one, and there is
somewhere to write it to.** `writeBundle` finds the target before it reads the bundle, so without a
target that is the fault. -/
theorem isRefused_writeBundle_iff (hsource : request.source = .value (.mapping bundle))
    (now : Time) (w : Workspace Time Span) :
    IsRefused (writeBundle now request w).1
      ↔ ¬(Bundle.decode (.mapping bundle)).IsAccepted
        ∧ ∃ location, request.targetLocation w.directory = .ok location := by
  rw [writeBundle, bind_apply, writeBundle.located]
  cases htarget : request.targetLocation w.directory with
  | error fault =>
    refine iff_of_false ?_ (by rintro ⟨-, location, ⟨⟩⟩)
    exact (failsOnly_error (failsOnly_targetLocation _ _ fault htarget)).not_isRefused
  | ok location =>
    dsimp only
    have hrender : _ ↔ ¬(Bundle.decode (.mapping bundle)).IsAccepted :=
      isRefused_renderSource_iff now request.configuration w
    rw [bind_apply, hsource]
    rcases hout : renderSource now (.value (.mapping bundle)) request.configuration w with
      ⟨fault | rendering, w'⟩
    all_goals rw [hout] at hrender
    · rw [and_iff_left ⟨location, rfl⟩, ← hrender]
      exact isRefused_error_iff.trans isRefused_error_iff.symm
    · have haccepted : (Bundle.decode (.mapping bundle)).IsAccepted := by
        by_contra hnot
        obtain ⟨issues, ⟨⟩⟩ := hrender.2 hnot
      refine iff_of_false (FailsOnly.not_isRefused ?_) fun h => h.1 haccepted
      have hwrite := neverFailsBut_writeRendering location request.force rendering w'.tree
      exact hwrite.imp fun _ => Fault.IsOfWriting.isNoRefusal

/-- The check that `createBundle` makes first fails in other ways only: it looks at the data and
does not read it as a record. -/
theorem failsOnly_checkSource (templateId : Option String) (source : BundleSource) :
    FailsOnly Fault.IsNoRefusal (checkSource templateId source) := by
  have hname : FailsOnly Fault.IsNoRefusal source.name := by
    rw [BundleSource.name.eq_def]
    split
    · exact failsOnly_ok _
    · split
      · exact failsOnly_ok _
      · exact failsOnly_ok _
    · exact failsOnly_error (by rintro issues ⟨⟩)
  have hentries : FailsOnly Fault.IsNoRefusal source.entries := by
    rw [BundleSource.entries]
    split
    · exact failsOnly_ok _
    · exact failsOnly_error (by rintro issues ⟨⟩)
  have hbundle (name : String) (bundle : Entries) :
      FailsOnly Fault.IsNoRefusal (checkBundle .standard name bundle) :=
    (failsOnly_checkBundle .standard name bundle).imp (by rintro fault rfl issues ⟨⟩)
  rw [checkSource]
  split
  · exact hentries.bind (hbundle _)
  · exact hname.bind fun name => hentries.bind (hbundle name)

/-- **Creating the files of a bundle refuses it as a record exactly if it is found valid and yet not
accepted as one**, and there is somewhere to write it to. What the check rejects is reported as that
and not as a refusal. -/
theorem isRefused_createBundle_iff (hsource : request.source = .value (.mapping bundle))
    (now : Time) (templateId : Option String) (w : Workspace Time Span) :
    IsRefused (createBundle now templateId request w).1
      ↔ ¬(Bundle.decode (.mapping bundle)).IsAccepted
        ∧ (∃ location, request.targetLocation w.directory = .ok location)
        ∧ ∃ report, checkSource templateId request.source = .ok report
          ∧ report.isValid = true := by
  rw [createBundle, bind_apply, createBundle.checked]
  cases hcheck : checkSource templateId request.source with
  | error fault =>
    refine iff_of_false ?_ (by rintro ⟨-, -, report, ⟨⟩, -⟩)
    exact (failsOnly_error (failsOnly_checkSource _ _ fault hcheck)).not_isRefused
  | ok report =>
    dsimp only
    split
    · next hvalid =>
      rw [isRefused_writeBundle_iff hsource]
      refine and_congr_right fun _ => (and_iff_left ⟨report, rfl, hvalid⟩).symm
    · next hinvalid =>
      refine iff_of_false ?_ ?_
      · rintro ⟨issues, ⟨⟩⟩
      · rintro ⟨-, -, report', ⟨⟩, hvalid⟩
        exact hinvalid hvalid

/-- **What a valid bundle lacks.** A bundle that the check finds valid is accepted as a record
exactly if its options fit (`OptionsFit`). Rendering it refuses it as a record exactly if they do
not, and so does creating its files, where there is somewhere to write them to and the check that
comes first finds it valid too. -/
theorem isAccepted_checked_bundle_iff {limits : Limits} {templateId : String} {report : Report}
    (hcheck : checkBundle limits templateId bundle = .ok report) (hvalid : report.isValid = true) :
    ((∃ b, Bundle.decode (.mapping bundle) = .accepted b) ↔ OptionsFit bundle)
      ∧ (∀ (r : Renderer Time Span) (configuration : Value) (cache : Option Nat),
        IsRefused (r.renderBundle (.value (.mapping bundle)) configuration cache).1
          ↔ ¬OptionsFit bundle)
      ∧ ∀ (now : Time) (name : Option String) (request : ScaffoldRequest)
        (w : Workspace Time Span), request.source = .value (.mapping bundle) →
          (IsRefused (createBundle now name request w).1
            ↔ ¬OptionsFit bundle
              ∧ (∃ location, request.targetLocation w.directory = .ok location)
              ∧ ∃ report, checkSource name request.source = .ok report
                ∧ report.isValid = true) := by
  have haccepted := (kinds_of_checkBundle hcheck hvalid).isAccepted_decode_iff
  refine ⟨haccepted, fun r configuration cache => ?_, fun now name request w hsource => ?_⟩
  · rw [isRefused_renderBundle_iff, haccepted]
  · rw [isRefused_createBundle_iff hsource, haccepted]

end Refusal

/-! ### An option whose description is a number -/

/-- A bundle with one file and one option, whose description is given. -/
def describedBundle (description : Value) : Entries :=
  [("name", .text "demo"), ("description", .text "a file"), ("version", .text "1.0.0"),
    ("files", .list [.mapping [("path", .text "a"), ("content", .text "x")]]),
    ("options", .list [.mapping [("name", .text "p"), ("type", .text "string"),
      ("description", description)]])]

/-- The bundle with a text for a description is valid, is accepted as a record, and rendering does
not refuse it. -/
theorem isAccepted_describedBundle :
    (∃ report, checkBundle .standard "demo" (describedBundle (.text "t")) = .ok report
        ∧ report.isValid = true)
      ∧ (∃ b, Bundle.decode (.mapping (describedBundle (.text "t"))) = .accepted b)
      ∧ ∀ (r : Renderer Binary64 Number) (configuration : Value) (cache : Option Nat),
        ¬IsRefused (r.renderBundle (.value (.mapping (describedBundle (.text "t"))))
          configuration cache).1 := by
  have hmap : (checkBundle .standard "demo" (describedBundle (.text "t"))).map (·.isValid)
      = .ok true := by decide +kernel
  obtain ⟨report, hcheck, hvalid⟩ := map_eq_ok_iff.1 hmap
  have hfit : OptionsFit (describedBundle (.text "t")) := by
    rintro v ⟨⟩
    refine ⟨_, rfl, fun option hoption entries hentries => ?_⟩
    obtain rfl := List.mem_singleton.1 hoption
    cases hentries
    exact ⟨⟨_, rfl⟩, by rintro v ⟨⟩, by rintro v ⟨⟩, by rintro v ⟨⟩⟩
  obtain ⟨haccepted, hrender, -⟩ :=
    @isAccepted_checked_bundle_iff Binary64 Number _ _ _ _ _ hcheck hvalid
  exact ⟨⟨report, hcheck, hvalid⟩, haccepted.2 hfit,
    fun r configuration cache h => (hrender r configuration cache).1 h hfit⟩

/-- The bundle with a number for a description is found valid, but it is not accepted as a record.
Rendering it and creating its files refuse it for that. -/
theorem refused_describedBundle :
    (∃ report, checkBundle .standard "demo" (describedBundle (.int 5)) = .ok report
        ∧ report.isValid = true)
      ∧ Bundle.decode (.mapping (describedBundle (.int 5)))
        = .refused [⟨[.key "options", .index 0, .key "description"], .notText⟩]
      ∧ (∀ (r : Renderer Binary64 Number) (configuration : Value) (cache : Option Nat),
        IsRefused (r.renderBundle (.value (.mapping (describedBundle (.int 5))))
          configuration cache).1)
      ∧ ∀ (now : Binary64) (request : ScaffoldRequest) (w : Workspace Binary64 Number),
        request.source = .value (.mapping (describedBundle (.int 5))) →
        (∃ location, request.targetLocation w.directory = .ok location) →
          IsRefused (createBundle now none request w).1 := by
  have hmap : (checkBundle .standard "demo" (describedBundle (.int 5))).map (·.isValid)
      = .ok true := by decide +kernel
  have hvalid := map_eq_ok_iff.1 hmap
  have hrefused : Bundle.decode (.mapping (describedBundle (.int 5)))
      = .refused [⟨[.key "options", .index 0, .key "description"], .notText⟩] := by rfl
  have hnot : ¬(Bundle.decode (.mapping (describedBundle (.int 5)))).IsAccepted :=
    Checked.not_isAccepted_iff.2 ⟨_, hrefused⟩
  refine ⟨hvalid, hrefused, fun r configuration cache => ?_,
    fun now request w hsource htarget => ?_⟩
  · exact (isRefused_renderBundle_iff r configuration cache).2 hnot
  · refine (isRefused_createBundle_iff hsource now none w).2 ⟨hnot, htarget, ?_⟩
    rw [hsource]
    exact hvalid

end Templating
