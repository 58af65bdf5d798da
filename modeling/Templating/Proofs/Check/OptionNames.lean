import Templating.Proofs.Check.Gate
import Templating.Proofs.Guard.BlankEnds
import Templating.Proofs.Template.LeftPlaceholders
import Templating.Proofs.Value.Places

/-!
# Names of options

An option can be used by a template if its value, kept under its name, is inserted where a
placeholder holds the name. The check of the options lets names pass that are a letter followed by
letters, digits and underscores, and they can be used. It also lets such a name pass with a line
feed at its end. Blank space is taken away from what a placeholder holds, so no placeholder names
this variable: under such a name no value is ever inserted, whatever the text is.

## Main definitions

* `IsPlainName`: a letter, then letters, digits and underscores.
* `placeholderOf`: the placeholder that holds a name.

## Main results

* `isOptionName_iff`: the names that the check lets pass.
* `substitute_placeholderOf`, `substitute_eq_self_of_single`: where a value under a name is
  inserted.
* `names_of_valid_options`: the names of valid options, and which of them can be used.
-/

namespace Templating

open Templating.Text Templating.Template

/-! ### Names that pass -/

/-- A letter, then letters, digits and underscores. These names can be used in a template
(`substitute_placeholderOf`). -/
def IsPlainName (cs : List Char) : Prop :=
  ∃ c rest, cs = c :: rest ∧ c.isAlpha = true ∧ ∀ d ∈ rest, d.isAlphanum = true ∨ d = '_'

/-- A plain name is made of characters that stand in the name of a variable. -/
theorem IsPlainName.inName {cs : List Char} (h : IsPlainName cs) :
    ∀ c ∈ cs, Guard.inName c = true := by
  obtain ⟨c, rest, rfl, hc, hrest⟩ := h
  refine List.forall_mem_cons.2 ⟨?_, fun d hd => ?_⟩
  · exact Guard.inName_of_startsName (Bool.or_eq_true_iff.2 (.inl hc))
  · exact Bool.or_eq_true_iff.2 ((hrest d hd).imp_right beq_iff_eq.2)

/-- A name is made of letters, digits, underscores and points (`IsName`), so no blank character and
no line feed stands in it. -/
theorem IsName.inName_or_eq_point {cs : List Char} (h : IsName cs) :
    ∀ c ∈ cs, Guard.inName c = true ∨ c = '.' := by
  obtain ⟨c, rest, rfl, hc, hrest⟩ := h
  refine List.forall_mem_cons.2 ⟨.inl (Guard.inName_of_startsName hc), fun d hd => ?_⟩
  exact (Bool.or_eq_true_iff.1 (hrest d hd)).imp_right beq_iff_eq.1

/-- A plain name is a name that a placeholder can hold. -/
theorem IsPlainName.isName {cs : List Char} (h : IsPlainName cs) : IsName cs := by
  have hinside := h.inName
  obtain ⟨c, rest, rfl, hc, -⟩ := h
  refine ⟨c, rest, rfl, Bool.or_eq_true_iff.2 (.inl hc), fun d hd => ?_⟩
  exact Bool.or_eq_true_iff.2 (.inl (hinside d (List.mem_cons_of_mem _ hd)))

/-- A character that stands in no name does not stand in a plain one. -/
theorem IsPlainName.not_mem {cs : List Char} {c : Char} (h : IsPlainName cs)
    (hc : Guard.inName c = false) : c ∉ cs :=
  fun hmem => Bool.eq_false_iff.1 hc (h.inName c hmem)

/-- At most one line feed is taken away by `withoutFinalNewline`, and from the end. -/
theorem eq_or_eq_append_of_withoutFinalNewline (cs : List Char) :
    cs = withoutFinalNewline cs ∨ cs = withoutFinalNewline cs ++ ['\n'] := by
  rw [withoutFinalNewline]
  split
  · next hlast => exact .inr (List.dropLast_append_getLast? _ hlast).symm
  · exact .inl rfl

/-- `isOptionName` tests what is left of a name without a line feed at its end. -/
theorem isOptionName_iff_isPlainName (name : String) :
    isOptionName name = true ↔ IsPlainName (withoutFinalNewline name.toList) := by
  rw [isOptionName, IsPlainName]
  cases withoutFinalNewline name.toList with
  | nil => exact iff_of_false Bool.false_ne_true (by rintro ⟨c, rest, ⟨⟩, -⟩)
  | cons c rest =>
    simp only [Bool.and_eq_true, List.all_eq_true, Bool.or_eq_true, beq_iff_eq]
    constructor
    · rintro ⟨hc, hrest⟩
      exact ⟨c, rest, rfl, hc, hrest⟩
    · rintro ⟨c', rest', ⟨⟩, hc, hrest⟩
      exact ⟨hc, hrest⟩

/-- **The names that the check lets pass** are the plain ones, and those with a line feed at the
end. -/
theorem isOptionName_iff {name : String} : isOptionName name = true ↔ IsPlainName name.toList
    ∨ ∃ stem, IsPlainName stem ∧ name.toList = stem ++ ['\n'] := by
  rw [isOptionName_iff_isPlainName]
  constructor
  · intro h
    rcases eq_or_eq_append_of_withoutFinalNewline name.toList with hsame | hline
    · exact .inl (hsame ▸ h)
    · exact .inr ⟨_, h, hline⟩
  · rintro (h | ⟨stem, h, hline⟩)
    · have hlast : name.toList.getLast? ≠ some '\n' := fun hlast =>
        h.not_mem (by decide) (List.mem_of_getLast? hlast)
      rwa [withoutFinalNewline, if_neg hlast]
    · rwa [hline, withoutFinalNewline, List.getLast?_concat, if_pos rfl, List.dropLast_concat]

/-! ### Values under a name -/

/-- The placeholder that holds a name, without blanks around it. -/
def placeholderOf (name : String) : String :=
  "\x7b\x7b" ++ name ++ "\x7d\x7d"

section Single

variable {name s path : String} {v : Value}

/-- Among one entry, a text, a path leads to that text or nowhere. To lead there it is the key, and
the key is a single segment: a path of two segments would go on into a text. -/
theorem eq_of_resolve_single (h : (Value.mapping [(name, .text s)]).resolve path = some v) :
    path = name ∧ '.' ∉ name.toList := by
  rw [Value.resolve] at h
  cases hsegments : segments path with
  | nil => exact absurd hsegments (segments_ne_nil path)
  | cons first rest =>
    rw [hsegments, List.foldlM_cons] at h
    obtain ⟨w, hstep, hrest⟩ := Option.bind_eq_some_iff.1 h
    obtain ⟨rfl, rfl⟩ : first = name ∧ w = .text s := by
      rw [Value.step?] at hstep
      split at hstep
      · cases hstep
      · exact Prod.mk.inj (List.mem_singleton.1 (Entries.mem_of_get? hstep))
    -- The text has no entries, so that the path cannot go on behind the first segment.
    cases rest with
    | cons next rest =>
      rw [List.foldlM_cons] at hrest
      obtain ⟨w, hstep, -⟩ := Option.bind_eq_some_iff.1 hrest
      rw [Value.step?] at hstep
      split at hstep <;> cases hstep
    | nil =>
      obtain ⟨rfl, hpoint⟩ := segments_eq_singleton_iff.1 hsegments
      exact ⟨rfl, hpoint⟩

/-- A name without points leads to the text under it, being a single segment. -/
theorem resolve_single (h : IsName name.toList) (hpoint : '.' ∉ name.toList) :
    (Value.mapping [(name, .text s)]).resolve name = some (.text s) := by
  have hne : name ≠ "" := by
    rintro rfl
    obtain ⟨c, rest, ⟨⟩, -⟩ := h
  rw [Value.resolve, segments_eq_singleton_iff.2 ⟨rfl, hpoint⟩, List.foldlM_cons, Value.step?,
    if_neg hne, Value.entry?, Entries.get?, List.lookup_cons_self]
  rfl

/-- Under a key that no placeholder names nothing is inserted, into no text: every token is replaced
by its own text, since by `eq_of_resolve_single` its name leads nowhere. -/
theorem substitute_eq_self_of_single (h : IsName name.toList → '.' ∈ name.toList)
    (text s : String) : substitute text (.mapping [(name, .text s)]) = .ok text := by
  have hleft : ∀ t ∈ tokenize text,
      t.replacement (.mapping [(name, .text s)]) = .ok t.text := by
    intro t _
    rw [Token.replacement]
    split
    · rfl
    · next path href =>
      split
      · rfl
      · next v hv =>
        obtain ⟨rfl, hpoint⟩ := eq_of_resolve_single hv
        obtain ⟨inner, -, -, hname⟩ := Token.reference?_eq_some_iff.1 href
        exact absurd (h hname) hpoint
  refine substitute_eq_ok_iff.2 ⟨(tokenize text).map Token.text, ?_, ?_⟩
  · rw [mapM_eq_ok_iff, List.forall₂_map_right_iff, List.forall₂_same]
    exact hleft
  · exact String.toList_injective (tiles_tokenize text).toList_concat

/-- The placeholder that holds a name without points becomes the text under the name. -/
theorem substitute_placeholderOf (h : IsName name.toList) (hpoint : '.' ∉ name.toList)
    (s : String) : substitute (placeholderOf name) (.mapping [(name, .text s)]) = .ok s := by
  have hinside : ∀ c ∈ name.toList, Guard.inName c = true := fun c hc =>
    (h.inName_or_eq_point c hc).resolve_right fun heq => hpoint (heq ▸ hc)
  have hfits : (Shape.placeholder name.toList).Fits := by
    refine fun c hc => ⟨?_, ?_⟩ <;>
    · rintro rfl
      exact absurd (hinside _ hc) (by decide)
  have htrim : trim name.toList = name.toList :=
    trim_eq_self (fun c hc => Guard.not_isBlank_of_inName (hinside c (List.mem_of_head? hc)))
      fun c hc => Guard.not_isBlank_of_inName (hinside c (List.mem_of_getLast? hc))
  have hsource : placeholderOf name = String.ofList (Shape.placeholder name.toList).source := by
    refine String.toList_injective ?_
    simp [placeholderOf, Shape.source]
  have href : Token.reference? ⟨.placeholder name.toList, 0⟩ = some name :=
    Token.reference?_eq_some_iff.2 ⟨_, rfl, htrim, h⟩
  have hbecomes : Token.replacement (.mapping [(name, .text s)]) ⟨.placeholder name.toList, 0⟩
      = .ok s := by
    rw [Token.replacement, href]
    dsimp only
    rw [resolve_single h hpoint]
    rfl
  rw [hsource]
  refine substitute_eq_ok_iff.2 ⟨[s], ?_, (concat_cons s []).trans String.append_empty⟩
  rw [tokenize_source hfits]
  exact mapM_eq_ok_iff.2 (.cons hbecomes .nil)

end Single

/-! ### Names of valid options -/

/-- An option against whose name there is nothing to say has a text for a name that `isOptionName`
lets pass. -/
theorem exists_name_of_nameErrors {label : String} {field : Option Value}
    (h : nameErrors label field = []) : ∃ s, field = some (.text s) ∧ isOptionName s = true := by
  obtain ⟨s, rfl⟩ := exists_text_of_nameErrors h
  rw [nameErrors] at h
  split at h
  · cases h
  · split at h
    · next hname => exact ⟨s, rfl, hname⟩
    · cases h

/-- **The names of valid options, and which of them can be used.** Every option of valid options has
a name, and the name is plain, but for a line feed that may stand at its end. A plain name can be
used: the placeholder that holds it becomes whatever text is given under the name. A name with a
line feed at its end cannot: a text given under such a name is never inserted, and every text is
left as it is. -/
theorem names_of_valid_options {options : List Value} {f : Findings}
    (h : checkOptions options = .ok f) (hvalid : f.isValid = true) :
    ∀ option ∈ options, ∃ (entries : Entries) (name : String), option = .mapping entries
      ∧ entries.get? "name" = some (.text name)
      ∧ (IsPlainName name.toList ∨ ∃ stem, IsPlainName stem ∧ name.toList = stem ++ ['\n'])
      ∧ (IsPlainName name.toList → ∀ s,
        substitute (placeholderOf name) (.mapping [(name, .text s)]) = .ok s)
      ∧ (¬IsPlainName name.toList → ∀ text s,
        substitute text (.mapping [(name, .text s)]) = .ok text) := by
  intro option hoption
  have herrors : f.errors = [] := by
    obtain ⟨⟨errors, warnings⟩, -, ⟨⟩⟩ := bind_eq_ok_iff.1 h
    exact List.isEmpty_iff.1 hvalid
  obtain ⟨entries, rfl, hpasses⟩ := passes_of_checkOptions h herrors option hoption
  obtain ⟨label, hnamed⟩ := hpasses.name
  obtain ⟨name, hname, hpassed⟩ := exists_name_of_nameErrors hnamed
  have hshape := isOptionName_iff.1 hpassed
  refine ⟨entries, name, rfl, hname, hshape, fun hplain => ?_, fun hnot => ?_⟩
  · exact substitute_placeholderOf hplain.isName (hplain.not_mem (by decide))
  · obtain ⟨stem, -, hline⟩ := hshape.resolve_left hnot
    have hmem : '\n' ∈ name.toList := hline ▸ List.mem_append_right _ List.mem_cons_self
    refine substitute_eq_self_of_single fun hisName => ?_
    exact absurd (hisName.inName_or_eq_point _ hmem) (by decide)

/-- An option of a given name. -/
def optionOf (name : String) : Value :=
  .mapping [("name", .text name), ("type", .text "string"), ("description", .text "a")]

/-- Two options with plain names are valid, and what is given under the second name is inserted, be
it a placeholder itself. -/
theorem names_of_valid_options_plain :
    let options := [optionOf "p", optionOf "Q_2"]
    ∃ f, checkOptions options = .ok f ∧ f.isValid = true
      ∧ substitute (placeholderOf "Q_2") (.mapping [("Q_2", .text (placeholderOf "p"))])
        = .ok (placeholderOf "p") := by
  intro options
  have hvalid : (checkOptions options).map (·.isValid) = .ok true := by decide +kernel
  obtain ⟨f, hcheck, hf⟩ := map_eq_ok_iff.1 hvalid
  have hplain : IsPlainName "Q_2".toList := ⟨'Q', ['_', '2'], rfl, rfl, by simp⟩
  obtain ⟨entries, name, hentries, hname, -, huse, -⟩ :=
    names_of_valid_options hcheck hf (optionOf "Q_2") (by simp [options])
  cases hentries
  cases hname
  exact ⟨f, hcheck, hf, huse hplain _⟩

/-- An option whose name ends in a line feed is valid too, though the name is not plain, and the
placeholder that holds the name is left as it is. -/
theorem unusable_option_name :
    checkOptions [optionOf "p\n"] = .ok .none
      ∧ ¬IsPlainName "p\n".toList
      ∧ substitute (placeholderOf "p\n") (.mapping [("p\n", .text "v")])
        = .ok (placeholderOf "p\n")
      ∧ placeholderOf "p\n" ≠ "v" := by
  refine ⟨by decide +kernel, fun hplain => ?_, by decide +kernel, by decide⟩
  exact hplain.not_mem (by decide) (List.mem_append_right ['p'] List.mem_cons_self)

end Templating
