import Templating.Configuration.Coerce

/-!
# Values of options

A value given for an option is refused with a fault of the configuration, and with no other, or it
becomes a value of the kind that the option asks for. Texts for numbers are read in two ways, the
second where the first does not apply: a text of too many digits for an integer is still a decimal
number. Whatever is read as an integer could be read as a decimal number, too, so a text is refused
exactly if it cannot be read as one.

What an option makes of a value it leaves alone from then on. A truth value or a number is no text
any more, and any other value was taken as it is.

## Main definitions

* `OptionDecl.Refuses`: why a value is refused.
* `OptionDecl.Fits`: what a text becomes.

## Main results

* `Numeral.exists_decimal?_of_integer?`: integers are decimal numbers.
* `coerce_eq_error_iff`, `coerce_text_eq_ok_iff`: values that are refused, and texts that are not.
* `coerce_eq_self`: values that were taken.
* `coerce_spec`: all of it.
-/

namespace Templating

open Templating.Text

/-! ### Words and numbers -/

/-- The words that stand for a truth value, in lower case. -/
def truthWords : Bool → List String
  | true => ["true", "yes", "y", "on", "1"]
  | false => ["false", "no", "n", "off", "0"]

/-- A text is a word for a truth value, in any case and with blank space around it. -/
def IsTruthWord (b : Bool) (text : String) : Prop :=
  String.ofList ((trim text.toList).map Char.toLower) ∈ truthWords b

/-- The words for truth values are those that `IsTruthWord` lists. -/
theorem truthWord?_eq_some_iff {text : String} {b : Bool} :
    truthWord? text = some b ↔ IsTruthWord b text := by
  have hdisjoint : ∀ word ∈ truthWords false, word ∉ truthWords true := by decide
  rw [truthWord?, IsTruthWord]
  simp only [List.contains_iff_mem]
  split
  · next htrue =>
    cases b with
    | true => exact iff_of_true rfl htrue
    | false => exact iff_of_false (by rintro ⟨⟩) fun hfalse => hdisjoint _ hfalse htrue
  · next hnot =>
    split
    · next hfalse =>
      cases b with
      | true => exact iff_of_false (by rintro ⟨⟩) hnot
      | false => exact iff_of_true rfl hfalse
    · next hnot' =>
      refine iff_of_false (by rintro ⟨⟩) ?_
      cases b with
      | true => exact hnot
      | false => exact hnot'

/-- What is read as an integer can be read as a decimal number, because both readers take the same
sign and digits. -/
theorem Numeral.exists_decimal?_of_integer? {cs : List Char} {i : Int} (h : integer? cs = some i) :
    ∃ x, decimal? cs = some x := by
  rw [integer?] at h
  rw [decimal?]
  generalize sign (unpadded cs) = signed at h ⊢
  obtain ⟨negative, body⟩ := signed
  dsimp only at h ⊢
  split
  · exact ⟨_, rfl⟩
  · split
    · exact ⟨_, rfl⟩
    · rw [unsigned?]
      generalize digits body = read at h ⊢
      obtain ⟨whole, rest⟩ := read
      dsimp only at h ⊢
      split at h
      · cases h
      · next hwhole =>
        simp only [Bool.or_eq_true, not_or, Bool.not_eq_true, Bool.not_eq_false',
          List.isEmpty_iff] at hwhole
        obtain ⟨⟨hne, rfl⟩, -⟩ := hwhole
        rw [List.isEmpty_eq_false_iff.2 hne]
        exact ⟨ofParts negative whole [] 0, rfl⟩

/-- A text is read as an integer by `Numeral.integer?` if it is one, and otherwise as a floating
point number by `Numeral.decimal?` if it is one of these. -/
theorem numberText?_eq_some_iff {text : String} {n : Number} : numberText? text = some n
    ↔ (∃ i, n = .int i ∧ Numeral.integer? (trim text.toList) = some i)
      ∨ ∃ x, n = .binary x ∧ Numeral.integer? (trim text.toList) = none
        ∧ Numeral.decimal? (trim text.toList) = some x := by
  rw [numberText?]
  cases Numeral.integer? (trim text.toList) with
  | some i => simp [eq_comm]
  | none => cases Numeral.decimal? (trim text.toList) <;> simp [eq_comm]

/-- A text is no number exactly if it cannot be read as a decimal one, since an integer is one
(`Numeral.exists_decimal?_of_integer?`). -/
theorem numberText?_eq_none_iff {text : String} :
    numberText? text = none ↔ Numeral.decimal? (trim text.toList) = none := by
  rw [numberText?]
  cases hinteger : Numeral.integer? (trim text.toList) with
  | none => simp
  | some i =>
    obtain ⟨x, hx⟩ := Numeral.exists_decimal?_of_integer? hinteger
    simp [hx]

theorem any_equal_text_iff {v : Value} {choices : List String} :
    (choices.any fun choice => v.equal (.text choice)) = true ↔ ∃ s ∈ choices, v = .text s := by
  have hequal (s : String) : v.equal (.text s) = true ↔ v = .text s := by
    cases v <;> simp [Value.equal]
  simp only [List.any_eq_true, hequal]

/-! ### Options -/

namespace OptionDecl

/-- Why a value is refused, with the fault that says so: it is a text that is no word for a truth
value, or no number, or it is not among the choices, of which there are some. -/
inductive Refuses (option : OptionDecl) : Value → ConfigurationFault → Prop where
  | noTruthWord {s : String} (hkind : option.kind = .boolean) (hword : ∀ b, ¬IsTruthWord b s) :
      Refuses option (.text s) (.notBoolean option.name s)
  | noNumber {s : String} (hkind : option.kind = .number)
      (hnumber : Numeral.decimal? (trim s.toList) = none) :
      Refuses option (.text s) (.notNumber option.name s)
  | noChoice {v : Value} {choices : List String} (hkind : option.kind = .select)
      (hchoices : option.choices = some choices) (hne : choices ≠ [])
      (hnot : ∀ s ∈ choices, v ≠ .text s) :
      Refuses option v (.notAmongChoices option.name choices)

/-- What a text becomes by the kind of its option: a truth value, a number, or itself, which is then
one of the choices if the option has any. -/
def Fits (option : OptionDecl) (s : String) (w : Value) : Prop :=
  match option.kind with
  | .boolean => ∃ b, w = .bool b ∧ IsTruthWord b s
  | .number => ∃ n, w = .number n
    ∧ ((∃ i, n = .int i ∧ Numeral.integer? (trim s.toList) = some i)
      ∨ ∃ x, n = .binary x ∧ Numeral.integer? (trim s.toList) = none
        ∧ Numeral.decimal? (trim s.toList) = some x)
  | .select => w = .text s ∧ ∀ choices, option.choices = some choices → choices ≠ [] → s ∈ choices
  | .string => w = .text s

end OptionDecl

section Coercion

variable {option : OptionDecl} {v w : Value} {fault : Fault} {s : String}

/-- A value for a select option is taken exactly if it is one of the `choices`, or if there are
none. -/
theorem coerce_select (hkind : option.kind = .select) (v : Value) :
    (coerce option v = .ok v
        ∧ ∀ choices, option.choices = some choices → choices ≠ [] → ∃ s ∈ choices, v = .text s)
      ∨ ∃ choices, option.choices = some choices ∧ choices ≠ [] ∧ (∀ s ∈ choices, v ≠ .text s)
        ∧ coerce option v = .error (.configuration (.notAmongChoices option.name choices)) := by
  obtain ⟨name, kind, description, default, choices, required⟩ := option
  obtain rfl : kind = .select := hkind
  match choices with
  | none => exact .inl ⟨rfl, by rintro _ ⟨⟩⟩
  | some [] =>
    refine .inl ⟨rfl, ?_⟩
    rintro _ ⟨⟩ hne
    exact absurd rfl hne
  | some (c :: cs) =>
    have hcoerce : coerce ⟨name, .select, description, default, some (c :: cs), required⟩ v
        = if (c :: cs).any fun choice => v.equal (.text choice) then .ok v
          else .error (.configuration (.notAmongChoices name (c :: cs))) := rfl
    rw [hcoerce]
    by_cases hmem : ∃ s ∈ c :: cs, v = .text s
    · rw [if_pos (any_equal_text_iff.2 hmem)]
      refine .inl ⟨rfl, ?_⟩
      rintro _ ⟨⟩ -
      exact hmem
    · rw [if_neg (mt any_equal_text_iff.1 hmem)]
      exact .inr ⟨c :: cs, rfl, List.cons_ne_nil c cs, fun s hs hv => hmem ⟨s, hs, hv⟩, rfl⟩

/-- A text for a truth value has to be one of the words for it (`truthWord?`). -/
theorem coerce_boolean_text (hkind : option.kind = .boolean) (s : String) :
    coerce option (.text s)
      = match truthWord? s with
        | some b => .ok (.bool b)
        | none => .error (.configuration (.notBoolean option.name s)) := by
  obtain ⟨name, kind, description, default, choices, required⟩ := option
  obtain rfl : kind = .boolean := hkind
  rfl

/-- A text for a number has to be read as one by `numberText?`. -/
theorem coerce_number_text (hkind : option.kind = .number) (s : String) :
    coerce option (.text s)
      = match numberText? s with
        | some n => .ok (.number n)
        | none => .error (.configuration (.notNumber option.name s)) := by
  obtain ⟨name, kind, description, default, choices, required⟩ := option
  obtain rfl : kind = .number := hkind
  rfl

/-- Whatever is no text is taken as it is, unless it has to be a choice. -/
theorem coerce_of_not_text (hkind : option.kind ≠ .select) (hv : ∀ s, v ≠ .text s) :
    coerce option v = .ok v := by
  obtain ⟨name, kind, description, default, choices, required⟩ := option
  cases kind with
  | select => exact absurd rfl hkind
  | string => rfl
  | boolean =>
    cases v with
    | text s => exact absurd rfl (hv s)
    | _ => rfl
  | number =>
    cases v with
    | text s => exact absurd rfl (hv s)
    | _ => rfl

theorem coerce_string (hkind : option.kind = .string) (v : Value) : coerce option v = .ok v := by
  obtain ⟨name, kind, description, default, choices, required⟩ := option
  obtain rfl : kind = .string := hkind
  rfl

/-- A fault of `coerce` is one of the configuration, and has one of the reasons that `Refuses`
lists. The cases are the kinds of options. -/
theorem refuses_of_coerce_eq_error (h : coerce option v = .error fault) :
    ∃ c, fault = .configuration c ∧ option.Refuses v c := by
  by_cases hselect : option.kind = .select
  · rcases coerce_select hselect v with ⟨hok, -⟩ | ⟨choices, hchoices, hne, hnot, herror⟩
    · cases hok.symm.trans h
    · cases herror.symm.trans h
      exact ⟨_, rfl, .noChoice hselect hchoices hne hnot⟩
  by_cases htext : ∃ s, v = .text s
  · obtain ⟨s, rfl⟩ := htext
    cases hkind : option.kind with
    | string => cases (coerce_string hkind _).symm.trans h
    | boolean =>
      rw [coerce_boolean_text hkind] at h
      split at h
      · cases h
      · next hnone =>
        cases h
        refine ⟨_, rfl, .noTruthWord hkind fun b hword => ?_⟩
        cases hnone.symm.trans (truthWord?_eq_some_iff.2 hword)
    | number =>
      rw [coerce_number_text hkind] at h
      split at h
      · cases h
      · next hnone =>
        cases h
        exact ⟨_, rfl, .noNumber hkind (numberText?_eq_none_iff.1 hnone)⟩
    | select => exact absurd hkind hselect
  · cases (coerce_of_not_text hselect (not_exists.1 htext)).symm.trans h

/-- Each of the reasons leads `coerce` to its fault. -/
theorem OptionDecl.Refuses.coerce_eq {c : ConfigurationFault} (h : option.Refuses v c) :
    coerce option v = .error (.configuration c) := by
  cases h with
  | @noTruthWord s hkind hword =>
    rw [coerce_boolean_text hkind]
    cases htruth : truthWord? s with
    | some b => exact absurd (truthWord?_eq_some_iff.1 htruth) (hword b)
    | none => rfl
  | @noNumber s hkind hnumber =>
    rw [coerce_number_text hkind, numberText?_eq_none_iff.2 hnumber]
  | @noChoice _ choices hkind hchoices hne hnot =>
    rcases coerce_select hkind v with ⟨-, hmem⟩ | ⟨choices', hchoices', -, -, herror⟩
    · obtain ⟨s, hs, hv⟩ := hmem choices hchoices hne
      exact absurd hv (hnot s hs)
    · cases hchoices.symm.trans hchoices'
      exact herror

/-- **A value is refused for the reasons that there are**, and each time with a fault of the
configuration. -/
theorem coerce_eq_error_iff : coerce option v = .error fault
    ↔ ∃ c, fault = .configuration c ∧ option.Refuses v c :=
  ⟨refuses_of_coerce_eq_error, by rintro ⟨c, rfl, h⟩; exact h.coerce_eq⟩

/-- **A text becomes what fits the option** (`OptionDecl.Fits`), and nothing else. -/
theorem coerce_text_eq_ok_iff : coerce option (.text s) = .ok w ↔ option.Fits s w := by
  rw [OptionDecl.Fits]
  cases hkind : option.kind with
  | string =>
    rw [coerce_string hkind]
    exact ⟨fun h => (Except.ok.inj h).symm, fun h => h ▸ rfl⟩
  | boolean =>
    rw [coerce_boolean_text hkind]
    simp only [← truthWord?_eq_some_iff]
    cases truthWord? s with
    | none => simp
    | some b => simp [eq_comm]
  | number =>
    rw [coerce_number_text hkind]
    simp only [← numberText?_eq_some_iff]
    cases numberText? s with
    | none => simp
    | some n => simp [eq_comm]
  | select =>
    rcases coerce_select hkind (.text s) with ⟨hok, hmem⟩ | ⟨choices, hchoices, hne, hnot, herror⟩
    · rw [hok]
      constructor
      · rintro ⟨⟩
        refine ⟨rfl, fun choices hchoices hne => ?_⟩
        obtain ⟨t, ht, hsame⟩ := hmem choices hchoices hne
        exact Value.text.inj hsame ▸ ht
      · rintro ⟨rfl, -⟩
        rfl
    · rw [herror]
      exact iff_of_false (by rintro ⟨⟩) fun h => hnot s (h.2 choices hchoices hne) rfl

/-- What an option makes of a value is the value itself, or no text any more. That is why making it
again changes nothing (`coerce_of_not_text`). -/
theorem eq_or_not_text_of_coerce (h : coerce option v = .ok w) :
    w = v ∨ option.kind ≠ .select ∧ ∀ s, w ≠ .text s := by
  by_cases hselect : option.kind = .select
  · rcases coerce_select hselect v with ⟨hok, -⟩ | ⟨choices, -, -, -, herror⟩
    · exact .inl (Except.ok.inj (h.symm.trans hok))
    · cases herror.symm.trans h
  by_cases htext : ∃ s, v = .text s
  · obtain ⟨s, rfl⟩ := htext
    rw [coerce_text_eq_ok_iff, OptionDecl.Fits] at h
    cases hkind : option.kind with
    | string =>
      rw [hkind] at h
      exact .inl h
    | boolean =>
      rw [hkind] at h
      obtain ⟨b, rfl, -⟩ := h
      exact .inr ⟨by rintro ⟨⟩, by rintro s ⟨⟩⟩
    | number =>
      rw [hkind] at h
      obtain ⟨n, rfl, -⟩ := h
      exact .inr ⟨by rintro ⟨⟩, by rintro s ⟨⟩⟩
    | select => exact absurd hkind hselect
  · exact .inl (Except.ok.inj (h.symm.trans (coerce_of_not_text hselect (not_exists.1 htext))))

/-- **What an option made of a value it leaves alone**: it is one of the choices, or
`coerce_of_not_text` takes it as it is. -/
theorem coerce_eq_self (h : coerce option v = .ok w) : coerce option w = .ok w := by
  rcases eq_or_not_text_of_coerce h with rfl | ⟨hkind, hnot⟩
  · exact h
  · exact coerce_of_not_text hkind hnot

/-- A value is refused only with a fault of the configuration, for one of the reasons that there
are; a text that is not refused becomes what fits the option; and what an option made of a value,
of whatever kind, it leaves alone. -/
theorem coerce_spec (option : OptionDecl) :
    (∀ v fault, coerce option v = .error fault
        ↔ ∃ c, fault = .configuration c ∧ option.Refuses v c)
      ∧ (∀ s w, coerce option (.text s) = .ok w ↔ option.Fits s w)
      ∧ ∀ v w, coerce option v = .ok w → coerce option w = .ok w :=
  ⟨fun _ _ => coerce_eq_error_iff, fun _ _ => coerce_text_eq_ok_iff, fun _ _ => coerce_eq_self⟩

end Coercion

/-- A number in digits of another script, with an underscore, a power and blank space, is a decimal
number and no integer; it is taken once and then left alone. -/
theorem coerce_spec_digits :
    ∃ n, coerce ⟨"p", .number, "a number", none, none, false⟩ (.text " -١_5e2\n")
          = .ok (.number n)
      ∧ coerce ⟨"p", .number, "a number", none, none, false⟩ (.number n) = .ok (.number n) := by
  obtain ⟨-, htext, hagain⟩ := coerce_spec ⟨"p", .number, "a number", none, none, false⟩
  have hinteger : Numeral.integer? (trim " -١_5e2\n".toList) = none := by decide +kernel
  obtain ⟨x, hx⟩ : ∃ x, Numeral.decimal? (trim " -١_5e2\n".toList) = some x :=
    Option.isSome_iff_exists.1 (by decide +kernel)
  have hok := (htext " -١_5e2\n" (.number (.binary x))).2
    ⟨_, rfl, .inr ⟨x, rfl, hinteger, hx⟩⟩
  exact ⟨.binary x, hok, hagain _ _ hok⟩

end Templating
