import Templating.Proofs.Configuration.PlainNumbers

/-!
# Texts that look like numbers

Whether a text looks like a number is asked of the trimmed text, but then the text is read as it was
given. Trimming takes away every blank character; the readers of numbers leave the information
separators in place. So a text that looks like a number is read as the number that its trimmed form
denotes, unless such a separator stands before or behind the number, or it is an integer with too
many digits.

## Main definitions

* `StandsFor`: the value that a text stands for by its trimmed form.
* `IsUnreadable`: texts that look like numbers and cannot be read.

## Main results

* `inferred_of_chars`: how a text that looks like a number is read.
* `inferred_eq_ok_iff`, `inferred_eq_error_iff`: what a text is taken for, and when it is refused.
-/

namespace Templating

open Templating.Text

/-! ### What a text stands for -/

/-- The value that a text stands for by its trimmed form (`Text.trim`): a truth value if it is a
word for one, in letters of either case; a number if it is a plain number; and else the text itself,
with its blank characters. -/
inductive StandsFor (text : String) : Value → Prop where
  | truth (b : Bool)
    (h : String.ofList ((trim text.toList).map Char.toLower) = if b then "true" else "false") :
    StandsFor text (.bool b)
  | number (w : WrittenNumber) (h : w.chars = trim text.toList) : StandsFor text (.number w.value)
  | text (hword : ∀ b : Bool,
      String.ofList ((trim text.toList).map Char.toLower) ≠ if b then "true" else "false")
    (hnumber : ∀ w : WrittenNumber, w.chars ≠ trim text.toList) : StandsFor text (.text text)

/-- The text looks like a number, but there is a separator around the number, or it is an integer
with too many digits. -/
def IsUnreadable (text : String) : Prop :=
  ∃ w : WrittenNumber, w.chars = trim text.toList
    ∧ (w.IsTooLong ∨ ∃ c ∈ text.toList, isSeparator c = true)

variable {text : String} {v : Value} {fault : Fault}

/-- A text that looks like a number is read as it was given: `WrittenNumber.plainNumber_surrounded`
for the blank characters that trimming takes off. -/
theorem inferred_of_chars {w : WrittenNumber} (h : w.chars = trim text.toList) :
    inferred text
      = if w.IsTooLong ∨ text.toList.any isSeparator = true then .error .unreadableNumber
        else .ok (.number w.value) := by
  obtain ⟨before, after, htext, hbefore, hafter⟩ := exists_surrounded_trim text.toList
  rw [← h] at htext
  have hinside : w.chars.any isSeparator = false := by
    rw [List.any_eq_false]
    intro c hc hseparator
    have hblank := w.not_isBlank_of_mem_chars c hc
    rw [isBlank_of_isSeparator hseparator] at hblank
    cases hblank
  have hseparators : text.toList.any isSeparator = (before ++ after).any isSeparator := by
    rw [htext, List.any_append, List.any_append, hinside, Bool.false_or, List.any_append]
  have hmatches := w.matches_chars
  rw [h] at hmatches
  rw [Guard.inferred_of_trim_matches hmatches, hseparators, htext,
    w.plainNumber_surrounded hbefore hafter]
  by_cases hfails : w.IsTooLong ∨ (before ++ after).any isSeparator = true
  · rw [if_pos hfails, if_pos hfails]
    rfl
  · rw [if_neg hfails, if_neg hfails]
    rfl

/-- A text that looks like a number and cannot be read is refused by `inferred` as unreadable. -/
theorem inferred_of_isUnreadable (h : IsUnreadable text) :
    inferred text = .error .unreadableNumber := by
  obtain ⟨w, hw, hfails⟩ := h
  rw [← List.any_eq_true] at hfails
  rw [inferred_of_chars hw, if_pos hfails]

/-- Every text stands for some value, since the third case of `StandsFor` is what the other two
leave. -/
theorem exists_standsFor (text : String) : ∃ v, StandsFor text v := by
  by_cases hword : ∃ b : Bool,
      String.ofList ((trim text.toList).map Char.toLower) = if b then "true" else "false"
  · obtain ⟨b, hb⟩ := hword
    exact ⟨_, .truth b hb⟩
  by_cases hnumber : ∃ w : WrittenNumber, w.chars = trim text.toList
  · obtain ⟨w, hw⟩ := hnumber
    exact ⟨_, .number w hw⟩
  · exact ⟨_, .text (not_exists.1 hword) (not_exists.1 hnumber)⟩

/-- **A text is taken for what it stands for, if it can be read.** The branches of `inferred` are
the cases of `StandsFor`. -/
theorem inferred_eq_ok_iff : inferred text = .ok v ↔ StandsFor text v ∧ ¬IsUnreadable text := by
  constructor
  · refine fun h => ⟨?_, fun hunreadable => ?_⟩
    · -- A copy is kept for a number, where `inferred` is told by the text.
      have hinferred := h
      simp only [inferred] at h
      split_ifs at h with htrue hfalse hplain
      · cases h
        exact .truth true htrue
      · cases h
        exact .truth false hfalse
      · obtain ⟨w, hw⟩ := isPlain_iff.1 hplain
        rw [inferred_of_chars hw] at hinferred
        split at hinferred
        · cases hinferred
        · cases hinferred
          exact .number w hw
      · cases h
        refine .text (Bool.forall_bool.2 ⟨hfalse, htrue⟩) fun w hw => ?_
        exact hplain (isPlain_iff.2 ⟨w, hw⟩)
    · rw [inferred_of_isUnreadable hunreadable] at h
      cases h
  · rintro ⟨hstands, hreadable⟩
    cases hstands with
    | truth b hb =>
      simp only [inferred, hb]
      cases b <;> rfl
    | number w hw =>
      rw [inferred_of_chars hw, if_neg]
      rw [List.any_eq_true]
      exact fun hfails => hreadable ⟨w, hw, hfails⟩
    | text hword hnumber =>
      have hplain : ¬Numeral.isPlain (trim text.toList) = true := fun hplain => by
        obtain ⟨w, hw⟩ := isPlain_iff.1 hplain
        exact hnumber w hw
      have htrue : String.ofList ((trim text.toList).map Char.toLower) ≠ "true" := hword true
      have hfalse : String.ofList ((trim text.toList).map Char.toLower) ≠ "false" := hword false
      simp only [inferred]
      rw [if_neg htrue, if_neg hfalse, if_neg hplain]

/-- **A text is refused if it looks like a number and cannot be read as one** (`IsUnreadable`), and
only then. -/
theorem inferred_eq_error_iff :
    inferred text = .error fault ↔ fault = .unreadableNumber ∧ IsUnreadable text := by
  constructor
  · intro h
    have hunreadable : IsUnreadable text := by
      by_contra hreadable
      obtain ⟨v, hv⟩ := exists_standsFor text
      rw [inferred_eq_ok_iff.2 ⟨hv, hreadable⟩] at h
      cases h
    rw [inferred_of_isUnreadable hunreadable] at h
    cases h
    exact ⟨rfl, hunreadable⟩
  · rintro ⟨rfl, hunreadable⟩
    exact inferred_of_isUnreadable hunreadable

end Templating
