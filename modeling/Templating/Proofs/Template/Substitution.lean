import Templating.Proofs.Outcome
import Templating.Template.Render

/-!
# Inserting values

A text with its placeholders replaced consists of one part for each token. The parts depend on
what the configuration has for the variables of the text, and on nothing else; and texts made of
parts of the same lengths are equal only part by part.

## Main results

* `substitute_congr`: inserting values reads no variable but those that the text names.
* `substitute_eq_ok_iff`: a text that results is made of one part for each token.
* `eq_of_concat_eq`: texts of parts of the same lengths.
-/

namespace Templating.Template

open Templating.Text

/-- A name is among the `variableNames` of a template if some token refers to it
(`Token.reference?`). -/
theorem mem_variableNames {template name : String} :
    name ∈ variableNames template ↔ ∃ t ∈ tokenize template, t.reference? = some name := by
  rw [variableNames, List.mem_eraseDups, List.mem_filterMap]

/-- `substitute` reads no variable but those that the text names. -/
theorem substitute_congr {text : String} {configuration configuration' : Value}
    (h : ∀ t ∈ tokenize text, ∀ name, t.reference? = some name →
      configuration'.resolve name = configuration.resolve name) :
    substitute text configuration' = substitute text configuration := by
  have hsame : ∀ t ∈ tokenize text,
      t.replacement configuration' = t.replacement configuration := by
    intro t ht
    rw [Token.replacement, Token.replacement]
    cases href : t.reference? with
    | none => rfl
    | some name => simp only [h t ht name href]
  rw [substitute, substitute]
  generalize tokenize text = tokens at hsame
  have hparts : tokens.mapM (Token.replacement configuration')
      = tokens.mapM (Token.replacement configuration) := by
    induction tokens with
    | nil => rfl
    | cons t tokens ih =>
      rw [List.mapM_cons, List.mapM_cons, hsame t List.mem_cons_self,
        ih fun u hu => hsame u (List.mem_cons_of_mem _ hu)]
  rw [hparts]

/-- A text that results from inserting values is made of one part for each token. -/
theorem substitute_eq_ok_iff {text content : String} {configuration : Value} :
    substitute text configuration = .ok content
      ↔ ∃ parts, (tokenize text).mapM (Token.replacement configuration) = .ok parts
        ∧ concat parts = content := by
  rw [substitute, bind_eq_ok_iff]
  constructor
  · rintro ⟨parts, hparts, ⟨⟩⟩
    exact ⟨parts, hparts, rfl⟩
  · rintro ⟨parts, hparts, rfl⟩
    exact ⟨parts, hparts, rfl⟩

theorem concat_cons (part : String) (parts : List String) :
    concat (part :: parts) = part ++ concat parts := by
  rw [concat, concat, ← String.toList_inj, String.toList_append, String.toList_join,
    String.toList_join, List.flatMap_cons]

/-- Texts made of parts of the same lengths are equal only part by part. Induction along the parts;
`List.append_inj` separates the first one from the others. -/
theorem eq_of_concat_eq {parts parts' : List String}
    (hlength : List.Forall₂ (fun p q => p.length = q.length) parts parts')
    (h : concat parts = concat parts') : parts = parts' := by
  induction hlength with
  | nil => rfl
  | @cons p q parts parts' hpq hrest ih =>
    rw [concat_cons, concat_cons, ← String.toList_inj, String.toList_append,
      String.toList_append] at h
    rw [← String.length_toList, ← String.length_toList] at hpq
    obtain ⟨hhead, htail⟩ := List.append_inj h hpq
    rw [String.toList_injective hhead, ih (String.toList_injective htail)]

end Templating.Template
