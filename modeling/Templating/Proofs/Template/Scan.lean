import Templating.Template.Variables

/-!
# Where tokens stand

Every token of a template stands somewhere in it: after the characters counted by its start, the
next token is that very token. Placeholders and tags begin with an opening delimiter, and no
placeholder holds a brace, so it is found again wherever its text stands.

## Main results

* `exists_nextShape?_of_mem_tokenize`: where a token stands, it is the next token.
* `exists_delimited?_of_mem_tokenize`: where a placeholder or tag stands, it begins.
* `delimited?_placeholder_append`: a placeholder is found again before any text.
-/

namespace Templating.Template

/-! ### Delimiters -/

/-- What `delimited?` finds, a placeholder or a tag, begins with an opening delimiter. -/
theorem head_of_delimited? {cs : List Char} {found : Shape × List Char}
    (h : delimited? cs = some found) :
    ∃ tail, cs = '{' :: '{' :: tail ∨ cs = '{' :: '%' :: tail := by
  rw [delimited?.eq_def] at h
  split at h
  · exact ⟨_, .inl rfl⟩
  · exact ⟨_, .inr rfl⟩
  · cases h

/-- A placeholder holds no brace. -/
theorem not_brace_of_placeholderBody? {cs inner rest : List Char}
    (h : placeholderBody? cs = some (inner, rest)) : ∀ c ∈ inner, c ≠ '{' ∧ c ≠ '}' := by
  fun_induction placeholderBody? cs generalizing inner with
  | case1 => cases h
  | case2 => cases h; simp
  | case3 => cases h
  | case4 c cs _ hc ih =>
    obtain ⟨⟨inner', rest'⟩, hbody, heq⟩ := Option.map_eq_some_iff.1 h
    cases heq
    exact List.forall_mem_cons.2 ⟨not_or.1 hc, ih hbody⟩

/-- What holds no brace is read by `placeholderBody?` as the inside of a placeholder. -/
theorem placeholderBody?_append {inner : List Char} (rest : List Char)
    (h : ∀ c ∈ inner, c ≠ '{' ∧ c ≠ '}') :
    placeholderBody? (inner ++ '}' :: '}' :: rest) = some (inner, rest) := by
  induction inner with
  | nil => rw [List.nil_append, placeholderBody?]
  | cons c inner ih =>
    obtain ⟨hc, hinner⟩ := List.forall_mem_cons.1 h
    rw [List.cons_append, placeholderBody?, if_neg (not_or.2 hc), ih hinner]
    · rfl
    · rintro rest' rfl -
      exact hc.2 rfl

/-- A placeholder is found again wherever its text stands. -/
theorem delimited?_placeholder_append {inner : List Char} (rest : List Char)
    (h : ∀ c ∈ inner, c ≠ '{' ∧ c ≠ '}') :
    delimited? ((Shape.placeholder inner).source ++ rest) = some (.placeholder inner, rest) := by
  have hsource : (Shape.placeholder inner).source ++ rest
      = '{' :: '{' :: (inner ++ '}' :: '}' :: rest) := by simp [Shape.source]
  rw [hsource, delimited?, placeholderBody?_append rest h]
  rfl

/-- After an opening brace a placeholder does not begin one character early, as its inside would
begin with a brace. -/
theorem delimited?_brace_cons (rest : List Char) :
    delimited? ('{' :: '{' :: '{' :: rest) = none := by
  simp [delimited?, placeholderBody?]

/-! ### The place of a token -/

/-- Every token that remains is cut off by `nextShape?` somewhere in the text ahead. Induction along
`Cursor.remaining`. -/
theorem exists_nextShape?_of_mem_remaining {c : Cursor} {t : Token} (h : t ∈ c.remaining) :
    ∃ before ahead rest, c.ahead = before ++ ahead ∧ t.start = c.position + before.length
      ∧ nextShape? ahead = some (t.shape, rest) := by
  fun_induction Cursor.remaining c with
  | case1 c hnext => cases h
  | case2 c u c' hnext ih =>
    simp only [Cursor.next?] at hnext
    split at hnext
    · cases hnext
    · rename_i shape rest hshape
      cases hnext
      rcases List.mem_cons.1 h with rfl | h
      · exact ⟨[], c.ahead, rest, rfl, rfl, hshape⟩
      · obtain ⟨before, ahead, rest', happ, hstart, hahead⟩ := ih h
        refine ⟨shape.source ++ before, ahead, rest', ?_, ?_, hahead⟩
        · rw [← source_nextShape? hshape, List.append_assoc, ← happ]
        · rw [hstart, List.length_append, Nat.add_assoc]

/-- Where a token stands, it is the next token. -/
theorem exists_nextShape?_of_mem_tokenize {template : String} {t : Token}
    (h : t ∈ tokenize template) :
    ∃ before ahead rest, template.toList = before ++ ahead ∧ t.start = before.length
      ∧ nextShape? ahead = some (t.shape, rest) := by
  obtain ⟨before, ahead, rest, happ, hstart, hahead⟩ := exists_nextShape?_of_mem_remaining h
  exact ⟨before, ahead, rest, happ, by simpa [Cursor.ofText] using hstart, hahead⟩

theorem source_ne_nil_of_mem_tokenize {template : String} {t : Token}
    (h : t ∈ tokenize template) : t.shape.source ≠ [] := by
  obtain ⟨_, _, _, _, _, hnext⟩ := exists_nextShape?_of_mem_tokenize h
  exact source_ne_nil_of_nextShape? hnext

namespace Token

/-- Whether the token is a placeholder or a tag. -/
def IsDelimited (t : Token) : Prop :=
  ∀ run, t.shape ≠ .text run

end Token

/-- Where a placeholder or tag stands, it begins: `delimited?` finds it in the text from there
on. -/
theorem exists_delimited?_of_mem_tokenize {template : String} {t : Token}
    (h : t ∈ tokenize template) (ht : t.IsDelimited) :
    ∃ before ahead rest, template.toList = before ++ ahead ∧ t.start = before.length
      ∧ delimited? ahead = some (t.shape, rest) := by
  obtain ⟨before, ahead, rest, happ, hstart, hnext⟩ := exists_nextShape?_of_mem_tokenize h
  refine ⟨before, ahead, rest, happ, hstart, ?_⟩
  rw [nextShape?.eq_def] at hnext
  split at hnext
  · cases hnext
  · split at hnext
    · rename_i hfound
      rw [hfound, hnext]
    · have hshape := congrArg Prod.fst (Option.some.inj hnext)
      exact absurd hshape.symm (ht _)

/-- No placeholder of a template holds a brace. -/
theorem not_brace_of_mem_tokenize {template : String} {t : Token} {inner : List Char}
    (h : t ∈ tokenize template) (ht : t.shape = .placeholder inner) :
    ∀ c ∈ inner, c ≠ '{' ∧ c ≠ '}' := by
  obtain ⟨_, ahead, rest, _, _, hfound⟩ :=
    exists_delimited?_of_mem_tokenize h fun run hrun => by cases ht.symm.trans hrun
  obtain ⟨tail, rfl | rfl⟩ := head_of_delimited? hfound
  · rw [delimited?.eq_def] at hfound
    obtain ⟨⟨inner', rest'⟩, hbody, heq⟩ := Option.map_eq_some_iff.1 hfound
    obtain ⟨rfl, -⟩ : inner' = inner ∧ rest' = rest := by simpa [ht] using heq
    exact not_brace_of_placeholderBody? hbody
  · rw [delimited?.eq_def] at hfound
    obtain ⟨⟨inner', rest'⟩, _, heq⟩ := Option.map_eq_some_iff.1 hfound
    simp [ht] at heq

end Templating.Template
