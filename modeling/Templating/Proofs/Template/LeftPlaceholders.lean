import Templating.Proofs.Check.Body
import Templating.Proofs.Occurrences
import Templating.Proofs.Template.Partition
import Templating.Proofs.Template.Reordering

/-!
# What inserting values leaves

Where values are inserted into a text, each of its tokens is left as it stands or has a text put in
its place. The text that results has one part for each token and nothing else, so what is inserted
is never looked at again. The placeholders that name a variable and are left are those whose
variable has no value, and the list of missing variables, which is made by another walk over the
tokens, names exactly these.

## Main definitions

* `Token.Names`: a placeholder names a variable.
* `Token.Becomes`: a token is left or replaced.
* `IsInsertion`: how the parts of a text that results come from the tokens.

## Main results

* `exists_isInsertion`: a text that results is made up like this.
* `IsInsertion.listsFirst_missingVariables`: the missing variables are those of tokens without a
  value.
* `missingVariables_listsLeft`: they are those of the tokens that are left.
-/

namespace Templating.Template

open Templating.Text

/-! ### Variables of tokens -/

namespace Token

/-- The token is a placeholder and holds a name, with nothing but blank space around it. -/
def Names (t : Token) (name : String) : Prop :=
  ∃ inner, t.shape = .placeholder inner ∧ trim inner = name.toList ∧ IsName name.toList

/-- A token refers to a name, as `Token.reference?` tells it, if it is a placeholder for it. -/
theorem reference?_eq_some_iff {t : Token} {name : String} :
    t.reference? = some name ↔ t.Names name := by
  rw [reference?]
  split
  · rename_i inner hshape
    dsimp only
    constructor
    · intro h
      split at h
      · rename_i hname
        obtain rfl := Option.some.inj h
        rw [isVariableName_trim_iff] at hname
        refine ⟨inner, hshape, ?_, ?_⟩
        · rw [String.toList_ofList]
        · rwa [String.toList_ofList]
      · cases h
    · rintro ⟨inner', hshape', htrim, hname⟩
      cases hshape.symm.trans hshape'
      rw [← htrim] at hname
      rw [if_pos (isVariableName_trim_iff inner |>.2 hname), htrim, String.ofList_toList]
  · rename_i hnot
    refine iff_of_false nofun ?_
    rintro ⟨inner, hshape, -⟩
    exact hnot inner hshape

theorem Names.unique {t : Token} {name name' : String} (h : t.Names name) (h' : t.Names name') :
    name = name' :=
  Option.some.inj ((reference?_eq_some_iff.2 h).symm.trans (reference?_eq_some_iff.2 h'))

end Token

/-- What `isSupplied` tells of the value at a path: there is something to insert unless nothing
stands there, or nothing as a value. -/
theorem isSupplied_eq_false_iff {x : Option Value} :
    isSupplied x = false ↔ ∀ v, x = some v → v = .null := by
  cases x with
  | none => exact iff_of_true rfl nofun
  | some v => cases v <;> simp [isSupplied, Value.isNull]

/-! ### Parts of the text that results -/

/-- What a token becomes where values are inserted: it is left, unless it names a variable that has
a value; then the text of the value is put in its place. -/
inductive Token.Becomes (configuration : Value) (t : Token) : Option String → Prop
  | left (h : ∀ name, t.Names name → ∀ v, configuration.resolve name = some v → v = .null) :
      Becomes configuration t none
  | replaced {name s : String} {v : Value} (hname : t.Names name)
      (hv : configuration.resolve name = some v) (hnull : v ≠ .null) (hs : v.inserted = .ok s) :
      Becomes configuration t (some s)

/-- The tokens of a text, each with what is put in its place, if anything is: they make up the text,
and with what is put in their places they make up another text. -/
structure IsInsertion (configuration : Value) (text content : String)
    (parts : List (Token × Option String)) : Prop where
  tokens : parts.map Prod.fst = tokenize text
  becomes : ∀ part ∈ parts, part.1.Becomes configuration part.2
  before : concat (parts.map fun part => part.1.text) = text
  after : concat (parts.map fun part => part.2.getD part.1.text) = content

section Insertion

variable {configuration : Value} {text content : String}

/-- A token that `Token.replacement` gives a text for is left or replaced (`Token.Becomes`), and the
text is what it becomes. -/
theorem Token.exists_becomes {t : Token} {s : String}
    (h : t.replacement configuration = .ok s) :
    ∃ inserted, t.Becomes configuration inserted ∧ inserted.getD t.text = s := by
  rw [replacement_eq] at h
  cases hinserted : t.inserted? configuration with
  | none =>
    rw [hinserted] at h
    cases h
    refine ⟨none, .left fun name hname v hv => ?_, rfl⟩
    rw [inserted?, reference?_eq_some_iff.2 hname, Option.bind_some, hv,
      Option.filter_eq_none_iff] at hinserted
    cases v with
    | null => rfl
    | _ => exact absurd rfl (hinserted _ rfl)
  | some v =>
    rw [hinserted] at h
    obtain ⟨hbind, hnull⟩ := Option.filter_eq_some_iff.1 hinserted
    obtain ⟨name, hname, hv⟩ := Option.bind_eq_some_iff.1 hbind
    have hvalue : v ≠ .null := by
      rintro rfl
      cases hnull
    exact ⟨some s, .replaced (reference?_eq_some_iff.1 hname) hv hvalue h, rfl⟩

/-- Tokens that are left or replaced one after the other, by `Token.exists_becomes` for each of
them. -/
theorem exists_parts {tokens : List Token} {texts : List String}
    (h : tokens.mapM (Token.replacement configuration) = .ok texts) :
    ∃ parts : List (Token × Option String), parts.map Prod.fst = tokens
      ∧ (∀ part ∈ parts, part.1.Becomes configuration part.2)
      ∧ (parts.map fun part => part.2.getD part.1.text) = texts := by
  rw [mapM_eq_ok_iff] at h
  induction h with
  | nil => exact ⟨[], rfl, List.forall_mem_nil _, rfl⟩
  | @cons t s tokens texts hs _ ih =>
    obtain ⟨inserted, hinserted, rfl⟩ := Token.exists_becomes hs
    obtain ⟨parts, rfl, hbecomes, rfl⟩ := ih
    exact ⟨(t, inserted) :: parts, rfl, List.forall_mem_cons.2 ⟨hinserted, hbecomes⟩, rfl⟩

/-- A text that results from `substitute` is made up of the tokens that are left and of what is put
in the places of the others. The tokens make up the text that values are inserted into, since they
cover it. -/
theorem exists_isInsertion (h : substitute text configuration = .ok content) :
    ∃ parts, IsInsertion configuration text content parts := by
  obtain ⟨texts, htexts, rfl⟩ := substitute_eq_ok_iff.1 h
  obtain ⟨parts, htokens, hbecomes, rfl⟩ := exists_parts htexts
  have hcovers : concat ((tokenize text).map Token.text) = text :=
    String.toList_injective (tiles_tokenize text).toList_concat
  rw [← htokens, List.map_map] at hcovers
  exact ⟨parts, htokens, hbecomes, hcovers, rfl⟩

end Insertion

/-! ### Missing variables -/

/-- Tokens that follow each other (`Tiles`) begin one behind the other, as no token is empty. -/
theorem Tiles.pairwise_start {template : String} {p : Nat} {tokens : List Token}
    (h : Tiles template p tokens) :
    (∀ t ∈ tokens, p ≤ t.start) ∧ tokens.Pairwise fun t u => t.start < u.start := by
  induction h with
  | nil hp => exact ⟨List.forall_mem_nil _, .nil⟩
  | cons hnext hlt _ ih =>
    rw [List.forall_mem_cons, List.pairwise_cons, hnext.start]
    refine ⟨⟨Nat.le_refl _, fun u hu => ?_⟩, fun u hu => ?_, ih.2⟩
    · exact Nat.le_trans (Nat.le_of_lt hlt) (ih.1 u hu)
    · exact Nat.lt_of_lt_of_le hlt (ih.1 u hu)

/-- The `variableNames` of a text are those that its tokens name, in the order of the tokens. -/
theorem listsFirst_variableNames (text : String) :
    ListsFirst (fun name place => ∃ t ∈ tokenize text, t.Names name ∧ t.start = place)
      (variableNames text) := by
  refine (listsFirst_filterMap (tiles_tokenize text).pairwise_start.2).congr fun name place => ?_
  simp only [Token.reference?_eq_some_iff]

section Missing

variable {configuration : Value} {text content : String} {parts : List (Token × Option String)}

/-- Where a variable has a value, the text of the value is put in the place of its token. -/
theorem Token.Becomes.eq_some {t : Token} {inserted : Option String} {name : String} {v : Value}
    (h : t.Becomes configuration inserted) (hname : t.Names name)
    (hv : configuration.resolve name = some v) (hnull : v ≠ .null) :
    ∃ s, v.inserted = .ok s ∧ inserted = some s := by
  cases h with
  | left h => exact absurd (h name hname v hv) hnull
  | replaced hname' hv' hnull' hs =>
    obtain rfl := hname.unique hname'
    cases hv.symm.trans hv'
    exact ⟨_, hs, rfl⟩

/-- The missing variables are those of tokens that are left. By `Token.Becomes` a token that names a
variable is left exactly if `isSupplied` finds nothing to insert. -/
theorem IsInsertion.listsFirst_missingVariables (h : IsInsertion configuration text content parts) :
    ListsFirst (fun name place => ∃ part ∈ parts, part.2 = none ∧ part.1.Names name
        ∧ part.1.start = place) (missingVariables text configuration) := by
  refine ((listsFirst_variableNames text).filter _).congr fun name place => ?_
  rw [Bool.not_eq_true', isSupplied_eq_false_iff, ← h.tokens]
  constructor
  · rintro ⟨⟨t, ht, hname, hplace⟩, hmissing⟩
    obtain ⟨⟨t, inserted⟩, hpart, rfl⟩ := List.mem_map.1 ht
    refine ⟨_, hpart, ?_, hname, hplace⟩
    cases h.becomes _ hpart with
    | left => rfl
    | replaced hname' hv hnull =>
      obtain rfl := hname.unique hname'
      exact absurd (hmissing _ hv) hnull
  · rintro ⟨⟨t, inserted⟩, hpart, rfl, hname, hplace⟩
    refine ⟨⟨t, List.mem_map_of_mem hpart, hname, hplace⟩, ?_⟩
    cases h.becomes _ hpart with
    | left hleft => exact hleft name hname

/-- A part stands in the text that results. -/
theorem IsInsertion.infix_of_mem (h : IsInsertion configuration text content parts) {t : Token}
    {inserted : Option String} (hpart : (t, inserted) ∈ parts) :
    (inserted.getD t.text).toList <:+: content.toList := by
  obtain ⟨before, after, rfl⟩ := List.append_of_mem hpart
  rw [← h.after, concat, String.toList_join, List.map_append, List.map_cons, List.flatMap_append,
    List.flatMap_cons, ← List.append_assoc]
  exact List.infix_append _ _ _

/-- **The missing variables are those of the placeholders that are left.** Where inserting values
does not fail, the text that results is the text with the placeholders of variables that have a
value replaced by the texts of the values (`IsInsertion`), and the missing variables are those of
the placeholders that are left, each once, in the order of their first occurrences (`ListsFirst`). A
value that is a text stands in the result as it is, whatever braces it holds. -/
theorem missingVariables_listsLeft (h : substitute text configuration = .ok content) :
    ∃ parts, IsInsertion configuration text content parts
      ∧ (∀ names, names = missingVariables text configuration ↔ ListsFirst
        (fun name place => ∃ part ∈ parts, part.2 = none ∧ part.1.Names name
          ∧ part.1.start = place) names)
      ∧ ∀ t ∈ tokenize text, ∀ name s, t.Names name →
        configuration.resolve name = some (.text s) → s.toList <:+: content.toList := by
  obtain ⟨parts, hparts⟩ := exists_isInsertion h
  refine ⟨parts, hparts, fun names => (hparts.listsFirst_missingVariables.iff_eq names).symm,
    fun t ht name s hname hv => ?_⟩
  rw [← hparts.tokens] at ht
  obtain ⟨⟨t, inserted⟩, hpart, rfl⟩ := List.mem_map.1 ht
  obtain ⟨s', hs', rfl⟩ := (hparts.becomes _ hpart).eq_some hname hv nofun
  obtain ⟨-, rfl⟩ := inserted_eq_ok_iff.1 hs'
  exact hparts.infix_of_mem hpart

/-- One variable has a value that holds a placeholder and a tag, one has no value, one is nothing as
a value, and one is named only by the value that is inserted; a number is no name. -/
theorem missingVariables_listsLeft_braces :
    let configuration := Value.mapping
      [("a", .text "\x7b\x7be\x7d\x7d\x7b% if x %\x7d"), ("c", .mapping [("d", .null)])]
    let text := "\x7b\x7ba\x7d\x7d-\x7b\x7b b \x7d\x7d-"
      ++ "\x7b\x7bc.d\x7d\x7d\x7b\x7b9\x7d\x7d\x7b\x7b b \x7d\x7d"
    let content := "\x7b\x7be\x7d\x7d\x7b% if x %\x7d-\x7b\x7b b \x7d\x7d-"
      ++ "\x7b\x7bc.d\x7d\x7d\x7b\x7b9\x7d\x7d\x7b\x7b b \x7d\x7d"
    substitute text configuration = .ok content
      ∧ missingVariables text configuration = ["b", "c.d"]
      ∧ ∃ parts, IsInsertion configuration text content parts
        ∧ ListsFirst (fun name place => ∃ part ∈ parts, part.2 = none ∧ part.1.Names name
          ∧ part.1.start = place) ["b", "c.d"] := by
  intro configuration text content
  have hcontent : substitute text configuration = .ok content := by decide +kernel
  have hmissing : missingVariables text configuration = ["b", "c.d"] := by decide +kernel
  obtain ⟨parts, hparts, hlists, -⟩ := missingVariables_listsLeft hcontent
  exact ⟨hcontent, hmissing, parts, hparts, (hlists _).1 hmissing.symm⟩

end Missing

end Templating.Template
