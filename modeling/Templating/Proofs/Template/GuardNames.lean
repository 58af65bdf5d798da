import Mathlib.Data.List.TakeWhile
import Templating.Proofs.Guard.Names
import Templating.Proofs.Occurrences
import Templating.Proofs.Template.Partition
import Templating.Proofs.Template.ReadPaths

/-!
# The paths told for guards

The paths that are told for the guards of a template are the names that stand in them: every name
in the guard of an opening tag, whether the tag has a partner or not, if the guard can be read. They
are told once each, in the order of their first occurrences in the text of the template. A guard
that cannot be read tells nothing, whatever names stand in it.

## Main definitions

* `Token.guardStart`: where the guard of an opening tag stands in the template.
* `Token.NamesAt`: a name stands at a place in the guard of an opening tag.
* `Token.HasNames`: the names in the guard of a token.

## Main results

* `Token.exists_source_of_tag?`: the guard stands behind the word `if` and blank space.
* `Token.exists_hasNames`, `exists_names_of_tiles`: the names of one token, and of tokens that
  follow each other.
* `guardPaths_listsFirst`: the paths told for a template.
-/

namespace Templating

open Templating.Text

/-! ### Trimmed parts -/

/-- A text is blank space, what `Text.trim` leaves, and blank space again. -/
theorem Text.exists_append_trim (cs : List Char) :
    ∃ after, cs = cs.takeWhile isBlank ++ (trim cs ++ after) ∧ ∀ c ∈ after, isBlank c = true := by
  refine ⟨((trimStart cs).reverse.takeWhile isBlank).reverse, ?_, fun c hc => ?_⟩
  · rw [trim, trimEnd, ← List.reverse_append, List.takeWhile_append_dropWhile, List.reverse_reverse,
      trimStart, List.takeWhile_append_dropWhile]
  · exact List.mem_takeWhile_imp (List.mem_reverse.1 hc)

namespace Template

/-! ### The place of a guard -/

/-- Where the guard of a tag begins, counted in characters of the template: behind the opening
delimiter, the word `if`, and the blank space in front of each of the two. -/
def Token.guardStart (t : Token) : Nat :=
  match t.shape with
  | .tag inner =>
    t.start + 4 + (inner.takeWhile isBlank).length
      + ((afterFirstWord (trim inner)).takeWhile isBlank).length
  | _ => t.start

/-- A name stands in the guard of an opening tag, at a place of the template, and the guard can be
read. -/
def Token.NamesAt (t : Token) (name : String) (place : Nat) : Prop :=
  ∃ guard, t.tag? = some (.opening guard) ∧ (∃ e, Guard.parse guard = .ok e)
    ∧ ∃ lexemes, Guard.lex guard = .ok lexemes
      ∧ ∃ l ∈ lexemes, l.symbol = .name name.toList ∧ t.guardStart + l.position = place

section Places

variable {t : Token} {guard : String}

/-- An opening tag, as `Token.tag?` tells it, is its delimiters around the word `if` and the guard,
with blank space between them, and the guard begins where `Token.guardStart` says. -/
theorem Token.exists_source_of_tag? (h : t.tag? = some (.opening guard)) :
    ∃ before between after, (∀ c ∈ before ++ between ++ after, isBlank c = true)
      ∧ t.shape.source = ['{', '%'] ++ before ++ ['i', 'f'] ++ between ++ guard.toList
        ++ (after ++ ['%', '}'])
      ∧ t.guardStart = t.start + (['{', '%'] ++ before ++ ['i', 'f'] ++ between).length := by
  rw [Token.tag?] at h
  split at h
  · rename_i inner hshape
    rw [Option.some.injEq, Tag.ofContent] at h
    split at h
    · rename_i hword
      obtain rfl := Tag.opening.inj h
      have hcontent := firstWord_append_afterFirstWord (trim inner)
      rw [hword] at hcontent
      obtain ⟨rest, hrest⟩ : ∃ rest, rest = afterFirstWord (trim inner) := ⟨_, rfl⟩
      -- The inside of the tag and what follows its first word are trimmed one after the other.
      obtain ⟨after, hinner, hafter⟩ := Text.exists_append_trim inner
      obtain ⟨after', hguard, hafter'⟩ := Text.exists_append_trim rest
      refine ⟨inner.takeWhile isBlank, rest.takeWhile isBlank, after' ++ after, ?_, ?_, ?_⟩
      · simp only [List.forall_mem_append]
        exact ⟨⟨fun c => List.mem_takeWhile_imp, fun c => List.mem_takeWhile_imp⟩, hafter', hafter⟩
      · have hparts : inner = inner.takeWhile isBlank ++ (['i', 'f']
            ++ (rest.takeWhile isBlank ++ (trim rest ++ after')) ++ after) := by
          rw [← hguard, hrest, hcontent, ← hinner]
        rw [hshape, Shape.source, String.toList_ofList, ← hrest]
        conv_lhs => rw [hparts]
        simp only [List.append_assoc, List.cons_append, List.nil_append]
      · rw [Token.guardStart, hshape]
        dsimp only
        rw [← hrest]
        simp only [List.length_append, List.length_cons, List.length_nil]
        omega
    · split at h <;> cases h
  · cases h

/-- A guard lies inside its tag, by `Token.exists_source_of_tag?`. -/
theorem Token.guardStart_bounds (h : t.tag? = some (.opening guard)) :
    t.start ≤ t.guardStart ∧ t.guardStart + guard.length < t.stop := by
  obtain ⟨before, between, after, -, hsource, hstart⟩ := Token.exists_source_of_tag? h
  have hlength := congrArg List.length hsource
  simp only [List.length_append, List.length_cons, String.length_toList] at hlength hstart
  rw [Token.stop]
  omega

/-- What stands in a guard stands in the template (`StandsAt`), at the place of the guard and as
many characters on. -/
theorem Token.standsAt_of_guard {template : String} {word before : List Char}
    (ht : t ∈ tokenize template) (htag : t.tag? = some (.opening guard))
    (hword : before ++ word <+: guard.toList) :
    StandsAt word template.toList (t.guardStart + before.length) := by
  obtain ⟨hnext, hlt⟩ := (tiles_tokenize template).isNextAt_of_mem t ht
  obtain ⟨blank, between, after, -, hsource, hstart⟩ := Token.exists_source_of_tag? htag
  obtain ⟨more, hmore⟩ := hword
  have hslice : slice template.toList t.start t.stop = t.shape.source :=
    (String.ofList_injective hnext.text).symm
  have hdrop := @slice_append_drop template.toList _ _ (Nat.le_of_lt hlt)
  rw [StandsAt, hstart, Nat.add_assoc, ← List.drop_drop, ← hdrop, hslice, hsource, ← hmore]
  generalize ['{', '%'] ++ blank ++ ['i', 'f'] ++ between = front
  rw [← List.drop_drop]
  simp only [List.append_assoc, List.drop_left]
  exact List.prefix_append _ _

end Places

/-! ### Occurrences -/

/-- What stands in the guard of a token: the names with their places. They are the paths told for
the token, each stands behind the one before it, and all of them stand inside the token. -/
structure Token.HasNames (t : Token) (occurrences : List (String × Nat)) : Prop where
  told : t.guardPaths = .ok (occurrences.map Prod.fst)
  mem_iff : ∀ name place, (name, place) ∈ occurrences ↔ t.NamesAt name place
  order : occurrences.Pairwise fun o o' => o.2 < o'.2
  inside : ∀ o ∈ occurrences, t.start ≤ o.2 ∧ o.2 < t.stop

namespace Token

variable {t : Token}

/-- A token that names nothing has an empty list of names. -/
theorem hasNames_nil (htold : t.guardPaths = .ok []) (hnone : ∀ name place, ¬t.NamesAt name place) :
    t.HasNames [] :=
  ⟨htold, fun name place => iff_of_false List.not_mem_nil (hnone name place), .nil,
    List.forall_mem_nil _⟩

/-- A guard that can be read has the names among its lexemes. Its paths are the names that
`Guard.lex` finds, in the order of their positions. -/
theorem hasNames_of_parse {guard : String} (htag : t.tag? = some (.opening guard))
    {e : Guard.Expr} (hparse : Guard.parse guard = .ok e) :
    ∃ occurrences, t.HasNames occurrences := by
  obtain ⟨lexemes, hlex, hnames⟩ := Guard.paths_of_parse hparse
  refine ⟨placed (fun l => l.symbol.name?) (fun l => t.guardStart + l.position) lexemes, ?_,
    fun name place => ?_, ?_, ?_⟩
  · rw [guardPaths, htag, map_fst_placed, ← hnames]
    dsimp only
    rw [hparse]
  · simp only [mem_placed_iff, Guard.Symbol.name?_eq_some_iff]
    constructor
    · exact fun h => ⟨guard, htag, ⟨e, hparse⟩, lexemes, hlex, h⟩
    · rintro ⟨guard', htag', -, lexemes', hlex', h⟩
      cases htag.symm.trans htag'
      cases hlex.symm.trans hlex'
      exact h
  · exact pairwise_placed ((Guard.pairwise_of_lexFrom hlex).imp fun h => Nat.add_lt_add_left h _)
  · rintro ⟨name, place⟩ ho
    obtain ⟨l, hl, -, rfl⟩ := mem_placed_iff.1 ho
    obtain ⟨before, hposition, hstands⟩ := Guard.standsAt_of_lexFrom hlex l hl
    have hlength := hstands.length_le
    rw [List.length_append, String.length_toList] at hlength
    obtain ⟨hstart, hstop⟩ := guardStart_bounds htag
    dsimp only
    omega

/-- The names in the guard of a token. A token that is no opening tag has none, and neither has one
whose guard cannot be read. -/
theorem exists_hasNames (hshort : t.opens = true → Guard.HasShortIntegers t.guard) :
    ∃ occurrences, t.HasNames occurrences := by
  cases hopens : t.opens with
  | false =>
    have hnot : ∀ guard, t.tag? ≠ some (.opening guard) := fun guard htag =>
      Bool.eq_false_iff.1 hopens (opens_iff.2 ⟨guard, htag⟩)
    refine ⟨[], hasNames_nil ?_ ?_⟩
    · rw [guardPaths]
      split
      · rename_i guard htag
        exact absurd htag (hnot guard)
      · rfl
    · rintro name place ⟨guard, htag, -⟩
      exact hnot guard htag
  | true =>
    obtain ⟨guard, htag⟩ := opens_iff.1 hopens
    have hguard : t.guard = guard := by rw [Token.guard, htag]
    cases hparse : Guard.parse guard with
    | ok e => exact hasNames_of_parse htag hparse
    | error fault =>
      -- Only an integer that is too long would be no fault of the guard.
      have hread := hshort hopens
      rw [hguard] at hread
      obtain ⟨g, rfl⟩ := Guard.parse_error_of_hasShortIntegers hread hparse
      refine ⟨[], hasNames_nil (by rw [guardPaths, htag]; dsimp only; rw [hparse]) ?_⟩
      rintro name place ⟨guard', htag', ⟨e, he⟩, -⟩
      cases htag.symm.trans htag'
      cases hparse.symm.trans he

end Token

/-- The names in the guards of tokens that follow each other. Induction along `Tiles`; all names of
a token stand inside it, so before those of the next one. -/
theorem exists_names_of_tiles {template : String} {p : Nat} {tokens : List Token}
    (h : Tiles template p tokens)
    (hshort : ∀ t ∈ tokens, t.opens = true → Guard.HasShortIntegers t.guard) :
    ∃ (told : List (List String)) (occurrences : List (String × Nat)),
      tokens.mapM Token.guardPaths = .ok told ∧ told.flatten = occurrences.map Prod.fst
      ∧ (occurrences.Pairwise fun o o' => o.2 < o'.2) ∧ (∀ o ∈ occurrences, p ≤ o.2)
      ∧ ∀ name place, (name, place) ∈ occurrences ↔ ∃ t ∈ tokens, t.NamesAt name place := by
  induction h with
  | nil hp => exact ⟨[], [], rfl, rfl, .nil, List.forall_mem_nil _, fun _ _ => by simp⟩
  | @cons p t tokens hnext hlt _ ih =>
    rw [List.forall_mem_cons] at hshort
    obtain ⟨first, hfirst⟩ := Token.exists_hasNames hshort.1
    obtain ⟨told, rest, htold, hflat, horder, hbehind, hmem⟩ := ih hshort.2
    refine ⟨first.map Prod.fst :: told, first ++ rest, ?_, ?_, ?_, ?_, fun name place => ?_⟩
    · exact mapM_eq_ok_iff.2 (.cons hfirst.told (mapM_eq_ok_iff.1 htold))
    · rw [List.flatten_cons, List.map_append, hflat]
    · refine List.pairwise_append.2 ⟨hfirst.order, horder, fun o ho o' ho' => ?_⟩
      exact Nat.lt_of_lt_of_le (hfirst.inside o ho).2 (hbehind o' ho')
    · refine List.forall_mem_append.2 ⟨fun o ho => ?_, fun o ho => ?_⟩
      · exact hnext.start ▸ (hfirst.inside o ho).1
      · exact Nat.le_trans (Nat.le_of_lt hlt) (hbehind o ho)
    · rw [List.mem_append, hfirst.mem_iff, hmem, List.exists_mem_cons_iff]

/-- **The paths told for the guards of a template are the names in them**, each once, in the order
of their first occurrences in the template (`ListsFirst`); every name stands there in the template.
The names are those of all guards of opening tags that can be read, and of no others. -/
theorem guardPaths_listsFirst {template : String}
    (hshort : ∀ t ∈ tokenize template, t.opens = true → Guard.HasShortIntegers t.guard) :
    ∃ paths, guardPaths template = .ok paths
      ∧ (∀ names, names = paths ↔ ListsFirst
        (fun name place => ∃ t ∈ tokenize template, t.NamesAt name place) names)
      ∧ ∀ t ∈ tokenize template, ∀ name place, t.NamesAt name place →
        StandsAt name.toList template.toList place := by
  obtain ⟨told, occurrences, htold, hflat, horder, -, hmem⟩ :=
    exists_names_of_tiles (tiles_tokenize template) hshort
  have hlists := (listsFirst_eraseDups horder).congr hmem
  rw [← hflat] at hlists
  refine ⟨told.flatten.eraseDups, bind_eq_ok_iff.2 ⟨told, htold, rfl⟩,
    fun names => (hlists.iff_eq names).symm, ?_⟩
  rintro t ht name place ⟨guard, htag, -, lexemes, hlex, l, hl, hname, rfl⟩
  obtain ⟨before, hposition, hstands⟩ := Guard.standsAt_of_lexFrom hlex l hl
  rw [hname] at hstands
  rw [hposition, Nat.zero_add]
  exact Token.standsAt_of_guard ht htag hstands

/-- Two guards that can be read, one of them of a tag without a partner, and one that cannot: a name
that stands twice is told once, and neither keywords, nor quoted texts, nor the name in the guard
that cannot be read are told. -/
theorem guardPaths_listsFirst_unpaired :
    let template := "\x7b% if b.c and not a or b.c == 'd' %\x7d\x7b% if e and %\x7d"
      ++ "\x7b% endif %\x7d\x7b% if (d > 1) %\x7d"
    (∀ t ∈ tokenize template, t.opens = true → Guard.HasShortIntegers t.guard)
      ∧ guardPaths template = .ok ["b.c", "a", "d"]
      ∧ ListsFirst (fun name place => ∃ t ∈ tokenize template, t.NamesAt name place)
        ["b.c", "a", "d"] := by
  intro template
  have hlengths : ((tokenize template).all fun t =>
      decide (t.guard.toList.length ≤ Numeral.maxIntegerDigits)) = true := by decide +kernel
  have hshort : ∀ t ∈ tokenize template, t.opens = true → Guard.HasShortIntegers t.guard :=
    fun t ht _ => Guard.hasShortIntegers_of_length_le
      (of_decide_eq_true (List.all_eq_true.1 hlengths t ht))
  have hpaths : guardPaths template = .ok ["b.c", "a", "d"] := by decide +kernel
  obtain ⟨paths, htold, hlists, -⟩ := guardPaths_listsFirst hshort
  cases hpaths.symm.trans htold
  exact ⟨hshort, hpaths, (hlists _).1 rfl⟩

end Template

end Templating
