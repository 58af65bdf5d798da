import Mathlib.Data.List.Chain
import Templating.Proofs.Template.Recognition
import Templating.Proofs.Template.Substitution

/-!
# Tokens partition a template

The tokens of a template are pulled from it one by one. Each begins where the one before it ended,
the last ends where the template does, and no two neighbours are both literal text. However many
tokens have been pulled, the others are still ahead. A token is found again, and nothing else, when
its own text is cut into tokens.

## Main definitions

* `Cursor.pull`: asking for the next token a number of times.
* `Tiles`: tokens that follow each other from a place up to the end of a template.
* `IsPartition`: what it means that tokens partition a template.

## Main results

* `tiles_remaining`: the tokens from a place on follow each other up to the end.
* `Cursor.pull_eq`: pulling tokens takes them from the front of those that remain.
* `nextShape?_source`: a token is found again in its own text.
* `tokenize_partition`: the tokens of a template partition it.
-/

namespace Templating.Template

open Templating.Text

/-! ### Pulling tokens -/

namespace Cursor

/-- Asks `n` times for the next token (`Cursor.next?`): the tokens that were given, and the place
after them. At the end the cursor stays where it is. -/
def pull : (n : Nat) → Cursor → List Token × Cursor
  | 0, c => ([], c)
  | n + 1, c =>
    match c.next? with
    | none => pull n c
    | some (t, c') => (t :: (pull n c').1, (pull n c').2)

/-- Nothing remains where no token follows. -/
theorem remaining_of_none {c : Cursor} (h : c.next? = none) : c.remaining = [] := by
  rw [remaining.eq_def]
  split
  · rfl
  · rename_i hnext
    cases h.symm.trans hnext

/-- What remains is the next token and what remains behind it. -/
theorem remaining_of_some {c c' : Cursor} {t : Token} (h : c.next? = some (t, c')) :
    c.remaining = t :: c'.remaining := by
  rw [remaining.eq_def]
  split
  · rename_i hnext
    cases h.symm.trans hnext
  · rename_i hnext
    cases h.symm.trans hnext
    rfl

/-- Pulling takes tokens from the front of those that remain (`Cursor.remaining`). Induction on the
number of calls. -/
theorem pull_eq (n : Nat) (c : Cursor) :
    (c.pull n).1 = c.remaining.take n ∧ (c.pull n).2.remaining = c.remaining.drop n := by
  induction n generalizing c with
  | zero => exact ⟨rfl, rfl⟩
  | succ n ih =>
    rw [pull]
    cases hnext : c.next? with
    | none =>
      have hnil := remaining_of_none hnext
      have hrest := ih c
      rw [hnil, List.take_nil, List.drop_nil] at hrest ⊢
      exact hrest
    | some found =>
      obtain ⟨t, c'⟩ := found
      obtain ⟨htaken, hrest⟩ := ih c'
      rw [remaining_of_some hnext, List.take_succ_cons, List.drop_succ_cons]
      exact ⟨congrArg (t :: ·) htaken, hrest⟩

/-- Only at the end no token is ahead, since `nextShape?` finds one in any text that is not
empty. -/
theorem next?_eq_none_iff {c : Cursor} : c.next? = none ↔ c.ahead = [] := by
  rw [next?]
  cases hahead : c.ahead with
  | nil => simp [nextShape?]
  | cons d cs =>
    rw [nextShape?]
    cases delimited? (d :: cs) with
    | none => simp
    | some found => simp

/-- The next token is what `nextShape?` cuts off the text ahead. It begins at the place of the
cursor, and the cursor moves to where it stops. -/
theorem next?_eq_some_iff {c c' : Cursor} {t : Token} :
    c.next? = some (t, c') ↔ nextShape? c.ahead = some (t.shape, c'.ahead)
      ∧ t.start = c.position ∧ c'.position = t.stop := by
  obtain ⟨shape, start⟩ := t
  obtain ⟨position, ahead⟩ := c'
  rw [next?]
  cases nextShape? c.ahead with
  | none => simp
  | some found =>
    obtain ⟨shape', rest⟩ := found
    simp only [Option.some.injEq, Prod.mk.injEq, Token.mk.injEq, Cursor.mk.injEq, Token.stop]
    constructor
    · rintro ⟨⟨rfl, rfl⟩, rfl, rfl⟩
      exact ⟨⟨rfl, rfl⟩, rfl, rfl⟩
    · rintro ⟨⟨rfl, rfl⟩, rfl, rfl⟩
      exact ⟨⟨rfl, rfl⟩, rfl, rfl⟩

/-- A token that is given begins at the place, and the place after it is where it ends. -/
theorem isNextAt_of_next? {template : String} {p : Nat} {t : Token} {c' : Cursor}
    (h : (ofPosition template p).next? = some (t, c')) :
    IsNextAt template p t t.stop ∧ c' = ofPosition template t.stop
      ∧ p < t.stop ∧ t.stop ≤ template.length := by
  obtain ⟨hshape, hstart, hposition⟩ := next?_eq_some_iff.1 h
  have happ : t.shape.source ++ c'.ahead = template.toList.drop p := source_nextShape? hshape
  have hne := List.length_pos_iff.2 (source_ne_nil_of_nextShape? hshape)
  have hlength := congrArg List.length happ
  rw [List.length_append, List.length_drop, String.length_toList] at hlength
  have hstop : t.stop = p + t.shape.source.length := congrArg (· + _) hstart
  have hc' : c' = ofPosition template t.stop := by
    have hahead : template.toList.drop t.stop = c'.ahead := by
      rw [hstop, ← List.drop_drop, ← happ, List.drop_left]
    rw [ofPosition, hahead, ← hposition]
  have hlt : p < t.stop := by omega
  have hle : t.stop ≤ template.length := by omega
  rw [hc'] at hshape
  refine ⟨?_, hc', hlt, hle⟩
  have hnext := isNextAt_of_nextShape? (Nat.le_of_lt hlt) hle hshape
  rwa [show (⟨t.shape, p⟩ : Token) = t from congrArg (Token.mk _) hstart.symm] at hnext

end Cursor

/-! ### Tokens that follow each other -/

/-- The tokens follow each other from a place of a template up to its end, each being the next
token where the one before it ends. -/
inductive Tiles (template : String) : Nat → List Token → Prop
  | nil {p : Nat} (hp : p = template.length) : Tiles template p []
  | cons {p : Nat} {t : Token} {ts : List Token} (next : IsNextAt template p t t.stop)
      (lt : p < t.stop) (rest : Tiles template t.stop ts) : Tiles template p (t :: ts)

/-- The tokens from a place on follow each other up to the end (`Tiles`). Induction along
`Cursor.remaining` with `isNextAt_of_next?`. -/
theorem tiles_remaining {template : String} {c : Cursor} {p : Nat}
    (hc : c = Cursor.ofPosition template p) (hp : p ≤ template.length) :
    Tiles template p c.remaining := by
  fun_induction Cursor.remaining c generalizing p with
  | case1 c hnext =>
    rw [Cursor.next?_eq_none_iff, hc, Cursor.ofPosition, List.drop_eq_nil_iff,
      String.length_toList] at hnext
    exact .nil (Nat.le_antisymm hp hnext)
  | case2 c t c' hnext ih =>
    rw [hc] at hnext
    obtain ⟨hat, hc', hlt, hle⟩ := Cursor.isNextAt_of_next? hnext
    exact .cons hat hlt (ih hc' hle)

namespace Tiles

variable {template : String} {p : Nat} {tokens : List Token}

/-- The texts of the tokens make up the text from the place on. Induction along `Tiles`: each token
is what stands between its start and its stop. -/
theorem toList_concat (h : Tiles template p tokens) :
    (concat (tokens.map Token.text)).toList = template.toList.drop p := by
  induction h with
  | nil hp =>
    rw [hp, drop_length_toList]
    rfl
  | @cons p t ts hnext hlt _ ih =>
    rw [List.map_cons, concat_cons, String.toList_append, ih, hnext.text, String.toList_ofList,
      slice_append_drop (Nat.le_of_lt hlt)]

/-- The first of the tokens begins where they begin. -/
theorem start_of_head? (h : Tiles template p tokens) {t : Token} (ht : tokens.head? = some t) :
    t.start = p := by
  cases h with
  | nil _ => cases ht
  | cons hnext _ _ =>
    cases ht
    exact hnext.start

/-- The last of the tokens stops at the end of the template. -/
theorem stop_of_getLast? (h : Tiles template p tokens) {t : Token}
    (ht : tokens.getLast? = some t) : t.stop = template.length := by
  induction h with
  | nil _ => cases ht
  | cons _ _ hrest ih =>
    cases hrest with
    | nil hp =>
      cases ht
      exact hp
    | cons _ _ _ => exact ih (by rwa [List.getLast?_cons_cons] at ht)

/-- Each token begins where the one before it ends. -/
theorem isChain_stop_start (h : Tiles template p tokens) :
    tokens.IsChain fun t u => t.stop = u.start := by
  induction h with
  | nil _ => exact .nil
  | cons _ _ hrest ih =>
    exact List.isChain_cons.2 ⟨fun u hu => (hrest.start_of_head? hu).symm, ih⟩

/-- Each of the tokens is the next one at the place where it begins, and has at least one
character. -/
theorem isNextAt_of_mem (h : Tiles template p tokens) :
    ∀ t ∈ tokens, IsNextAt template t.start t t.stop ∧ t.start < t.stop := by
  induction h with
  | nil _ => nofun
  | cons hnext hlt _ ih =>
    refine List.forall_mem_cons.2 ⟨?_, ih⟩
    rw [hnext.start]
    exact ⟨hnext, hlt⟩

end Tiles

/-- Behind literal text comes no literal text, because a literal text goes on until `delimited?`
finds something. -/
theorem isDelimited_of_isNextAt {template : String} {p q stop : Nat} {t u : Token}
    (ht : IsNextAt template p t q) (hu : IsNextAt template q u stop) :
    t.IsDelimited ∨ u.IsDelimited := by
  by_cases hdelimited : t.IsDelimited
  · exact .inl hdelimited
  obtain ⟨run, hrun⟩ : ∃ run, t.shape = .text run := by simpa [Token.IsDelimited] using hdelimited
  refine .inr fun run' hrun' => ?_
  have htext := (Cursor.next?_eq_some_iff.1 ht.next).1
  rw [hrun, nextShape?_eq_text_iff] at htext
  have htext' := (Cursor.next?_eq_some_iff.1 hu.next).1
  rw [hrun', nextShape?_eq_text_iff] at htext'
  obtain ⟨-, -, hend⟩ := literalRun_eq_iff.1 htext.2
  obtain ⟨happ, hnone, -⟩ := literalRun_eq_iff.1 htext'.2
  change template.toList.drop q = [] ∨ (delimited? (template.toList.drop q)).isSome = true at hend
  change template.toList.drop q = run' ++ _ at happ
  rcases hend with hnil | hsome
  · rw [hnil] at happ
    exact htext'.1 (List.append_eq_nil_iff.1 happ.symm).1
  · have hhere := hnone 0 (List.length_pos_iff.2 htext'.1)
    rw [List.drop_zero] at hhere
    change delimited? (template.toList.drop q) = none at hhere
    rw [hhere] at hsome
    cases hsome

/-- Of two tokens that follow each other, one at least is delimited, by
`isDelimited_of_isNextAt`. -/
theorem Tiles.isChain_isDelimited {template : String} {p : Nat} {tokens : List Token}
    (h : Tiles template p tokens) : tokens.IsChain fun t u => t.IsDelimited ∨ u.IsDelimited := by
  induction h with
  | nil _ => exact .nil
  | cons hnext _ hrest ih =>
    cases hrest with
    | nil _ => exact .singleton _
    | cons hnext' _ _ => exact .cons_cons (isDelimited_of_isNextAt hnext hnext') ih

/-! ### The text of one token -/

/-- In its own text a token is found again, and nothing comes after it. Whether something is
delimited there does not depend on what stood behind it, and what is a literal text before a
delimiter is one at the end, too. -/
theorem nextShape?_source {cs rest : List Char} {shape : Shape}
    (h : nextShape? cs = some (shape, rest)) : nextShape? shape.source = some (shape, []) := by
  rcases delimited?_or_text_of_nextShape? h with hfound | ⟨run, rfl⟩
  · have hfits := (delimited?_eq_some_iff.1 hfound).2
    exact nextShape?_of_delimited? (delimited?_eq_some_iff.2 ⟨(List.append_nil _).symm, hfits⟩)
  · obtain ⟨hne, hrun⟩ := nextShape?_eq_text_iff.1 h
    obtain ⟨rfl, hnone, -⟩ := literalRun_eq_iff.1 hrun
    refine nextShape?_eq_text_iff.2 ⟨hne, literalRun_eq_iff.2
      ⟨(List.append_nil _).symm, fun i hi => ?_, .inl rfl⟩⟩
    -- What was delimited inside the run alone would be so in the longer text as well.
    rw [Option.eq_none_iff_forall_ne_some]
    rintro ⟨shape, rest'⟩ hfound
    have hlonger := delimited?_append hfound rest
    rw [Shape.source, ← List.drop_append_of_le_length (Nat.le_of_lt hi), hnone i hi] at hlonger
    cases hlonger

/-- A text that is one token has that token alone. -/
theorem tokenize_of_nextShape? {shape : Shape} (h : nextShape? shape.source = some (shape, [])) :
    tokenize (String.ofList shape.source) = [⟨shape, 0⟩] := by
  have hnext : (Cursor.ofText (String.ofList shape.source)).next?
      = some (⟨shape, 0⟩, ⟨shape.source.length, []⟩) := by
    rw [Cursor.next?_eq_some_iff, Cursor.ofText, String.toList_ofList]
    exact ⟨h, rfl, (Nat.zero_add _).symm⟩
  rw [tokenize, Cursor.remaining_of_some hnext,
    Cursor.remaining_of_none (Cursor.next?_eq_none_iff.2 rfl)]

theorem tokenize_source {shape : Shape} (h : shape.Fits) :
    tokenize (String.ofList shape.source) = [⟨shape, 0⟩] := by
  refine tokenize_of_nextShape? (nextShape?_of_delimited? ?_)
  exact delimited?_eq_some_iff.2 ⟨(List.append_nil _).symm, h⟩

/-- The text of a token has that token alone, by `nextShape?_source`. -/
theorem tokenize_text {template : String} {p stop : Nat} {t : Token}
    (h : IsNextAt template p t stop) : tokenize t.text = [⟨t.shape, 0⟩] :=
  tokenize_of_nextShape? (nextShape?_source (Cursor.next?_eq_some_iff.1 h.next).1)

/-! ### The tokens of a template -/

/-- The tokens are not empty, make up the template, begin at its first character, follow each
other without gaps, end at its end, stand where they say, and no two neighbours are both literal
text. -/
structure IsPartition (template : String) (tokens : List Token) : Prop where
  nonempty : ∀ t ∈ tokens, t.text ≠ ""
  covers : concat (tokens.map Token.text) = template
  first : ∀ t, tokens.head? = some t → t.start = 0
  adjacent : tokens.IsChain fun t u => t.stop = u.start
  last : ∀ t, tokens.getLast? = some t → t.stop = template.length
  places : ∀ t ∈ tokens, t.text = String.ofList (slice template.toList t.start t.stop)
  separate : tokens.IsChain fun t u => t.IsDelimited ∨ u.IsDelimited

/-- **The tokens of a template tile it** from its first place on. -/
theorem tiles_tokenize (template : String) : Tiles template 0 (tokenize template) :=
  tiles_remaining (rfl : Cursor.ofText template = .ofPosition template 0) (Nat.zero_le _)

/-- After some tokens have been pulled, the place is the end of the last of them. Induction on the
number of calls; `Tiles` says that the next token is where the one before it ends. -/
theorem Tiles.pull_eq {template : String} {p : Nat} {tokens : List Token} (n : Nat)
    (h : Tiles template p tokens) :
    (Cursor.ofPosition template p).pull n = (tokens.take n,
      .ofPosition template (((tokens.take n).getLast?.map Token.stop).getD p)) := by
  induction n generalizing p tokens with
  | zero => rfl
  | succ n ih =>
    cases h with
    | nil hp =>
      have hnone : (Cursor.ofPosition template p).next? = none := by
        rw [Cursor.next?_eq_none_iff, hp, Cursor.ofPosition, drop_length_toList]
      rw [Cursor.pull, hnone]
      dsimp only
      rw [ih (.nil hp), List.take_nil, List.take_nil]
    | @cons _ t ts hnext _ hrest =>
      rw [Cursor.pull, hnext.next]
      dsimp only
      rw [ih hrest, List.take_succ_cons, List.getLast?_cons]
      cases (ts.take n).getLast? with
      | none => rfl
      | some u => rfl

/-- There are no more tokens than characters, as each token of `Tiles` stops behind its start. -/
theorem Tiles.length_le {template : String} {p : Nat} {tokens : List Token}
    (h : Tiles template p tokens) : p + tokens.length ≤ template.length := by
  induction h with
  | nil hp => exact Nat.le_of_eq hp
  | cons _ hlt _ ih =>
    rw [List.length_cons]
    omega

/-- No more calls than a template has characters exhaust it, by `Tiles.length_le`. -/
theorem pull_length (template : String) : (Cursor.ofText template).pull template.length
    = (tokenize template, (Cursor.ofText template).atEnd) := by
  have htiles := tiles_tokenize template
  have hlength := htiles.length_le
  have hpull := htiles.pull_eq template.length
  rw [List.take_of_length_le (by omega)] at hpull
  have hend : ((tokenize template).getLast?.map Token.stop).getD 0 = template.length := by
    cases hlast : (tokenize template).getLast? with
    | none =>
      have hnil := List.getLast?_eq_none_iff.1 hlast
      rw [hnil] at htiles
      cases htiles with
      | nil hp => exact hp
    | some t => exact htiles.stop_of_getLast? hlast
  have hatEnd : (Cursor.ofText template).atEnd = .ofPosition template template.length := by
    rw [Cursor.atEnd, Cursor.ofText, Cursor.ofPosition, drop_length_toList, Nat.zero_add,
      String.length_toList]
  rw [hatEnd]
  rwa [hend] at hpull

/-- **The tokens of a template partition it.** However often the next token is asked for
(`Cursor.pull`), the tokens that were given are the first ones, iterating from there gives the
others, and the place is the end of the last that was given; and no more calls than there are
characters exhaust the template. The text of a token, cut into tokens by itself, has that token
alone. -/
theorem tokenize_partition (template : String) :
    IsPartition template (tokenize template)
      ∧ (∀ n, ((Cursor.ofText template).pull n).1 = (tokenize template).take n
        ∧ ((Cursor.ofText template).pull n).2.remaining = (tokenize template).drop n
        ∧ ((Cursor.ofText template).pull n).2.position
          = (((tokenize template).take n).getLast?.map Token.stop).getD 0)
      ∧ (Cursor.ofText template).pull template.length
        = (tokenize template, (Cursor.ofText template).atEnd)
      ∧ ∀ t ∈ tokenize template, tokenize t.text = [⟨t.shape, 0⟩] := by
  have htiles := tiles_tokenize template
  have hmem := htiles.isNextAt_of_mem
  refine ⟨⟨fun t ht => ?_, ?_, fun _ => htiles.start_of_head?, htiles.isChain_stop_start,
    fun _ => htiles.stop_of_getLast?, fun t ht => (hmem t ht).1.text, htiles.isChain_isDelimited⟩,
    fun n => ⟨?_, ?_, ?_⟩, pull_length template, fun t ht => tokenize_text (hmem t ht).1⟩
  · have hne := source_ne_nil_of_mem_tokenize ht
    rwa [Token.text, ne_eq, String.ofList_eq_empty_iff]
  · exact String.toList_injective htiles.toList_concat
  · exact (Cursor.pull_eq n _).1
  · exact (Cursor.pull_eq n _).2
  · exact congrArg (fun pulled => pulled.2.position) (htiles.pull_eq n)

/-- A tag that is cut from a template is found again in its own text. -/
theorem tokenize_partition_of_tag :
    (⟨.tag ['\x7d'], 1⟩ : Token) ∈ tokenize "a\x7b%\x7d%\x7db"
      ∧ tokenize "\x7b%\x7d%\x7d" = [⟨.tag ['\x7d'], 0⟩] := by
  have hmem : (⟨.tag ['\x7d'], 1⟩ : Token) ∈ tokenize "a\x7b%\x7d%\x7db" := by decide +kernel
  exact ⟨hmem, (tokenize_partition "a\x7b%\x7d%\x7db").2.2.2 _ hmem⟩

end Templating.Template
