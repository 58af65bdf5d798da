import Templating.Proofs.Template.Scan

/-!
# Which tokens are recognised where

A placeholder begins where two opening braces stand and no other brace comes before the closing
pair. A tag begins where `{%` stands and no other `{%` comes before the first `%}` behind it. Here
both are said by places in the text alone, without the scan that looks for them, and the next
token at any place is shown to be what begins there, or else the literal text before the first
place where something begins.

## Main definitions

* `Shape.Fits`: what may stand between the delimiters of a token.
* `StandsAt`, `Text.slice`: patterns and parts of a text by their places.
* `IsPlaceholderAt`, `IsTagAt`: the places where placeholders and tags begin and close.
* `IsNextAt`: the next token at a place.

## Main results

* `delimited?_eq_some_iff`: what is delimited depends on its own characters only.
* `literalRun_eq_iff`: how far literal text goes.
* `isSome_delimited?_drop_iff`: delimited tokens begin where the places say.
* `recognised_exactly`: the next token at every place of a text.
-/

namespace Templating.Text

/-- The characters from one place of a text up to another. -/
def slice (cs : List Char) (i j : Nat) : List Char :=
  (cs.take j).drop i

/-- A part of a text is as long as its places are apart. -/
theorem length_slice {cs : List Char} {i j : Nat} (hj : j ≤ cs.length) :
    (slice cs i j).length = j - i := by
  rw [slice, List.length_drop, List.length_take, Nat.min_eq_left hj]

/-- The text from a place on is the part up to a later place and the text from there on. -/
theorem slice_append_drop {cs : List Char} {i j : Nat} (h : i ≤ j) :
    slice cs i j ++ cs.drop j = cs.drop i := by
  have hdrop : cs.drop j = (cs.drop i).drop (j - i) := by
    rw [List.drop_drop, Nat.add_sub_cancel' h]
  rw [slice, List.drop_take, hdrop, List.take_append_drop]

theorem drop_length_toList (s : String) : s.toList.drop s.length = [] := by
  rw [← String.length_toList, List.drop_length]

/-- A character stands in a part if it stands at one of its places. -/
theorem mem_slice_iff {cs : List Char} {i j : Nat} {c : Char} :
    c ∈ slice cs i j ↔ ∃ k, i ≤ k ∧ k < j ∧ cs[k]? = some c := by
  rw [slice, List.mem_iff_getElem?]
  constructor
  · rintro ⟨n, hn⟩
    rw [List.getElem?_drop, List.getElem?_take] at hn
    split at hn
    · exact ⟨i + n, Nat.le_add_right i n, ‹_›, hn⟩
    · cases hn
  · rintro ⟨k, hi, hj, hk⟩
    refine ⟨k - i, ?_⟩
    rw [List.getElem?_drop, List.getElem?_take, Nat.add_sub_cancel' hi, if_pos hj, hk]

/-! ### Pairs of characters at a place -/

/-- A pattern stands at a place of a text. -/
def StandsAt (pattern cs : List Char) (i : Nat) : Prop :=
  pattern <+: cs.drop i

/-- A pair of characters stands at a place if the text from there on begins with it. -/
theorem standsAt_pair_iff {a b : Char} {cs : List Char} {i : Nat} :
    StandsAt [a, b] cs i ↔ cs.drop i = a :: b :: cs.drop (i + 2) := by
  constructor
  · rintro ⟨rest, hrest⟩
    have hbehind : rest = cs.drop (i + 2) := by
      rw [← List.drop_drop, ← hrest]
      rfl
    rw [← hrest, hbehind]
    rfl
  · intro h
    exact ⟨cs.drop (i + 2), h.symm⟩

/-- A pair of characters that stands in a text ends in it. -/
theorem StandsAt.add_two_le {a b : Char} {cs : List Char} {i : Nat} (h : StandsAt [a, b] cs i) :
    i + 2 ≤ cs.length := by
  have hlength := h.length_le
  simp only [List.length_cons, List.length_nil, List.length_drop] at hlength
  omega

theorem StandsAt.pair_inj {a b a' b' : Char} {cs : List Char} {i : Nat}
    (h : StandsAt [a, b] cs i) (h' : StandsAt [a', b'] cs i) : a = a' ∧ b = b' := by
  have heq := (standsAt_pair_iff.1 h).symm.trans (standsAt_pair_iff.1 h')
  exact ⟨(List.cons.inj heq).1, (List.cons.inj (List.cons.inj heq).2).1⟩

/-- Where a pair stands, its second character stands at the next place, so a pair that begins there
begins with it. -/
theorem StandsAt.second {a b c d : Char} {cs : List Char} {i : Nat} (h : StandsAt [a, b] cs i)
    (h' : StandsAt [c, d] cs (i + 1)) : b = c := by
  rw [standsAt_pair_iff] at h h'
  have hnext : cs.drop (i + 1) = b :: cs.drop (i + 2) := by
    rw [← List.drop_drop, h]
    rfl
  exact (List.cons.inj (hnext.symm.trans h')).1

/-- A pair occurs in a part of a text where it stands at one of the places of the part. -/
theorem infix_slice_iff {a b : Char} {cs : List Char} {i j : Nat} (hij : i ≤ j) :
    [a, b] <:+: slice cs i j ↔ ∃ k, i ≤ k ∧ k + 2 ≤ j ∧ StandsAt [a, b] cs k := by
  constructor
  · rintro ⟨before, after, heq⟩
    have hlength := congrArg List.length heq
    simp only [slice, List.length_append, List.length_cons, List.length_nil, List.length_drop,
      List.length_take] at hlength
    refine ⟨i + before.length, Nat.le_add_right _ _, by omega, after ++ cs.drop j, ?_⟩
    rw [← List.drop_drop, ← slice_append_drop hij, ← heq]
    simp
  · rintro ⟨k, hik, hkj, hk⟩
    have hbounds := hk.add_two_le
    rw [standsAt_pair_iff] at hk
    refine ⟨slice cs i k, slice cs (k + 2) j, ?_⟩
    have happ : (slice cs i k ++ [a, b] ++ slice cs (k + 2) j) ++ cs.drop j
        = slice cs i j ++ cs.drop j := by
      rw [slice_append_drop hij, List.append_assoc, slice_append_drop hkj, List.append_assoc,
        ← slice_append_drop hik, hk]
      rfl
    exact List.append_cancel_right happ

end Templating.Text

namespace Templating.Template

open Templating.Text

/-! ### What stands between delimiters -/

/-- Whether the characters of a token may stand between its delimiters. Literal text has none. -/
def Shape.Fits : Shape → Prop
  | .text _ => False
  | .placeholder inner => ∀ c ∈ inner, c ≠ '{' ∧ c ≠ '}'
  | .tag inner => ¬ ['{', '%'] <:+: inner ∧ ¬ ['%', '}'] <:+: inner

/-- The inside of a placeholder goes up to two closing braces and has no brace in it. -/
theorem placeholderBody?_eq_some_iff {cs inner rest : List Char} :
    placeholderBody? cs = some (inner, rest)
      ↔ cs = inner ++ '}' :: '}' :: rest ∧ ∀ c ∈ inner, c ≠ '{' ∧ c ≠ '}' := by
  constructor
  · exact fun h => ⟨(source_placeholderBody? h).symm, not_brace_of_placeholderBody? h⟩
  · rintro ⟨rfl, hinner⟩
    exact placeholderBody?_append rest hinner

/-- Inside a tag stands neither delimiter. -/
theorem not_infix_of_tagBody? {cs inner rest : List Char} (h : tagBody? cs = some (inner, rest)) :
    ¬ ['{', '%'] <:+: inner ∧ ¬ ['%', '}'] <:+: inner := by
  fun_induction tagBody? cs generalizing inner with
  | case1 => cases h
  | case2 => cases h; decide
  | case3 => cases h; decide
  | case4 => cases h
  | case5 c cs hclosing _ hopening ih =>
    obtain ⟨⟨inner', rest'⟩, hbody, heq⟩ := Option.map_eq_some_iff.1 h
    cases heq
    have hcs := source_tagBody? hbody
    rw [List.infix_cons_iff, List.infix_cons_iff]
    refine ⟨not_or.2 ⟨?_, (ih hbody).1⟩, not_or.2 ⟨?_, (ih hbody).2⟩⟩
    · rintro ⟨more, hmore⟩
      obtain ⟨rfl, rfl⟩ := List.cons.inj hmore
      exact hopening (more ++ '%' :: '}' :: rest) rfl hcs.symm
    · rintro ⟨more, hmore⟩
      obtain ⟨rfl, rfl⟩ := List.cons.inj hmore
      exact hclosing (more ++ '%' :: '}' :: rest) rfl hcs.symm

/-- Characters without either delimiter are read as the inside of a tag. Induction on them; the
hypothesis about the closing delimiter rules out an earlier end. -/
theorem tagBody?_append {inner : List Char} (rest : List Char)
    (hopening : ¬ ['{', '%'] <:+: inner) (hclosing : ¬ ['%', '}'] <:+: inner) :
    tagBody? (inner ++ '%' :: '}' :: rest) = some (inner, rest) := by
  induction inner with
  | nil => rw [List.nil_append, tagBody?]
  | cons c inner ih =>
    rw [List.infix_cons_iff, not_or] at hopening hclosing
    have hbody := ih hopening.2 hclosing.2
    cases inner with
    | nil =>
      -- A brace right before the closing delimiter is read with it.
      by_cases hc : c = '{'
      · rw [hc]
        rfl
      · rw [List.cons_append, tagBody?, hbody]
        · rfl
        · rintro rest' rfl ⟨⟩
        · rintro rest' rfl
          exact absurd rfl hc
        · rintro rest' rfl
          exact absurd rfl hc
    | cons d inner =>
      have hcd : ∀ a b, ¬ [a, b] <+: c :: d :: inner → ¬(c = a ∧ d = b) := by
        rintro a b hnot ⟨rfl, rfl⟩
        exact hnot ⟨inner, rfl⟩
      rw [List.cons_append, tagBody?, hbody]
      · rfl
      · rintro rest' rfl heq
        exact hcd _ _ hclosing.1 ⟨rfl, (List.cons.inj heq).1⟩
      · rintro rest' rfl heq
        exact hcd _ _ hopening.1 ⟨rfl, (List.cons.inj heq).1⟩
      · rintro rest' rfl heq
        exact hcd _ _ hopening.1 ⟨rfl, (List.cons.inj heq).1⟩

/-- The inside of a tag goes up to the first closing delimiter and has no opening one in it. -/
theorem tagBody?_eq_some_iff {cs inner rest : List Char} :
    tagBody? cs = some (inner, rest)
      ↔ cs = inner ++ '%' :: '}' :: rest ∧ ¬ ['{', '%'] <:+: inner ∧ ¬ ['%', '}'] <:+: inner := by
  constructor
  · exact fun h => ⟨(source_tagBody? h).symm, not_infix_of_tagBody? h⟩
  · rintro ⟨rfl, hopening, hclosing⟩
    exact tagBody?_append rest hopening hclosing

/-- **Whether a token is delimited at the head of a text depends on its own characters only**: on
what `Shape.Fits` asks of them. -/
theorem delimited?_eq_some_iff {cs rest : List Char} {shape : Shape} :
    delimited? cs = some (shape, rest) ↔ cs = shape.source ++ rest ∧ shape.Fits := by
  constructor
  · intro h
    refine ⟨(source_delimited? h).symm, ?_⟩
    rw [delimited?.eq_def] at h
    split at h
    · obtain ⟨⟨inner, rest'⟩, hbody, ⟨⟩⟩ := Option.map_eq_some_iff.1 h
      exact (placeholderBody?_eq_some_iff.1 hbody).2
    · obtain ⟨⟨inner, rest'⟩, hbody, ⟨⟩⟩ := Option.map_eq_some_iff.1 h
      exact (tagBody?_eq_some_iff.1 hbody).2
    · cases h
  · rintro ⟨rfl, hfits⟩
    cases shape with
    | text run => exact absurd hfits id
    | placeholder inner => exact delimited?_placeholder_append rest hfits
    | tag inner =>
      have hsource : (Shape.tag inner).source ++ rest
          = '{' :: '%' :: (inner ++ '%' :: '}' :: rest) := by simp [Shape.source]
      rw [hsource, delimited?, tagBody?_append rest hfits.1 hfits.2]
      rfl

/-- What is delimited at the head of a text is so whatever comes after it. -/
theorem delimited?_append {cs rest : List Char} {shape : Shape}
    (h : delimited? cs = some (shape, rest)) (more : List Char) :
    delimited? (cs ++ more) = some (shape, rest ++ more) := by
  obtain ⟨rfl, hfits⟩ := delimited?_eq_some_iff.1 h
  exact delimited?_eq_some_iff.2 ⟨List.append_assoc _ _ _, hfits⟩

/-! ### Literal text -/

/-- **Literal text goes on up to the first place where something is delimited, or to the end.** -/
theorem literalRun_eq_iff {cs run rest : List Char} :
    literalRun cs = (run, rest) ↔ cs = run ++ rest
      ∧ (∀ i < run.length, delimited? (cs.drop i) = none)
      ∧ (rest = [] ∨ (delimited? rest).isSome = true) := by
  constructor
  · intro h
    induction cs generalizing run rest with
    | nil =>
      cases h
      exact ⟨rfl, by simp, .inl rfl⟩
    | cons c cs ih =>
      rw [literalRun] at h
      split at h
      · rename_i hfound
        cases h
        exact ⟨rfl, by simp, .inr hfound⟩
      · rename_i hnot
        cases h
        obtain ⟨happ, hnone, hend⟩ := ih rfl
        refine ⟨congrArg (c :: ·) happ, fun i hi => ?_, hend⟩
        -- At the first character nothing is delimited, as the run goes on; behind it by the
        -- hypothesis.
        cases i with
        | zero => simpa using hnot
        | succ i => exact hnone i (Nat.lt_of_succ_lt_succ hi)
  · rintro ⟨rfl, hnone, hend⟩
    induction run with
    | nil =>
      cases rest with
      | nil => rfl
      | cons c rest => exact if_pos (hend.resolve_left (List.cons_ne_nil _ _))
    | cons c run ih =>
      have hhead : delimited? (c :: (run ++ rest)) = none := hnone 0 (by simp)
      rw [List.cons_append, literalRun, if_neg (by simp [hhead]),
        ih fun i hi => hnone (i + 1) (Nat.succ_lt_succ hi)]

theorem nextShape?_of_delimited? {cs : List Char} {found : Shape × List Char}
    (h : delimited? cs = some found) : nextShape? cs = some found := by
  cases cs with
  | nil => cases h
  | cons c cs => rw [nextShape?, h]

/-- The next token is literal text if nothing is delimited before its end. -/
theorem nextShape?_eq_text_iff {cs run rest : List Char} :
    nextShape? cs = some (.text run, rest) ↔ run ≠ [] ∧ literalRun cs = (run, rest) := by
  cases cs with
  | nil =>
    rw [nextShape?, literalRun]
    refine iff_of_false (by rintro ⟨⟩) ?_
    rintro ⟨hne, ⟨⟩⟩
    exact hne rfl
  | cons c cs =>
    rw [nextShape?, literalRun]
    cases hfound : delimited? (c :: cs) with
    | some found =>
      refine iff_of_false ?_ ?_
      · rintro ⟨⟩
        exact delimited?_ne_text _ _ _ hfound
      · rintro ⟨hne, ⟨⟩⟩
        exact hne rfl
    | none =>
      simp only [Option.isSome_none, Bool.false_eq_true, if_false, Option.some.injEq,
        Prod.mk.injEq, Shape.text.injEq]
      refine (and_iff_right_of_imp ?_).symm
      rintro ⟨rfl, -⟩
      exact List.cons_ne_nil _ _

/-- The next token is delimited here, or it is literal text. -/
theorem delimited?_or_text_of_nextShape? {cs rest : List Char} {shape : Shape}
    (h : nextShape? cs = some (shape, rest)) :
    delimited? cs = some (shape, rest) ∨ ∃ run, shape = .text run := by
  cases cs with
  | nil => cases h
  | cons c cs =>
    rw [nextShape?] at h
    split at h
    · rename_i hfound
      exact .inl (hfound.trans h)
    · cases h
      exact .inr ⟨_, rfl⟩

/-! ### Places where tokens begin -/

/-- A placeholder begins at a place and its closing pair stands at another: two opening braces,
then no brace, then two closing braces. -/
structure IsPlaceholderAt (cs : List Char) (m j : Nat) : Prop where
  opening : StandsAt ['{', '{'] cs m
  le : m + 2 ≤ j
  inside : ∀ i, m + 2 ≤ i → i < j → cs[i]? ≠ some '{' ∧ cs[i]? ≠ some '}'
  closing : StandsAt ['}', '}'] cs j

/-- A tag begins at a place and the first `%}` behind its opening stands at another, without a
second `{%` in between. -/
structure IsTagAt (cs : List Char) (m q : Nat) : Prop where
  opening : StandsAt ['{', '%'] cs m
  le : m + 2 ≤ q
  closing : StandsAt ['%', '}'] cs q
  first : ∀ i, m + 2 ≤ i → i < q → ¬StandsAt ['%', '}'] cs i
  alone : ∀ i, m + 2 ≤ i → i + 2 ≤ q → ¬StandsAt ['{', '%'] cs i

/-- A placeholder or a tag begins at a place. -/
def BeginsAt (cs : List Char) (m : Nat) : Prop :=
  (∃ j, IsPlaceholderAt cs m j) ∨ ∃ q, IsTagAt cs m q

variable {cs : List Char}

/-- The text from an opening pair on, cut at a closing pair behind it. -/
theorem drop_eq_of_standsAt {a b a' b' : Char} {m j : Nat} (hopening : StandsAt [a, b] cs m)
    (hle : m + 2 ≤ j) (hclosing : StandsAt [a', b'] cs j) :
    cs.drop m = a :: b :: (slice cs (m + 2) j ++ a' :: b' :: cs.drop (j + 2)) := by
  rw [standsAt_pair_iff.1 hopening, ← slice_append_drop hle, standsAt_pair_iff.1 hclosing]

/-- Where a text from a place on is an opening pair, some characters and a closing pair, the two
pairs stand at their places with those characters between them. -/
theorem standsAt_of_drop_eq {a b a' b' : Char} {m : Nat} {inner rest : List Char}
    (h : cs.drop m = a :: b :: (inner ++ a' :: b' :: rest)) :
    StandsAt [a, b] cs m ∧ StandsAt [a', b'] cs (m + 2 + inner.length)
      ∧ slice cs (m + 2) (m + 2 + inner.length) = inner := by
  have hinner : cs.drop (m + 2) = inner ++ a' :: b' :: rest := by
    rw [← List.drop_drop, h]
    rfl
  have hclosing : cs.drop (m + 2 + inner.length) = a' :: b' :: rest := by
    rw [← List.drop_drop, hinner, List.drop_left]
  refine ⟨⟨_, h.symm⟩, ⟨rest, hclosing.symm⟩, ?_⟩
  have hslice : slice cs (m + 2) (m + 2 + inner.length) ++ cs.drop (m + 2 + inner.length)
      = cs.drop (m + 2) := slice_append_drop (Nat.le_add_right _ _)
  rw [hclosing, hinner] at hslice
  exact List.append_cancel_right hslice

/-- Where a placeholder begins by its places, `delimited?` finds it. -/
theorem IsPlaceholderAt.delimited?_drop {m j : Nat} (h : IsPlaceholderAt cs m j) :
    delimited? (cs.drop m) = some (.placeholder (slice cs (m + 2) j), cs.drop (j + 2)) := by
  refine delimited?_eq_some_iff.2 ⟨?_, fun c hc => ?_⟩
  · rw [drop_eq_of_standsAt h.opening h.le h.closing]
    simp [Shape.source]
  · obtain ⟨k, hmk, hkj, hk⟩ := mem_slice_iff.1 hc
    obtain ⟨hopening, hclosing⟩ := h.inside k hmk hkj
    rw [hk] at hopening hclosing
    exact ⟨fun heq => hopening (congrArg some heq), fun heq => hclosing (congrArg some heq)⟩

/-- Where `delimited?` finds a placeholder, one begins by its places. -/
theorem isPlaceholderAt_of_delimited? {m : Nat} {inner rest : List Char}
    (h : delimited? (cs.drop m) = some (.placeholder inner, rest)) :
    IsPlaceholderAt cs m (m + 2 + inner.length) := by
  obtain ⟨hdrop, hfits⟩ := delimited?_eq_some_iff.1 h
  obtain ⟨hopening, hclosing, hslice⟩ := standsAt_of_drop_eq (hdrop.trans
    (show _ = '{' :: '{' :: (inner ++ '}' :: '}' :: rest) by simp [Shape.source]))
  refine ⟨hopening, Nat.le_add_right _ _, fun i hmi hij => ?_, hclosing⟩
  have hmem : ∀ c, cs[i]? = some c → c ∈ inner := fun c hc => by
    rw [← hslice]
    exact mem_slice_iff.2 ⟨i, hmi, hij, hc⟩
  exact ⟨fun hc => (hfits _ (hmem _ hc)).1 rfl, fun hc => (hfits _ (hmem _ hc)).2 rfl⟩

/-- Where a tag begins by its places, `delimited?` finds it. -/
theorem IsTagAt.delimited?_drop {m q : Nat} (h : IsTagAt cs m q) :
    delimited? (cs.drop m) = some (.tag (slice cs (m + 2) q), cs.drop (q + 2)) := by
  refine delimited?_eq_some_iff.2 ⟨?_, ?_, ?_⟩
  · rw [drop_eq_of_standsAt h.opening h.le h.closing]
    simp [Shape.source]
  · rw [infix_slice_iff h.le]
    rintro ⟨k, hmk, hkq, hk⟩
    exact h.alone k hmk hkq hk
  · rw [infix_slice_iff h.le]
    rintro ⟨k, hmk, hkq, hk⟩
    exact h.first k hmk (by omega) hk

/-- Where `delimited?` finds a tag, one begins by its places. -/
theorem isTagAt_of_delimited? {m : Nat} {inner rest : List Char}
    (h : delimited? (cs.drop m) = some (.tag inner, rest)) :
    IsTagAt cs m (m + 2 + inner.length) := by
  obtain ⟨hdrop, hfits⟩ := delimited?_eq_some_iff.1 h
  obtain ⟨hopening, hclosing, hslice⟩ := standsAt_of_drop_eq (hdrop.trans
    (show _ = '{' :: '%' :: (inner ++ '%' :: '}' :: rest) by simp [Shape.source]))
  have hle := Nat.le_add_right (m + 2) inner.length
  obtain ⟨hnoOpening, hnoClosing⟩ := hfits
  rw [← hslice, infix_slice_iff hle] at hnoOpening hnoClosing
  refine ⟨hopening, hle, hclosing, fun i hmi hiq hi => ?_, fun i hmi hiq hi =>
    hnoOpening ⟨i, hmi, hiq, hi⟩⟩
  -- The closing pair found one place later would have to begin with a brace.
  by_cases hnext : i + 1 = m + 2 + inner.length
  · rw [← hnext] at hclosing
    exact absurd (hi.second hclosing) (by decide)
  · exact hnoClosing ⟨i, hmi, by omega, hi⟩

/-- **Something is delimited at a place exactly if a placeholder or tag begins there**
(`BeginsAt`). -/
theorem isSome_delimited?_drop_iff {m : Nat} :
    (delimited? (cs.drop m)).isSome = true ↔ BeginsAt cs m := by
  constructor
  · intro h
    obtain ⟨⟨shape, rest⟩, hfound⟩ := Option.isSome_iff_exists.1 h
    cases shape with
    | text run => exact absurd hfound (delimited?_ne_text _ _ _)
    | placeholder inner => exact .inl ⟨_, isPlaceholderAt_of_delimited? hfound⟩
    | tag inner => exact .inr ⟨_, isTagAt_of_delimited? hfound⟩
  · rintro (⟨j, hj⟩ | ⟨q, hq⟩)
    · rw [hj.delimited?_drop]
      rfl
    · rw [hq.delimited?_drop]
      rfl

/-- What begins at a place begins before the end of the text. -/
theorem BeginsAt.lt_length {m : Nat} (h : BeginsAt cs m) : m < cs.length := by
  rcases h with ⟨j, hj⟩ | ⟨q, hq⟩
  · have := hj.opening.add_two_le
    omega
  · have := hq.opening.add_two_le
    omega

/-! ### The next token at a place -/

/-- The place in a template after a number of characters. -/
def Cursor.ofPosition (template : String) (p : Nat) : Cursor :=
  ⟨p, template.toList.drop p⟩

/-- The next token at a place is a given one, which ends at another place. -/
structure IsNextAt (template : String) (p : Nat) (t : Token) (stop : Nat) : Prop where
  next : (Cursor.ofPosition template p).next? = some (t, Cursor.ofPosition template stop)
  start : t.start = p
  text : t.text = String.ofList (slice template.toList p stop)
  stop : t.stop = stop

/-- The token that `nextShape?` cuts off at a place ends where the text behind it begins. -/
theorem isNextAt_of_nextShape? {template : String} {p stop : Nat} {shape : Shape}
    (hp : p ≤ stop) (hstop : stop ≤ template.length)
    (h : nextShape? (template.toList.drop p) = some (shape, template.toList.drop stop)) :
    IsNextAt template p ⟨shape, p⟩ stop := by
  have hsource : shape.source = slice template.toList p stop := by
    have happ := source_nextShape? h
    rw [← slice_append_drop hp] at happ
    exact List.append_cancel_right happ
  have hlength : shape.source.length = stop - p := by
    rw [hsource, length_slice (String.length_toList ▸ hstop)]
  have hend : p + shape.source.length = stop := by omega
  refine ⟨?_, rfl, by rw [Token.text, hsource], hend⟩
  rw [Cursor.ofPosition, Cursor.next?]
  simp only [h, hend]
  rfl

/-- Literal text goes up to a place before which nothing begins, by `literalRun_eq_iff`. -/
theorem isNextAt_text {template : String} {p m : Nat} (hpm : p < m) (hm : m ≤ template.length)
    (hnone : ∀ i, p ≤ i → i < m → ¬BeginsAt template.toList i)
    (hend : m = template.length ∨ BeginsAt template.toList m) :
    IsNextAt template p ⟨.text (slice template.toList p m), p⟩ m := by
  have hm' : m ≤ template.toList.length := String.length_toList ▸ hm
  have hlength := length_slice (i := p) hm'
  refine isNextAt_of_nextShape? (Nat.le_of_lt hpm) hm (nextShape?_eq_text_iff.2 ⟨?_, ?_⟩)
  · rw [ne_eq, ← List.length_eq_zero_iff, hlength]
    omega
  · refine literalRun_eq_iff.2 ⟨(slice_append_drop (Nat.le_of_lt hpm)).symm, fun i hi => ?_, ?_⟩
    · rw [List.drop_drop, ← Option.not_isSome_iff_eq_none, isSome_delimited?_drop_iff]
      exact hnone (p + i) (Nat.le_add_right _ _) (by omega)
    · refine hend.imp (fun heq => ?_) isSome_delimited?_drop_iff.2
      rw [heq, drop_length_toList]

/-- **The next token at a place before the end of a template.** If a placeholder or a tag begins
there, it is that one, and its content is what stands between the delimiters without the blank
characters around it. Otherwise it is the literal text up to the first later place where one begins,
or up to the end if there is none. No placeholder begins where a tag does. -/
theorem recognised_exactly {template : String} {p : Nat} (hp : p < template.length) :
    (∀ j, IsPlaceholderAt template.toList p j → ∃ t, IsNextAt template p t (j + 2)
        ∧ t.shape = .placeholder (slice template.toList (p + 2) j)
        ∧ t.content = trimmed (String.ofList (slice template.toList (p + 2) j)))
      ∧ (∀ q, IsTagAt template.toList p q → ∃ t, IsNextAt template p t (q + 2)
        ∧ t.shape = .tag (slice template.toList (p + 2) q)
        ∧ t.content = trimmed (String.ofList (slice template.toList (p + 2) q)))
      ∧ (∀ m, p < m → BeginsAt template.toList m →
        (∀ i, p ≤ i → i < m → ¬BeginsAt template.toList i) →
        ∃ t, IsNextAt template p t m ∧ t.shape = .text (slice template.toList p m))
      ∧ ((∀ i, p ≤ i → ¬BeginsAt template.toList i) →
        ∃ t, IsNextAt template p t template.length
          ∧ t.shape = .text (slice template.toList p template.length))
      ∧ ∀ m j q, ¬(IsPlaceholderAt template.toList m j ∧ IsTagAt template.toList m q) := by
  refine ⟨fun j hj => ?_, fun q hq => ?_, fun m hpm hm hnone => ?_, fun hnone => ?_, ?_⟩
  · have hle := hj.le
    have hstop := hj.closing.add_two_le
    rw [String.length_toList] at hstop
    exact ⟨_, isNextAt_of_nextShape? (by omega) hstop (nextShape?_of_delimited? hj.delimited?_drop),
      rfl, by rw [trimmed, String.toList_ofList]; rfl⟩
  · have hle := hq.le
    have hstop := hq.closing.add_two_le
    rw [String.length_toList] at hstop
    exact ⟨_, isNextAt_of_nextShape? (by omega) hstop (nextShape?_of_delimited? hq.delimited?_drop),
      rfl, by rw [trimmed, String.toList_ofList]; rfl⟩
  · have hlt := hm.lt_length
    rw [String.length_toList] at hlt
    exact ⟨_, isNextAt_text hpm (Nat.le_of_lt hlt) hnone (.inr hm), rfl⟩
  · exact ⟨_, isNextAt_text hp (Nat.le_refl _) (fun i hi _ => hnone i hi) (.inl rfl), rfl⟩
  · rintro m j q ⟨hplaceholder, htag⟩
    exact absurd (hplaceholder.opening.pair_inj htag.opening).2 (by decide)

/-- A closing brace right behind the opening of a tag does not close it. -/
theorem recognised_brace_in_tag :
    1 < "a\x7b%\x7d%\x7db".length ∧ IsTagAt "a\x7b%\x7d%\x7db".toList 1 4
      ∧ ∃ t, IsNextAt "a\x7b%\x7d%\x7db" 1 t 6 ∧ t.shape = .tag ['}'] ∧ t.content = "\x7d" := by
  have hfound : delimited? ("a\x7b%\x7d%\x7db".toList.drop 1) = some (.tag ['}'], ['b']) := by
    decide +kernel
  have htag : IsTagAt "a\x7b%\x7d%\x7db".toList 1 4 := isTagAt_of_delimited? hfound
  exact ⟨by decide, htag, (recognised_exactly (by decide)).2.1 4 htag⟩

end Templating.Template
