import Templating.Proofs.Outcome
import Templating.Proofs.Template.Nesting

/-!
# Resolving spans, recursively

What a template comes to when its spans are resolved, said by recursion on its tokens: a pair of
tags comes to what stands between them if its guard is true and to nothing if it is false, and
every other token comes to itself. The pass over the tokens keeps a stack of truth values and a
count of dropped spans instead. Here the two are shown to agree, through the nesting of the
spans: over a nested stretch of tokens the pass changes nothing but the text kept, and that only
while nothing around the stretch is dropped.

## Main definitions

* `keptTokens`: the tokens that a template comes to.
* `Nesting.Matches`: what a tree knows of the partners among its tags.
* `Nesting.kept`: the tokens that a tree comes to.

## Main results

* `matches_nestingOf`: exactly the tags of spans have partners.
* `kept_nestingOf`: the recursion on tokens follows the tree.
* `foldlM_step_flatten`: so does the pass.
* `resolveSpans_eq`: the pass agrees with the recursion.
-/

namespace Templating.Template

/-! ### The recursion on tokens -/

/-- The tokens that a stretch of placed tokens comes to, given the pairs of tags: a pair comes to
what stands strictly inside it or to nothing, any other token to itself. -/
def keptBy (configuration : Value) (pairs : List (Nat × Nat)) :
    List (Token × Nat) → Except Fault (List Token)
  | [] => .ok []
  | (t, i) :: rest =>
    match pairs.lookup i with
    | none => do
      let after ← keptBy configuration pairs rest
      return t :: after
    | some j => do
      let keep ← Guard.evaluate t.guard configuration
      let inside ← (if keep then
          keptBy configuration pairs (rest.takeWhile fun entry => entry.2 < j)
        else .ok [])
      let after ← keptBy configuration pairs (rest.dropWhile fun entry => entry.2 ≤ j)
      return inside ++ after
termination_by entries => entries.length
decreasing_by
  · simp
  · simpa using Nat.lt_succ_of_le (List.takeWhile_prefix _).length_le
  · simpa using Nat.lt_succ_of_le (List.dropWhile_suffix _).length_le

/-- The tokens that a token list comes to when its spans are resolved. -/
def keptTokens (tokens : List Token) (configuration : Value) : Except Fault (List Token) :=
  keptBy configuration (partners tokens) tokens.zipIdx

/-- The texts of tokens, one after the other. -/
def textOf (tokens : List Token) : String :=
  Text.concat (tokens.map Token.text)

/-! ### Partners are unique -/

/-- No opening tag has two partners. Induction along the search: by `growth` a new pair takes an
opening tag that waits, and those that have a partner wait no longer. -/
theorem eq_of_mem_partnersUpTo {tokens : List Token} {n : Nat} (hn : n ≤ tokens.length)
    {pair pair' : Nat × Nat} (h : pair ∈ partnersUpTo tokens n)
    (h' : pair' ∈ partnersUpTo tokens n) (heq : pair.1 = pair'.1) : pair = pair' := by
  induction n with
  | zero => simp [partnersUpTo] at h
  | succ n ih =>
    have ih := ih (by omega)
    cases growth (List.getElem?_eq_getElem hn) with
    | opening _ hpairs _ => exact ih (hpairs ▸ h) (hpairs ▸ h')
    | stray _ _ hpairs _ => exact ih (hpairs ▸ h) (hpairs ▸ h')
    | other _ _ hpairs _ => exact ih (hpairs ▸ h) (hpairs ▸ h')
    | closing i _ hpairs hwaiting =>
      have hi : i ∈ waitingAfter tokens n := by simp [hwaiting]
      rw [hpairs, List.mem_cons] at h h'
      rcases h with rfl | h <;> rcases h' with rfl | h'
      · rfl
      · exact absurd heq.symm ((mem_waitingAfter.1 hi).2.2 _ h')
      · exact absurd heq ((mem_waitingAfter.1 hi).2.2 _ h)
      · exact ih h h'

/-- The partner of an opening tag is looked up by its place, since `eq_of_mem_partnersUpTo` leaves
only one pair to find. -/
theorem lookup_partners_eq_some {tokens : List Token} {i j : Nat}
    (h : (i, j) ∈ partners tokens) : (partners tokens).lookup i = some j := by
  cases hlookup : (partners tokens).lookup i with
  | none =>
    have := List.lookup_eq_none_iff.1 hlookup (i, j) h
    simp at this
  | some j' =>
    obtain ⟨before, after, heq, -⟩ := List.lookup_eq_some_iff.1 hlookup
    have hmem : (i, j') ∈ partners tokens := by simp [heq]
    have := eq_of_mem_partnersUpTo le_rfl h hmem rfl
    rw [(Prod.mk.injEq ..).mp this |>.2]

theorem lookup_partners_eq_none {tokens : List Token} {i : Nat}
    (h : ∀ pair ∈ partners tokens, pair.1 ≠ i) : (partners tokens).lookup i = none := by
  rw [List.lookup_eq_none_iff]
  intro pair hpair
  simpa using fun heq : i = pair.1 => h pair hpair heq.symm

namespace Nesting

/-! ### Trees and partners -/

/-- The tags of the spans of the tree are pairs, and its other tokens are in none. Such a tree and
the pairs tell the same spans. -/
def Matches (pairs : List (Nat × Nat)) : Nesting → Prop
  | done => True
  | single entry rest =>
    (∀ pair ∈ pairs, pair.1 ≠ entry.2 ∧ pair.2 ≠ entry.2) ∧ rest.Matches pairs
  | span opening body closing rest =>
    (opening.2, closing.2) ∈ pairs ∧ body.Matches pairs ∧ rest.Matches pairs

/-- The places of a pair are places of tokens of the tree. -/
theorem mem_flatten_of_mem_pairs {f : Nesting} {pair : Nat × Nat} (h : pair ∈ f.pairs) :
    (∃ entry ∈ f.flatten, entry.2 = pair.1) ∧ ∃ entry ∈ f.flatten, entry.2 = pair.2 := by
  induction f with
  | done => simp [pairs] at h
  | single entry rest ih =>
    obtain ⟨⟨a, ha, ha'⟩, b, hb, hb'⟩ := ih h
    exact ⟨⟨a, List.mem_cons_of_mem _ ha, ha'⟩, b, List.mem_cons_of_mem _ hb, hb'⟩
  | span opening body closing rest ihb ihr =>
    simp only [pairs, List.mem_cons, List.mem_append] at h
    rcases h with rfl | h | h
    · exact ⟨⟨opening, by simp [flatten], rfl⟩, closing, by simp [flatten], rfl⟩
    · obtain ⟨⟨a, ha, ha'⟩, b, hb, hb'⟩ := ihb h
      exact ⟨⟨a, by simp [flatten, ha], ha'⟩, b, by simp [flatten, hb], hb'⟩
    · obtain ⟨⟨a, ha, ha'⟩, b, hb, hb'⟩ := ihr h
      exact ⟨⟨a, by simp [flatten, ha], ha'⟩, b, by simp [flatten, hb], hb'⟩

/-- The places of the tokens of the tree ascend. -/
def IsSorted (f : Nesting) : Prop :=
  f.flatten.Pairwise fun a b => a.2 < b.2

/-- In a sorted span the opening tag stands before the body, the body before the closing tag,
and the closing tag before the rest. -/
theorem isSorted_span {opening closing : Token × Nat} {body rest : Nesting}
    (h : (span opening body closing rest).IsSorted) :
    (∀ a ∈ body.flatten, opening.2 < a.2 ∧ a.2 < closing.2) ∧ opening.2 < closing.2
      ∧ (∀ b ∈ rest.flatten, closing.2 < b.2) ∧ body.IsSorted ∧ rest.IsSorted := by
  simp only [IsSorted, flatten, List.pairwise_cons, List.pairwise_append, List.mem_append,
    List.mem_cons] at h
  obtain ⟨hopening, hbody, ⟨hclosing, hrest⟩, hacross⟩ := h
  refine ⟨fun a ha => ⟨hopening a (.inl ha), hacross a ha closing (.inl rfl)⟩,
    hopening closing (.inr (.inl rfl)), hclosing, hbody, hrest⟩

/-- A sorted tree matches the pairs if its own pairs are among them and no others touch its places.
Induction on the tree; `isSorted_span` keeps the places of a span's parts apart. -/
theorem matches_of_pairs {pairs : List (Nat × Nat)} {f : Nesting} (hsorted : f.IsSorted)
    (hown : ∀ pair ∈ f.pairs, pair ∈ pairs)
    (htouch : ∀ pair ∈ pairs, ∀ entry ∈ f.flatten, pair.1 = entry.2 ∨ pair.2 = entry.2 →
      pair ∈ f.pairs) : f.Matches pairs := by
  induction f with
  | done => trivial
  | single entry rest ih =>
    simp only [IsSorted, flatten, List.pairwise_cons] at hsorted
    obtain ⟨hfirst, hrest⟩ := hsorted
    refine ⟨fun pair hpair => ?_, ih hrest hown fun pair hpair e he h =>
      htouch pair hpair e (List.mem_cons_of_mem _ he) h⟩
    -- A pair that touches the token would be one of the rest, but it stands before all of them.
    by_contra hne
    have hmem : pair ∈ rest.pairs := by
      refine htouch pair hpair entry List.mem_cons_self ?_
      by_contra hnot
      exact hne ⟨fun h => hnot (.inl h), fun h => hnot (.inr h)⟩
    obtain ⟨⟨a, ha, ha'⟩, b, hb, hb'⟩ := mem_flatten_of_mem_pairs hmem
    have h1 := hfirst a ha
    have h2 := hfirst b hb
    omega
  | span opening body closing rest ihb ihr =>
    obtain ⟨hbody, hspan, hrest, hsb, hsr⟩ := isSorted_span hsorted
    refine ⟨hown _ List.mem_cons_self, ihb hsb (fun pair hpair => hown pair ?_) ?_,
      ihr hsr (fun pair hpair => hown pair ?_) ?_⟩
    · simp [Nesting.pairs, hpair]
    · intro pair hpair e he h
      have hmem := htouch pair hpair e (by simp [flatten, he]) h
      simp only [Nesting.pairs, List.mem_cons, List.mem_append] at hmem
      have hplace := hbody e he
      -- A pair that touches the body is neither that of the span nor one of the rest: their places
      -- lie elsewhere.
      rcases hmem with rfl | hmem | hmem
      · omega
      · exact hmem
      · obtain ⟨⟨a, ha, ha'⟩, b, hb, hb'⟩ := mem_flatten_of_mem_pairs hmem
        have h1 := hrest a ha
        have h2 := hrest b hb
        omega
    · simp [Nesting.pairs, hpair]
    · intro pair hpair e he h
      have hmem := htouch pair hpair e (by simp [flatten, he]) h
      simp only [Nesting.pairs, List.mem_cons, List.mem_append] at hmem
      have hplace := hrest e he
      -- The same for the rest, whose places lie behind those of the span and of its body.
      rcases hmem with rfl | hmem | hmem
      · omega
      · obtain ⟨⟨a, ha, ha'⟩, b, hb, hb'⟩ := mem_flatten_of_mem_pairs hmem
        have h1 := hbody a ha
        have h2 := hbody b hb
        omega
      · exact hmem

/-! ### What a tree comes to -/

/-- The tokens that the tree comes to when its spans are resolved. The guard of a span is evaluated
before anything inside it, and what stands inside a span that is dropped is not looked at. -/
def kept (configuration : Value) : Nesting → Except Fault (List Token)
  | done => .ok []
  | single entry rest => do
    let after ← rest.kept configuration
    return entry.1 :: after
  | span opening body _ rest => do
    let keep ← Guard.evaluate opening.1.guard configuration
    let inside ← (if keep then body.kept configuration else .ok [])
    let after ← rest.kept configuration
    return inside ++ after

/-- What stands between the tags of a span is its body: the tokens of the body, and no others, come
before the place of the closing tag. -/
theorem takeWhile_span {opening closing : Token × Nat} {body rest : Nesting}
    (h : (span opening body closing rest).IsSorted) :
    (body.flatten ++ closing :: rest.flatten).takeWhile (fun entry => entry.2 < closing.2)
      = body.flatten := by
  obtain ⟨hbody, -⟩ := isSorted_span h
  rw [List.takeWhile_append_of_pos fun a ha => by simpa using (hbody a ha).2,
    List.takeWhile_cons_of_neg (by simp), List.append_nil]

/-- What stands after the tags of a span is the rest. -/
theorem dropWhile_span {opening closing : Token × Nat} {body rest : Nesting}
    (h : (span opening body closing rest).IsSorted) :
    (body.flatten ++ closing :: rest.flatten).dropWhile (fun entry => entry.2 ≤ closing.2)
      = rest.flatten := by
  obtain ⟨hbody, -, hrest, -⟩ := isSorted_span h
  rw [List.dropWhile_append_of_pos fun a ha => by simpa using le_of_lt (hbody a ha).2,
    List.dropWhile_cons_of_pos (by simp)]
  cases hflat : rest.flatten with
  | nil => rfl
  | cons b bs =>
    have := hrest b (by simp [hflat])
    exact List.dropWhile_cons_of_neg (by simpa using this)

/-- **The recursion on tokens follows the tree.** Induction on the tree: at a span `keptBy` cuts the
tokens at the closing tag, which gives the body (`takeWhile_span`) and the rest
(`dropWhile_span`). -/
theorem keptBy_flatten {configuration : Value} {tokens : List Token} {f : Nesting}
    (hsorted : f.IsSorted) (hmatches : f.Matches (partners tokens)) :
    keptBy configuration (partners tokens) f.flatten = f.kept configuration := by
  induction f with
  | done => rw [flatten, keptBy, kept]
  | single entry rest ih =>
    have hlookup := lookup_partners_eq_none fun pair hpair => (hmatches.1 pair hpair).1
    rw [flatten, keptBy, hlookup, kept, ih (List.Pairwise.of_cons hsorted) hmatches.2]
  | span opening body closing rest ihb ihr =>
    obtain ⟨-, -, -, hsb, hsr⟩ := isSorted_span hsorted
    rw [flatten, keptBy, lookup_partners_eq_some hmatches.1, kept]
    simp only [takeWhile_span hsorted, dropWhile_span hsorted, ihb hsb hmatches.2.1,
      ihr hsr hmatches.2.2]

end Nesting

/-! ### The tree of a token list -/

/-- The tokens of the tree stand in the order of their places (`flatten_nestingOf`). -/
theorem isSorted_nestingOf (tokens : List Token) : (nestingOf tokens).IsSorted := by
  rw [Nesting.IsSorted, flatten_nestingOf]
  have h : (tokens.zipIdx.map Prod.snd).Pairwise (· < ·) := by
    rw [List.zipIdx_map_snd]
    exact List.pairwise_lt_range'
  exact List.pairwise_map.1 h

/-- Exactly the tags of spans have partners, by `matches_of_pairs`. -/
theorem matches_nestingOf (tokens : List Token) :
    (nestingOf tokens).Matches (partners tokens) :=
  Nesting.matches_of_pairs (isSorted_nestingOf tokens)
    (fun _ hpair => mem_pairs_nestingOf.1 hpair)
    fun _ hpair _ _ _ => mem_pairs_nestingOf.2 hpair

/-- The tree `nestingOf` keeps what the recursion on the token list keeps. -/
theorem kept_nestingOf (tokens : List Token) (configuration : Value) :
    (nestingOf tokens).kept configuration = keptTokens tokens configuration := by
  rw [keptTokens, ← flatten_nestingOf,
    Nesting.keptBy_flatten (isSorted_nestingOf tokens) (matches_nestingOf tokens)]

/-- What is kept of a tree are tokens of it that are in no pair. Induction on the tree, since the
tags of a span are never kept. -/
theorem Nesting.unpaired_of_mem_kept {configuration : Value} {pairs : List (Nat × Nat)}
    {f : Nesting} {ts : List Token} (hmatches : f.Matches pairs)
    (h : f.kept configuration = .ok ts) {t : Token} (ht : t ∈ ts) :
    ∃ i, (t, i) ∈ f.flatten ∧ ∀ pair ∈ pairs, pair.1 ≠ i ∧ pair.2 ≠ i := by
  induction f generalizing ts with
  | done =>
    cases h
    exact absurd ht List.not_mem_nil
  | single entry rest ih =>
    obtain ⟨after, hrest, ⟨⟩⟩ := bind_eq_ok_iff.1 h
    rcases List.mem_cons.1 ht with rfl | ht
    · exact ⟨entry.2, List.mem_cons_self, hmatches.1⟩
    · obtain ⟨i, hi, hunpaired⟩ := ih hmatches.2 hrest ht
      exact ⟨i, List.mem_cons_of_mem _ hi, hunpaired⟩
  | span opening body closing rest ihb ihr =>
    obtain ⟨keep, -, h⟩ := bind_eq_ok_iff.1 h
    obtain ⟨inside, hinside, h⟩ := bind_eq_ok_iff.1 h
    obtain ⟨after, hrest, ⟨⟩⟩ := bind_eq_ok_iff.1 h
    rcases List.mem_append.1 ht with ht | ht
    · cases keep with
      | false =>
        cases hinside
        exact absurd ht List.not_mem_nil
      | true =>
        obtain ⟨i, hi, hunpaired⟩ := ihb hmatches.2.1 hinside ht
        exact ⟨i, by simp [flatten, hi], hunpaired⟩
    · obtain ⟨i, hi, hunpaired⟩ := ihr hmatches.2.2 hrest ht
      exact ⟨i, by simp [flatten, hi], hunpaired⟩

/-- What is kept of a token list are tokens of it without a partner. -/
theorem unpaired_of_mem_keptTokens {tokens ts : List Token} {configuration : Value}
    (h : keptTokens tokens configuration = .ok ts) {t : Token} (ht : t ∈ ts) :
    ∃ i, tokens[i]? = some t ∧ i ∉ pairedTags tokens := by
  rw [← kept_nestingOf] at h
  obtain ⟨i, hi, hunpaired⟩ := Nesting.unpaired_of_mem_kept (matches_nestingOf tokens) h ht
  rw [flatten_nestingOf] at hi
  refine ⟨i, List.mk_mem_zipIdx_iff_getElem?.1 hi, fun hmem => ?_⟩
  obtain ⟨pair, hpair, heq | heq⟩ := mem_pairedTags.1 hmem
  · exact (hunpaired pair hpair).1 heq.symm
  · exact (hunpaired pair hpair).2 heq.symm

/-! ### The pass over a tree -/

namespace Pass

variable {configuration : Value} {tokens : List Token} {p : Pass} {entry : Token × Nat}

/-- A token that is in no pair is kept by `Pass.step`, unless something around it is dropped. -/
theorem step_of_single (h : ∀ pair ∈ partners tokens, pair.1 ≠ entry.2 ∧ pair.2 ≠ entry.2) :
    p.step configuration (pairedTags tokens) entry = .ok (p.emit entry.1) := by
  have hnot : entry.2 ∉ pairedTags tokens := by
    rw [mem_pairedTags]
    rintro ⟨pair, hpair, heq | heq⟩
    · exact (h pair hpair).1 heq.symm
    · exact (h pair hpair).2 heq.symm
  simp [step, hnot]

theorem step_of_opening (ho : entry.1.opens = true) {j : Nat} (h : (entry.2, j) ∈ partners tokens) :
    p.step configuration (pairedTags tokens) entry
      = p.openSpan configuration entry.1.guard := by
  have hmem : entry.2 ∈ pairedTags tokens := mem_pairedTags.2 ⟨_, h, .inl rfl⟩
  simp [step, hmem, Token.tag?_of_opens ho]

theorem step_of_closing (hc : entry.1.closes = true) {i : Nat}
    (h : (i, entry.2) ∈ partners tokens) :
    p.step configuration (pairedTags tokens) entry = p.closeSpan := by
  have hmem : entry.2 ∈ pairedTags tokens := mem_pairedTags.2 ⟨_, h, .inr rfl⟩
  simp [step, hmem, Token.closes_iff.1 hc]

/-- A span inside a dropped one is dropped, its guard unseen. -/
theorem openSpan_of_dropped {guard : String} (h : p.dropped ≠ 0) :
    p.openSpan configuration guard
      = .ok { p with spans := false :: p.spans, dropped := p.dropped + 1 } := by
  simp only [openSpan, h, if_false]
  rfl

/-- Where nothing is dropped the guard decides. -/
theorem openSpan_of_live {guard : String} (h : p.dropped = 0) :
    p.openSpan configuration guard
      = (Guard.evaluate guard configuration).map fun keep =>
        { p with spans := keep :: p.spans, dropped := if keep then 0 else 1 } := by
  simp only [openSpan, h, if_true]
  cases Guard.evaluate guard configuration <;> rfl

/-- Over a tree inside a dropped span the pass changes nothing. Induction on the tree: a span adds
one to what is dropped (`openSpan_of_dropped`) and takes it off again at its closing tag. -/
theorem foldlM_step_of_dropped {f : Nesting} (htagged : f.IsTagged)
    (hmatches : f.Matches (partners tokens)) (hdropped : p.dropped ≠ 0) :
    f.flatten.foldlM (step configuration (pairedTags tokens)) p = .ok p := by
  induction f generalizing p with
  | done => rfl
  | single entry rest ih =>
    have hemit : p.emit entry.1 = p := by simp [emit, hdropped]
    rw [Nesting.flatten, List.foldlM_cons, step_of_single hmatches.1, hemit]
    exact ih htagged hmatches.2 hdropped
  | span opening body closing rest ihb ihr =>
    obtain ⟨ho, hc, htb, htr⟩ := htagged
    obtain ⟨hpair, hmb, hmr⟩ := hmatches
    let inside : Pass := { p with spans := false :: p.spans, dropped := p.dropped + 1 }
    have hbody := ihb htb hmb (p := inside) (Nat.succ_ne_zero _)
    rw [Nesting.flatten, List.foldlM_cons, step_of_opening ho hpair,
      openSpan_of_dropped hdropped]
    change List.foldlM (step configuration (pairedTags tokens)) inside
      (body.flatten ++ closing :: rest.flatten) = _
    rw [List.foldlM_append, hbody]
    change List.foldlM (step configuration (pairedTags tokens)) inside (closing :: rest.flatten) = _
    rw [List.foldlM_cons, step_of_closing hc hpair]
    exact ihr htr hmr hdropped

/-- The pass with more tokens kept. -/
def keep (p : Pass) (ts : List Token) : Pass :=
  { p with kept := (ts.map Token.text).reverse ++ p.kept }

/-- Tokens are kept one list after the other, so that `Pass.keep` may be told for parts of a
tree. -/
theorem keep_keep (p : Pass) (ts us : List Token) : (p.keep ts).keep us = p.keep (ts ++ us) := by
  simp [keep]

/-- **Over a tree inside no dropped span the pass keeps what the tree comes to.** Induction on the
tree: the guard of a span is evaluated where its opening tag stands (`openSpan_of_live`); if it is
true the body is in no dropped span either, and if not `foldlM_step_of_dropped` passes over it. -/
theorem foldlM_step_flatten {f : Nesting} (htagged : f.IsTagged)
    (hmatches : f.Matches (partners tokens)) (hlive : p.dropped = 0) :
    f.flatten.foldlM (step configuration (pairedTags tokens)) p
      = (f.kept configuration).map p.keep := by
  induction f generalizing p with
  | done => rfl
  | single entry rest ih =>
    have hemit : p.emit entry.1 = p.keep [entry.1] := by simp [emit, keep, hlive]
    rw [Nesting.flatten, List.foldlM_cons, step_of_single hmatches.1, hemit]
    change List.foldlM (step configuration (pairedTags tokens)) (p.keep [entry.1]) rest.flatten = _
    rw [ih htagged hmatches.2 (p := p.keep [entry.1]) hlive, Nesting.kept]
    cases rest.kept configuration with
    | error fault => rfl
    | ok ts => exact congrArg Except.ok (keep_keep p [entry.1] ts)
  | span opening body closing rest ihb ihr =>
    obtain ⟨ho, hc, htb, htr⟩ := htagged
    obtain ⟨hpair, hmb, hmr⟩ := hmatches
    rw [Nesting.flatten, List.foldlM_cons, step_of_opening ho hpair, openSpan_of_live hlive,
      Nesting.kept]
    cases Guard.evaluate opening.1.guard configuration with
    | error fault => rfl
    | ok truth =>
      let inside : Pass :=
        { p with spans := truth :: p.spans, dropped := if truth then 0 else 1 }
      change List.foldlM (step configuration (pairedTags tokens)) inside
        (body.flatten ++ closing :: rest.flatten) = _
      rw [List.foldlM_append]
      cases truth with
      | false =>
        -- The body leaves the state as it is, and closing the span takes off what opening it has
        -- added.
        rw [foldlM_step_of_dropped htb hmb (p := inside) Nat.one_ne_zero]
        change List.foldlM (step configuration (pairedTags tokens)) inside
          (closing :: rest.flatten) = _
        rw [List.foldlM_cons, step_of_closing hc hpair]
        have hclose : inside.closeSpan = .ok p := by
          simp [closeSpan, inside, ← hlive]
        rw [hclose]
        change List.foldlM (step configuration (pairedTags tokens)) p rest.flatten = _
        rw [ihr htr hmr hlive]
        cases rest.kept configuration <;> rfl
      | true =>
        -- The body is kept in the state inside, and closing the span leaves what was kept.
        rw [ihb htb hmb (p := inside) rfl]
        cases body.kept configuration with
        | error fault => rfl
        | ok ts =>
          change List.foldlM (step configuration (pairedTags tokens)) (inside.keep ts)
            (closing :: rest.flatten) = _
          rw [List.foldlM_cons, step_of_closing hc hpair]
          have hclose : (inside.keep ts).closeSpan = .ok (p.keep ts) := by
            simp [closeSpan, keep, inside, ← hlive]
          rw [hclose]
          change List.foldlM (step configuration (pairedTags tokens)) (p.keep ts) rest.flatten = _
          rw [ihr htr hmr (p := p.keep ts) hlive]
          cases rest.kept configuration with
          | error fault => rfl
          | ok us => exact congrArg Except.ok (keep_keep p ts us)

end Pass

/-- **The pass agrees with the recursion on tokens.** The tokens are those of the tree `nestingOf`,
over which the pass keeps what `Nesting.kept` tells (`foldlM_step_flatten`). -/
theorem resolveSpans_eq (tokens : List Token) (configuration : Value) :
    resolveSpans tokens configuration = (keptTokens tokens configuration).map textOf := by
  have hpass : (nestingOf tokens).flatten.foldlM
      (Pass.step configuration (pairedTags tokens)) ⟨[], 0, []⟩
        = ((nestingOf tokens).kept configuration).map (Pass.keep ⟨[], 0, []⟩) :=
    Pass.foldlM_step_flatten (isTagged_nestingOf tokens) (matches_nestingOf tokens) rfl
  rw [flatten_nestingOf, kept_nestingOf] at hpass
  rw [resolveSpans, hpass]
  cases keptTokens tokens configuration with
  | error fault => rfl
  | ok ts => simp [Except.map, Pass.keep, textOf, bind, Except.bind, pure, Except.pure]

end Templating.Template
