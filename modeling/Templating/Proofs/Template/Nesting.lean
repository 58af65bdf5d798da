import Templating.Proofs.Template.Pairing

/-!
# The nesting of spans

The tokens of a template, with the partners among the tags, form a tree: a token that belongs to
no pair stands alone, and a pair of tags encloses what stands between them. The tree is built in
one walk over the tokens, which keeps the opening tags that wait for a partner, each with what
stands before it at its own level. An opening tag that is still waiting at the end stands alone.

## Main definitions

* `Nesting`: the trees.
* `Nesting.flatten`, `Nesting.pairs`: the tokens of a tree in order, and its pairs of places.
* `OpenNesting`: a tree some spans of which are still open.
* `nestingOf`: the tree of a token list.

## Main results

* `flatten_nestingOf`, `mem_pairs_nestingOf`, `isTagged_nestingOf`: the tree holds the tokens in
  their order, its pairs are the partners, and pairs are made of an opening and a closing tag.
-/

namespace Templating.Template

/-- The nesting of the spans of a token list: what stands first, a token alone or a pair of tags
with what they enclose, and the rest. -/
inductive Nesting where
  | done
  | single (entry : Token × Nat) (rest : Nesting)
  | span (opening : Token × Nat) (body : Nesting) (closing : Token × Nat) (rest : Nesting)

namespace Nesting

/-- The placed tokens in order, which are those of the list that the tree was built from
(`flatten_nestingOf`). -/
def flatten : Nesting → List (Token × Nat)
  | done => []
  | single entry rest => entry :: rest.flatten
  | span opening body closing rest => opening :: (body.flatten ++ closing :: rest.flatten)

/-- The places of the tags of each span, the opening one first. They are the `partners` of the list
(`mem_pairs_nestingOf`). -/
def pairs : Nesting → List (Nat × Nat)
  | done => []
  | single _ rest => rest.pairs
  | span opening body closing rest => (opening.2, closing.2) :: (body.pairs ++ rest.pairs)

/-- Every span begins with an opening and ends with a closing tag. -/
def IsTagged : Nesting → Prop
  | done => True
  | single _ rest => rest.IsTagged
  | span opening body closing rest =>
    opening.1.opens = true ∧ closing.1.closes = true ∧ body.IsTagged ∧ rest.IsTagged

/-- One nesting after the other. -/
def append : Nesting → Nesting → Nesting
  | done, g => g
  | single entry rest, g => single entry (rest.append g)
  | span opening body closing rest, g => span opening body closing (rest.append g)

/-- The tokens of two nestings, one after the other. -/
@[simp] theorem flatten_append (f g : Nesting) :
    (f.append g).flatten = f.flatten ++ g.flatten := by
  induction f with
  | done => rfl
  | single entry rest ih => simp [append, flatten, ih]
  | span opening body closing rest _ ih => simp [append, flatten, ih]

@[simp] theorem pairs_append (f g : Nesting) : (f.append g).pairs = f.pairs ++ g.pairs := by
  induction f with
  | done => rfl
  | single entry rest ih => simp [append, pairs, ih]
  | span opening body closing rest _ ih => simp [append, pairs, ih]

/-- Two nestings have the right tags, one after the other, if each of them has. -/
@[simp] theorem isTagged_append (f g : Nesting) :
    (f.append g).IsTagged ↔ f.IsTagged ∧ g.IsTagged := by
  induction f with
  | done => simp [append, IsTagged]
  | single entry rest ih => simp [append, IsTagged, ih]
  | span opening body closing rest _ ih => simp [append, IsTagged, ih, and_assoc]

/-- Putting nestings one after the other is associative. Induction on the first one. -/
theorem append_assoc (f g h : Nesting) : (f.append g).append h = f.append (g.append h) := by
  induction f with
  | done => rfl
  | single entry rest ih => simp [append, ih]
  | span opening body closing rest _ ih => simp [append, ih]

end Nesting

/-! ### Building the tree -/

/-- A nesting in which some spans are still open: for each, what stands before it at its own level
and its opening tag, the innermost first; and what stands in the innermost so far. It is what
`OpenNesting.step` goes along a token list with. -/
structure OpenNesting where
  frames : List (Nesting × (Token × Nat))
  inner : Nesting

namespace OpenNesting

/-- What the next token does to an open nesting: an opening tag opens a span, a closing one closes
the innermost span if there is any, and everything else stands alone. -/
def step (s : OpenNesting) (entry : Token × Nat) : OpenNesting :=
  if entry.1.opens then ⟨(s.inner, entry) :: s.frames, .done⟩
  else if entry.1.closes then
    match s.frames with
    | [] => { s with inner := s.inner.append (.single entry .done) }
    | (outer, opening) :: frames =>
      ⟨frames, outer.append (.span opening s.inner entry .done)⟩
  else { s with inner := s.inner.append (.single entry .done) }

/-- The nesting in which opening tags that still wait stand alone, each with what stands behind it
at the level of what stands before it. -/
def closeOver : List (Nesting × (Token × Nat)) → Nesting → Nesting
  | [], inner => inner
  | (outer, opening) :: frames, inner => closeOver frames (outer.append (.single opening inner))

/-- The nesting in which no span is open any more. -/
def closed (s : OpenNesting) : Nesting :=
  closeOver s.frames s.inner

/-- What is added to the innermost span is added at the end, because everything that is still open
is closed over it. -/
theorem closeOver_append (frames : List (Nesting × (Token × Nat))) (inner g : Nesting) :
    closeOver frames (inner.append g) = (closeOver frames inner).append g := by
  induction frames generalizing inner with
  | nil => rfl
  | cons frame frames ih =>
    obtain ⟨outer, opening⟩ := frame
    rw [closeOver, closeOver, ← ih, Nesting.append_assoc]
    rfl

/-- The pairs after closing are those in the frames and those in the innermost span. -/
theorem mem_pairs_closeOver {frames : List (Nesting × (Token × Nat))} {inner : Nesting}
    {pair : Nat × Nat} :
    pair ∈ (closeOver frames inner).pairs
      ↔ (∃ frame ∈ frames, pair ∈ frame.1.pairs) ∨ pair ∈ inner.pairs := by
  induction frames generalizing inner with
  | nil => simp [closeOver]
  | cons frame frames ih =>
    obtain ⟨outer, opening⟩ := frame
    rw [closeOver, ih]
    simp only [Nesting.pairs_append, Nesting.pairs, List.mem_append, List.exists_mem_cons_iff]
    rw [or_left_comm, or_assoc]

/-- Closing keeps the right tags, since the opening tags that still wait stand alone. Induction
along the frames, as for `mem_pairs_closeOver`. -/
theorem isTagged_closeOver {frames : List (Nesting × (Token × Nat))} {inner : Nesting} :
    (closeOver frames inner).IsTagged
      ↔ (∀ frame ∈ frames, frame.1.IsTagged) ∧ inner.IsTagged := by
  induction frames generalizing inner with
  | nil => simp [closeOver]
  | cons frame frames ih =>
    obtain ⟨outer, opening⟩ := frame
    rw [closeOver, ih]
    simp only [Nesting.isTagged_append, Nesting.IsTagged, List.forall_mem_cons]
    rw [and_left_comm, and_assoc]

/-- A token is added at the end of the nesting, whichever branch of `step` it takes, by
`closeOver_append`. -/
theorem flatten_closed_step (s : OpenNesting) (entry : Token × Nat) :
    (s.step entry).closed.flatten = s.closed.flatten ++ [entry] := by
  have hadd : (closeOver s.frames (s.inner.append (.single entry .done))).flatten
      = s.closed.flatten ++ [entry] := by
    rw [closeOver_append, Nesting.flatten_append]
    rfl
  rw [step]
  split
  · rw [closed, closeOver, ← hadd]
  · split
    · split
      · exact hadd
      · rename_i outer opening frames hframes
        rw [closed, closed, hframes, closeOver, closeOver_append, closeOver_append]
        simp [Nesting.flatten]
    · exact hadd

/-- What links an open nesting to the search for partners: the opening tags of its open spans are
those that wait (`waitingAfter`), its pairs are the pairs found (`partnersUpTo`), and its spans are
made of the right tags. -/
structure Follows (s : OpenNesting) (waiting : List Nat) (found : List (Nat × Nat)) : Prop where
  frames_eq : s.frames.map (fun frame => frame.2.2) = waiting
  opens : ∀ frame ∈ s.frames, frame.2.1.opens = true
  pairs_iff : ∀ pair, pair ∈ s.closed.pairs ↔ pair ∈ found
  tagged : s.closed.IsTagged

variable {s : OpenNesting} {entry : Token × Nat} {waiting : List Nat} {found : List (Nat × Nat)}

/-- An opening tag waits from now on, in a new frame; no pair is found. The first of the four steps
that `follows_run_take` puts together. -/
theorem Follows.step_of_opens (h : s.Follows waiting found) (ho : entry.1.opens = true) :
    (s.step entry).Follows (entry.2 :: waiting) found := by
  have hstep : s.step entry = ⟨(s.inner, entry) :: s.frames, .done⟩ := by simp [step, ho]
  rw [hstep]
  refine ⟨by simp [h.frames_eq], by simpa [ho] using h.opens, fun pair => ?_, ?_⟩
  · rw [← h.pairs_iff, closed, mem_pairs_closeOver, closed, mem_pairs_closeOver]
    simp only [List.exists_mem_cons_iff, Nesting.pairs, List.not_mem_nil, or_false]
    exact or_comm
  · have htagged := isTagged_closeOver.1 h.tagged
    exact isTagged_closeOver.2 ⟨List.forall_mem_cons.2 ⟨htagged.2, htagged.1⟩, trivial⟩

/-- A closing tag makes a pair with the opening tag that waits last, and its frame is closed. -/
theorem Follows.step_of_closes {i : Nat} (h : s.Follows (i :: waiting) found)
    (hc : entry.1.closes = true) : (s.step entry).Follows waiting ((i, entry.2) :: found) := by
  have ho := Token.opens_eq_false_of_closes hc
  obtain ⟨frames, inner⟩ := s
  match frames, h with
  | [], h => exact absurd h.frames_eq (by simp)
  | (outer, opening) :: frames, h =>
    obtain ⟨rfl, hframes⟩ : opening.2 = i ∧ frames.map (fun frame => frame.2.2) = waiting := by
      simpa using h.frames_eq
    have hstep : step ⟨(outer, opening) :: frames, inner⟩ entry
        = ⟨frames, outer.append (.span opening inner entry .done)⟩ := by
      simp [step, ho, hc]
    rw [hstep]
    refine ⟨hframes, fun frame hframe => h.opens frame (List.mem_cons_of_mem _ hframe),
      fun pair => ?_, ?_⟩
    · rw [List.mem_cons, ← h.pairs_iff, closed, mem_pairs_closeOver, closed, mem_pairs_closeOver,
        List.exists_mem_cons_iff]
      simp only [Nesting.pairs_append, Nesting.pairs, List.mem_append, List.mem_cons,
        List.append_nil]
      rw [or_left_comm, or_left_comm (b := pair = (opening.2, entry.2)), or_assoc, or_left_comm]
    · have htagged := isTagged_closeOver.1 h.tagged
      have hopening := h.opens (outer, opening) List.mem_cons_self
      refine isTagged_closeOver.2 ⟨fun frame hframe => ?_, ?_⟩
      · exact htagged.1 frame (List.mem_cons_of_mem _ hframe)
      · have houter := htagged.1 (outer, opening) List.mem_cons_self
        simp only [Nesting.isTagged_append, Nesting.IsTagged, and_true]
        exact ⟨houter, hopening, hc, htagged.2⟩

/-- A token that stands alone adds no pair. -/
theorem Follows.add_single (h : s.Follows waiting found) :
    Follows { s with inner := s.inner.append (.single entry .done) } waiting found := by
  refine ⟨h.frames_eq, h.opens, fun pair => ?_, ?_⟩
  · rw [← h.pairs_iff, closed, mem_pairs_closeOver, closed, mem_pairs_closeOver]
    simp [Nesting.pairs]
  · have htagged := isTagged_closeOver.1 h.tagged
    exact isTagged_closeOver.2 ⟨htagged.1, by simpa [Nesting.IsTagged] using htagged.2⟩

/-- A closing tag for which no opening tag waits stands alone. -/
theorem Follows.step_of_stray (h : s.Follows [] found) (ho : entry.1.opens = false) :
    (s.step entry).Follows [] found := by
  have hframes : s.frames = [] := by simpa using h.frames_eq
  have hstep : s.step entry = { s with inner := s.inner.append (.single entry .done) } := by
    rw [step]
    rw [ho, hframes]
    simp
  rw [hstep]
  exact h.add_single

/-- A token that is no tag of a span stands alone. -/
theorem Follows.step_of_other (h : s.Follows waiting found) (ho : entry.1.opens = false)
    (hc : entry.1.closes = false) : (s.step entry).Follows waiting found := by
  have hstep : s.step entry = { s with inner := s.inner.append (.single entry .done) } := by
    simp [step, ho, hc]
  rw [hstep]
  exact h.add_single

/-- The open nesting of a list of placed tokens, by `OpenNesting.step` from the first to the
last. -/
def run (entries : List (Token × Nat)) : OpenNesting :=
  entries.foldl step ⟨[], .done⟩

@[simp] theorem run_append_singleton (entries : List (Token × Nat)) (entry : Token × Nat) :
    run (entries ++ [entry]) = (run entries).step entry := by
  simp [run]

/-- The tree of a token list holds the tokens in their order. Induction from the end. -/
theorem flatten_closed_run (entries : List (Token × Nat)) :
    (run entries).closed.flatten = entries := by
  induction entries using List.reverseRecOn with
  | nil => rfl
  | append_singleton entries entry ih => rw [run_append_singleton, flatten_closed_step, ih]

/-- **After any number of tokens the walk agrees with the search for partners.** Induction on that
number; `growth` says what the search does with the next token, and one of the four step lemmas of
`Follows` that the walk does the same. -/
theorem follows_run_take (tokens : List Token) {n : Nat} (hn : n ≤ tokens.length) :
    (run (tokens.zipIdx.take n)).Follows (waitingAfter tokens n) (partnersUpTo tokens n) := by
  induction n with
  | zero =>
    refine ⟨rfl, by simp [run], fun pair => ?_, trivial⟩
    simp [run, closed, closeOver, Nesting.pairs, partnersUpTo]
  | succ n ih =>
    have ht : tokens[n]? = some tokens[n] := List.getElem?_eq_getElem hn
    have h := ih (by omega)
    rw [take_zipIdx_succ ht, run_append_singleton]
    cases growth ht with
    | opening ho hpairs hwaiting =>
      rw [hpairs, hwaiting]
      exact h.step_of_opens ho
    | closing i hc hpairs hwaiting =>
      rw [hwaiting] at h
      rw [hpairs]
      exact h.step_of_closes hc
    | stray hc hnone hpairs hwaiting =>
      rw [hnone] at h
      rw [hpairs, hwaiting, hnone]
      exact h.step_of_stray (Token.opens_eq_false_of_closes hc)
    | other ho hc hpairs hwaiting =>
      rw [hpairs, hwaiting]
      exact h.step_of_other ho hc

end OpenNesting

/-- The nesting of the spans of a token list. -/
def nestingOf (tokens : List Token) : Nesting :=
  (OpenNesting.run tokens.zipIdx).closed

/-- **The tree holds the placed tokens in their order**, by `flatten_closed_run`. -/
theorem flatten_nestingOf (tokens : List Token) : (nestingOf tokens).flatten = tokens.zipIdx :=
  OpenNesting.flatten_closed_run _

/-- At the end of the list the walk agrees with `partners`: `follows_run_take` for all tokens. -/
theorem follows_nestingOf (tokens : List Token) :
    (OpenNesting.run tokens.zipIdx).Follows (waitingAfter tokens tokens.length)
      (partners tokens) := by
  have h := OpenNesting.follows_run_take tokens le_rfl
  rwa [List.take_of_length_le (by simp)] at h

/-- **The pairs of the tree are the partners.** -/
theorem mem_pairs_nestingOf {tokens : List Token} {pair : Nat × Nat} :
    pair ∈ (nestingOf tokens).pairs ↔ pair ∈ partners tokens :=
  (follows_nestingOf tokens).pairs_iff pair

/-- Every span of the tree begins with an opening and ends with a closing tag, which `Follows`
carries along. -/
theorem isTagged_nestingOf (tokens : List Token) : (nestingOf tokens).IsTagged :=
  (follows_nestingOf tokens).tagged

end Templating.Template
