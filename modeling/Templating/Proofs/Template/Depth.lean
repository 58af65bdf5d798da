import Mathlib.Order.Bounds.Defs
import Templating.Proofs.Template.WrappingLaw

/-!
# How deep spans nest

The depth of a template is counted in one walk over its tokens, which goes up at every opening tag
and down at every closing one, but not below zero. Here it is told without a count: at every place
the walk is as deep as there are opening tags before it without a partner, so the depth of the
template is the greatest number of opening tags that are left without a partner in a first part of
it. A span around a template whose tags are paired makes it deeper by one.

## Main definitions

* `leftOpen`: how many opening tags of a token list have no partner in it.
* `Depth.raised`: the depth inside one more span.

## Main results

* `leftOpen_take`: the opening tags left without a partner are those that wait on the stack.
* `isGreatest_deepest`: the greatest depth of a walk.
* `isGreatest_nestingDepth`: the depth of a template.
* `nestingDepth_guardTag`: the depth of a wrapped template.
-/

namespace Templating.Template

/-! ### Opening tags without a partner -/

/-- How many opening tags of a token list have no partner in it: those whose place is not among
`pairedTags`. -/
def leftOpen (tokens : List Token) : Nat :=
  (tokens.zipIdx.filter fun entry => entry.1.opens && !(pairedTags tokens).contains entry.2).length

variable {tokens : List Token} {n : Nat}

/-- An opening tag is among `pairedTags` if it is the first of some pair of `partners`. -/
theorem contains_pairedTags_of_opensAt {i : Nat} (h : opensAt tokens i = true) :
    (pairedTags tokens).contains i = (partners tokens).any fun pair => pair.1 == i := by
  rw [Bool.eq_iff_iff, List.contains_iff_mem, mem_pairedTags, List.any_eq_true]
  refine exists_congr fun pair => and_congr_right fun hpair => ?_
  rw [beq_iff_eq, eq_comm, or_iff_left_iff_imp]
  -- An opening tag is not the second one of a pair.
  rintro rfl
  obtain ⟨-, hlt, -, hcloses⟩ := lt_of_mem_partnersUpTo hpair
  have ht : tokens[pair.2]? = some tokens[pair.2] := List.getElem?_eq_getElem hlt
  rw [opensAt_eq ht] at h
  rw [closesAt_eq ht, Token.closes_eq_false_of_opens h] at hcloses
  cases hcloses

/-- The opening tags without a partner are those that wait when the search is over
(`waitingAfter`). -/
theorem leftOpen_eq (tokens : List Token) :
    leftOpen tokens = (waitingAfter tokens tokens.length).length := by
  have hfilter : (tokens.zipIdx.filter fun entry =>
        entry.1.opens && !(pairedTags tokens).contains entry.2)
      = tokens.zipIdx.filter fun entry =>
        opensAt tokens entry.2 && !(partners tokens).any fun pair => pair.1 == entry.2 := by
    refine List.filter_congr fun entry hentry => ?_
    have ht := List.mk_mem_zipIdx_iff_getElem?.1 hentry
    rw [← opensAt_eq ht]
    cases hopens : opensAt tokens entry.2 with
    | false => rfl
    | true => rw [contains_pairedTags_of_opensAt hopens]
  rw [leftOpen, hfilter, waitingAfter, List.length_reverse, unpairedBefore, List.range_eq_range',
    ← List.zipIdx_map_snd, List.filter_map, List.length_map]
  rfl

/-- The search over the first tokens of a list does not look at the others (`run_take`). -/
theorem waitingAfter_take (hn : n ≤ tokens.length) :
    waitingAfter (tokens.take n) n = waitingAfter tokens n := by
  have hlength : n ≤ (tokens.take n).length := by rw [List.length_take, Nat.min_eq_left hn]
  have hplaced : (tokens.take n).zipIdx.take n = tokens.zipIdx.take n := by
    refine List.ext_getElem? fun i => ?_
    by_cases hi : i < n <;> simp [hi]
  have hrun := run_take (tokens.take n) hlength
  rw [hplaced, run_take tokens hn] at hrun
  exact (congrArg Pairing.waiting hrun).symm

/-- The tags left open by the first tokens are those that wait there. -/
theorem leftOpen_take (hn : n ≤ tokens.length) :
    leftOpen (tokens.take n) = (waitingAfter tokens n).length := by
  rw [leftOpen_eq, List.length_take, Nat.min_eq_left hn, waitingAfter_take hn]

/-! ### The walk -/

namespace Depth

/-- A step of `Depth.step` goes no deeper than the greatest depth after it, and that is the greater
one of the depth before and the level it goes to. -/
theorem step_bounds {d : Depth} (h : d.current ≤ d.deepest) (t : Token) :
    (d.step t).current ≤ (d.step t).deepest
      ∧ (d.step t).deepest = max d.deepest (d.step t).current := by
  rw [step]
  split
  · exact ⟨le_max_right _ _, rfl⟩
  · dsimp only
    omega
  · exact ⟨h, (max_eq_left h).symm⟩

/-- The walk of `Depth.step` over the first tokens of a list. -/
def after (tokens : List Token) (n : Nat) : Depth :=
  (tokens.take n).foldl step ⟨0, 0⟩

theorem after_succ {t : Token} (ht : tokens[n]? = some t) :
    after tokens (n + 1) = (after tokens n).step t := by
  rw [after, List.take_add_one, ht, Option.toList_some, List.foldl_append]
  rfl

/-- An opening tag goes one level deeper, which may be the deepest so far. -/
theorem step_of_opens {d : Depth} {t : Token} (h : t.opens = true) :
    d.step t = ⟨d.current + 1, max d.deepest (d.current + 1)⟩ := by
  rw [step, Token.tag?_of_opens h]

/-- A closing tag goes back one level, but not above the outermost. -/
theorem step_of_closes {d : Depth} {t : Token} (h : t.closes = true) :
    d.step t = { d with current := d.current - 1 } := by
  rw [step, Token.closes_iff.1 h]

/-- A token that is no tag of a span stays on its level. -/
theorem step_of_other {d : Depth} {t : Token} (ho : t.opens = false) (hc : t.closes = false) :
    d.step t = d := by
  rw [step]
  split
  · next guard htag => exact absurd (Token.opens_iff.2 ⟨guard, htag⟩) (by simp [ho])
  · next htag => exact absurd (Token.closes_iff.2 htag) (by simp [hc])
  · rfl

/-- **At every place the walk is as deep as there are opening tags before it without a partner.**
Induction along the tokens: `growth` says how the search for partners goes on at an opening tag, at
a closing tag and at any other token, and `Depth.step` does the same to the level. -/
theorem current_after (hn : n ≤ tokens.length) :
    (after tokens n).current = (waitingAfter tokens n).length := by
  induction n with
  | zero => rfl
  | succ n ih =>
    have ht : tokens[n]? = some tokens[n] := List.getElem?_eq_getElem hn
    have hbefore := ih (by omega)
    rw [after_succ ht]
    cases growth ht with
    | opening ho _ hwaiting => rw [step_of_opens ho, hwaiting, List.length_cons, hbefore]
    | closing i hc _ hwaiting =>
      rw [hwaiting, List.length_cons] at hbefore
      rw [step_of_closes hc]
      exact congrArg (· - 1) hbefore
    | stray hc hnone _ hwaiting =>
      rw [hnone] at hbefore hwaiting
      rw [step_of_closes hc, hwaiting]
      exact congrArg (· - 1) hbefore
    | other ho hc _ hwaiting => rw [step_of_other ho hc, hwaiting, hbefore]

/-- The current level is never deeper than the deepest one. -/
theorem current_le_deepest_after (hn : n ≤ tokens.length) :
    (after tokens n).current ≤ (after tokens n).deepest := by
  induction n with
  | zero => exact Nat.zero_le _
  | succ n ih =>
    rw [after_succ (List.getElem?_eq_getElem hn)]
    exact (step_bounds (ih (by omega)) _).1

/-- The greatest depth of a walk is that of the place with most opening tags without a partner, by
`current_after` and `step_bounds`. -/
theorem isGreatest_deepest (hn : n ≤ tokens.length) :
    IsGreatest { d | ∃ m ≤ n, (waitingAfter tokens m).length = d } (after tokens n).deepest := by
  induction n with
  | zero =>
    refine ⟨⟨0, le_rfl, rfl⟩, ?_⟩
    rintro d ⟨m, hm, rfl⟩
    obtain rfl : m = 0 := by omega
    exact le_rfl
  | succ n ih =>
    obtain ⟨⟨m, hm, hmem⟩, hbound⟩ := ih (by omega)
    have hdeepest := (step_bounds (current_le_deepest_after (Nat.le_of_succ_le hn)) tokens[n]).2
    rw [← after_succ (List.getElem?_eq_getElem hn), current_after hn] at hdeepest
    rw [hdeepest]
    constructor
    · rcases max_choice (after tokens n).deepest (waitingAfter tokens (n + 1)).length with h | h
      · exact ⟨m, by omega, by rw [h, hmem]⟩
      · exact ⟨n + 1, le_rfl, h.symm⟩
    · rintro d ⟨k, hk, rfl⟩
      rcases Nat.of_le_succ hk with hk | rfl
      · exact (hbound ⟨k, hk, rfl⟩).trans (le_max_left _ _)
      · exact le_max_right _ _

end Depth

/-- The nesting depth is the deepest level after all tokens. -/
theorem nestingDepth_eq (template : String) : nestingDepth template
    = (Depth.after (tokenize template) (tokenize template).length).deepest := by
  rw [Depth.after, List.take_length]
  rfl

/-- **The depth of a template is the greatest number of opening tags that are left without a
partner** in a first part of its tokens. A first part of the tokens is what the walk has seen at
some place, and its `leftOpen` is the level there. -/
theorem isGreatest_nestingDepth (template : String) :
    IsGreatest { d | ∃ front, front <+: tokenize template ∧ leftOpen front = d }
      (nestingDepth template) := by
  obtain ⟨⟨m, hm, hmem⟩, hbound⟩ := Depth.isGreatest_deepest (le_refl (tokenize template).length)
  rw [nestingDepth_eq]
  constructor
  · exact ⟨_, List.take_prefix m _, by rw [leftOpen_take hm, hmem]⟩
  · rintro d ⟨front, hfront, rfl⟩
    have hlength := hfront.length_le
    rw [List.prefix_iff_eq_take.1 hfront, leftOpen_take hlength]
    exact hbound ⟨_, hlength, rfl⟩

/-! ### Inside one more span -/

namespace Depth

/-- The depth inside one more span: both levels are one deeper. -/
def raised (d : Depth) : Depth :=
  ⟨d.current + 1, d.deepest + 1⟩

/-- Inside one more span a token does the same, unless it is a closing tag on its own. Such a tag
would close the span around it. -/
theorem step_raised {d : Depth} {t : Token} (hstray : t.closes = true → d.current ≠ 0) (k : Nat) :
    d.raised.step (t.moved k) = (d.step t).raised := by
  have hopens : (t.moved k).opens = t.opens := rfl
  have hcloses : (t.moved k).closes = t.closes := rfl
  cases ho : t.opens with
  | true =>
    rw [step_of_opens ho, step_of_opens (hopens.trans ho), raised, raised]
    simp
  | false =>
    cases hc : t.closes with
    | true =>
      have hpos := hstray hc
      rw [step_of_closes hc, step_of_closes (hcloses.trans hc), raised, raised]
      simp only [mk.injEq, and_true]
      omega
    | false =>
      rw [step_of_other ho hc, step_of_other (hopens.trans ho) (hcloses.trans hc)]

/-- A walk over a token list whose tags are paired does the same inside one more span. No closing
tag stands on its own there (`TagsPaired.waitingAfter_ne_nil`), so `step_raised` applies at every
token. -/
theorem after_raised (htags : TagsPaired tokens) (hn : n ≤ tokens.length) (k : Nat) :
    ((tokens.take n).map (Token.moved k)).foldl step ⟨1, 1⟩ = (after tokens n).raised := by
  induction n with
  | zero => rfl
  | succ n ih =>
    have ht : tokens[n]? = some tokens[n] := List.getElem?_eq_getElem hn
    have hstray : tokens[n].closes = true → (after tokens n).current ≠ 0 := by
      intro hc
      rw [current_after (Nat.le_of_succ_le hn), List.length_eq_zero_iff.ne]
      exact htags.waitingAfter_ne_nil ht hc
    rw [List.take_add_one, ht, Option.toList_some, List.map_append, List.foldl_append,
      ih (by omega), after_succ ht]
    exact step_raised hstray k

end Depth

/-- **A span around a text whose tags are paired makes it deeper by one.** The tokens are those of
`tokenize_wrapped`; the opening tag begins at the first level, and `after_raised` walks from
there. -/
theorem nestingDepth_guardTag {guard cs : List Char} (hguard : (guardTag guard).Fits)
    (hopens : Token.opens ⟨guardTag guard, 0⟩ = true)
    (htags : TagsPaired (tokenize (String.ofList cs))) :
    nestingDepth (String.ofList ((guardTag guard).source ++ (cs ++ closingTag.source)))
      = 1 + nestingDepth (String.ofList cs) := by
  have hinside := Depth.after_raised htags le_rfl (guardTag guard).source.length
  rw [List.take_length] at hinside
  have hclosing (start : Nat) : Token.closes ⟨closingTag, start⟩ = true := rfl
  have hfirst : Depth.step ⟨0, 0⟩ ⟨guardTag guard, 0⟩ = ⟨1, 1⟩ := Depth.step_of_opens hopens
  rw [nestingDepth, tokenize_wrapped hguard, List.foldl_cons, List.foldl_append, hfirst, hinside,
    List.foldl_cons, List.foldl_nil, Depth.step_of_closes (hclosing _), nestingDepth_eq, add_comm]
  rfl

end Templating.Template
