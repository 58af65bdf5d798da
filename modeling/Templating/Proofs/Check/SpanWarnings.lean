import Templating.Proofs.Check.Body
import Templating.Proofs.Number.Digits
import Templating.Proofs.Template.Depth
import Templating.Proofs.Value.JsonText

/-!
# Warnings about spans

The check of a body warns about spans that nest too deeply and about spans without content. It
finds both in its one walk over the tokens, with a count of its own for the depth and one flag for
all spans: whether only blank text was met since an opening tag. Here the count is shown to be the
depth of the template, and the flag to tell at every place whether nothing but blank text stands
behind the innermost open span. So a closing tag finds the flag set exactly if it is the partner of
that opening tag and the span between them is empty; where no span is open the flag is not set.

## Main definitions

* `blankBetween`: whether the tokens between two places are blank text.
* `emptyPairs`: the pairs of tags with nothing but blank text between them.
* `BodyScan.SpanEffect`, `BodyScan.Watches`: what one token does to the count and the flag, and what
  they tell about the tokens met so far.

## Main results

* `BodyScan.spanEffect_of_step`, `BodyScan.watches_of_foldlM`: one step, and a whole walk.
* `count_deepNestingWarning`, `count_emptySpansWarning`: each warning is given once or not at all.
* `nestingDepth_warned`: when the check warns about deep nesting.
* `emptySpans_warned`: when the check warns about empty spans.
-/

namespace Templating

open Templating.Template Templating.Text

/-! ### Spans without content -/

namespace Template

/-- Whether the token is blank text. A placeholder or a tag never is, however little there is in
it. -/
def Token.isBlankRun (t : Token) : Bool :=
  match t.shape with
  | .text run => run.all isBlank
  | _ => false

/-- Whether the tokens between two places, if there are any, are blank text. The places themselves
are left out, so the partners of an empty span satisfy it. -/
def blankBetween (tokens : List Token) (i j : Nat) : Bool :=
  ((tokens.take j).drop (i + 1)).all Token.isBlankRun

/-- The pairs of tags with nothing but blank text between them, among all `partners` of the
template. -/
def emptyPairs (tokens : List Token) : List (Nat × Nat) :=
  (partners tokens).filter fun pair => blankBetween tokens pair.1 pair.2

variable {tokens : List Token} {n i : Nat} {t : Token}

/-- Nothing stands between a place and the next one, so nothing but blank text does. -/
theorem blankBetween_self (tokens : List Token) (n : Nat) :
    blankBetween tokens n (n + 1) = true := by
  rw [blankBetween, List.drop_eq_nil_of_le (by rw [List.length_take]; omega), List.all_nil]

/-- One more token between two places: it is blank text as well, or the tokens no longer are. -/
theorem blankBetween_succ (ht : tokens[n]? = some t) (hi : i < n) :
    blankBetween tokens i (n + 1) = (blankBetween tokens i n && t.isBlankRun) := by
  have hn : n ≤ tokens.length := Nat.le_of_lt (List.getElem?_eq_some_iff.1 ht).1
  have hdrop : i + 1 ≤ (tokens.take n).length := by
    rw [List.length_take]
    omega
  rw [blankBetween, List.take_add_one, ht, Option.toList_some, List.drop_append_of_le_length hdrop,
    List.all_append, blankBetween]
  simp

/-- A tag, whether it opens a span or closes one, is no blank text. -/
theorem Token.isBlankRun_eq_false (h : t.tag? ≠ none) : t.isBlankRun = false := by
  rw [isBlankRun]
  split
  · next run hshape => simp [Token.tag?, hshape] at h
  · rfl

/-- The innermost open span was opened among the first `n` tokens. -/
theorem lt_of_mem_head?_waitingAfter (h : (waitingAfter tokens n).head? = some i) : i < n :=
  (mem_waitingAfter.1 (List.mem_of_head? h)).1

end Template

namespace BodyScan

variable {s s' : BodyScan} {t : Token} {tokens : List Token} {n : Nat}

/-! ### One step -/

/-- What a token does to the depth and to the flag, and what it adds to the empty spans and to the
warnings about names. The flag is set by an opening tag, kept by blank text and cleared by
everything else; a closing tag that finds it set closes an empty span. -/
structure SpanEffect (s s' : BodyScan) (t : Token) : Prop where
  depth : Depth.mk s'.depth s'.deepest = (Depth.mk s.depth s.deepest).step t
  flag : s'.bodyEmpty = (t.opens || s.bodyEmpty && t.isBlankRun)
  spans : s'.emptySpans = s.emptySpans + if t.closes && s.bodyEmpty then 1 else 0
  warnings : ∀ w ∈ s'.warnings, w ∈ s.warnings ∨ w.toList.head? = some 'V'

/-- Literal text keeps the depth, and the flag if it is blank. -/
theorem spanEffect_meetText {run : List Char} (ht : t.shape = .text run) :
    SpanEffect s (s.meetText run) t := by
  have htag : t.tag? = none := by simp [Token.tag?, ht]
  constructor <;>
    simp +contextual [meetText, Depth.step, Token.opens, Token.closes, Token.isBlankRun, htag, ht]

/-- What the check says about a name begins in its own way, which no warning about spans does. -/
theorem head?_nameWarning (shown said : String) :
    ("Variable '" ++ shown ++ said).toList.head? = some 'V' := by
  rw [String.toList_append, String.toList_append, List.append_assoc]
  rfl

/-- A placeholder clears the flag, whatever is said about its name. -/
theorem spanEffect_meetPlaceholder {inner : List Char} (ht : t.shape = .placeholder inner) :
    SpanEffect s (s.meetPlaceholder (trim inner) t.start) t := by
  have htag : t.tag? = none := by simp [Token.tag?, ht]
  have hwarned (said : String) :
      ∀ w ∈ s.warnings ++ ["Variable '" ++ String.ofList (trim inner) ++ said],
        w ∈ s.warnings ∨ w.toList.head? = some 'V' := by
    intro w hw
    refine (List.mem_append.1 hw).imp_right fun hlast => ?_
    rw [List.mem_singleton.1 hlast]
    exact head?_nameWarning _ _
  have hsame : ∀ w ∈ s.warnings, w ∈ s.warnings ∨ w.toList.head? = some 'V' := fun _ => .inl
  have hdepth : (Depth.mk s.depth s.deepest).step t = ⟨s.depth, s.deepest⟩ := by
    simp [Depth.step, htag]
  have hflag : (t.opens || s.bodyEmpty && t.isBlankRun) = false := by
    simp [Token.opens, Token.isBlankRun, htag, ht]
  have hcloses : t.closes = false := by simp [Token.closes, htag]
  simp only [meetPlaceholder]
  split
  · exact ⟨hdepth.symm, hflag.symm, by simp [hcloses], hsame⟩
  · split
    · exact ⟨hdepth.symm, hflag.symm, by simp [hcloses], hsame⟩
    · split
      · exact ⟨hdepth.symm, hflag.symm, by simp [hcloses], hwarned _⟩
      · split
        · exact ⟨hdepth.symm, hflag.symm, by simp [hcloses], hwarned _⟩
        · exact ⟨hdepth.symm, hflag.symm, by simp [hcloses], hsame⟩

/-- An opening tag sets the flag and makes the depth greater by one, whether or not its guard can be
read. -/
theorem spanEffect_meetOpening {guard : String} (ht : t.tag? = some (.opening guard))
    (h : s.meetOpening guard = .ok s') : SpanEffect s s' t := by
  have ho : t.opens = true := Token.opens_iff.2 ⟨guard, ht⟩
  have hc := Token.closes_eq_false_of_opens ho
  have hdepth : (Depth.mk s.depth s.deepest).step t
      = ⟨s.depth + 1, max s.deepest (s.depth + 1)⟩ := Depth.step_of_opens ho
  rw [meetOpening] at h
  split at h
  · cases h
    exact ⟨hdepth.symm, by simp [ho], by simp [hc], fun _ => .inl⟩
  · cases h
    exact ⟨hdepth.symm, by simp [ho], by simp [hc], fun _ => .inl⟩
  · cases h

/-- A closing tag clears the flag and counts an empty span if it was set; the depth does not go
below zero. -/
theorem spanEffect_meetClosing (ht : t.tag? = some .closing) :
    SpanEffect s (s.meetClosing t.start) t := by
  have hc : t.closes = true := Token.closes_iff.2 ht
  have hflag : (t.opens || s.bodyEmpty && t.isBlankRun) = false := by
    simp [Token.opens_eq_false_of_closes hc, Token.isBlankRun_eq_false (t := t) (by simp [ht])]
  have hdepth : (Depth.mk s.depth s.deepest).step t = ⟨s.depth - 1, s.deepest⟩ :=
    Depth.step_of_closes hc
  have hspans : (if s.bodyEmpty then s.emptySpans + 1 else s.emptySpans)
      = s.emptySpans + if t.closes && s.bodyEmpty then 1 else 0 := by
    cases s.bodyEmpty <;> simp [hc]
  simp only [meetClosing]
  split
  · next hzero =>
    refine ⟨?_, hflag.symm, hspans, fun _ => .inl⟩
    rw [hdepth]
    simp [hzero]
  · exact ⟨hdepth.symm, hflag.symm, hspans, fun _ => .inl⟩

/-- A tag that neither opens a span nor closes one clears the flag and does nothing else. -/
theorem spanEffect_meetUnknown (ht : t.tag? = some .unknown) :
    SpanEffect s (s.meetUnknown t.text) t := by
  have hblank : t.isBlankRun = false := Token.isBlankRun_eq_false (by simp [ht])
  constructor <;>
    simp +contextual [meetUnknown, Depth.step, Token.opens, Token.closes, hblank, ht]

/-- **A step has the effect of its token.** `step` looks at the shape of the token, and each shape
is one of the lemmas above. -/
theorem spanEffect_of_step (h : s.step t = .ok s') : SpanEffect s s' t := by
  rw [step] at h
  split at h
  · next run hshape =>
    cases h
    exact spanEffect_meetText hshape
  · next inner hshape =>
    cases h
    exact spanEffect_meetPlaceholder hshape
  · next inner hshape =>
    have htag : t.tag? = some (Tag.ofContent (trim inner)) := by simp [Token.tag?, hshape]
    split at h
    · next guard heq => exact spanEffect_meetOpening (htag.trans (congrArg some heq)) h
    · next heq =>
      cases h
      exact spanEffect_meetClosing (htag.trans (congrArg some heq))
    · next heq =>
      cases h
      exact spanEffect_meetUnknown (htag.trans (congrArg some heq))

/-! ### The whole walk -/

/-- What the counts and the flag tell about the first `n` tokens: the invariant of the walk. The
flag tells whether nothing but blank text stands behind the innermost open span; where no span is
open it is not set. -/
structure Watches (tokens : List Token) (n : Nat) (s : BodyScan) : Prop where
  depth : Depth.mk s.depth s.deepest = Depth.after tokens n
  flag : s.bodyEmpty = (waitingAfter tokens n).head?.any fun i => blankBetween tokens i n
  spans : s.emptySpans
    = ((partnersUpTo tokens n).filter fun pair => blankBetween tokens pair.1 pair.2).length
  warnings : ∀ w ∈ s.warnings, w.toList.head? = some 'V'

/-- Before the first token nothing is counted, and the flag is not set. -/
theorem watches_start (tokens : List Token) : Watches tokens 0 start :=
  ⟨rfl, rfl, rfl, fun _ hw => absurd hw List.not_mem_nil⟩

/-- Behind the innermost open span stands blank text still if the next token is blank text and opens
or closes nothing. -/
theorem any_blankBetween_succ (ht : tokens[n]? = some t)
    (hwaiting : waitingAfter tokens (n + 1) = waitingAfter tokens n) :
    ((waitingAfter tokens (n + 1)).head?.any fun i => blankBetween tokens i (n + 1))
      = (((waitingAfter tokens n).head?.any fun i => blankBetween tokens i n) && t.isBlankRun) := by
  rw [hwaiting]
  cases hhead : (waitingAfter tokens n).head? with
  | none => rfl
  | some i => exact blankBetween_succ ht (lt_of_mem_head?_waitingAfter hhead)

/-- A closing tag is no blank text behind any span: what is open behind it has the tag, at least,
between its opening tag and the next place. -/
theorem any_blankBetween_of_closes (ht : tokens[n]? = some t) (hc : t.closes = true) :
    ((waitingAfter tokens (n + 1)).head?.any fun i => blankBetween tokens i (n + 1)) = false := by
  cases hhead : (waitingAfter tokens (n + 1)).head? with
  | none => rfl
  | some i =>
    have hopens := (mem_waitingAfter.1 (List.mem_of_head? hhead)).2.1
    have hne : i ≠ n := by
      rintro rfl
      rw [opensAt_eq ht, Token.opens_eq_false_of_closes hc] at hopens
      cases hopens
    have hi := lt_of_mem_head?_waitingAfter hhead
    have hblank : t.isBlankRun = false :=
      Token.isBlankRun_eq_false (by simp [Token.closes_iff.1 hc])
    rw [Option.any_some, blankBetween_succ ht (by omega), hblank, Bool.and_false]

/-- **One more token is told of as well**: its `SpanEffect` takes the invariant one place further.
An opening tag is the innermost open span with nothing behind it; a closing tag pairs up with that
span, which is empty exactly if the flag was set. -/
theorem Watches.succ (h : Watches tokens n s) (ht : tokens[n]? = some t)
    (he : SpanEffect s s' t) : Watches tokens (n + 1) s' := by
  refine ⟨by rw [he.depth, h.depth, Depth.after_succ ht], ?_, ?_, fun w hw =>
    (he.warnings w hw).elim (h.warnings w) id⟩
  · rw [he.flag]
    cases growth ht with
    | opening ho _ hwaiting =>
      rw [ho, hwaiting, List.head?_cons, Option.any_some, blankBetween_self, Bool.true_or]
    | closing _ hc _ _ =>
      have hblank : t.isBlankRun = false :=
        Token.isBlankRun_eq_false (by simp [Token.closes_iff.1 hc])
      rw [any_blankBetween_of_closes ht hc, Token.opens_eq_false_of_closes hc, hblank,
        Bool.and_false, Bool.or_false]
    | stray hc hnone _ hwaiting =>
      rw [Token.opens_eq_false_of_closes hc, Bool.false_or, h.flag,
        any_blankBetween_succ ht hwaiting]
    | other ho _ _ hwaiting =>
      rw [ho, Bool.false_or, h.flag, any_blankBetween_succ ht hwaiting]
  · rw [he.spans, h.spans]
    cases growth ht with
    | opening ho hpairs _ => simp [Token.closes_eq_false_of_opens ho, hpairs]
    | closing i hc hpairs hwaiting =>
      -- The flag speaks of the span that the token closes.
      have hflag : s.bodyEmpty = blankBetween tokens i n := by
        rw [h.flag, hwaiting, List.head?_cons, Option.any_some]
      rw [hpairs, List.filter_cons, hc, hflag]
      cases blankBetween tokens i n <;> simp
    | stray hc hnone hpairs _ =>
      have hflag : s.bodyEmpty = false := by
        rw [h.flag, hnone]
        rfl
      simp [hflag, hpairs]
    | other _ hc hpairs _ => simp [hc, hpairs]

/-- **A walk over tokens tells about all of them.** Induction on the number of tokens, by
`Watches.succ` at each place. -/
theorem watches_of_foldlM (hn : n ≤ tokens.length)
    (h : (tokens.take n).foldlM step start = .ok s) : Watches tokens n s := by
  induction n generalizing s with
  | zero =>
    cases h
    exact watches_start tokens
  | succ n ih =>
    have ht : tokens[n]? = some tokens[n] := List.getElem?_eq_getElem hn
    rw [List.take_add_one, ht, Option.toList_some, List.foldlM_append] at h
    obtain ⟨s', hbefore, hlast⟩ := bind_eq_ok_iff.1 h
    obtain ⟨s'', hstep, ⟨⟩⟩ := bind_eq_ok_iff.1 hlast
    exact (ih (by omega) hbefore).succ ht (spanEffect_of_step hstep)

/-- A walk over a whole template counts its depth (`nestingDepth`) and its empty spans
(`emptyPairs`), and warns about nothing else than names on the way. -/
theorem spans_of_foldlM {body : String} (h : (tokenize body).foldlM step start = .ok s) :
    s.deepest = nestingDepth body ∧ s.emptySpans = (emptyPairs (tokenize body)).length
      ∧ ∀ w ∈ s.warnings, w.toList.head? = some 'V' := by
  have hwatches : Watches (tokenize body) (tokenize body).length s :=
    watches_of_foldlM le_rfl (by rwa [List.take_length])
  rw [nestingDepth_eq]
  exact ⟨congrArg Depth.deepest hwatches.depth, hwatches.spans, hwatches.warnings⟩

end BodyScan

/-! ### The warnings -/

/-- The warning about a depth; the check gives it for the depth of the body and for no other
(`count_deepNestingWarning`). -/
def deepNestingWarning (depth : Nat) : String :=
  "Deep conditional nesting detected (depth: " ++ depth.repr ++ "), consider simplifying"

/-- The warning about a number of empty spans. -/
def emptySpansWarning (spans : Nat) : String :=
  "Empty conditional blocks detected: " ++ spans.repr ++ " blocks"

theorem head?_deepNestingWarning (d : Nat) : (deepNestingWarning d).toList.head? = some 'D' := by
  unfold deepNestingWarning
  simp

theorem head?_emptySpansWarning (k : Nat) : (emptySpansWarning k).toList.head? = some 'E' := by
  unfold emptySpansWarning
  simp

/-- A text with a number in a fixed place tells the number: what stands before and after it is
cancelled. -/
theorem repr_append_injective (before after : String) :
    Function.Injective fun n : Nat => before ++ n.repr ++ after := by
  intro m n h
  have hchars := congrArg String.toList h
  simp only [String.toList_append, List.append_assoc] at hchars
  exact toList_repr_injective (List.append_cancel_right (List.append_cancel_left hchars))

theorem deepNestingWarning_injective : Function.Injective deepNestingWarning :=
  repr_append_injective "Deep conditional nesting detected (depth: " "), consider simplifying"

theorem emptySpansWarning_injective : Function.Injective emptySpansWarning :=
  repr_append_injective "Empty conditional blocks detected: " " blocks"

/-- A text is not among others that begin in other ways. The warnings are told apart by their first
characters, in the lemmas that follow. -/
theorem count_eq_zero_of_head? {ws : List String} {w : String}
    (h : ∀ w' ∈ ws, w'.toList.head? ≠ w.toList.head?) : ws.count w = 0 :=
  List.count_eq_zero.2 fun hw => h w hw rfl

/-- A warning about lines begins with a number, or tells of mixed ends, and so is none about
spans. -/
theorem head?_of_mem_lineWarnings {limits : Limits} {body : List Char} {w : String}
    (h : w ∈ lineWarnings limits body) :
    w.toList.head? = some 'M' ∨ ∃ c, w.toList.head? = some c ∧ c.isDigit = true := by
  rw [lineWarnings, List.mem_append] at h
  rcases h with h | h
  · split at h
    · cases h
    · obtain ⟨c, cs, hcs⟩ := List.exists_cons_of_ne_nil (repr_ne_nil (longLines limits body))
      rw [List.mem_singleton.1 h]
      refine .inr ⟨c, ?_, isDigit_of_mem_repr (hcs ▸ List.mem_cons_self)⟩
      simp [hcs]
  · split at h
    · rw [List.mem_singleton.1 h]
      exact .inl (by simp)
    · cases h

/-- How often a text is among those that are given in some case: once or not at all. -/
theorem count_ite_singleton {c : Prop} [Decidable c] (w w' : String) :
    (if c then [w'] else []).count w = if w = w' ∧ c then 1 else 0 := by
  by_cases hc : c
  · by_cases hw : w = w'
    · simp [hc, hw]
    · simp [hc, hw, Ne.symm hw]
  · simp [hc]

/-- The two kinds of warnings about spans begin in different ways. -/
theorem deepNestingWarning_ne_emptySpansWarning (d k : Nat) :
    deepNestingWarning d ≠ emptySpansWarning k := fun heq => by
  have hd := head?_deepNestingWarning d
  rw [heq, head?_emptySpansWarning] at hd
  simp at hd

section

variable {s : BodyScan} (hnames : ∀ w ∈ s.warnings, w.toList.head? = some 'V')
  (limits : Limits) (body : List Char)

include hnames

/-- A text that begins neither as a warning about a name nor as one about lines is counted where the
check warns about spans, and nowhere else. What is known of the warnings about names (`hnames`) and
of those about lines (`head?_of_mem_lineWarnings`) rules these out. -/
theorem count_warnings {w : String} {c : Char} (hw : w.toList.head? = some c) (hV : c ≠ 'V')
    (hM : c ≠ 'M') (hdigit : c.isDigit = false) :
    (s.tokenWarnings limits ++ lineWarnings limits body).count w
      = (if w = deepNestingWarning s.deepest ∧ limits.nestingDepth < s.deepest then 1 else 0)
        + if w = emptySpansWarning s.emptySpans ∧ s.emptySpans ≠ 0 then 1 else 0 := by
  have htokens : s.tokenWarnings limits = s.warnings
      ++ (if limits.nestingDepth < s.deepest then [deepNestingWarning s.deepest] else [])
      ++ (if s.emptySpans ≠ 0 then [emptySpansWarning s.emptySpans] else []) := by
    rw [ite_not]
    rfl
  have hname : s.warnings.count w = 0 := count_eq_zero_of_head? fun w' hw' heq => by
    rw [hnames w' hw', hw] at heq
    exact hV (Option.some_injective _ heq.symm)
  have hline : (lineWarnings limits body).count w = 0 := count_eq_zero_of_head? fun w' hw' heq => by
    rw [hw] at heq
    rcases head?_of_mem_lineWarnings hw' with h | ⟨c', h, hc'⟩
    · exact hM (Option.some_injective _ (heq.symm.trans h))
    · rw [← Option.some_injective _ (heq.symm.trans h), hdigit] at hc'
      cases hc'
  rw [htokens, List.count_append, List.count_append, List.count_append, hname, hline,
    count_ite_singleton, count_ite_singleton, Nat.zero_add, Nat.add_zero]

/-- A depth is warned about once or not at all: `count_warnings` at `deepNestingWarning`. -/
theorem count_deepNestingWarning (d : Nat) :
    (s.tokenWarnings limits ++ lineWarnings limits body).count (deepNestingWarning d)
      = if d = s.deepest ∧ limits.nestingDepth < s.deepest then 1 else 0 := by
  rw [count_warnings hnames limits body (head?_deepNestingWarning d) (by decide) (by decide)
      (by decide),
    if_neg fun h : _ ∧ s.emptySpans ≠ 0 => deepNestingWarning_ne_emptySpansWarning _ _ h.1,
    Nat.add_zero]
  simp only [deepNestingWarning_injective.eq_iff]

/-- A number of empty spans is warned about once or not at all: `count_warnings` at
`emptySpansWarning`. -/
theorem count_emptySpansWarning (k : Nat) :
    (s.tokenWarnings limits ++ lineWarnings limits body).count (emptySpansWarning k)
      = if k = s.emptySpans ∧ s.emptySpans ≠ 0 then 1 else 0 := by
  rw [count_warnings hnames limits body (head?_emptySpansWarning k) (by decide) (by decide)
      (by decide),
    if_neg fun h : _ ∧ limits.nestingDepth < s.deepest =>
      deepNestingWarning_ne_emptySpansWarning _ _ h.1.symm,
    Nat.zero_add]
  simp only [emptySpansWarning_injective.eq_iff]

end

variable {limits : Limits} {body : String} {findings : Findings}

/-- The warnings of a check are those of its walk (`BodyScan.tokenWarnings`) and those about
lines. -/
theorem exists_scan_of_checkBody (h : checkBody limits body = .ok findings) :
    ∃ s, (tokenize body).foldlM BodyScan.step .start = .ok s
      ∧ findings.warnings = s.tokenWarnings limits ++ lineWarnings limits body.toList := by
  obtain ⟨s, hs, ⟨⟩⟩ := bind_eq_ok_iff.1 h
  exact ⟨s, hs, rfl⟩

/-- Both kinds of warnings of a check, counted: what the walk counts is the depth and the number of
empty spans (`BodyScan.spans_of_foldlM`), and each is warned about once or not at all. The two
theorems below are its parts. -/
theorem warned_of_checkBody (h : checkBody limits body = .ok findings) :
    (∀ d, findings.warnings.count (deepNestingWarning d)
        = if d = nestingDepth body ∧ limits.nestingDepth < nestingDepth body then 1 else 0)
      ∧ (∃ s, (tokenize body).foldlM BodyScan.step .start = .ok s
        ∧ s.emptySpans = (emptyPairs (tokenize body)).length)
      ∧ ∀ k, findings.warnings.count (emptySpansWarning k)
        = if k = (emptyPairs (tokenize body)).length ∧ k ≠ 0 then 1 else 0 := by
  obtain ⟨s, hs, hwarnings⟩ := exists_scan_of_checkBody h
  obtain ⟨hdeepest, hspans, hnames⟩ := BodyScan.spans_of_foldlM hs
  refine ⟨fun d => ?_, ⟨s, hs, hspans⟩, fun k => ?_⟩
  · rw [hwarnings, count_deepNestingWarning hnames, hdeepest]
  · rw [hwarnings, count_emptySpansWarning hnames, hspans]
    refine if_congr (and_congr_right fun hk => ?_) rfl rfl
    rw [hk]

/-- **Deep nesting is warned about.** The check warns about deep nesting if the depth of a body is
above the limit, and names the depth: the greatest number of opening tags left without a partner in
a first part of the body. A span around a body whose tags are paired makes it deeper by one. -/
theorem nestingDepth_warned (body : String) :
    (∀ limits findings, checkBody limits body = .ok findings → ∀ d,
        findings.warnings.count (deepNestingWarning d)
          = if d = nestingDepth body ∧ limits.nestingDepth < nestingDepth body then 1 else 0)
      ∧ IsGreatest { d | ∃ front, front <+: tokenize body ∧ leftOpen front = d } (nestingDepth body)
      ∧ (TagsPaired (tokenize body) →
        nestingDepth ("\x7b% if a %\x7d" ++ body ++ "\x7b% endif %\x7d")
          = 1 + nestingDepth body) := by
  refine ⟨fun _ _ h => (warned_of_checkBody h).1, isGreatest_nestingDepth body, fun htags => ?_⟩
  have hwrapped : "\x7b% if a %\x7d" ++ body ++ "\x7b% endif %\x7d"
      = String.ofList ((guardTag ['a']).source ++ (body.toList ++ closingTag.source)) := by
    refine String.toList_injective ?_
    simp [guardTag, closingTag, Shape.source]
  have hopens : Token.opens ⟨guardTag ['a'], 0⟩ = true := by decide +kernel
  have hfits : (guardTag ['a']).Fits :=
    fits_guardTag_of_tokenize (t := ⟨guardTag ['a'], 0⟩) (by decide +kernel) hopens
  rw [← String.ofList_toList (s := body)] at htags
  rw [hwrapped, nestingDepth_guardTag hfits hopens htags, String.ofList_toList]

/-- A body with two spans, one inside the other, is two levels deep; inside one more span it is
three levels deep, and the check warns about that if the limit is two. -/
theorem nestingDepth_warned_threeLevels :
    TagsPaired (tokenize "\x7b% if b %\x7d\x7b% if c %\x7dx\x7b% endif %\x7d\x7b% endif %\x7d")
      ∧ ∃ findings, checkBody { Limits.standard with nestingDepth := 2 }
          ("\x7b% if a %\x7d"
            ++ "\x7b% if b %\x7d\x7b% if c %\x7dx\x7b% endif %\x7d\x7b% endif %\x7d"
            ++ "\x7b% endif %\x7d") = .ok findings
        ∧ findings.warnings.count (deepNestingWarning 3) = 1 := by
  have htags : TagsPaired
      (tokenize "\x7b% if b %\x7d\x7b% if c %\x7dx\x7b% endif %\x7d\x7b% endif %\x7d") := by
    decide +kernel
  have hcheck : checkBody { Limits.standard with nestingDepth := 2 }
        ("\x7b% if a %\x7d"
          ++ "\x7b% if b %\x7d\x7b% if c %\x7dx\x7b% endif %\x7d\x7b% endif %\x7d"
          ++ "\x7b% endif %\x7d")
      = .ok ⟨true, [], ["Deep conditional nesting detected (depth: 3), consider simplifying"]⟩ := by
    decide +kernel
  have hinner : nestingDepth
      "\x7b% if b %\x7d\x7b% if c %\x7dx\x7b% endif %\x7d\x7b% endif %\x7d" = 2 := by
    decide +kernel
  have houter := (nestingDepth_warned _).2.2 htags
  rw [hinner] at houter
  refine ⟨htags, _, hcheck, ?_⟩
  rw [(nestingDepth_warned _).1 _ _ hcheck, houter]
  rfl

/-- **Empty spans are warned about.** The empty spans counted are the pairs of tags with nothing but
blank text between them (`emptyPairs`), and the check warns about them unless there are none. -/
theorem emptySpans_warned (h : checkBody limits body = .ok findings) :
    pairedTags (tokenize body) = placesOf (partners (tokenize body))
      ∧ (∃ s, (tokenize body).foldlM BodyScan.step .start = .ok s
        ∧ s.emptySpans = (emptyPairs (tokenize body)).length)
      ∧ (∀ k, findings.warnings.count (emptySpansWarning k)
        = if k = (emptyPairs (tokenize body)).length ∧ k ≠ 0 then 1 else 0)
      ∧ ((∀ k, emptySpansWarning k ∉ findings.warnings) ↔ emptyPairs (tokenize body) = []) := by
  obtain ⟨-, hspans, hcount⟩ := warned_of_checkBody h
  refine ⟨pairedTags_eq _, hspans, hcount, ?_⟩
  simp only [← List.count_eq_zero, hcount]
  rw [← List.length_eq_zero_iff]
  constructor
  · intro hnone
    by_contra hpos
    have hone := hnone (emptyPairs (tokenize body)).length
    rw [if_pos ⟨rfl, hpos⟩] at hone
    cases hone
  · intro hzero k
    exact if_neg fun ⟨hk, hk0⟩ => hk0 (hk.trans hzero)

/-- A closing tag on its own, a span that holds an empty one, and a span with a blank. -/
theorem emptySpans_warned_two :
    ∃ findings, checkBody .standard ("\x7b% endif %\x7d\x7b% if a %\x7d \x7b% if b %\x7d"
          ++ "\x7b% endif %\x7d\x7b% endif %\x7d\x7b% if c %\x7d \x7b% endif %\x7d") = .ok findings
      ∧ findings.warnings.count (emptySpansWarning 2) = 1 := by
  have hcheck : checkBody .standard ("\x7b% endif %\x7d\x7b% if a %\x7d \x7b% if b %\x7d"
        ++ "\x7b% endif %\x7d\x7b% endif %\x7d\x7b% if c %\x7d \x7b% endif %\x7d")
      = .ok ⟨false, ["Unexpected endif at position 0 without a matching if",
          "Mismatched if/endif blocks: 3 if blocks, 4 endif blocks"],
        ["Empty conditional blocks detected: 2 blocks"]⟩ := by
    decide +kernel
  have hpairs : emptyPairs (tokenize ("\x7b% endif %\x7d\x7b% if a %\x7d \x7b% if b %\x7d"
      ++ "\x7b% endif %\x7d\x7b% endif %\x7d\x7b% if c %\x7d \x7b% endif %\x7d"))
      = [(6, 8), (3, 4)] := by
    decide +kernel
  refine ⟨_, hcheck, ?_⟩
  rw [(emptySpans_warned hcheck).2.2.1, hpairs]
  rfl

end Templating
