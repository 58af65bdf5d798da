import Templating.Check.Body
import Templating.Proofs.Guard.Faults
import Templating.Proofs.Template.Resolution

/-!
# What the check of a body accepts

The check of a body counts opening and closing tags, while spans are resolved with a stack of
places. Here the check is shown to accept exactly the bodies all of whose tags have a partner and
whose placeholders, guards and literal texts are as they should be. The depth that the check
counts is the number of opening tags without a partner so far, and as long as no closing tag was
stray, the tags opened are those closed and those still open.

## Main definitions

* `IsWellFormed`: the token lists that the check accepts.
* `BodyScan.Effect`: what one token does to the counts.
* `BodyScan.Tallies`: what the counts tell about the tokens met so far.

## Main results

* `BodyScan.effect_of_step`, `BodyScan.tallies_of_foldlM`: one step, and a whole walk.
* `checkBody_isValid_iff`: the check accepts exactly the well-formed bodies.
-/

namespace Templating

open Templating.Template Templating.Text

/-! ### Well-formed bodies -/

/-- A letter or underscore, then letters, digits, underscores and dots. `isVariableName` tests for
it (`isVariableName_trim_iff`). -/
def IsName (cs : List Char) : Prop :=
  ∃ c rest, cs = c :: rest ∧ startsVariable c = true ∧ ∀ d ∈ rest, inVariable d = true

/-- If the token is a placeholder, it holds a name between its blanks. -/
def NameFits (t : Token) : Prop :=
  ∀ inner, t.shape = .placeholder inner → IsName (trim inner)

/-- If the token opens a span, its guard can be read by `Guard.parse`. -/
def GuardFits (t : Token) : Prop :=
  t.opens = true → ∃ e, Guard.parse t.guard = .ok e

/-- If the token is literal text, a pair of characters does not occur in it. The pairs asked for are
the two opening delimiters. -/
def TextAvoids (a b : Char) (t : Token) : Prop :=
  ∀ run, t.shape = .text run → ¬ [a, b] <:+: run

/-- Every placeholder holds a name; every tag opens or closes a span and has a partner; every guard
can be read; and no literal text holds an opening delimiter. `checkBody_isValid_iff` says that the
check accepts these token lists and no others. -/
structure IsWellFormed (tokens : List Token) : Prop where
  names : ∀ t ∈ tokens, NameFits t
  tags : ∀ i t, tokens[i]? = some t → t.tag? ≠ none →
    (t.opens = true ∨ t.closes = true) ∧ i ∈ pairedTags tokens
  guards : ∀ t ∈ tokens, GuardFits t
  texts : ∀ t ∈ tokens, TextAvoids '{' '{' t ∧ TextAvoids '{' '%' t

/-- The counted pair of characters does not occur if it was counted no times. Induction along
`countPair`, which goes on behind a pair that it has counted. -/
theorem countPair_eq_zero_iff {a b : Char} {cs : List Char} :
    countPair a b cs = 0 ↔ ¬ [a, b] <:+: cs := by
  fun_induction countPair a b cs with
  | case1 x y cs h ih =>
    simp only [Bool.and_eq_true, decide_eq_true_eq] at h
    obtain ⟨rfl, rfl⟩ := h
    exact iff_of_false (Nat.succ_ne_zero _) (not_not_intro ⟨[], cs, rfl⟩)
  | case2 x y cs h ih =>
    have hlater : [a, b] <:+: x :: y :: cs ↔ [a, b] <:+: y :: cs := by
      rw [List.infix_cons_iff]
      refine or_iff_right fun hinitial => h ?_
      obtain ⟨ha, hinitial⟩ := List.cons_prefix_cons.1 hinitial
      obtain ⟨hb, -⟩ := List.cons_prefix_cons.1 hinitial
      simp [ha, hb]
    rw [hlater, ih]
  | case3 cs hne =>
    refine iff_of_true rfl fun hinfix => ?_
    obtain ⟨before, after, heq⟩ := hinfix
    cases before with
    | nil => exact hne a b after heq.symm
    | cons x before =>
      cases before with
      | nil => exact hne x a (b :: after) heq.symm
      | cons y before => exact hne x y _ heq.symm

/-- Trimmed text does not end in a line feed, so taking one away does nothing to it. -/
theorem withoutFinalNewline_trim (cs : List Char) : withoutFinalNewline (trim cs) = trim cs := by
  have hlast : (trim cs).getLast? ≠ some '\n' := by
    intro h
    rw [trim, trimEnd, List.getLast?_reverse] at h
    have hnot := List.head?_dropWhile_not isBlank (trimStart cs).reverse
    rw [h] at hnot
    exact absurd hnot (by decide)
  rw [withoutFinalNewline, if_neg hlast]

/-- The test for the name of a variable, on trimmed text, is the test for a name. -/
theorem isVariableName_trim_iff (cs : List Char) :
    isVariableName (String.ofList (trim cs)) = true ↔ IsName (trim cs) := by
  rw [isVariableName, String.toList_ofList, withoutFinalNewline_trim]
  cases trim cs with
  | nil => exact iff_of_false Bool.false_ne_true (by rintro ⟨c, rest, ⟨⟩, -⟩)
  | cons c rest =>
    simp only [Bool.and_eq_true, List.all_eq_true]
    constructor
    · rintro ⟨hc, hrest⟩
      exact ⟨c, rest, rfl, hc, hrest⟩
    · rintro ⟨c', rest', ⟨⟩, hc, hrest⟩
      exact ⟨hc, hrest⟩

namespace BodyScan

/-! ### One step -/

/-- What a token does to the counts: each field says when the error list or the count stays empty,
or by how much it grows. -/
structure Effect (s s' : BodyScan) (t : Token) : Prop where
  errors : s'.errors = [] ↔ s.errors = [] ∧ NameFits t ∧ (t.closes = true → s.depth ≠ 0)
  malformed : s'.malformed = [] ↔ s.malformed = [] ∧ t.tag? ≠ some .unknown
  guardErrors : s'.guardErrors = [] ↔ s.guardErrors = [] ∧ GuardFits t
  placeholders : s'.unclosedPlaceholders = 0 ↔
    s.unclosedPlaceholders = 0 ∧ TextAvoids '{' '{' t
  tags : s'.unclosedTags = 0 ↔ s.unclosedTags = 0 ∧ TextAvoids '{' '%' t
  opened : s'.opened = s.opened + if t.opens then 1 else 0
  closed : s'.closed = s.closed + if t.closes then 1 else 0
  depth : s'.depth = if t.opens then s.depth + 1 else if t.closes then s.depth - 1 else s.depth

variable {s s' : BodyScan} {t : Token}

/-- Literal text adds to the counts of opening delimiters that it holds. -/
theorem effect_meetText {run : List Char} (ht : t.shape = .text run) :
    Effect s (s.meetText run) t := by
  have htag : t.tag? = none := by simp [Token.tag?, ht]
  constructor <;>
    simp [meetText, NameFits, GuardFits, TextAvoids, Token.opens, Token.closes, htag, ht,
      countPair_eq_zero_iff]

/-- A placeholder adds an error exactly if what it holds is no name. -/
theorem effect_meetPlaceholder {inner : List Char} (ht : t.shape = .placeholder inner) :
    Effect s (s.meetPlaceholder (trim inner) t.start) t := by
  have htag : t.tag? = none := by simp [Token.tag?, ht]
  have hname : NameFits t ↔ IsName (trim inner) := by
    refine ⟨fun h => h inner ht, fun h inner' ht' => ?_⟩
    obtain rfl : inner = inner' := by simpa using ht.symm.trans ht'
    exact h
  have hempty : (trim inner).isEmpty = true → ¬ IsName (trim inner) := by
    rintro h ⟨c, rest, heq, -⟩
    simp [heq] at h
  have hvariable := isVariableName_trim_iff inner
  simp only [meetPlaceholder]
  split
  · rename_i h
    constructor <;>
      simp [hname, hempty h, GuardFits, TextAvoids, Token.opens, Token.closes, htag, ht]
  · split
    · rename_i h
      have hnot : ¬ IsName (trim inner) := by
        rw [← hvariable]
        simpa using h
      constructor <;>
        simp [hname, hnot, GuardFits, TextAvoids, Token.opens, Token.closes, htag, ht]
    · rename_i h
      have hyes : IsName (trim inner) := by
        rw [← hvariable]
        simpa using h
      split <;> [skip; split] <;> constructor <;>
        simp [hname, hyes, GuardFits, TextAvoids, Token.opens, Token.closes, htag, ht]

/-- An opening tag is counted, and adds an error exactly if its guard cannot be read. -/
theorem effect_meetOpening {guard : String} (ht : t.tag? = some (.opening guard))
    (h : s.meetOpening guard = .ok s') : Effect s s' t := by
  have hname : NameFits t := fun inner hshape => by simp [Token.tag?, hshape] at ht
  have htext : ∀ a b, TextAvoids a b t := fun a b run hshape => by simp [Token.tag?, hshape] at ht
  have hguard : GuardFits t ↔ ∃ e, Guard.parse guard = .ok e := by
    have : t.guard = guard := by simp [Token.guard, ht]
    simp [GuardFits, Token.opens, ht, this]
  rw [meetOpening] at h
  split at h
  · rename_i e hparse
    cases h
    constructor <;> simp [hname, htext, hguard, hparse, Token.opens, Token.closes, ht]
  · rename_i g hparse
    cases h
    constructor <;> simp [hname, htext, hguard, hparse, Token.opens, Token.closes, ht]
  · cases h

/-- A closing tag is counted, and adds an error exactly if no span is open. -/
theorem effect_meetClosing (ht : t.tag? = some .closing) : Effect s (s.meetClosing t.start) t := by
  have hname : NameFits t := fun inner hshape => by simp [Token.tag?, hshape] at ht
  have htext : ∀ a b, TextAvoids a b t := fun a b run hshape => by simp [Token.tag?, hshape] at ht
  have hguard : GuardFits t := fun h => by simp [Token.opens, ht] at h
  simp only [meetClosing]
  split
  · rename_i hdepth
    constructor <;> simp_all [Token.opens, Token.closes]
  · rename_i hdepth
    constructor <;> simp_all [Token.opens, Token.closes]

/-- A tag that neither opens a span nor closes one is an error. -/
theorem effect_meetUnknown (ht : t.tag? = some .unknown) : Effect s (s.meetUnknown t.text) t := by
  have hname : NameFits t := fun inner hshape => by simp [Token.tag?, hshape] at ht
  have htext : ∀ a b, TextAvoids a b t := fun a b run hshape => by simp [Token.tag?, hshape] at ht
  have hguard : GuardFits t := fun h => by simp [Token.opens, ht] at h
  constructor <;> simp [meetUnknown, hname, htext, hguard, Token.opens, Token.closes, ht]

/-- **A step has the effect of its token.** `step` looks at the shape of the token, and each shape
is one of the lemmas above. -/
theorem effect_of_step (h : s.step t = .ok s') : Effect s s' t := by
  rw [step] at h
  split at h
  · rename_i run hshape
    cases h
    exact effect_meetText hshape
  · rename_i inner hshape
    cases h
    exact effect_meetPlaceholder hshape
  · rename_i inner hshape
    have htag : t.tag? = some (Tag.ofContent (trim inner)) := by simp [Token.tag?, hshape]
    split at h
    · rename_i guard heq
      exact effect_meetOpening (htag.trans (congrArg some heq)) h
    · rename_i heq
      cases h
      exact effect_meetClosing (htag.trans (congrArg some heq))
    · rename_i heq
      cases h
      exact effect_meetUnknown (htag.trans (congrArg some heq))

/-- A step fails only on a guard that holds an integer that is too long
(`Guard.HasShortIntegers`). -/
theorem exists_step_eq_ok (hshort : t.opens = true → Guard.HasShortIntegers t.guard) :
    ∃ s', s.step t = .ok s' := by
  rw [step]
  split
  · exact ⟨_, rfl⟩
  · exact ⟨_, rfl⟩
  · rename_i inner hshape
    split
    · rename_i guard heq
      have htag : t.tag? = some (.opening guard) := by simp [Token.tag?, hshape, heq]
      have hguard : t.guard = guard := by simp [Token.guard, htag]
      have hshort := hshort (Token.opens_iff.2 ⟨guard, htag⟩)
      rw [hguard] at hshort
      rw [meetOpening]
      split
      · exact ⟨_, rfl⟩
      · exact ⟨_, rfl⟩
      · rename_i fault hnot hparse
        obtain ⟨g, rfl⟩ := Guard.parse_error_of_hasShortIntegers hshort hparse
        exact absurd rfl (hnot g)
    · exact ⟨_, rfl⟩
    · exact ⟨_, rfl⟩

/-- So a walk over tokens ends if no guard holds one. Induction on the tokens. -/
theorem exists_foldlM_eq_ok {tokens : List Token} (s : BodyScan)
    (hshort : ∀ t ∈ tokens, t.opens = true → Guard.HasShortIntegers t.guard) :
    ∃ s', tokens.foldlM step s = .ok s' := by
  induction tokens generalizing s with
  | nil => exact ⟨s, rfl⟩
  | cons t tokens ih =>
    obtain ⟨s', hstep⟩ := exists_step_eq_ok (s := s) (hshort t List.mem_cons_self)
    obtain ⟨s'', hrun⟩ := ih s' fun u hu => hshort u (List.mem_cons_of_mem _ hu)
    exact ⟨s'', by rw [List.foldlM_cons, hstep]; exact hrun⟩

/-! ### The whole walk -/

/-- Every closing tag among the first `n` tokens has a partner among them. -/
def ClosingsPaired (tokens : List Token) (n : Nat) : Prop :=
  ∀ i < n, closesAt tokens i = true → ∃ pair ∈ partnersUpTo tokens n, pair.2 = i

/-- One more closing tag has a partner if an opening tag waits for one (`waitingAfter`). -/
theorem closingsPaired_succ {tokens : List Token} {n : Nat} (ht : tokens[n]? = some t) :
    ClosingsPaired tokens (n + 1)
      ↔ ClosingsPaired tokens n ∧ (t.closes = true → waitingAfter tokens n ≠ []) := by
  -- A token that does not close and makes no pair leaves the condition as it is.
  have hstays : t.closes = false → partnersUpTo tokens (n + 1) = partnersUpTo tokens n →
      (ClosingsPaired tokens (n + 1) ↔ ClosingsPaired tokens n) := by
    intro hc hpairs
    have hn : closesAt tokens n = false := by rw [closesAt_eq ht, hc]
    rw [ClosingsPaired]
    rw [hpairs]
    refine ⟨fun h i hi => h i (by omega), fun h i hi hcloses => ?_⟩
    have hne : i ≠ n := fun heq => by simp [heq, hn] at hcloses
    exact h i (by omega) hcloses
  cases growth ht with
  | opening ho hpairs hwaiting =>
    have hc := Token.closes_eq_false_of_opens ho
    simp [hstays hc hpairs, hc]
  | other ho hc hpairs hwaiting => simp [hstays hc hpairs, hc]
  | stray hc hnone hpairs hwaiting =>
    -- It would need a pair that ends at its place, but all pairs end before it.
    refine iff_of_false (fun h => ?_) (by simp [hc, hnone])
    obtain ⟨pair, hpair, heq⟩ := h n (by omega) (by rw [closesAt_eq ht, hc])
    rw [hpairs] at hpair
    have := lt_of_mem_partnersUpTo hpair
    omega
  | closing i hc hpairs hwaiting =>
    rw [and_iff_left (by simp [hwaiting])]
    rw [ClosingsPaired]
    rw [hpairs]
    constructor
    · intro h j hj hcloses
      obtain ⟨pair, hpair, heq⟩ := h j (by omega) hcloses
      rcases List.mem_cons.1 hpair with rfl | hpair
      · simp at heq
        omega
      · exact ⟨pair, hpair, heq⟩
    · intro h j hj hcloses
      by_cases hjn : j = n
      · exact ⟨(i, n), List.mem_cons_self, hjn.symm⟩
      · obtain ⟨pair, hpair, heq⟩ := h j (by omega) hcloses
        exact ⟨pair, List.mem_cons_of_mem _ hpair, heq⟩

/-- What the counts tell about the first `n` tokens: the invariant of the walk. The depth is the
number of opening tags that wait, and as long as no closing tag was stray the tags opened are those
closed and those that wait. -/
structure Tallies (tokens : List Token) (n : Nat) (s : BodyScan) : Prop where
  errors : s.errors = [] ↔ (∀ t ∈ tokens.take n, NameFits t) ∧ ClosingsPaired tokens n
  malformed : s.malformed = [] ↔ ∀ t ∈ tokens.take n, t.tag? ≠ some .unknown
  guardErrors : s.guardErrors = [] ↔ ∀ t ∈ tokens.take n, GuardFits t
  placeholders : s.unclosedPlaceholders = 0 ↔ ∀ t ∈ tokens.take n, TextAvoids '{' '{' t
  tags : s.unclosedTags = 0 ↔ ∀ t ∈ tokens.take n, TextAvoids '{' '%' t
  depth : s.depth = (waitingAfter tokens n).length
  balance : s.errors = [] → s.opened = s.closed + s.depth

variable {tokens : List Token} {n : Nat}

/-- **One more token is told of as well**: its `Effect` takes the invariant one place further. -/
theorem Tallies.succ (h : Tallies tokens n s) (ht : tokens[n]? = some t) (he : Effect s s' t) :
    Tallies tokens (n + 1) s' := by
  have htake : tokens.take (n + 1) = tokens.take n ++ [t] := by
    rw [List.take_add_one, ht]
    rfl
  have hmem : ∀ P : Token → Prop, (∀ u ∈ tokens.take (n + 1), P u)
      ↔ (∀ u ∈ tokens.take n, P u) ∧ P t := by
    intro P
    rw [htake, List.forall_mem_append, List.forall_mem_singleton]
  have hdepth : s.depth ≠ 0 ↔ waitingAfter tokens n ≠ [] := by
    rw [h.depth, ne_eq, List.length_eq_zero_iff]
  refine ⟨?_, by rw [he.malformed, h.malformed, hmem], by rw [he.guardErrors, h.guardErrors, hmem],
    by rw [he.placeholders, h.placeholders, hmem], by rw [he.tags, h.tags, hmem], ?_, ?_⟩
  · rw [he.errors, h.errors, hmem, closingsPaired_succ ht, hdepth]
    exact and_and_and_comm
  · rw [he.depth, h.depth]
    -- The depth and the waiting tags change alike in each of the four cases.
    cases growth ht with
    | opening ho hpairs hwaiting => simp [ho, hwaiting]
    | closing i hc hpairs hwaiting =>
      simp [hc, Token.opens_eq_false_of_closes hc, hwaiting]
    | stray hc hnone hpairs hwaiting =>
      simp [hc, Token.opens_eq_false_of_closes hc, hnone, hwaiting]
    | other ho hc hpairs hwaiting => simp [ho, hc, hwaiting]
  · intro herrors
    -- Without errors no closing tag stands alone, so the counts stay in balance.
    obtain ⟨hbefore, -, hopen⟩ := he.errors.1 herrors
    have hbalance := h.balance hbefore
    rw [he.opened, he.closed, he.depth]
    cases ho : t.opens with
    | true =>
      simp [Token.closes_eq_false_of_opens ho]
      omega
    | false =>
      cases hc : t.closes with
      | true =>
        have := hopen hc
        simp
        omega
      | false => simpa using hbalance

theorem tallies_start (tokens : List Token) : Tallies tokens 0 start := by
  refine ⟨?_, ?_, ?_, ?_, ?_, ?_, ?_⟩ <;>
    simp [start, ClosingsPaired, waitingAfter, unpairedBefore]

/-- **A walk over tokens tells about all of them.** Induction on the number of tokens, by
`Tallies.succ` at each place. -/
theorem tallies_of_foldlM (hn : n ≤ tokens.length)
    (h : (tokens.take n).foldlM step start = .ok s) : Tallies tokens n s := by
  induction n generalizing s with
  | zero =>
    cases h
    exact tallies_start tokens
  | succ n ih =>
    have ht : tokens[n]? = some tokens[n] := List.getElem?_eq_getElem hn
    rw [List.take_add_one, ht, Option.toList_some, List.foldlM_append] at h
    obtain ⟨s', hbefore, hlast⟩ := bind_eq_ok_iff.1 h
    obtain ⟨s'', hstep, ⟨⟩⟩ := bind_eq_ok_iff.1 hlast
    exact (ih (by omega) hbefore).succ ht (effect_of_step hstep)

/-- The check has no errors exactly if none of its lists and counts shows one, and as many tags were
opened as closed. -/
theorem allErrors_eq_nil_iff : s.allErrors = [] ↔ s.errors = [] ∧ s.opened = s.closed
    ∧ s.malformed = [] ∧ s.guardErrors = [] ∧ s.unclosedPlaceholders = 0 ∧ s.unclosedTags = 0 := by
  simp [allErrors]

/-- Where every closing tag has a partner, every tag has one if no opening tag waits. -/
theorem waitingAfter_eq_nil_iff (hclosings : ClosingsPaired tokens tokens.length) :
    waitingAfter tokens tokens.length = []
      ↔ ∀ i t, tokens[i]? = some t → t.opens = true ∨ t.closes = true → i ∈ pairedTags tokens := by
  constructor
  · rintro hnil i t ht (ho | hc)
    · by_contra hnot
      have hi : i ∈ waitingAfter tokens tokens.length := by
        refine mem_waitingAfter.2 ⟨(List.getElem?_eq_some_iff.1 ht).1, by rw [opensAt_eq ht, ho],
          fun pair hpair heq => hnot (mem_pairedTags.2 ⟨pair, hpair, .inl heq.symm⟩)⟩
      simp [hnil] at hi
    · obtain ⟨pair, hpair, heq⟩ := hclosings i (List.getElem?_eq_some_iff.1 ht).1
        (by rw [closesAt_eq ht, hc])
      exact mem_pairedTags.2 ⟨pair, hpair, .inr heq.symm⟩
  · intro hpaired
    refine List.eq_nil_iff_forall_not_mem.2 fun i hi => ?_
    obtain ⟨hlt, ho, hnone⟩ := mem_waitingAfter.1 hi
    have ht : tokens[i]? = some tokens[i] := List.getElem?_eq_getElem hlt
    rw [opensAt_eq ht] at ho
    obtain ⟨pair, hpair, heq | heq⟩ := mem_pairedTags.1 (hpaired i _ ht (.inl ho))
    · exact hnone pair hpair heq.symm
    · have hc := (lt_of_mem_partnersUpTo hpair).2.2.2
      rw [← heq, closesAt_eq ht, Token.closes_eq_false_of_opens ho] at hc
      exact Bool.false_ne_true hc

/-- In a well-formed token list every closing tag has a partner. -/
theorem closingsPaired_of_isWellFormed (h : IsWellFormed tokens) :
    ClosingsPaired tokens tokens.length := by
  intro i hi hc
  have ht : tokens[i]? = some tokens[i] := List.getElem?_eq_getElem hi
  rw [closesAt_eq ht] at hc
  have htag : tokens[i].tag? ≠ none := by simp [Token.closes_iff.1 hc]
  obtain ⟨pair, hpair, heq | heq⟩ := mem_pairedTags.1 (h.tags i _ ht htag).2
  · have ho := (lt_of_mem_partnersUpTo hpair).2.2.1
    rw [← heq, opensAt_eq ht, Token.opens_eq_false_of_closes hc] at ho
    exact absurd ho Bool.false_ne_true
  · exact ⟨pair, hpair, heq.symm⟩

/-- A tag is unknown exactly if it is one and neither opens a span nor closes one. -/
theorem tag?_eq_unknown_iff : t.tag? = some .unknown
    ↔ t.tag? ≠ none ∧ t.opens = false ∧ t.closes = false := by
  rw [Token.opens, Token.closes]
  cases t.tag? with
  | none => simp
  | some tag => cases tag <;> simp

/-- **The counts show no error exactly if the tokens are well-formed.** Counting is enough: if no
closing tag was stray and as many tags were opened as closed, no opening tag waits
(`waitingAfter_eq_nil_iff`). -/
theorem Tallies.allErrors_eq_nil_iff (h : Tallies tokens tokens.length s) :
    s.allErrors = [] ↔ IsWellFormed tokens := by
  obtain ⟨herrors, hmalformed, hguards, hplaceholders, htags, hdepth, hbalance⟩ := h
  rw [List.take_length] at herrors hmalformed hguards hplaceholders htags
  rw [BodyScan.allErrors_eq_nil_iff]
  constructor
  · rintro ⟨hnone, hbalanced, hknown, hread, hfirst, hsecond⟩
    obtain ⟨hnames, hclosings⟩ := herrors.1 hnone
    have hclosed : waitingAfter tokens tokens.length = [] := by
      have := hbalance hnone
      rw [← List.length_eq_zero_iff]
      omega
    refine ⟨hnames, fun i t ht htag => ?_, hguards.1 hread,
      fun t ht => ⟨hplaceholders.1 hfirst t ht, htags.1 hsecond t ht⟩⟩
    have hkind : t.opens = true ∨ t.closes = true := by
      by_contra hnot
      rw [not_or, Bool.not_eq_true, Bool.not_eq_true] at hnot
      exact hmalformed.1 hknown t (List.mem_of_getElem? ht) (tag?_eq_unknown_iff.2 ⟨htag, hnot⟩)
    exact ⟨hkind, (waitingAfter_eq_nil_iff hclosings).1 hclosed i t ht hkind⟩
  · intro hwell
    have hclosings := closingsPaired_of_isWellFormed hwell
    have hnone := herrors.2 ⟨hwell.names, hclosings⟩
    have hclosed : waitingAfter tokens tokens.length = [] := by
      refine (waitingAfter_eq_nil_iff hclosings).2 fun i t ht hkind => (hwell.tags i t ht ?_).2
      rcases hkind with ho | hc
      · simp [Token.tag?_of_opens ho]
      · simp [Token.closes_iff.1 hc]
    have hbalanced := hbalance hnone
    rw [hdepth, hclosed] at hbalanced
    refine ⟨hnone, hbalanced, hmalformed.2 fun t ht hunknown => ?_, hguards.2 hwell.guards,
      hplaceholders.2 fun t ht => (hwell.texts t ht).1, htags.2 fun t ht => (hwell.texts t ht).2⟩
    obtain ⟨i, hi⟩ := List.mem_iff_getElem?.1 ht
    obtain ⟨htag, ho, hc⟩ := tag?_eq_unknown_iff.1 hunknown
    rcases (hwell.tags i t hi htag).1 with h | h
    · exact Bool.false_ne_true (ho.symm.trans h)
    · exact Bool.false_ne_true (hc.symm.trans h)

end BodyScan

/-! ### The check -/

/-- Nothing that is kept of a well-formed token list is a tag: what is kept has no partner, and in
such a list every tag has one. -/
theorem tag?_eq_none_of_mem_keptTokens {tokens ts : List Token} (h : IsWellFormed tokens)
    {configuration : Value} (hkept : keptTokens tokens configuration = .ok ts) {t : Token}
    (ht : t ∈ ts) : t.tag? = none := by
  obtain ⟨i, hi, hunpaired⟩ := unpaired_of_mem_keptTokens hkept ht
  by_contra htag
  exact hunpaired (h.tags i t hi htag).2

/-- Findings about a body are valid exactly if the body is well-formed: the walk ends in counts that
tell about all of its tokens. -/
theorem isValid_iff_of_checkBody {limits : Limits} {body : String} {findings : Findings}
    (h : checkBody limits body = .ok findings) :
    findings.isValid = true ↔ IsWellFormed (tokenize body) := by
  obtain ⟨s, hs, ⟨⟩⟩ := bind_eq_ok_iff.1 h
  have htallies : BodyScan.Tallies (tokenize body) (tokenize body).length s :=
    BodyScan.tallies_of_foldlM le_rfl (by rwa [List.take_length])
  rw [← htallies.allErrors_eq_nil_iff]
  exact List.isEmpty_iff

/-- **What the check of a body accepts.** The check of a body whose guards hold no integer that is
too long accepts it exactly if it is well-formed (`IsWellFormed`), whatever the limits. Resolving
the spans of such a body leaves no tag of it. -/
theorem checkBody_isValid_iff (limits : Limits) (body : String)
    (hshort : ∀ t ∈ tokenize body, t.opens = true → Guard.HasShortIntegers t.guard) :
    ∃ findings, checkBody limits body = .ok findings
      ∧ (findings.isValid = true ↔ IsWellFormed (tokenize body))
      ∧ (findings.isValid = true → ∀ configuration resolved,
        resolveConditionals body configuration = .ok resolved →
          ∃ kept, keptTokens (tokenize body) configuration = .ok kept ∧ resolved = textOf kept
            ∧ ∀ t ∈ kept, t.tag? = none) := by
  obtain ⟨s, hs⟩ := BodyScan.exists_foldlM_eq_ok BodyScan.start hshort
  have hcheck : checkBody limits body
      = .ok (.of s.allErrors (s.tokenWarnings limits ++ lineWarnings limits body.toList)) := by
    rw [checkBody, hs]
    rfl
  have hvalid := isValid_iff_of_checkBody hcheck
  refine ⟨_, hcheck, hvalid, fun h configuration resolved hresolved => ?_⟩
  rw [resolveConditionals, resolveSpans_eq] at hresolved
  obtain ⟨kept, hkept, rfl⟩ := map_eq_ok_iff.1 hresolved
  exact ⟨kept, hkept, rfl, fun t ht => tag?_eq_none_of_mem_keptTokens (hvalid.1 h) hkept ht⟩

/-- A body with a guarded placeholder, whose guard holds the integer one. -/
theorem checkBody_isValid_guarded_placeholder :
    (∀ t ∈ tokenize "\x7b% if a < 1 %\x7d\x7b\x7b b \x7d\x7d\x7b% endif %\x7d",
      t.opens = true → Guard.HasShortIntegers t.guard)
      ∧ ∃ findings,
        checkBody .standard "\x7b% if a < 1 %\x7d\x7b\x7b b \x7d\x7d\x7b% endif %\x7d"
            = .ok findings
          ∧ (findings.isValid = true
            ↔ IsWellFormed
              (tokenize "\x7b% if a < 1 %\x7d\x7b\x7b b \x7d\x7d\x7b% endif %\x7d"))
          ∧ (findings.isValid = true → ∀ configuration resolved,
            resolveConditionals "\x7b% if a < 1 %\x7d\x7b\x7b b \x7d\x7d\x7b% endif %\x7d"
              configuration = .ok resolved →
                ∃ kept, keptTokens
                    (tokenize "\x7b% if a < 1 %\x7d\x7b\x7b b \x7d\x7d\x7b% endif %\x7d")
                    configuration = .ok kept
                  ∧ resolved = textOf kept ∧ ∀ t ∈ kept, t.tag? = none) := by
  have hguards : (tokenize "\x7b% if a < 1 %\x7d\x7b\x7b b \x7d\x7d\x7b% endif %\x7d").map
      Token.guard = ["a < 1", "", ""] := by cbv
  have hshort : ∀ t ∈ tokenize "\x7b% if a < 1 %\x7d\x7b\x7b b \x7d\x7d\x7b% endif %\x7d",
      t.opens = true → Guard.HasShortIntegers t.guard := by
    intro t ht _
    have hmem := List.mem_map_of_mem (f := Token.guard) ht
    rw [hguards] at hmem
    refine Guard.hasShortIntegers_of_length_le ?_
    simp only [List.mem_cons, List.not_mem_nil, or_false] at hmem
    rcases hmem with h | h | h <;> rw [h] <;> decide
  exact ⟨hshort, checkBody_isValid_iff .standard _ hshort⟩

end Templating
