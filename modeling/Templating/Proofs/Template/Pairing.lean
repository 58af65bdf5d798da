import Mathlib.Data.List.Nodup
import Mathlib.Data.List.Range
import Templating.Template.Conditional

/-!
# Partners among tags

Which tags of a template belong together, said without a stack: every closing tag, from left to
right, takes the nearest opening tag before it that has no partner yet. The search for partners
keeps the opening tags that still wait on a stack. Here the two are shown to agree, step by step,
and the stack is shown to hold exactly the opening tags without a partner.

## Main definitions

* `partners`: the pairs of places of tags that belong together.
* `waitingAfter`: the opening tags without a partner after some tokens.
* `Growth`: what one more token does to the two.

## Main results

* `growth`: every token does one of the four things.
* `run_take`: after some tokens the stack holds the opening tags without a partner.
* `pairedTags_eq`: the search finds the places of the pairs, and no others.
-/

namespace Templating.Template

/-! ### Opening and closing tags -/

namespace Token

/-- Whether the token is a tag that opens a span. -/
def opens (t : Token) : Bool :=
  match t.tag? with
  | some (.opening _) => true
  | _ => false

/-- Whether the token is a tag that closes a span. -/
def closes (t : Token) : Bool :=
  match t.tag? with
  | some .closing => true
  | _ => false

/-- A token opens a span if it is a tag with a guard, as `Token.tag?` tells it. -/
theorem opens_iff {t : Token} : t.opens = true ↔ ∃ guard, t.tag? = some (.opening guard) := by
  rw [opens]
  split
  · rename_i guard h
    exact ⟨fun _ => ⟨guard, h⟩, fun _ => rfl⟩
  · rename_i h
    refine ⟨fun hf => absurd hf (by simp), ?_⟩
    rintro ⟨guard, htag⟩
    exact absurd htag (h guard)

/-- A token closes a span if it is the closing tag. -/
theorem closes_iff {t : Token} : t.closes = true ↔ t.tag? = some .closing := by
  rw [closes]
  split
  · rename_i h
    exact ⟨fun _ => h, fun _ => rfl⟩
  · rename_i h
    exact ⟨fun hf => absurd hf (by simp), fun htag => absurd htag h⟩

theorem closes_eq_false_of_opens {t : Token} (h : t.opens = true) : t.closes = false := by
  obtain ⟨guard, htag⟩ := opens_iff.1 h
  simp [closes, htag]

theorem opens_eq_false_of_closes {t : Token} (h : t.closes = true) : t.opens = false := by
  simp [opens, closes_iff.1 h]

/-- An opening tag is told by its guard, `Token.guard`. -/
theorem tag?_of_opens {t : Token} (h : t.opens = true) : t.tag? = some (.opening t.guard) := by
  obtain ⟨guard, htag⟩ := opens_iff.1 h
  simp [Token.guard, htag]

end Token

/-! ### The steps of the search -/

namespace Pairing

/-- An opening tag waits from now on. This and the next three are the branches of `Pairing.step`. -/
theorem step_of_opens {p : Pairing} {entry : Token × Nat} (h : entry.1.opens = true) :
    p.step entry = { p with waiting := entry.2 :: p.waiting } := by
  obtain ⟨guard, htag⟩ := Token.opens_iff.1 h
  simp [step, htag]

/-- A closing tag takes the opening tag that waits for the shortest time. -/
theorem step_of_closes {p : Pairing} {entry : Token × Nat} {i : Nat} {waiting : List Nat}
    (h : entry.1.closes = true) (hwaiting : p.waiting = i :: waiting) :
    p.step entry = ⟨entry.2 :: i :: p.paired, waiting⟩ := by
  simp [step, Token.closes_iff.1 h, hwaiting]

/-- A closing tag stays alone if no opening tag waits. -/
theorem step_of_closes_nil {p : Pairing} {entry : Token × Nat} (h : entry.1.closes = true)
    (hwaiting : p.waiting = []) : p.step entry = p := by
  simp [step, Token.closes_iff.1 h, hwaiting]

/-- A token that is no tag of a span changes nothing. -/
theorem step_of_other {p : Pairing} {entry : Token × Nat} (ho : entry.1.opens = false)
    (hc : entry.1.closes = false) : p.step entry = p := by
  rw [step]
  split
  · rename_i guard htag
    exact absurd (Token.opens_iff.2 ⟨guard, htag⟩) (by simp [ho])
  · rename_i htag
    exact absurd (Token.closes_iff.2 htag) (by simp [hc])
  · rfl

/-- The search over a list of placed tokens, by `Pairing.step` from the first to the last. -/
def run (entries : List (Token × Nat)) : Pairing :=
  entries.foldl step ⟨[], []⟩

@[simp] theorem run_nil : run [] = ⟨[], []⟩ := rfl

/-- One more token at the end takes one more step. -/
@[simp] theorem run_append_singleton (entries : List (Token × Nat)) (entry : Token × Nat) :
    run (entries ++ [entry]) = (run entries).step entry := by
  simp [run]

end Pairing

/-! ### Partners without a stack -/

/-- Whether the token at a place is an opening tag. -/
def opensAt (tokens : List Token) (i : Nat) : Bool :=
  (tokens[i]?).any Token.opens

/-- Whether the token at a place is a closing tag. -/
def closesAt (tokens : List Token) (i : Nat) : Bool :=
  (tokens[i]?).any Token.closes

/-- The places before `n` of opening tags that are in none of the pairs, in order. -/
def unpairedBefore (tokens : List Token) (pairs : List (Nat × Nat)) (n : Nat) : List Nat :=
  (List.range n).filter fun i => opensAt tokens i && !pairs.any fun pair => pair.1 == i

/-- The pairs among the first `n` tokens: each closing tag takes the nearest opening tag before
it that has no partner yet. -/
def partnersUpTo (tokens : List Token) : Nat → List (Nat × Nat)
  | 0 => []
  | n + 1 =>
    let pairs := partnersUpTo tokens n
    if closesAt tokens n then
      match (unpairedBefore tokens pairs n).getLast? with
      | some i => (i, n) :: pairs
      | none => pairs
    else pairs

/-- The pairs of places of tags that belong together, among all tokens of the list
(`partnersUpTo`). -/
def partners (tokens : List Token) : List (Nat × Nat) :=
  partnersUpTo tokens tokens.length

/-- Both places of a pair lie among the tokens looked at, the opening tag first. Induction on the
number of tokens. -/
theorem lt_of_mem_partnersUpTo {tokens : List Token} {n : Nat} {pair : Nat × Nat}
    (h : pair ∈ partnersUpTo tokens n) :
    pair.1 < pair.2 ∧ pair.2 < n ∧ opensAt tokens pair.1 = true
      ∧ closesAt tokens pair.2 = true := by
  induction n with
  | zero => simp [partnersUpTo] at h
  | succ n ih =>
    have weaken : pair ∈ partnersUpTo tokens n →
        pair.1 < pair.2 ∧ pair.2 < n + 1 ∧ opensAt tokens pair.1 = true
          ∧ closesAt tokens pair.2 = true := by
      intro hmem
      obtain ⟨h1, h2, h3⟩ := ih hmem
      exact ⟨h1, by omega, h3⟩
    simp only [partnersUpTo] at h
    split at h
    · rename_i hcloses
      split at h
      · rename_i i hlast
        rcases List.mem_cons.1 h with rfl | h
        · have hi := List.mem_of_getLast? hlast
          simp only [unpairedBefore, List.mem_filter, List.mem_range, Bool.and_eq_true] at hi
          exact ⟨hi.1, by omega, hi.2.1, hcloses⟩
        · exact weaken h
      · exact weaken h
    · exact weaken h

/-! ### The stack holds the unpaired opening tags -/

/-- Whether the token at a place opens a span is asked of the token there. -/
theorem opensAt_eq {tokens : List Token} {n : Nat} {t : Token} (h : tokens[n]? = some t) :
    opensAt tokens n = t.opens := by
  simp [opensAt, h]

theorem closesAt_eq {tokens : List Token} {n : Nat} {t : Token} (h : tokens[n]? = some t) :
    closesAt tokens n = t.closes := by
  simp [closesAt, h]

/-- One more place: the token there is unpaired if it is an opening tag, since no pair of
`partnersUpTo` reaches so far. -/
theorem unpairedBefore_succ (tokens : List Token) (n : Nat) :
    unpairedBefore tokens (partnersUpTo tokens n) (n + 1)
      = unpairedBefore tokens (partnersUpTo tokens n) n
        ++ (if opensAt tokens n then [n] else []) := by
  have hfresh : ((partnersUpTo tokens n).any fun pair => pair.1 == n) = false := by
    rw [List.any_eq_false]
    intro pair hpair
    have := lt_of_mem_partnersUpTo hpair
    simp only [beq_iff_eq]
    omega
  rw [unpairedBefore, List.range_succ, List.filter_append]
  congr 1
  cases h : opensAt tokens n <;> simp [h, hfresh]

/-- No place is listed twice among the unpaired ones. -/
theorem unpairedBefore_nodup (tokens : List Token) (pairs : List (Nat × Nat)) (n : Nat) :
    (unpairedBefore tokens pairs n).Nodup :=
  List.nodup_range.filter _

/-- Pairing the last unpaired opening tag leaves the others unpaired, as no place is listed twice
(`unpairedBefore_nodup`). -/
theorem unpairedBefore_cons {tokens : List Token} {pairs : List (Nat × Nat)} {n i j : Nat}
    {others : List Nat} (h : unpairedBefore tokens pairs n = others ++ [i]) :
    unpairedBefore tokens ((i, j) :: pairs) n = others := by
  have hnodup := unpairedBefore_nodup tokens pairs n
  rw [h] at hnodup
  have hfilter : unpairedBefore tokens ((i, j) :: pairs) n
      = (unpairedBefore tokens pairs n).filter fun k => !(i == k) := by
    rw [unpairedBefore, unpairedBefore, List.filter_filter]
    refine List.filter_congr fun k _ => ?_
    simp only [List.any_cons, Bool.not_or]
    cases opensAt tokens k <;> simp
  have hothers : ∀ k ∈ others, (!(i == k)) = true := by
    intro k hk
    have hne : k ≠ i := fun heq => (List.nodup_append.1 hnodup).2.2 k hk i (by simp) heq
    simpa using fun heq : i = k => hne heq.symm
  rw [hfilter, h, List.filter_append, List.filter_eq_self.2 hothers]
  simp

/-- The opening tags among the first `n` tokens that have no partner there, the latest first, as
`Pairing` has them waiting. -/
def waitingAfter (tokens : List Token) (n : Nat) : List Nat :=
  (unpairedBefore tokens (partnersUpTo tokens n) n).reverse

/-- What waits is an opening tag that is in no pair of `partnersUpTo`. -/
theorem mem_waitingAfter {tokens : List Token} {n i : Nat} : i ∈ waitingAfter tokens n
    ↔ i < n ∧ opensAt tokens i = true ∧ ∀ pair ∈ partnersUpTo tokens n, pair.1 ≠ i := by
  simp [waitingAfter, unpairedBefore]

/-- What one more token does to the pairs (`partnersUpTo`) and to the opening tags without a partner
(`waitingAfter`). -/
inductive Growth (tokens : List Token) (n : Nat) (t : Token) : Prop
  | opening (opens : t.opens = true)
      (pairs : partnersUpTo tokens (n + 1) = partnersUpTo tokens n)
      (waiting : waitingAfter tokens (n + 1) = n :: waitingAfter tokens n)
  | closing (i : Nat) (closes : t.closes = true)
      (pairs : partnersUpTo tokens (n + 1) = (i, n) :: partnersUpTo tokens n)
      (waiting : waitingAfter tokens n = i :: waitingAfter tokens (n + 1))
  | stray (closes : t.closes = true) (none : waitingAfter tokens n = [])
      (pairs : partnersUpTo tokens (n + 1) = partnersUpTo tokens n)
      (waiting : waitingAfter tokens (n + 1) = waitingAfter tokens n)
  | other (opens : t.opens = false) (closes : t.closes = false)
      (pairs : partnersUpTo tokens (n + 1) = partnersUpTo tokens n)
      (waiting : waitingAfter tokens (n + 1) = waitingAfter tokens n)

/-- A token that makes no pair leaves the others waiting, and waits itself if it opens a span. -/
theorem waitingAfter_succ_of_pairs {tokens : List Token} {n : Nat} {t : Token}
    (ht : tokens[n]? = some t) (hpairs : partnersUpTo tokens (n + 1) = partnersUpTo tokens n) :
    waitingAfter tokens (n + 1)
      = (if t.opens then [n] else []) ++ waitingAfter tokens n := by
  rw [waitingAfter, hpairs, unpairedBefore_succ, opensAt_eq ht, List.reverse_append, waitingAfter]
  cases t.opens <;> rfl

/-- **Every token does one of the four things.** The cases are those of the two kinds of tags, and
for a closing tag whether some opening tag is unpaired. -/
theorem growth {tokens : List Token} {n : Nat} {t : Token} (ht : tokens[n]? = some t) :
    Growth tokens n t := by
  by_cases ho : t.opens = true
  · have hc := Token.closes_eq_false_of_opens ho
    have hpairs : partnersUpTo tokens (n + 1) = partnersUpTo tokens n := by
      simp [partnersUpTo, closesAt_eq ht, hc]
    refine .opening ho hpairs ?_
    rw [waitingAfter_succ_of_pairs ht hpairs, ho]
    rfl
  · have ho : t.opens = false := by simpa using ho
    by_cases hc : t.closes = true
    · -- A closing tag takes the last unpaired opening tag, if there is one.
      cases hlast : (unpairedBefore tokens (partnersUpTo tokens n) n).getLast? with
      | none =>
        have hnil := List.getLast?_eq_none_iff.1 hlast
        have hpairs : partnersUpTo tokens (n + 1) = partnersUpTo tokens n := by
          simp [partnersUpTo, closesAt_eq ht, hc, hlast]
        refine .stray hc (by simp [waitingAfter, hnil]) hpairs ?_
        rw [waitingAfter_succ_of_pairs ht hpairs, ho]
        rfl
      | some i =>
        obtain ⟨others, hothers⟩ := List.getLast?_eq_some_iff.1 hlast
        have hpairs : partnersUpTo tokens (n + 1) = (i, n) :: partnersUpTo tokens n := by
          simp [partnersUpTo, closesAt_eq ht, hc, hlast]
        have hunpaired : unpairedBefore tokens ((i, n) :: partnersUpTo tokens n) (n + 1)
            = others := by
          refine unpairedBefore_cons ?_
          rw [unpairedBefore_succ, opensAt_eq ht, hothers, ho]
          simp
        refine .closing i hc hpairs ?_
        simp [waitingAfter, hpairs, hunpaired, hothers]
    · have hc : t.closes = false := by simpa using hc
      have hpairs : partnersUpTo tokens (n + 1) = partnersUpTo tokens n := by
        simp [partnersUpTo, closesAt_eq ht, hc]
      refine .other ho hc hpairs ?_
      rw [waitingAfter_succ_of_pairs ht hpairs, ho]
      rfl

/-- The first `n + 1` placed tokens. -/
theorem take_zipIdx_succ {tokens : List Token} {n : Nat} {t : Token} (ht : tokens[n]? = some t) :
    tokens.zipIdx.take (n + 1) = tokens.zipIdx.take n ++ [(t, n)] := by
  rw [List.take_add_one, List.getElem?_zipIdx, ht]
  simp

/-! ### The search finds the partners -/

/-- The places of the pairs, the closing tag of each before its opening tag. -/
def placesOf (pairs : List (Nat × Nat)) : List Nat :=
  pairs.flatMap fun pair => [pair.2, pair.1]

/-- A place is among those of the pairs if it is one of the two places of some pair. -/
theorem mem_placesOf {pairs : List (Nat × Nat)} {i : Nat} :
    i ∈ placesOf pairs ↔ ∃ pair ∈ pairs, i = pair.1 ∨ i = pair.2 := by
  simp only [placesOf, List.mem_flatMap, List.mem_cons, List.not_mem_nil, or_false]
  exact exists_congr fun pair => and_congr_right fun _ => or_comm

/-- **After `n` tokens the search has found the places of the pairs**, and the opening tags that
wait are those without a partner. Induction on `n`, with `growth` for the next token. -/
theorem run_take (tokens : List Token) {n : Nat} (hn : n ≤ tokens.length) :
    Pairing.run (tokens.zipIdx.take n)
      = ⟨placesOf (partnersUpTo tokens n), waitingAfter tokens n⟩ := by
  induction n with
  | zero => simp [placesOf, partnersUpTo, waitingAfter, unpairedBefore]
  | succ n ih =>
    have ht : tokens[n]? = some tokens[n] := List.getElem?_eq_getElem hn
    rw [take_zipIdx_succ ht, Pairing.run_append_singleton, ih (by omega)]
    cases growth ht with
    | opening ho hpairs hwaiting => rw [Pairing.step_of_opens ho, hpairs, hwaiting]
    | closing i hc hpairs hwaiting =>
      rw [Pairing.step_of_closes hc hwaiting, hpairs]
      rfl
    | stray hc hnone hpairs hwaiting => rw [Pairing.step_of_closes_nil hc hnone, hpairs, hwaiting]
    | other ho hc hpairs hwaiting => rw [Pairing.step_of_other ho hc, hpairs, hwaiting]

/-- **The search finds the places of the pairs, and no others**: `run_take` for the whole list. -/
theorem pairedTags_eq (tokens : List Token) :
    pairedTags tokens = placesOf (partners tokens) := by
  have h := congrArg Pairing.paired (run_take tokens le_rfl)
  rwa [List.take_of_length_le (by simp)] at h

/-- A place is found by `pairedTags` if it is one of the two places of some pair. -/
theorem mem_pairedTags {tokens : List Token} {i : Nat} :
    i ∈ pairedTags tokens ↔ ∃ pair ∈ partners tokens, i = pair.1 ∨ i = pair.2 := by
  rw [pairedTags_eq, mem_placesOf]

end Templating.Template
