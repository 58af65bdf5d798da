import Templating.Proofs.Guard.Faults
import Templating.Proofs.Template.Resolution

/-!
# The guards that are evaluated

The pass over the tokens of a template evaluates the guards of some opening tags, one after the
other, and stops with the first one that fails. Which guards are due can be told from the pairs of
tags alone: those of the opening tags with a partner all of whose enclosing spans are kept. Here
the guards that the pass evaluates are shown to be the due ones, from left to right, up to the
first that fails; and the pass never closes a span where none is open.

## Main definitions

* `Pass.evaluates`, `evaluatedGuards`: the guards that the pass evaluates.
* `IsDue`, `dueGuards`: the guards that are due.
* `upToFault`: a list up to the first place that fails.
* `ClosesOpenSpans`: the pass closes a span only where one is open.

## Main results

* `Pass.step_eq`: a step evaluates one guard, or does not depend on the configuration.
* `evaluatedFrom_flatten`, `due_nestingOf`: the guards evaluated, and those due, over a tree.
* `resolveConditionals_recursive`: what resolving the spans of a template comes to, which guards
  it evaluates, and how it fails.
-/

namespace Templating.Template

/-! ### Steps that evaluate a guard -/

namespace Pass

variable {configuration : Value} {paired : List Nat} {p : Pass} {entry : Token × Nat}

/-- Whether the step for a token evaluates a guard: nothing around the token is dropped, and it is
an opening tag with a partner. -/
def evaluates (paired : List Nat) (p : Pass) (entry : Token × Nat) : Bool :=
  decide (p.dropped = 0) && paired.contains entry.2 && entry.1.opens

/-- The step for a token whose guard is not evaluated. -/
def stepUnseen (paired : List Nat) (p : Pass) (entry : Token × Nat) : Except Fault Pass :=
  if paired.contains entry.2 then
    if entry.1.opens then .ok { p with spans := false :: p.spans, dropped := p.dropped + 1 }
    else p.closeSpan
  else .ok (p.emit entry.1)

/-- A step evaluates the guard of its token, or does not depend on the configuration. The three
conditions of `evaluates` are the three branches of `Pass.step` in turn. -/
theorem step_eq : p.step configuration paired entry
    = if p.evaluates paired entry then
        (Guard.evaluate entry.1.guard configuration).map fun keep =>
          { p with spans := keep :: p.spans, dropped := if keep then 0 else 1 }
      else p.stepUnseen paired entry := by
  by_cases hpaired : paired.contains entry.2 = true
  · by_cases ho : entry.1.opens = true
    · have hstep : p.step configuration paired entry
          = p.openSpan configuration entry.1.guard := by
        simp only [step, hpaired, Token.tag?_of_opens ho, if_true]
      by_cases hlive : p.dropped = 0
      · have hevaluates : p.evaluates paired entry = true := by
          simp only [evaluates, hlive, hpaired, ho, decide_true, Bool.and_true]
        rw [hstep, openSpan_of_live hlive, if_pos hevaluates]
      · rw [hstep, openSpan_of_dropped hlive, if_neg (by simp [evaluates, hlive]), stepUnseen,
          if_pos hpaired, if_pos ho]
    · have hstep : p.step configuration paired entry = p.closeSpan := by
        simp only [step, hpaired, if_true]
        split
        · rename_i guard htag
          exact absurd (Token.opens_iff.2 ⟨guard, htag⟩) ho
        · rfl
      rw [hstep, if_neg (by simp [evaluates, ho]), stepUnseen, if_pos hpaired, if_neg ho]
  · have hstep : p.step configuration paired entry = .ok (p.emit entry.1) := by
      simp only [step, if_neg hpaired]
    have hevaluates : p.evaluates paired entry = false := by
      simp only [evaluates, Bool.and_eq_false_iff]
      exact .inl (.inr (by simpa using hpaired))
    rw [hstep, hevaluates, stepUnseen, if_neg hpaired]
    rfl

end Pass

/-- The tokens whose guards the pass evaluates from some state on, up to the step that fails, that
one included. -/
def evaluatedFrom (configuration : Value) (paired : List Nat) :
    Pass → List (Token × Nat) → List (Token × Nat)
  | _, [] => []
  | p, entry :: rest =>
    (if p.evaluates paired entry then [entry] else []) ++
      match p.step configuration paired entry with
      | .ok p => evaluatedFrom configuration paired p rest
      | .error _ => []

/-- The places of the tokens whose guards are evaluated when the spans of a token list are resolved,
in the order of evaluation. It goes along with the pass of `resolveSpans`, step by step. -/
def evaluatedGuards (tokens : List Token) (configuration : Value) : List Nat :=
  (evaluatedFrom configuration (pairedTags tokens) ⟨[], 0, []⟩ tokens.zipIdx).map Prod.snd

/-- The guards evaluated over two stretches of tokens are those of the first, then those of the
second from the state that the first leads to. Induction on the first. -/
theorem evaluatedFrom_append {configuration : Value} {paired : List Nat} (p : Pass)
    (xs ys : List (Token × Nat)) :
    evaluatedFrom configuration paired p (xs ++ ys)
      = evaluatedFrom configuration paired p xs
        ++ match xs.foldlM (Pass.step configuration paired) p with
          | .ok p => evaluatedFrom configuration paired p ys
          | .error _ => [] := by
  induction xs generalizing p with
  | nil => rfl
  | cons x xs ih =>
    rw [List.cons_append, evaluatedFrom, evaluatedFrom, List.foldlM_cons, List.append_assoc]
    cases p.step configuration paired x with
    | error fault => rfl
    | ok p =>
      congr 1
      exact ih p

/-! ### Guards that are due -/

/-- The guard of the token at a place. -/
def guardAt (tokens : List Token) (i : Nat) : String :=
  ((tokens[i]?).map Token.guard).getD ""

/-- Whether a guard is true. -/
def isTrueGuard (configuration : Value) (guard : String) : Bool :=
  match Guard.evaluate guard configuration with
  | .ok keep => keep
  | .error _ => false

/-- Whether the guard of the token at a place is true. -/
def isTrueAt (tokens : List Token) (configuration : Value) (i : Nat) : Bool :=
  isTrueGuard configuration (guardAt tokens i)

/-- How evaluating a guard fails, if it does. -/
def guardFault? (configuration : Value) (guard : String) : Option Fault :=
  match Guard.evaluate guard configuration with
  | .ok _ => none
  | .error fault => some fault

/-- The opening tag at a place is one of a pair, and every pair around it is kept. -/
def IsDue (pairs : List (Nat × Nat)) (kept : Nat → Bool) (i : Nat) : Prop :=
  (∃ pair ∈ pairs, pair.1 = i) ∧ ∀ pair ∈ pairs, pair.1 < i → i < pair.2 → kept pair.1 = true

/-- Whether the opening tag at a place is due can be decided, because there are finitely many
pairs. -/
instance (pairs : List (Nat × Nat)) (kept : Nat → Bool) (i : Nat) :
    Decidable (IsDue pairs kept i) :=
  inferInstanceAs (Decidable (_ ∧ _))

/-- The places of the opening tags with a partner all of whose enclosing spans are kept (`IsDue`),
from left to right. -/
def dueGuards (tokens : List Token) (configuration : Value) : List Nat :=
  (List.range tokens.length).filter (IsDue (partners tokens) (isTrueAt tokens configuration))

/-- The items up to the first one that fails, that one included. -/
def upToFault {α : Type} (fault? : α → Option Fault) : List α → List α
  | [] => []
  | a :: rest => if (fault? a).isSome then [a] else a :: upToFault fault? rest

section UpToFault

variable {α : Type} {fault? : α → Option Fault}

/-- Nothing is looked at behind an item that fails. Induction along the first list. -/
theorem upToFault_append_of_fault {xs ys : List α} {fault : Fault}
    (h : xs.findSome? fault? = some fault) : upToFault fault? (xs ++ ys) = upToFault fault? xs := by
  induction xs with
  | nil => simp at h
  | cons x xs ih =>
    rw [List.cons_append, upToFault, upToFault]
    cases hx : fault? x with
    | some fault' => rfl
    | none =>
      rw [List.findSome?_cons, hx] at h
      simp [ih h]

/-- Items that do not fail are all looked at, and what follows them after them. -/
theorem upToFault_append_of_none {xs ys : List α} (h : xs.findSome? fault? = none) :
    upToFault fault? (xs ++ ys) = xs ++ upToFault fault? ys := by
  induction xs with
  | nil => rfl
  | cons x xs ih =>
    have hx : fault? x = none := List.findSome?_eq_none_iff.1 h x List.mem_cons_self
    rw [List.findSome?_cons, hx] at h
    simp [upToFault, hx, ih h]

/-- A list none of whose items fails is looked at to its end. -/
theorem upToFault_eq_self {xs : List α} (h : xs.findSome? fault? = none) :
    upToFault fault? xs = xs := by
  have happend : upToFault fault? (xs ++ []) = xs ++ upToFault fault? [] :=
    upToFault_append_of_none h
  rwa [List.append_nil, upToFault, List.append_nil] at happend

/-- Looking at items under other names stops at the same place. -/
theorem map_upToFault {β : Type} {fault?' : β → Option Fault} (f : α → β) {xs : List α}
    (h : ∀ x ∈ xs, fault?' (f x) = fault? x) :
    (upToFault fault? xs).map f = upToFault fault?' (xs.map f) := by
  induction xs with
  | nil => rfl
  | cons x xs ih =>
    have ih := ih fun y hy => h y (List.mem_cons_of_mem _ hy)
    rw [upToFault, List.map_cons, upToFault, h x List.mem_cons_self, ← ih]
    split <;> rfl

end UpToFault

/-! ### The due guards of a tree -/

namespace Nesting

variable {configuration : Value} {tokens : List Token}

/-- The opening tags of the tree's spans all of whose enclosing spans are kept, from left to right.
The recursion is that of `Nesting.kept`. -/
def due (configuration : Value) : Nesting → List (Token × Nat)
  | done => []
  | single _ rest => rest.due configuration
  | span opening body _ rest =>
    opening :: ((if isTrueGuard configuration opening.1.guard then body.due configuration else [])
      ++ rest.due configuration)

/-- How evaluating the guard of a token fails, if it does. -/
def entryFault? (configuration : Value) (entry : Token × Nat) : Option Fault :=
  guardFault? configuration entry.1.guard

/-- Resolving the spans of a tree fails exactly if a due guard does, as the first such one.
Induction on the tree: a span that is dropped has no due guards inside. -/
theorem kept_eq_error_iff {f : Nesting} {fault : Fault} : f.kept configuration = .error fault
    ↔ (f.due configuration).findSome? (entryFault? configuration) = some fault := by
  induction f generalizing fault with
  | done => simp [kept, due]
  | single entry rest ih =>
    rw [due, ← ih, kept]
    cases rest.kept configuration with
    | error fault' => exact Iff.rfl
    | ok after => exact iff_of_false (by rintro ⟨⟩) (by simp)
  | span opening body closing rest ihb ihr =>
    -- Where the span is dropped, and where its body does not fail, the rest decides.
    have hrest : (rest.kept configuration >>= fun after => pure ([] ++ after)) = .error fault
        ↔ (rest.due configuration).findSome? (entryFault? configuration) = some fault := by
      rw [← ihr]
      cases rest.kept configuration with
      | error fault' => exact Iff.rfl
      | ok after => exact iff_of_false (by rintro ⟨⟩) (by simp)
    rw [due, List.findSome?_cons, kept]
    cases htruth : Guard.evaluate opening.1.guard configuration with
    | error fault' =>
      have hfault : entryFault? configuration opening = some fault' := by
        simp [entryFault?, guardFault?, htruth]
      rw [hfault]
      exact ⟨fun h => by cases h; rfl, fun h => by cases h; rfl⟩
    | ok keep =>
      have hfault : entryFault? configuration opening = none := by
        simp [entryFault?, guardFault?, htruth]
      have htrue : isTrueGuard configuration opening.1.guard = keep := by
        simp [isTrueGuard, htruth]
      simp only [hfault, htrue, List.findSome?_append]
      cases keep with
      | false =>
        rw [if_neg Bool.false_ne_true, List.findSome?_nil, Option.none_or]
        exact hrest
      | true =>
        cases hbody : body.kept configuration with
        | error fault' =>
          rw [if_pos rfl, ihb.1 hbody]
          change Except.error fault' = Except.error fault ↔ some fault' = some fault
          simp
        | ok inside =>
          have hnone : (body.due configuration).findSome? (entryFault? configuration) = none := by
            refine Option.eq_none_iff_forall_ne_some.2 fun fault' h => ?_
            rw [ihb.2 h] at hbody
            cases hbody
          rw [if_pos rfl, hnone, Option.none_or, ← hrest]
          change (rest.kept configuration >>= fun after => pure (inside ++ after)) = _ ↔ _
          cases rest.kept configuration with
          | error fault' => exact Iff.rfl
          | ok after => exact iff_of_false (by rintro ⟨⟩) (by rintro ⟨⟩)

/-- If the tree comes to something, no due guard fails, by `kept_eq_error_iff`. -/
theorem findSome?_due_eq_none {f : Nesting} {ts : List Token} (h : f.kept configuration = .ok ts) :
    (f.due configuration).findSome? (entryFault? configuration) = none := by
  refine Option.eq_none_iff_forall_ne_some.2 fun fault hfault => ?_
  rw [kept_eq_error_iff.2 hfault] at h
  cases h

/-- The due guards are guards of tokens of the tree. -/
theorem mem_flatten_of_mem_due {f : Nesting} {entry : Token × Nat}
    (h : entry ∈ f.due configuration) : entry ∈ f.flatten := by
  induction f with
  | done => exact h
  | single first rest ih => exact List.mem_cons_of_mem _ (ih h)
  | span opening body closing rest ihb ihr =>
    rw [due, List.mem_cons, List.mem_append] at h
    rcases h with rfl | h | h
    · exact List.mem_cons_self
    · have hbody : entry ∈ body.due configuration := by
        split at h
        · exact h
        · simp at h
      simp [flatten, ihb hbody]
    · simp [flatten, ihr h]

/-! ### The guards evaluated over a tree -/

theorem evaluates_of_dropped {paired : List Nat} {p : Pass} {entry : Token × Nat}
    (h : p.dropped ≠ 0) : p.evaluates paired entry = false := by
  simp [Pass.evaluates, h]

theorem evaluates_of_closing {paired : List Nat} {p : Pass} {entry : Token × Nat}
    (h : entry.1.closes = true) : p.evaluates paired entry = false := by
  simp [Pass.evaluates, Token.opens_eq_false_of_closes h]

/-- The guard of a tag without a partner is not evaluated. -/
theorem evaluates_of_single {p : Pass} {entry : Token × Nat}
    (h : ∀ pair ∈ partners tokens, pair.1 ≠ entry.2 ∧ pair.2 ≠ entry.2) :
    p.evaluates (pairedTags tokens) entry = false := by
  have hplace : entry.2 ∉ pairedTags tokens := fun hmem => by
    obtain ⟨pair, hpair, heq | heq⟩ := mem_pairedTags.1 hmem
    · exact (h pair hpair).1 heq.symm
    · exact (h pair hpair).2 heq.symm
  simp [Pass.evaluates, hplace]

/-- The guard of an opening tag with a partner is evaluated, unless it stands in a dropped span. All
other tokens are those of the three lemmas before. -/
theorem evaluates_of_opening {p : Pass} {opening closing : Token × Nat} (hlive : p.dropped = 0)
    (ho : opening.1.opens = true) (hpair : (opening.2, closing.2) ∈ partners tokens) :
    p.evaluates (pairedTags tokens) opening = true := by
  have hplace : opening.2 ∈ pairedTags tokens := mem_pairedTags.2 ⟨_, hpair, .inl rfl⟩
  simp [Pass.evaluates, hlive, hplace, ho]

/-- Over a tree inside a dropped span no guard is evaluated. Induction on the tree; the count of
dropped spans stays above zero until the span around the tree is closed. -/
theorem evaluatedFrom_of_dropped {f : Nesting} {p : Pass} (htagged : f.IsTagged)
    (hmatches : f.Matches (partners tokens)) (hdropped : p.dropped ≠ 0) :
    evaluatedFrom configuration (pairedTags tokens) p f.flatten = [] := by
  induction f generalizing p with
  | done => rfl
  | single entry rest ih =>
    have hemit : p.emit entry.1 = p := by simp [Pass.emit, hdropped]
    rw [flatten, evaluatedFrom, evaluates_of_dropped hdropped, Pass.step_of_single hmatches.1,
      hemit]
    exact ih htagged hmatches.2 hdropped
  | span opening body closing rest ihb ihr =>
    obtain ⟨ho, hc, htb, htr⟩ := htagged
    obtain ⟨hpair, hmb, hmr⟩ := hmatches
    let inside : Pass := { p with spans := false :: p.spans, dropped := p.dropped + 1 }
    have hinside : inside.dropped ≠ 0 := Nat.succ_ne_zero _
    rw [flatten, evaluatedFrom, evaluates_of_dropped hdropped, Pass.step_of_opening ho hpair,
      Pass.openSpan_of_dropped hdropped]
    change [] ++ evaluatedFrom configuration (pairedTags tokens) inside _ = []
    rw [evaluatedFrom_append, ihb htb hmb hinside, Pass.foldlM_step_of_dropped htb hmb hinside]
    change [] ++ evaluatedFrom configuration (pairedTags tokens) inside
      (closing :: rest.flatten) = []
    rw [evaluatedFrom, evaluates_of_dropped hinside, Pass.step_of_closing hc hpair]
    exact ihr htr hmr hdropped

/-- **Over a tree inside no dropped span the due guards are evaluated, up to the first that fails.**
Induction on the tree: the body of a span that is dropped is passed over by
`evaluatedFrom_of_dropped`. -/
theorem evaluatedFrom_flatten {f : Nesting} {p : Pass} (htagged : f.IsTagged)
    (hmatches : f.Matches (partners tokens)) (hlive : p.dropped = 0) :
    evaluatedFrom configuration (pairedTags tokens) p f.flatten
      = upToFault (entryFault? configuration) (f.due configuration) := by
  induction f generalizing p with
  | done => rfl
  | single entry rest ih =>
    have hemit : p.emit entry.1 = p.keep [entry.1] := by simp [Pass.emit, Pass.keep, hlive]
    rw [flatten, evaluatedFrom, evaluates_of_single hmatches.1, Pass.step_of_single hmatches.1,
      hemit]
    exact ih htagged hmatches.2 hlive
  | span opening body closing rest ihb ihr =>
    obtain ⟨ho, hc, htb, htr⟩ := htagged
    obtain ⟨hpair, hmb, hmr⟩ := hmatches
    rw [flatten, evaluatedFrom, evaluates_of_opening hlive ho hpair,
      Pass.step_of_opening ho hpair, Pass.openSpan_of_live hlive, due]
    cases htruth : Guard.evaluate opening.1.guard configuration with
    | error fault =>
      have hfault : entryFault? configuration opening = some fault := by
        simp [entryFault?, guardFault?, htruth]
      rw [upToFault, hfault]
      rfl
    | ok keep =>
      have hfault : entryFault? configuration opening = none := by
        simp [entryFault?, guardFault?, htruth]
      have htrue : isTrueGuard configuration opening.1.guard = keep := by
        simp [isTrueGuard, htruth]
      let inside : Pass :=
        { p with spans := keep :: p.spans, dropped := if keep then 0 else 1 }
      change opening :: evaluatedFrom configuration (pairedTags tokens) inside _ = _
      rw [upToFault, hfault, htrue, evaluatedFrom_append]
      refine congrArg (opening :: ·) ?_
      cases keep with
      | false =>
        -- The body is passed over, and closing the span gives back the state before it.
        have hinside : inside.dropped ≠ 0 := Nat.one_ne_zero
        rw [evaluatedFrom_of_dropped htb hmb hinside,
          Pass.foldlM_step_of_dropped htb hmb hinside]
        change [] ++ evaluatedFrom configuration (pairedTags tokens) inside
          (closing :: rest.flatten) = _
        have hclose : inside.closeSpan = .ok p := by
          simp [Pass.closeSpan, inside, ← hlive]
        rw [evaluatedFrom, evaluates_of_closing hc, Pass.step_of_closing hc hpair, hclose]
        exact ihr htr hmr hlive
      | true =>
        rw [ihb htb hmb (p := inside) rfl, Pass.foldlM_step_flatten htb hmb (p := inside) rfl,
          if_pos rfl]
        cases hbody : body.kept configuration with
        | error fault =>
          rw [upToFault_append_of_fault (kept_eq_error_iff.1 hbody)]
          exact List.append_nil _
        | ok ts =>
          -- No guard of the body fails, so the pass comes to the closing tag and to the rest.
          have hnone := findSome?_due_eq_none hbody
          rw [upToFault_append_of_none hnone, upToFault_eq_self hnone]
          refine congrArg (body.due configuration ++ ·) ?_
          change evaluatedFrom configuration (pairedTags tokens) (inside.keep ts)
            (closing :: rest.flatten) = _
          have hclose : (inside.keep ts).closeSpan = .ok (p.keep ts) := by
            simp [Pass.closeSpan, Pass.keep, inside, ← hlive]
          rw [evaluatedFrom, evaluates_of_closing hc, Pass.step_of_closing hc hpair, hclose]
          exact ihr htr hmr (p := p.keep ts) hlive

/-! ### The places of the due guards -/

/-- The places of the tokens of the tree. -/
def places (f : Nesting) : List Nat :=
  f.flatten.map Prod.snd

theorem mem_places_of_mem_pairs {f : Nesting} {pair : Nat × Nat} (h : pair ∈ f.pairs) :
    pair.1 ∈ f.places ∧ pair.2 ∈ f.places := by
  obtain ⟨⟨a, ha, ha'⟩, b, hb, hb'⟩ := mem_flatten_of_mem_pairs h
  exact ⟨List.mem_map.2 ⟨a, ha, ha'⟩, List.mem_map.2 ⟨b, hb, hb'⟩⟩

/-- In a sorted span the places of the body lie between those of the tags, and the places of the
rest behind them, as `isSorted_span` says of the tokens. -/
theorem places_of_isSorted_span {opening closing : Token × Nat} {body rest : Nesting}
    (h : (span opening body closing rest).IsSorted) :
    (∀ i ∈ body.places, opening.2 < i ∧ i < closing.2) ∧ opening.2 < closing.2
      ∧ ∀ i ∈ rest.places, closing.2 < i := by
  obtain ⟨hbody, hspan, hrest, -⟩ := isSorted_span h
  refine ⟨fun i hi => ?_, hspan, fun i hi => ?_⟩
  · obtain ⟨a, ha, rfl⟩ := List.mem_map.1 hi
    exact hbody a ha
  · obtain ⟨b, hb, rfl⟩ := List.mem_map.1 hi
    exact hrest b hb

section Due

variable {opening closing : Token × Nat} {body rest : Nesting} {live : Nat → Bool}
  (hsorted : (span opening body closing rest).IsSorted)

include hsorted

/-- The opening tag of a span at the outermost level is due: no pair of the tree lies around it. -/
theorem isDue_opening : IsDue (span opening body closing rest).pairs live opening.2 := by
  obtain ⟨hbody, hspan, hrest⟩ := places_of_isSorted_span hsorted
  refine ⟨⟨_, List.mem_cons_self, rfl⟩, fun pair hpair hlt _ => ?_⟩
  simp only [pairs, List.mem_cons, List.mem_append] at hpair
  rcases hpair with rfl | hpair | hpair
  · omega
  · have := hbody _ (mem_places_of_mem_pairs hpair).1
    omega
  · have := hrest _ (mem_places_of_mem_pairs hpair).1
    omega

/-- A closing tag is not due. -/
theorem not_isDue_closing : ¬ IsDue (span opening body closing rest).pairs live closing.2 := by
  obtain ⟨hbody, hspan, hrest⟩ := places_of_isSorted_span hsorted
  rintro ⟨⟨pair, hpair, heq⟩, -⟩
  simp only [pairs, List.mem_cons, List.mem_append] at hpair
  rcases hpair with rfl | hpair | hpair
  · omega
  · have := hbody _ (mem_places_of_mem_pairs hpair).1
    omega
  · have := hrest _ (mem_places_of_mem_pairs hpair).1
    omega

/-- Inside a span a tag is due if the span is kept and the tag is due in the body. The pairs around
it are that span and those of the body. -/
theorem isDue_body {i : Nat} (hi : i ∈ body.places) :
    IsDue (span opening body closing rest).pairs live i
      ↔ live opening.2 = true ∧ IsDue body.pairs live i := by
  obtain ⟨hbody, hspan, hrest⟩ := places_of_isSorted_span hsorted
  have hplace := hbody i hi
  constructor
  · rintro ⟨⟨pair, hpair, heq⟩, hkept⟩
    refine ⟨hkept (opening.2, closing.2) List.mem_cons_self hplace.1 hplace.2, ⟨pair, ?_, heq⟩,
      fun pair' hpair' => hkept pair' (by simp [pairs, hpair'])⟩
    simp only [pairs, List.mem_cons, List.mem_append] at hpair
    rcases hpair with rfl | hpair | hpair
    · omega
    · exact hpair
    · have := hrest _ (mem_places_of_mem_pairs hpair).1
      omega
  · rintro ⟨hopening, ⟨pair, hpair, heq⟩, hkept⟩
    refine ⟨⟨pair, by simp [pairs, hpair], heq⟩, fun pair' hpair' h1 h2 => ?_⟩
    simp only [pairs, List.mem_cons, List.mem_append] at hpair'
    rcases hpair' with rfl | hpair' | hpair'
    · exact hopening
    · exact hkept pair' hpair' h1 h2
    · have := hrest _ (mem_places_of_mem_pairs hpair').1
      omega

/-- Behind a span a tag is due if it is due in the rest, since neither the span nor a pair in its
body goes so far. -/
theorem isDue_rest {i : Nat} (hi : i ∈ rest.places) :
    IsDue (span opening body closing rest).pairs live i ↔ IsDue rest.pairs live i := by
  obtain ⟨hbody, hspan, hrest⟩ := places_of_isSorted_span hsorted
  have hplace := hrest i hi
  constructor
  · rintro ⟨⟨pair, hpair, heq⟩, hkept⟩
    refine ⟨⟨pair, ?_, heq⟩, fun pair' hpair' => hkept pair' (by simp [pairs, hpair'])⟩
    simp only [pairs, List.mem_cons, List.mem_append] at hpair
    rcases hpair with rfl | hpair | hpair
    · omega
    · have := hbody _ (mem_places_of_mem_pairs hpair).1
      omega
    · exact hpair
  · rintro ⟨⟨pair, hpair, heq⟩, hkept⟩
    refine ⟨⟨pair, by simp [pairs, hpair], heq⟩, fun pair' hpair' h1 h2 => ?_⟩
    simp only [pairs, List.mem_cons, List.mem_append] at hpair'
    rcases hpair' with rfl | hpair' | hpair'
    · omega
    · have := hbody _ (mem_places_of_mem_pairs hpair').2
      omega
    · exact hkept pair' hpair' h1 h2

end Due

/-- The due guards of a tree are those at the places that are due (`IsDue`). Induction on the tree,
with `isDue_body` and `isDue_rest` for the two parts of a span. -/
theorem map_due {f : Nesting} (hsorted : f.IsSorted)
    (hguard : ∀ entry ∈ f.flatten, guardAt tokens entry.2 = entry.1.guard) :
    (f.due configuration).map Prod.snd
      = f.places.filter (IsDue f.pairs (isTrueAt tokens configuration)) := by
  induction f with
  | done => rfl
  | single entry rest ih =>
    -- The token stands before all places of the rest, so no pair of the rest begins with it.
    have hfirst : ¬ IsDue rest.pairs (isTrueAt tokens configuration) entry.2 := by
      rintro ⟨⟨pair, hpair, heq⟩, -⟩
      obtain ⟨a, ha, ha'⟩ := List.mem_map.1 (mem_places_of_mem_pairs hpair).1
      have := (List.pairwise_cons.1 hsorted).1 a ha
      omega
    rw [due, ih (List.Pairwise.of_cons hsorted) fun e he => hguard e (List.mem_cons_of_mem _ he)]
    exact (List.filter_cons_of_neg (by simpa using hfirst)).symm
  | span opening body closing rest ihb ihr =>
    obtain ⟨-, -, -, hsb, hsr⟩ := isSorted_span hsorted
    have ihb := ihb hsb fun e he => hguard e (by simp [flatten, he])
    have ihr := ihr hsr fun e he => hguard e (by simp [flatten, he])
    have hplaces : (span opening body closing rest).places
        = opening.2 :: (body.places ++ closing.2 :: rest.places) := by
      simp [places, flatten]
    have hopening : isTrueAt tokens configuration opening.2
        = isTrueGuard configuration opening.1.guard := by
      rw [isTrueAt, hguard opening List.mem_cons_self]
    -- The places of the span are the opening tag, those of the body, the closing tag and those of
    -- the rest; the filter is computed for each of the four.
    have hbody : body.places.filter (IsDue (span opening body closing rest).pairs
          (isTrueAt tokens configuration))
        = if isTrueGuard configuration opening.1.guard then (body.due configuration).map Prod.snd
          else [] := by
      cases htrue : isTrueGuard configuration opening.1.guard with
      | false =>
        refine List.filter_eq_nil_iff.2 fun i hi => ?_
        simp [isDue_body hsorted hi, hopening, htrue]
      | true =>
        rw [ihb, if_pos rfl]
        refine List.filter_congr fun i hi => decide_eq_decide.2 ?_
        simp [isDue_body hsorted hi, hopening, htrue]
    have hrest : rest.places.filter (IsDue (span opening body closing rest).pairs
          (isTrueAt tokens configuration))
        = rest.places.filter (IsDue rest.pairs (isTrueAt tokens configuration)) :=
      List.filter_congr fun i hi => decide_eq_decide.2 (isDue_rest hsorted hi)
    rw [hplaces, List.filter_cons_of_pos (by simpa using isDue_opening hsorted),
      List.filter_append, List.filter_cons_of_neg (by simpa using not_isDue_closing hsorted),
      hbody, hrest, due, List.map_cons, List.map_append, ihr]
    cases isTrueGuard configuration opening.1.guard <;> rfl

end Nesting

/-! ### The guards of a token list -/

section Tokens

variable (tokens : List Token) (configuration : Value)

/-- The guard at the place of a token is that token's. -/
theorem guardAt_of_mem_zipIdx {tokens : List Token} {entry : Token × Nat}
    (h : entry ∈ tokens.zipIdx) : guardAt tokens entry.2 = entry.1.guard := by
  have hget : tokens[entry.2]? = some entry.1 := List.mk_mem_zipIdx_iff_getElem?.1 h
  rw [guardAt, hget]
  rfl

/-- The due guards of the tree of a token list (`nestingOf`) are the due guards of the list, by
`map_due`. -/
theorem due_nestingOf : ((nestingOf tokens).due configuration).map Prod.snd
    = dueGuards tokens configuration := by
  have hguard : ∀ entry ∈ (nestingOf tokens).flatten,
      guardAt tokens entry.2 = entry.1.guard := by
    rw [flatten_nestingOf]
    exact fun entry h => guardAt_of_mem_zipIdx h
  have hplaces : (nestingOf tokens).places = List.range tokens.length := by
    rw [Nesting.places, flatten_nestingOf, List.zipIdx_map_snd, List.range_eq_range']
  rw [Nesting.map_due (isSorted_nestingOf tokens) hguard, hplaces, dueGuards]
  refine List.filter_congr fun i _ => decide_eq_decide.2 ?_
  simp only [IsDue, mem_pairs_nestingOf]

/-- How evaluating the guard at a place fails, if it does. -/
def faultAt (i : Nat) : Option Fault :=
  guardFault? configuration (guardAt tokens i)

/-- A due guard fails at its place as it does in the tree, because the token there is the tree's
(`flatten_nestingOf`). -/
theorem faultAt_of_mem_due {entry : Token × Nat}
    (h : entry ∈ (nestingOf tokens).due configuration) :
    faultAt tokens configuration entry.2 = Nesting.entryFault? configuration entry := by
  have hmem := Nesting.mem_flatten_of_mem_due h
  rw [flatten_nestingOf] at hmem
  rw [faultAt, guardAt_of_mem_zipIdx hmem]
  rfl

/-- **The pass evaluates the due guards from left to right, up to the first that fails**:
`evaluatedFrom_flatten` for the tree of the whole token list. -/
theorem evaluatedGuards_eq : evaluatedGuards tokens configuration
    = upToFault (faultAt tokens configuration) (dueGuards tokens configuration) := by
  have hpass : evaluatedFrom configuration (pairedTags tokens) ⟨[], 0, []⟩
      (nestingOf tokens).flatten = _ :=
    Nesting.evaluatedFrom_flatten (isTagged_nestingOf tokens) (matches_nestingOf tokens) rfl
  rw [flatten_nestingOf] at hpass
  rw [evaluatedGuards, hpass, ← due_nestingOf]
  exact map_upToFault Prod.snd fun entry h => faultAt_of_mem_due tokens configuration h

/-- The first due guard to fail is the same by its place and in the tree. -/
theorem findSome?_dueGuards :
    (dueGuards tokens configuration).findSome? (faultAt tokens configuration)
      = ((nestingOf tokens).due configuration).findSome? (Nesting.entryFault? configuration) := by
  rw [← due_nestingOf, List.findSome?_map]
  have hsame : ∀ entry ∈ (nestingOf tokens).due configuration, _ :=
    fun _ h => faultAt_of_mem_due tokens configuration h
  generalize (nestingOf tokens).due configuration = entries at hsame
  induction entries with
  | nil => rfl
  | cons entry entries ih =>
    have hrest := ih fun e he => hsame e (List.mem_cons_of_mem _ he)
    rw [List.findSome?_cons, List.findSome?_cons, hrest, Function.comp,
      hsame entry List.mem_cons_self]

/-- Resolving the spans fails exactly if a due guard does, as the first such one, by
`kept_eq_error_iff` for the tree of the token list. -/
theorem resolveSpans_eq_error_iff {fault : Fault} :
    resolveSpans tokens configuration = .error fault
      ↔ (dueGuards tokens configuration).findSome? (faultAt tokens configuration)
        = some fault := by
  rw [findSome?_dueGuards, ← Nesting.kept_eq_error_iff, kept_nestingOf, resolveSpans_eq]
  cases keptTokens tokens configuration with
  | error fault' => simp [Except.map]
  | ok ts => simp [Except.map]

/-- Whenever the pass comes to a tag that closes a span, a span is open. -/
def ClosesOpenSpans : Prop :=
  ∀ before entry after pass, tokens.zipIdx = before ++ entry :: after →
    before.foldlM (Pass.step configuration (pairedTags tokens)) ⟨[], 0, []⟩ = .ok pass →
    entry.2 ∈ pairedTags tokens → entry.1.opens = false → pass.spans ≠ []

/-- **A span is closed only where one is open.** A span closed where none is open would make the
whole fail in a way in which no guard does (`resolveSpans_eq_error_iff`). -/
theorem closesOpenSpans : ClosesOpenSpans tokens configuration := by
  intro before entry after pass hsplit hpass hpaired hopens hnil
  have hstep : pass.step configuration (pairedTags tokens) entry = .error .noOpenSpan := by
    have hcontains : (pairedTags tokens).contains entry.2 = true := by simpa using hpaired
    rw [Pass.step_eq, if_neg (by simp [Pass.evaluates, hopens]), Pass.stepUnseen, hcontains, hopens]
    simp [Pass.closeSpan, hnil]
  have hrun : resolveSpans tokens configuration = .error .noOpenSpan := by
    rw [resolveSpans, hsplit, List.foldlM_append, hpass]
    change (List.foldlM (Pass.step configuration (pairedTags tokens)) pass (entry :: after)
      >>= fun pass => pure (Text.concat pass.kept.reverse)) = _
    rw [List.foldlM_cons, hstep]
    rfl
  obtain ⟨i, -, hfault⟩ := List.exists_of_findSome?_eq_some
    ((resolveSpans_eq_error_iff tokens configuration).1 hrun)
  have hguard : Guard.evaluate (guardAt tokens i) configuration = .error .noOpenSpan := by
    rw [faultAt, guardFault?] at hfault
    split at hfault
    · simp at hfault
    · rename_i fault heq
      obtain rfl : fault = .noOpenSpan := by simpa using hfault
      exact heq
  rcases Guard.evaluate_error hguard with h | h <;> cases h

end Tokens

/-- **Resolving the spans of a template is the recursion on its spans.** What it comes to is what
the recursion on its tokens keeps (`keptTokens`). The guards evaluated are those of the paired
opening tags all of whose enclosing spans are kept, from left to right up to the first that fails,
and that one is the failure of the whole. A span is closed only where one is open. -/
theorem resolveConditionals_recursive (template : String) (configuration : Value) :
    resolveConditionals template configuration
        = (keptTokens (tokenize template) configuration).map textOf
      ∧ evaluatedGuards (tokenize template) configuration
        = upToFault (faultAt (tokenize template) configuration)
          (dueGuards (tokenize template) configuration)
      ∧ (∀ fault, resolveConditionals template configuration = .error fault
        ↔ (dueGuards (tokenize template) configuration).findSome?
          (faultAt (tokenize template) configuration) = some fault)
      ∧ ClosesOpenSpans (tokenize template) configuration :=
  ⟨resolveSpans_eq _ _, evaluatedGuards_eq _ _, fun _ => resolveSpans_eq_error_iff _ _,
    closesOpenSpans _ _⟩

end Templating.Template
