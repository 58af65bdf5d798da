import Templating.Proofs.Check.Body
import Templating.Proofs.Guard.Reading
import Templating.Proofs.Number.Overflow
import Templating.Proofs.Template.EvaluatedGuards
import Templating.Proofs.Template.Reordering

/-!
# Rendering what the check accepts

The guards of a body that the check accepts can be read. Rendering the body can then fail in one
way only, if no integer of the configuration is beyond the floating point numbers: a guard that is
evaluated asks for the truth of an integer literal that is. Everything else that is asked for has
an answer, comparisons of any two values and the text of any value included.

## Main definitions

* `Value.hasWideInteger`: configurations with an integer of more than 63 bits.
* `Expr.Stumbles`: expressions whose evaluation comes to the truth of too large a literal.

## Main results

* `Expr.holds_eq_error_iff`: evaluating an expression fails only if it stumbles.
* `exists_renderText_iff`: an accepted body is rendered unless one of its due guards stumbles.
* `exists_renderText_of_literals`: it is rendered if its guards have no such literal.
-/

namespace Templating

open Templating.Template Templating.Text

/-! ### Numbers at a path -/

namespace Value

/-- Whether a number is an integer of more than 63 bits. Those of up to 63 bits are all within the
floating point numbers (`Guard.not_isBeyondFloats_of_lt`). -/
def isWide : Number → Bool
  | .int i => decide (2 ^ 63 ≤ i.natAbs)
  | .binary _ => false

/-- Whether an integer somewhere in the value has more than 63 bits: the numbers of a configuration
are asked for it by `anyNumber`, at any depth. -/
def hasWideInteger (v : Value) : Bool :=
  v.anyNumber isWide

section Numbers

variable {test test' : Number → Bool}

mutual

/-- Numbers that satisfy a test satisfy a weaker one. Mutual induction with the items and the
entries. -/
theorem anyNumber_of_imp (himp : ∀ n, test n = true → test' n = true) : ∀ {v : Value},
    v.anyNumber test = true → v.anyNumber test' = true
  | number n, h => himp n h
  | list _, h => anyNumberOfItems_of_imp himp h
  | mapping _, h => anyNumberOfEntries_of_imp himp h

/-- The part of `anyNumber_of_imp` for the items of a list. -/
theorem anyNumberOfItems_of_imp (himp : ∀ n, test n = true → test' n = true) :
    ∀ {items : List Value},
    anyNumberOfItems test items = true → anyNumberOfItems test' items = true
  | v :: rest, h => by
    rw [anyNumberOfItems, Bool.or_eq_true] at h ⊢
    exact h.imp (anyNumber_of_imp himp) (anyNumberOfItems_of_imp himp)

/-- The part of `anyNumber_of_imp` for the entries of a mapping. -/
theorem anyNumberOfEntries_of_imp (himp : ∀ n, test n = true → test' n = true) :
    ∀ {entries : List (String × Value)},
    anyNumberOfEntries test entries = true → anyNumberOfEntries test' entries = true
  | (key, v) :: rest, h => by
    rw [anyNumberOfEntries, Bool.or_eq_true] at h ⊢
    exact h.imp (anyNumber_of_imp himp) (anyNumberOfEntries_of_imp himp)

end

/-- What stands under a key holds no other numbers than the mapping does. -/
theorem anyNumber_of_entry? {v w : Value} {key : String} (hw : v.entry? key = some w)
    (h : w.anyNumber test = true) : v.anyNumber test = true := by
  cases v with
  | mapping entries =>
    rw [anyNumber]
    replace hw : Entries.get? key entries = some w := hw
    induction entries with
    | nil => cases hw
    | cons entry rest ih =>
      rw [anyNumberOfEntries, Bool.or_eq_true]
      rw [Entries.get?_cons] at hw
      split at hw
      · cases hw
        exact .inl h
      · exact .inr (ih hw)
  | _ => cases hw

/-- What stands at a path holds no other numbers than the configuration. Induction on the segments;
`anyNumber_of_entry?` is the step. -/
theorem anyNumber_of_resolve {v w : Value} {path : String} (hw : v.resolve path = some w)
    (h : w.anyNumber test = true) : v.anyNumber test = true := by
  rw [resolve] at hw
  generalize segments path = steps at hw
  induction steps generalizing v with
  | nil =>
    cases hw
    exact h
  | cons segment rest ih =>
    rw [List.foldlM_cons] at hw
    obtain ⟨w', hw', hrest⟩ := Option.bind_eq_some_iff.1 hw
    rw [step?] at hw'
    split at hw'
    · cases hw'
    · exact anyNumber_of_entry? hw' (ih hrest)

end Numbers

/-- So no integer at a path is wide if none is in the configuration. -/
theorem hasWideInteger_of_resolve {configuration v : Value} {path : String}
    (hsmall : configuration.hasWideInteger = false) (hv : configuration.resolve path = some v) :
    v.hasWideInteger = false := by
  rw [Bool.eq_false_iff] at hsmall ⊢
  exact fun h => hsmall (anyNumber_of_resolve hv h)

/-- An integer that is too long to be written has more than 63 bits, so a configuration without wide
integers can be inserted anywhere. -/
theorem hasOverlongInteger_of_hasWideInteger {v : Value} (h : v.hasWideInteger = false) :
    v.hasOverlongInteger = false := by
  rw [Bool.eq_false_iff] at h ⊢
  refine fun hlong => h (anyNumber_of_imp ?_ hlong)
  intro n hn
  cases n with
  | int i =>
    have hpow {k : Nat} (hk : 63 ≤ k) : 2 ^ 63 ≤ Nat.pow 10 k :=
      Nat.le_trans (Nat.pow_le_pow_left (by decide) 63) (Nat.pow_le_pow_right (by decide) hk)
    rw [isOverlong, decide_eq_true_iff] at hn
    rw [isWide, decide_eq_true_iff]
    exact Nat.le_trans (hpow (by decide)) hn
  | binary x => cases hn

end Value

/-! ### Guards that stumble -/

namespace Guard

/-- The scalar is an integer beyond the floating point numbers: one that would be rounded to `2 ^
1024` or more, which is where the halfway point above the greatest finite number, `2 ^ 1024 - 2 ^
970`, is reached. -/
def IsBeyondFloats : Scalar → Prop
  | .number (.int i) => 2 ^ 1024 ≤ i.natAbs + 2 ^ 970
  | _ => False

/-- Two terms below one power of two add up to less than the next one. -/
theorem add_two_pow_lt {a j k l : Nat} (ha : a < 2 ^ j) (hj : j ≤ k) (hk : k < l) :
    a + 2 ^ k < 2 ^ l :=
  calc a + 2 ^ k < 2 ^ k + 2 ^ k :=
        Nat.add_lt_add_right (Nat.lt_of_lt_of_le ha (Nat.pow_le_pow_right Nat.two_pos hj)) _
    _ = 2 ^ (k + 1) := (Nat.two_pow_succ k).symm
    _ ≤ 2 ^ l := Nat.pow_le_pow_right Nat.two_pos hk

/-- An integer of at most 63 bits is not beyond the floating point numbers, by `add_two_pow_lt`. -/
theorem not_isBeyondFloats_of_lt {i : Int} (h : i.natAbs < 2 ^ 63) :
    ¬IsBeyondFloats (.number (.int i)) :=
  Nat.not_le.2 (add_two_pow_lt h (by decide) (by decide))

/-- The truth of a number is unknown only if it is an integer beyond the floating point numbers:
`isTruthyNumber` asks for the number as a float, which `Binary64.ofInt?` does not have then. -/
theorem isTruthyNumber_eq_error_iff {n : Number} {fault : Fault} :
    isTruthyNumber n = .error fault ↔ fault = .numberTooLarge ∧ IsBeyondFloats (.number n) := by
  cases n with
  | binary x => exact iff_of_false (by rintro ⟨⟩) fun h => h.2
  | int i =>
    have hsome := Binary64.isSome_ofInt?_iff i
    rw [isTruthyNumber.eq_def, IsBeyondFloats]
    dsimp only
    by_cases hzero : i = 0
    · rw [if_pos hzero]
      refine iff_of_false (by rintro ⟨⟩) fun h => not_isBeyondFloats_of_lt ?_ h.2
      rw [hzero]
      decide
    · rw [if_neg hzero]
      by_cases hfinite : (Binary64.ofInt? i).isSome = true
      · rw [if_pos hfinite]
        exact iff_of_false (by rintro ⟨⟩) fun h => Nat.not_lt.2 h.2 (hsome.1 hfinite)
      · rw [if_neg hfinite]
        have hlarge := Nat.not_lt.1 fun hlt => hfinite (hsome.2 hlt)
        constructor
        · rintro ⟨⟩
          exact ⟨rfl, hlarge⟩
        · rintro ⟨rfl, -⟩
          rfl

/-- The truth of a literal is unknown only if it is an integer beyond the floating point numbers;
texts and truth values always have one. -/
theorem isTruthy_literal_eq_error_iff {l : Scalar} {fault : Fault} :
    isTruthy (some l.value) = .error fault ↔ fault = .numberTooLarge ∧ IsBeyondFloats l := by
  cases l with
  | number n => exact isTruthyNumber_eq_error_iff
  | _ => exact iff_of_false (by rintro ⟨⟩) fun h => h.2

/-- The truth of what stands at a path is known if no integer is too large
(`hasWideInteger_of_resolve`). -/
theorem isTruthy_resolve_ne_error {configuration : Value} {path : String} {fault : Fault}
    (hsmall : configuration.hasWideInteger = false) :
    isTruthy (configuration.resolve path) ≠ .error fault := by
  intro h
  cases hv : configuration.resolve path with
  | none =>
    rw [hv] at h
    cases h
  | some v =>
    have hv' := Value.hasWideInteger_of_resolve hsmall hv
    rw [hv] at h
    cases v with
    | number n =>
      obtain ⟨-, hbeyond⟩ := isTruthyNumber_eq_error_iff.1 h
      cases n with
      | binary x => exact hbeyond
      | int i =>
        have hbound : ¬2 ^ 63 ≤ i.natAbs := of_decide_eq_false hv'
        exact not_isBeyondFloats_of_lt (Nat.not_le.1 hbound) hbeyond
    | _ => cases h

namespace Expr

/-- Whether an expression is a literal or a path, whose value is compared and not its truth. -/
def isAtom : Expr → Bool
  | literal _ => true
  | path _ => true
  | _ => false

/-- Evaluating the expression comes to the truth of an integer literal that is beyond the floating
point numbers. The right operand of a connective is come to only if the left one does not decide,
and a literal that is compared is not asked for its truth (`isAtom`). -/
def Stumbles (configuration : Value) : Expr → Prop
  | literal l => IsBeyondFloats l
  | path _ => False
  | not e => e.Stumbles configuration
  | and left right => left.Stumbles configuration
    ∨ (left.holds configuration = .ok true ∧ right.Stumbles configuration)
  | or left right => left.Stumbles configuration
    ∨ (left.holds configuration = .ok false ∧ right.Stumbles configuration)
  | compare _ left right => (left.isAtom = false ∧ left.Stumbles configuration)
    ∨ (right.isAtom = false ∧ right.Stumbles configuration)

/-- The literals of an expression, from left to right, those that evaluation never comes to among
them. -/
def literals : Expr → List Scalar
  | literal l => [l]
  | path _ => []
  | not e => e.literals
  | and left right => left.literals ++ right.literals
  | or left right => left.literals ++ right.literals
  | compare _ left right => left.literals ++ right.literals

variable {configuration : Value}

/-- An expression stumbles only over a literal that it has. Structural induction. -/
theorem not_stumbles_of_literals {e : Expr} (h : ∀ l ∈ e.literals, ¬IsBeyondFloats l) :
    ¬e.Stumbles configuration := by
  induction e with
  | literal l => exact h l List.mem_cons_self
  | path p => exact id
  | not e ih => exact ih h
  | and left right ihl ihr =>
    obtain ⟨hleft, hright⟩ := List.forall_mem_append.1 h
    rintro (hstumbles | ⟨-, hstumbles⟩)
    · exact ihl hleft hstumbles
    · exact ihr hright hstumbles
  | or left right ihl ihr =>
    obtain ⟨hleft, hright⟩ := List.forall_mem_append.1 h
    rintro (hstumbles | ⟨-, hstumbles⟩)
    · exact ihl hleft hstumbles
    · exact ihr hright hstumbles
  | compare r left right ihl ihr =>
    obtain ⟨hleft, hright⟩ := List.forall_mem_append.1 h
    rintro (⟨-, hstumbles⟩ | ⟨-, hstumbles⟩)
    · exact ihl hleft hstumbles
    · exact ihr hright hstumbles

/-- An operand of a comparison fails only if it is no literal and no path, and its truth fails. -/
theorem operand_eq_error_iff {e : Expr} {truth : Except Fault Bool} {fault : Fault} :
    e.operand configuration truth = .error fault ↔ e.isAtom = false ∧ truth = .error fault := by
  have hmap : (truth.map fun b => some (Value.bool b)) = .error fault ↔ truth = .error fault := by
    cases truth with
    | error fault' => simp [Except.map]
    | ok b => simp [Except.map]
  cases e with
  | literal l => exact iff_of_false (by rintro ⟨⟩) (by rintro ⟨⟨⟩, -⟩)
  | path p => exact iff_of_false (by rintro ⟨⟩) (by rintro ⟨⟨⟩, -⟩)
  | _ => exact hmap.trans (and_iff_right rfl).symm

/-- **Evaluating an expression fails only if it stumbles, and in one way.** Structural induction;
for a connective the left operand fails, or it does not decide and the right one fails. -/
theorem holds_eq_error_iff (hsmall : configuration.hasWideInteger = false) {e : Expr}
    {fault : Fault} : e.holds configuration = .error fault
      ↔ fault = .numberTooLarge ∧ e.Stumbles configuration := by
  induction e generalizing fault with
  | literal l =>
    rw [holds]
    exact isTruthy_literal_eq_error_iff
  | path p =>
    rw [holds]
    exact iff_of_false (isTruthy_resolve_ne_error hsmall) fun h => h.2
  | not e ih =>
    -- A negation fails with what it negates only, as it returns the opposite of any truth.
    rw [holds, bind_eq_error_iff, ih, Stumbles, or_iff_left]
    rintro ⟨b, -, ⟨⟩⟩
  | and left right ihl ihr =>
    rw [holds_and, bind_eq_error_iff, ihl, Stumbles, and_or_left]
    -- The right side is evaluated only if the left one is true.
    refine or_congr_right ?_
    constructor
    · rintro ⟨b, hb, hright⟩
      cases b with
      | true =>
        obtain ⟨rfl, hstumbles⟩ := ihr.1 hright
        exact ⟨rfl, hb, hstumbles⟩
      | false => cases hright
    · rintro ⟨rfl, hb, hstumbles⟩
      exact ⟨true, hb, ihr.2 ⟨rfl, hstumbles⟩⟩
  | or left right ihl ihr =>
    rw [holds_or, bind_eq_error_iff, ihl, Stumbles, and_or_left]
    -- Here it is evaluated only if the left one is false.
    refine or_congr_right ?_
    constructor
    · rintro ⟨b, hb, hright⟩
      cases b with
      | true => cases hright
      | false =>
        obtain ⟨rfl, hstumbles⟩ := ihr.1 hright
        exact ⟨rfl, hb, hstumbles⟩
    · rintro ⟨rfl, hb, hstumbles⟩
      exact ⟨false, hb, ihr.2 ⟨rfl, hstumbles⟩⟩
  | compare r left right ihl ihr =>
    -- Both operands are evaluated, and only one that is compound can fail.
    rw [holds, bind_eq_error_iff, operand_eq_error_iff, ihl, Stumbles]
    constructor
    · rintro (⟨hcompound, rfl, hstumbles⟩ | ⟨x, -, hright⟩)
      · exact ⟨rfl, .inl ⟨hcompound, hstumbles⟩⟩
      · obtain hright | ⟨y, -, ⟨⟩⟩ := bind_eq_error_iff.1 hright
        obtain ⟨hcompound, hright⟩ := operand_eq_error_iff.1 hright
        obtain ⟨rfl, hstumbles⟩ := ihr.1 hright
        exact ⟨rfl, .inr ⟨hcompound, hstumbles⟩⟩
    · rintro ⟨rfl, hleft | ⟨hcompound, hstumbles⟩⟩
      · exact .inl ⟨hleft.1, rfl, hleft.2⟩
      · cases hx : left.operand configuration (left.holds configuration) with
        | error fault =>
          obtain ⟨hleft, hfault⟩ := operand_eq_error_iff.1 hx
          exact .inl ⟨hleft, rfl, (ihl.1 hfault).2⟩
        | ok x =>
          refine .inr ⟨x, rfl, bind_eq_error_iff.2 (.inl ?_)⟩
          exact operand_eq_error_iff.2 ⟨hcompound, ihr.2 ⟨rfl, hstumbles⟩⟩

end Expr

end Guard

/-! ### Rendering -/

section Rendering

variable {limits : Limits} {body : String} {findings : Findings} {configuration : Value}

/-- No guard that is due stumbles. The guards that are due are those that rendering evaluates
(`dueGuards`); a guard within a span that is left out is not among them. -/
def GuardsStand (tokens : List Token) (configuration : Value) : Prop :=
  ∀ i ∈ dueGuards tokens configuration, ∀ e, Guard.parse (guardAt tokens i) = .ok e →
    ¬e.Stumbles configuration

/-- A guard that is due is that of an opening tag, since it belongs to a pair of tags. -/
theorem exists_token_of_mem_dueGuards {tokens : List Token} {i : Nat}
    (hi : i ∈ dueGuards tokens configuration) :
    ∃ t, (tokens[i]? = some t ∧ t.opens = true) ∧ guardAt tokens i = t.guard := by
  obtain ⟨⟨pair, hpair, rfl⟩, -⟩ := of_decide_eq_true (List.mem_filter.1 hi).2
  obtain ⟨-, -, hopens, -⟩ := lt_of_mem_partnersUpTo hpair
  obtain ⟨t, ht, hopens⟩ := (Option.any_eq_true _ _).1 hopens
  exact ⟨t, ⟨ht, hopens⟩, by rw [guardAt, ht]; rfl⟩

/-- A guard that is due can be read, if the body is well-formed, and it is then evaluated as its
expression (`Expr.holds`). -/
theorem exists_parse_of_mem_dueGuards {tokens : List Token} (hbody : IsWellFormed tokens) {i : Nat}
    (hi : i ∈ dueGuards tokens configuration) :
    ∃ e, Guard.parse (guardAt tokens i) = .ok e
      ∧ Guard.evaluate (guardAt tokens i) configuration = e.holds configuration := by
  obtain ⟨t, ⟨ht, hopens⟩, hguard⟩ := exists_token_of_mem_dueGuards hi
  obtain ⟨e, he⟩ := hbody.guards t (List.mem_of_getElem? ht) hopens
  rw [hguard]
  exact ⟨e, he, by rw [Guard.evaluate, he]⟩

/-- Inserting values of which no integer is too long gives a text: every placeholder has its
replacement, and `substitute` puts them together. -/
theorem exists_substitute (hsmall : configuration.hasWideInteger = false) (text : String) :
    ∃ content, substitute text configuration = .ok content := by
  have hparts : ∀ t ∈ tokenize text, ∃ part, t.replacement configuration = .ok part := by
    intro t _
    rw [replacement_eq]
    cases hv : t.inserted? configuration with
    | none => exact ⟨_, rfl⟩
    | some v =>
      obtain ⟨hresolved, -⟩ := Option.filter_eq_some_iff.1 hv
      obtain ⟨name, -, hname⟩ := Option.bind_eq_some_iff.1 hresolved
      have hshort := Value.hasOverlongInteger_of_hasWideInteger
        (Value.hasWideInteger_of_resolve hsmall hname)
      exact ⟨_, inserted_eq_ok_iff.2 ⟨hshort, rfl⟩⟩
  obtain ⟨parts, hparts⟩ := exists_mapM_eq_ok hparts
  exact ⟨_, substitute_eq_ok_iff.2 ⟨parts, hparts, rfl⟩⟩

/-- A guard that is due fails if it stumbles, and in one way: `Expr.holds_eq_error_iff` at the
expression that is read from it. -/
theorem faultAt_eq_some_iff {tokens : List Token} (hbody : IsWellFormed tokens)
    (hsmall : configuration.hasWideInteger = false) {i : Nat}
    (hi : i ∈ dueGuards tokens configuration) {fault : Fault} :
    faultAt tokens configuration i = some fault ↔ fault = .numberTooLarge
      ∧ ∃ e, Guard.parse (guardAt tokens i) = .ok e ∧ e.Stumbles configuration := by
  obtain ⟨e, he, hevaluate⟩ := exists_parse_of_mem_dueGuards hbody hi
  have hfault : faultAt tokens configuration i = some fault
      ↔ e.holds configuration = .error fault := by
    rw [faultAt, guardFault?, hevaluate]
    cases e.holds configuration with
    | ok b => exact iff_of_false (by rintro ⟨⟩) (by rintro ⟨⟩)
    | error fault' =>
      constructor
      · rintro ⟨⟩
        rfl
      · rintro ⟨⟩
        rfl
  rw [hfault, Guard.Expr.holds_eq_error_iff hsmall]
  refine and_congr_right fun _ => ⟨fun h => ⟨e, he, h⟩, ?_⟩
  rintro ⟨e', he', h⟩
  obtain rfl : e = e' := Except.ok.inj (he.symm.trans he')
  exact h

/-- **Resolving the spans of a well-formed body succeeds if no due guard stumbles**, and otherwise
fails in one way, at the first guard that does. -/
theorem resolveConditionals_eq_error_iff (hbody : IsWellFormed (tokenize body))
    (hsmall : configuration.hasWideInteger = false) {fault : Fault} :
    resolveConditionals body configuration = .error fault
      ↔ fault = .numberTooLarge ∧ ¬GuardsStand (tokenize body) configuration := by
  rw [resolveConditionals, resolveSpans_eq_error_iff]
  constructor
  · intro h
    obtain ⟨i, hi, hfault⟩ := List.exists_of_findSome?_eq_some h
    obtain ⟨rfl, e, he, hstumbles⟩ := (faultAt_eq_some_iff hbody hsmall hi).1 hfault
    exact ⟨rfl, fun hstand => hstand i hi e he hstumbles⟩
  · rintro ⟨rfl, hnot⟩
    cases hsome : (dueGuards (tokenize body) configuration).findSome?
        (faultAt (tokenize body) configuration) with
    | some fault =>
      obtain ⟨i, hi, hfault⟩ := List.exists_of_findSome?_eq_some hsome
      rw [((faultAt_eq_some_iff hbody hsmall hi).1 hfault).1]
    | none =>
      refine absurd (fun i hi e he hstumbles => ?_) hnot
      have hfault := (faultAt_eq_some_iff hbody hsmall hi).2 ⟨rfl, e, he, hstumbles⟩
      rw [List.findSome?_eq_none_iff.1 hsome i hi] at hfault
      cases hfault

/-- A well-formed body is rendered if no due guard stumbles: its spans are resolved
(`resolveConditionals_eq_error_iff`), and what is left is inserted (`exists_substitute`). -/
theorem exists_renderText_of_guardsStand (hbody : IsWellFormed (tokenize body))
    (hsmall : configuration.hasWideInteger = false)
    (hstand : GuardsStand (tokenize body) configuration) :
    ∃ content, renderText body configuration = .ok content := by
  cases hresolved : resolveConditionals body configuration with
  | error fault =>
    exact absurd hstand ((resolveConditionals_eq_error_iff hbody hsmall).1 hresolved).2
  | ok resolved =>
    obtain ⟨content, hcontent⟩ := exists_substitute hsmall resolved
    exact ⟨content, bind_eq_ok_iff.2 ⟨resolved, hresolved, hcontent⟩⟩

/-- A well-formed body is rendered if no guard of it has an integer literal beyond the floating
point numbers. This condition can be seen from the body alone, without a configuration. -/
theorem exists_renderText_of_literals (hbody : IsWellFormed (tokenize body))
    (hsmall : configuration.hasWideInteger = false)
    (hliterals : ∀ t ∈ tokenize body, ∀ e, Guard.parse t.guard = .ok e →
      ∀ l ∈ e.literals, ¬Guard.IsBeyondFloats l) :
    ∃ content, renderText body configuration = .ok content := by
  refine exists_renderText_of_guardsStand hbody hsmall fun i hi e he => ?_
  obtain ⟨t, ht, hguard⟩ := exists_token_of_mem_dueGuards hi
  rw [hguard] at he
  exact Guard.Expr.not_stumbles_of_literals (hliterals t (List.mem_of_getElem? ht.1) e he)

/-- **What the check accepts is rendered, with one exception.** A body that the check accepts is
rendered unless a guard that is due stumbles (`GuardsStand`), if no integer of the configuration has
more than 63 bits; and if one does, rendering fails because of its size. -/
theorem exists_renderText_iff (hcheck : checkBody limits body = .ok findings)
    (hvalid : findings.isValid = true) (hsmall : configuration.hasWideInteger = false) :
    ((∃ content, renderText body configuration = .ok content)
        ↔ GuardsStand (tokenize body) configuration)
      ∧ (¬GuardsStand (tokenize body) configuration →
        renderText body configuration = .error .numberTooLarge) := by
  have hbody := (isValid_iff_of_checkBody hcheck).1 hvalid
  have hfails (hnot : ¬GuardsStand (tokenize body) configuration) :
      renderText body configuration = .error .numberTooLarge :=
    bind_eq_error_iff.2 (.inl ((resolveConditionals_eq_error_iff hbody hsmall).2 ⟨rfl, hnot⟩))
  refine ⟨⟨?_, exists_renderText_of_guardsStand hbody hsmall⟩, hfails⟩
  rintro ⟨content, hcontent⟩
  by_contra hnot
  rw [hfails hnot] at hcontent
  cases hcontent

/-- A body whose guard compares a path that leads to nothing is rendered. -/
theorem exists_renderText_absent_operand :
    ∃ content, renderText "\x7b% if a < 1 %\x7d\x7b\x7b b \x7d\x7d\x7b% endif %\x7d" (.mapping [])
      = .ok content := by
  have hcheck : checkBody .standard "\x7b% if a < 1 %\x7d\x7b\x7b b \x7d\x7d\x7b% endif %\x7d"
      = .ok ⟨true, [], []⟩ := by decide +kernel
  have hdue : dueGuards (tokenize "\x7b% if a < 1 %\x7d\x7b\x7b b \x7d\x7d\x7b% endif %\x7d")
      (.mapping []) = [0] := by decide +kernel
  have hparse : Guard.parse
      (guardAt (tokenize "\x7b% if a < 1 %\x7d\x7b\x7b b \x7d\x7d\x7b% endif %\x7d") 0)
        = .ok (.compare .less (.path "a") (.literal (.number (.int 1)))) := by decide +kernel
  refine (exists_renderText_iff hcheck rfl rfl).1.2 fun i hi e he => ?_
  rw [hdue, List.mem_singleton] at hi
  subst hi
  cases hparse.symm.trans he
  rintro (⟨⟨⟩, -⟩ | ⟨⟨⟩, -⟩)

end Rendering

/-! ### A literal beyond the floating point numbers -/

section Large

/-- The decimal digits of the 309th power of ten. -/
def largeDigits : List Char :=
  '1' :: List.replicate 309 '0'

/-- A body with one span, whose guard is the 309th power of ten. -/
def largeBody : String :=
  String.ofList (['{', '%', ' ', 'i', 'f', ' '] ++ largeDigits
    ++ [' ', '%', '}', 'x', '{', '%', ' ', 'e', 'n', 'd', 'i', 'f', ' ', '%', '}'])

/-- The tokens of that body. -/
def largeTokens : List Token :=
  [⟨.tag ([' ', 'i', 'f', ' '] ++ largeDigits ++ [' ']), 0⟩, ⟨.text ['x'], 319⟩,
    ⟨.tag [' ', 'e', 'n', 'd', 'i', 'f', ' '], 320⟩]

/-- The tokens of `largeBody` are `largeTokens`, by running the tokenizer in the kernel. The digits
are kept in one token, so that the lemmas below do not run over them again. -/
theorem tokenize_largeBody : tokenize largeBody = largeTokens := by
  rw [tokenize, largeBody, Cursor.ofText, String.toList_ofList]
  decide +kernel

/-- The guard of `largeBody` is read as the literal `10 ^ 309`: one lexeme, and an integer that is
not too long to be read. -/
theorem parse_largeDigits : Guard.parse (String.ofList largeDigits)
    = .ok (.literal (.number (.int (10 ^ 309)))) := by
  have hliteral : Guard.numeralLiteral largeDigits = .ok (.number (.int (10 ^ 309))) := by
    decide +kernel
  have hlex : Guard.lexFrom 0 largeDigits = .ok [⟨.numeral largeDigits, 0⟩] := by decide +kernel
  refine Guard.parse_eq_ok_iff.2 ⟨.disjunction (.conjunction (.plain (.alone
    (.numeral largeDigits _ hliteral))) .noConjunct) .noDisjunct, ⟨?_, Nat.zero_le _⟩, rfl⟩
  rw [String.toList_ofList]
  exact Guard.splits_of_lexFrom hlex

/-- What each token of `largeBody` is: an opening tag with its guard, a text, and a closing tag. -/
theorem tag?_largeTokens : ∀ i t, largeTokens[i]? = some t →
    (i = 0 ∧ t.tag? = some (.opening (String.ofList largeDigits)))
      ∨ (i = 1 ∧ t.shape = .text ['x']) ∨ (i = 2 ∧ t.tag? = some .closing) := by
  have hword : firstWord (trim ([' ', 'i', 'f', ' '] ++ largeDigits ++ [' '])) = ['i', 'f'] := by
    decide +kernel
  have hguard : trim (afterFirstWord (trim ([' ', 'i', 'f', ' '] ++ largeDigits ++ [' '])))
      = largeDigits := by decide +kernel
  rintro (_ | _ | _ | i) t ⟨⟩
  · refine .inl ⟨rfl, ?_⟩
    rw [Token.tag?]
    dsimp only
    rw [Tag.ofContent, if_pos hword, hguard]
  · exact .inr (.inl ⟨rfl, rfl⟩)
  · exact .inr (.inr ⟨rfl, by decide +kernel⟩)

/-- `largeBody` is well-formed: its tags are paired, and its guard can be read
(`parse_largeDigits`). -/
theorem isWellFormed_largeTokens : IsWellFormed largeTokens := by
  have hpaired : pairedTags largeTokens = [2, 0] := by decide +kernel
  refine ⟨?_, ?_, ?_, ?_⟩
  · rintro t ht inner hshape
    obtain ⟨i, hi⟩ := List.getElem?_of_mem ht
    rcases tag?_largeTokens i t hi with ⟨-, h⟩ | ⟨-, h⟩ | ⟨-, h⟩
    · simp [Token.tag?, hshape] at h
    · simp [hshape] at h
    · simp [Token.tag?, hshape] at h
  · rintro i t hi htag
    rw [hpaired]
    rcases tag?_largeTokens i t hi with ⟨rfl, h⟩ | ⟨-, h⟩ | ⟨rfl, h⟩
    · exact ⟨.inl (Token.opens_iff.2 ⟨_, h⟩), by decide⟩
    · exact absurd (by rw [Token.tag?, h]) htag
    · exact ⟨.inr (Token.closes_iff.2 h), by decide⟩
  · rintro t ht hopens
    obtain ⟨i, hi⟩ := List.getElem?_of_mem ht
    obtain ⟨guard, hguard⟩ := Token.opens_iff.1 hopens
    rcases tag?_largeTokens i t hi with ⟨-, h⟩ | ⟨-, h⟩ | ⟨-, h⟩
    · exact ⟨_, by rw [Token.guard, h]; exact parse_largeDigits⟩
    · simp [Token.tag?, h] at hguard
    · simp [hguard] at h
  · rintro t ht
    obtain ⟨i, hi⟩ := List.getElem?_of_mem ht
    have htext : ∀ run, t.shape = .text run → run = ['x'] := by
      rintro run hshape
      rcases tag?_largeTokens i t hi with ⟨-, h⟩ | ⟨-, h⟩ | ⟨-, h⟩
      · simp [Token.tag?, hshape] at h
      · exact (Shape.text.inj (h.symm.trans hshape)).symm
      · simp [Token.tag?, hshape] at h
    exact ⟨fun run hrun => htext run hrun ▸ by decide, fun run hrun => htext run hrun ▸ by decide⟩

/-- The check accepts `largeBody`, under whatever limits: no integer in its guard is too long to be
read, and it is well-formed. -/
theorem checkBody_largeBody (limits : Limits) :
    ∃ findings, checkBody limits largeBody = .ok findings ∧ findings.isValid = true := by
  have hshort : ∀ t ∈ tokenize largeBody, t.opens = true → Guard.HasShortIntegers t.guard := by
    rw [tokenize_largeBody]
    rintro t ht hopens
    obtain ⟨i, hi⟩ := List.getElem?_of_mem ht
    obtain ⟨guard, hguard⟩ := Token.opens_iff.1 hopens
    rcases tag?_largeTokens i t hi with ⟨-, h⟩ | ⟨-, h⟩ | ⟨-, h⟩
    · refine Guard.hasShortIntegers_of_length_le ?_
      rw [Token.guard, h]
      dsimp only
      rw [String.toList_ofList]
      decide +kernel
    · simp [Token.tag?, h] at hguard
    · simp [hguard] at h
  obtain ⟨s, hs⟩ := BodyScan.exists_foldlM_eq_ok BodyScan.start hshort
  have hcheck : checkBody limits largeBody = .ok (.of s.allErrors
      (s.tokenWarnings limits ++ lineWarnings limits largeBody.toList)) := by
    rw [checkBody, hs]
    rfl
  refine ⟨_, hcheck, (isValid_iff_of_checkBody hcheck).2 ?_⟩
  rw [tokenize_largeBody]
  exact isWellFormed_largeTokens

/-- A body that the check accepts and that cannot be rendered, although the configuration holds no
number at all. -/
theorem numberTooLarge_of_largeBody :
    (∃ findings, checkBody .standard largeBody = .ok findings ∧ findings.isValid = true)
      ∧ (Value.mapping []).hasWideInteger = false
      ∧ renderText largeBody (.mapping []) = .error .numberTooLarge := by
  have hdue : 0 ∈ dueGuards largeTokens (.mapping []) := by decide +kernel
  have hguard : guardAt largeTokens 0 = String.ofList largeDigits := by
    obtain ⟨t, ht⟩ : ∃ t, largeTokens[0]? = some t := ⟨_, rfl⟩
    rcases tag?_largeTokens 0 t ht with ⟨-, h⟩ | ⟨⟨⟩, -⟩ | ⟨⟨⟩, -⟩
    rw [guardAt, ht, Option.map_some, Option.getD_some, Token.guard, h]
  have hbeyond : Guard.IsBeyondFloats (.number (.int (10 ^ 309))) := by
    rw [Guard.IsBeyondFloats]
    decide +kernel
  have hparse : Guard.parse (guardAt largeTokens 0) = _ := hguard ▸ parse_largeDigits
  have hstumbles : ¬GuardsStand largeTokens (.mapping []) := fun hstand =>
    hstand 0 hdue _ hparse hbeyond
  refine ⟨checkBody_largeBody _, rfl, bind_eq_error_iff.2 (.inl ?_)⟩
  rw [← tokenize_largeBody] at hstumbles
  refine (resolveConditionals_eq_error_iff ?_ rfl).2 ⟨rfl, hstumbles⟩
  rw [tokenize_largeBody]
  exact isWellFormed_largeTokens

end Large

end Templating
