import Templating.Proofs.Check.Body
import Templating.Proofs.Check.Faults
import Templating.Proofs.Guard.OverlongIntegers
import Templating.Proofs.Guard.Printing
import Templating.Proofs.Template.Partition

/-!
# Guards that cannot be read

A guard that cannot be read is one of the findings of the check of a body, in the place that its
tag has among the tags, and counts as false where it is evaluated. There is one exception: a
guard in which an integer that is too long stands where a number may stand is refused outright,
and then the check and the evaluation fail as well.

## Main definitions

* `Token.guardError?`: what the check says about the guard of a tag.

## Main results

* `BodyScan.step_eq_error_iff`, `checkBody_eq_error_iff`: when a check fails.
* `BodyScan.guardErrors_of_step`, `guardErrors_infix_of_checkBody`: what a check says about guards.
* `unreadable_guards_handled`: what becomes of guards that cannot be read.
* `integerTooLong_of_overlongZeros`: a guard that is refused outright.
-/

namespace Templating

open Templating.Template Templating.Text

namespace Guard

variable {source : String}

/-- The guard is read, or found to be misspelt: `parse` fails in no other way than with a fault of
the guard. -/
def IsReadOrMisspelt (source : String) : Prop :=
  (∃ e, parse source = .ok e) ∨ ∃ g, parse source = .error (.guard g)

/-- A guard that is neither read nor misspelt has an integer that is too long where a number may
stand (`parse_eq_error_integerTooLong_iff`). -/
theorem isReadOrMisspelt_iff : IsReadOrMisspelt source ↔ ¬MeetsOverlongInteger source := by
  rw [← parse_eq_error_integerTooLong_iff]
  constructor
  · rintro (⟨e, hparse⟩ | ⟨g, hparse⟩) hlong
    · cases hparse.symm.trans hlong
    · cases hparse.symm.trans hlong
  · intro hnot
    cases hparse : parse source with
    | ok e => exact .inl ⟨e, hparse⟩
    | error fault =>
      rcases parse_error hparse with ⟨g, rfl⟩ | rfl
      · exact .inr ⟨g, hparse⟩
      · exact absurd hparse hnot

/-- Evaluating a guard that is refused outright fails, since `evaluate` counts only misspelt guards
as false. -/
theorem evaluate_of_meetsOverlongInteger (h : MeetsOverlongInteger source)
    (configuration : Value) : evaluate source configuration = .error .integerTooLong := by
  rw [evaluate, parse_eq_error_integerTooLong_iff.2 h]

/-- A guard that cannot be read counts as false, unless it is refused outright. -/
theorem evaluate_eq_false_iff_of_unreadable (hunreadable : ∀ e, parse source ≠ .ok e)
    (configuration : Value) :
    evaluate source configuration = .ok false ↔ ¬MeetsOverlongInteger source := by
  constructor
  · intro hfalse hlong
    cases hfalse.symm.trans (evaluate_of_meetsOverlongInteger hlong configuration)
  · intro hnot
    obtain ⟨e, hparse⟩ | ⟨g, hparse⟩ := isReadOrMisspelt_iff.2 hnot
    · exact absurd hparse (hunreadable e)
    · rw [evaluate, hparse]

end Guard

/-! ### What a check says about guards -/

/-- What the check of a body says about the guard of a tag: nothing unless the token opens a span
and its guard is misspelt. -/
def Template.Token.guardError? (t : Token) : Option String :=
  match t.tag? with
  | some (.opening guard) =>
    match Guard.parse guard with
    | .error (.guard fault) =>
      some ("Invalid conditional expression '" ++ guard ++ "': " ++ fault.message)
    | _ => none
  | _ => none

namespace BodyScan

variable {s s' : BodyScan} {t : Token} {tokens : List Token} {fault : Fault}

/-- One step adds what there is to say about the guard of its token (`Token.guardError?`), at the
end of what was said before. -/
theorem guardErrors_of_step (h : s.step t = .ok s') :
    s'.guardErrors = s.guardErrors ++ t.guardError?.toList := by
  rw [step] at h
  rw [Token.guardError?, Token.tag?]
  split at h
  · rename_i run hshape
    cases h
    simp [hshape, meetText]
  · rename_i inner hshape
    cases h
    simp only [hshape, meetPlaceholder]
    repeat' split
    all_goals simp
  · rename_i inner hshape
    split at h
    · rename_i guard hguard
      rw [meetOpening] at h
      simp only [hshape, hguard]
      split at h
      · rename_i e hparse
        cases h
        simp [hparse]
      · rename_i g hparse
        cases h
        simp [hparse]
      · cases h
    · rename_i hguard
      cases h
      simp only [hshape, hguard, meetClosing]
      split
      all_goals simp
    · rename_i hguard
      cases h
      simp [hshape, hguard, meetUnknown]

/-- A walk says something about every guard that is misspelt, in the order of the tokens. Induction
on the tokens; `guardErrors_of_step` is the step. -/
theorem guardErrors_of_foldlM (h : tokens.foldlM step s = .ok s') :
    s'.guardErrors = s.guardErrors ++ tokens.filterMap Token.guardError? := by
  induction tokens generalizing s with
  | nil =>
    cases h
    exact (List.append_nil _).symm
  | cons t tokens ih =>
    rw [List.foldlM_cons] at h
    obtain ⟨s₁, hstep, hrun⟩ := bind_eq_ok_iff.1 h
    rw [ih hrun, guardErrors_of_step hstep, List.append_assoc]
    cases hguard : t.guardError? with
    | none => rw [List.filterMap_cons_none hguard]; rfl
    | some message => rw [List.filterMap_cons_some hguard]; rfl

/-- A step fails only on an opening tag whose guard is refused outright; a guard that is misspelt is
recorded and the walk goes on. -/
theorem step_eq_error_iff : s.step t = .error fault
    ↔ fault = .integerTooLong ∧ t.opens = true ∧ Guard.MeetsOverlongInteger t.guard := by
  rw [← Guard.parse_eq_error_integerTooLong_iff]
  constructor
  · intro h
    obtain rfl := failsOnly_step s t fault h
    refine ⟨rfl, ?_⟩
    rw [step] at h
    split at h
    · cases h
    · cases h
    · rename_i inner hshape
      split at h
      · rename_i guard hguard
        have htag : t.tag? = some (.opening guard) := by simp [Token.tag?, hshape, hguard]
        refine ⟨Token.opens_iff.2 ⟨guard, htag⟩, ?_⟩
        rw [meetOpening] at h
        split at h
        · cases h
        · cases h
        · rename_i hparse
          cases h
          rwa [Token.guard, htag]
      · cases h
      · cases h
  · rintro ⟨rfl, hopens, hparse⟩
    obtain ⟨guard, htag⟩ := Token.opens_iff.1 hopens
    rw [Token.guard, htag] at hparse
    obtain ⟨inner, hshape, hguard⟩ : ∃ inner, t.shape = .tag inner
        ∧ Tag.ofContent (trim inner) = .opening guard := by
      rw [Token.tag?] at htag
      split at htag
      · rename_i inner hshape
        exact ⟨inner, hshape, Option.some.inj htag⟩
      · cases htag
    simp [step, hshape, hguard, meetOpening, hparse]

/-- A walk fails only on an opening tag whose guard is refused outright. Induction on the tokens: if
the first one does not fail, the walk goes on from another state, and the condition does not depend
on the state. -/
theorem foldlM_eq_error_iff : tokens.foldlM step s = .error fault ↔ fault = .integerTooLong
    ∧ ∃ t ∈ tokens, t.opens = true ∧ Guard.MeetsOverlongInteger t.guard := by
  induction tokens generalizing s with
  | nil => exact iff_of_false (by rintro ⟨⟩) (by simp)
  | cons t tokens ih =>
    rw [List.foldlM_cons, bind_eq_error_iff, step_eq_error_iff]
    constructor
    · rintro (⟨rfl, ht⟩ | ⟨s', -, hrun⟩)
      · exact ⟨rfl, t, List.mem_cons_self, ht⟩
      · obtain ⟨rfl, u, hu, hlong⟩ := ih.1 hrun
        exact ⟨rfl, u, List.mem_cons_of_mem _ hu, hlong⟩
    · rintro ⟨rfl, u, hu, hlong⟩
      cases hstep : s.step t with
      | error fault =>
        obtain ⟨-, ht⟩ := step_eq_error_iff.1 hstep
        exact .inl ⟨rfl, ht⟩
      | ok s' =>
        refine .inr ⟨s', rfl, ih.2 ⟨rfl, u, ?_, hlong⟩⟩
        rcases List.mem_cons.1 hu with rfl | hu
        · cases hstep.symm.trans (step_eq_error_iff.2 ⟨rfl, hlong⟩)
        · exact hu

end BodyScan

section Check

variable {limits : Limits} {body : String} {findings : Findings} {fault : Fault}

/-- **When the check of a body fails**: if a guard is refused outright, and only then. -/
theorem checkBody_eq_error_iff : checkBody limits body = .error fault
    ↔ fault = .integerTooLong
      ∧ ∃ t ∈ tokenize body, t.opens = true ∧ Guard.MeetsOverlongInteger t.guard := by
  rw [← BodyScan.foldlM_eq_error_iff, checkBody, bind_eq_error_iff]
  exact or_iff_left (by rintro ⟨s, -, ⟨⟩⟩)

/-- The check of a body returns findings unless a guard is refused outright: the other side of
`checkBody_eq_error_iff`. -/
theorem exists_checkBody_eq_ok_iff : (∃ findings, checkBody limits body = .ok findings)
    ↔ ∀ t ∈ tokenize body, t.opens = true → ¬Guard.MeetsOverlongInteger t.guard := by
  constructor
  · rintro ⟨findings, hcheck⟩ t ht hopens hlong
    cases hcheck.symm.trans (checkBody_eq_error_iff.2 ⟨rfl, t, ht, hopens, hlong⟩)
  · intro hshort
    cases hcheck : checkBody limits body with
    | ok findings => exact ⟨findings, rfl⟩
    | error fault =>
      obtain ⟨-, t, ht, hopens, hlong⟩ := checkBody_eq_error_iff.1 hcheck
      exact absurd hlong (hshort t ht hopens)

/-- Everything there is to say about the guards is among the errors, in one piece and in the order
of the tags. -/
theorem guardErrors_infix_of_checkBody (hcheck : checkBody limits body = .ok findings) :
    (tokenize body).filterMap Token.guardError? <:+: findings.errors := by
  obtain ⟨s, hrun, ⟨⟩⟩ := bind_eq_ok_iff.1 hcheck
  have hguards := BodyScan.guardErrors_of_foldlM hrun
  rw [BodyScan.start, List.nil_append] at hguards
  rw [← hguards]
  change s.guardErrors <:+: s.allErrors
  exact ⟨_, _, (List.append_assoc _ _ _).symm⟩

end Check

/-! ### What becomes of guards that cannot be read -/

/-- **What becomes of guards that cannot be read.** A guard is read or found to be misspelt
(`Guard.IsReadOrMisspelt`), one that cannot be read counts as false, and the check of a body returns
findings in which every misspelt guard is named, unless a guard has an integer that is too long
where a number may stand (`Guard.MeetsOverlongInteger`); and in that case all three fail because of
it. -/
theorem unreadable_guards_handled (source body : String) (configuration : Value)
    (limits : Limits) :
    (Guard.IsReadOrMisspelt source ↔ ¬Guard.MeetsOverlongInteger source)
      ∧ ((∀ e, Guard.parse source ≠ .ok e) →
        (Guard.evaluate source configuration = .ok false ↔ ¬Guard.MeetsOverlongInteger source))
      ∧ ((∃ findings, checkBody limits body = .ok findings)
        ↔ ∀ t ∈ tokenize body, t.opens = true → ¬Guard.MeetsOverlongInteger t.guard)
      ∧ (∀ findings, checkBody limits body = .ok findings →
        (tokenize body).filterMap Token.guardError? <:+: findings.errors)
      ∧ (Guard.MeetsOverlongInteger source → Guard.parse source = .error .integerTooLong
        ∧ Guard.evaluate source configuration = .error .integerTooLong)
      ∧ ∀ fault, checkBody limits body = .error fault → fault = .integerTooLong := by
  refine ⟨Guard.isReadOrMisspelt_iff, fun hunreadable => ?_, exists_checkBody_eq_ok_iff,
    fun _ => guardErrors_infix_of_checkBody, fun hlong => ⟨?_, ?_⟩, failsOnly_checkBody limits body⟩
  · exact Guard.evaluate_eq_false_iff_of_unreadable hunreadable configuration
  · exact Guard.parse_eq_error_integerTooLong_iff.2 hlong
  · exact Guard.evaluate_of_meetsOverlongInteger hlong configuration

/-- A guard that ends too early counts as false and is an error of the body. -/
theorem unreadable_guards_handled_dangling :
    Guard.evaluate "a and" (.mapping []) = .ok false
      ∧ ∃ findings, checkBody .standard "\x7b% if a and %\x7dx\x7b% endif %\x7d" = .ok findings
        ∧ "Invalid conditional expression 'a and': unexpected end of expression at position 5"
          ∈ findings.errors := by
  have hparse : Guard.parse "a and" = .error (.guard (.unexpectedEnd 5)) := by decide +kernel
  have htokens : (tokenize "\x7b% if a and %\x7dx\x7b% endif %\x7d").filterMap Token.guardError?
      = ["Invalid conditional expression 'a and': unexpected end of expression at position 5"] := by
    decide +kernel
  have hguards : ∀ t ∈ tokenize "\x7b% if a and %\x7dx\x7b% endif %\x7d", t.opens = true →
      t.guard = "a and" := by decide +kernel
  have hshort : ¬Guard.MeetsOverlongInteger "a and" :=
    Guard.isReadOrMisspelt_iff.1 (.inr ⟨_, hparse⟩)
  obtain ⟨-, hfalse, hchecks, herrors, -⟩ := unreadable_guards_handled "a and"
    "\x7b% if a and %\x7dx\x7b% endif %\x7d" (.mapping []) .standard
  obtain ⟨findings, hcheck⟩ := hchecks.2 fun t ht hopens => (hguards t ht hopens).symm ▸ hshort
  refine ⟨(hfalse fun e he => ?_).2 hshort, findings, hcheck, ?_⟩
  · cases hparse.symm.trans he
  · exact (herrors findings hcheck).subset (htokens ▸ List.mem_singleton_self _)

/-! ### A guard that is refused outright -/

/-- Digits alone are an integer, and one that is too long is met at once: a number may stand where a
guard begins. -/
theorem Guard.meetsOverlongInteger_of_digits {digits : List Char}
    (hdigits : ∀ c ∈ digits, isDigit c = true) (hlong : Numeral.maxIntegerDigits < digits.length) :
    MeetsOverlongInteger (String.ofList digits) := by
  have hne : digits ≠ [] := List.ne_nil_of_length_pos (Nat.zero_lt_of_lt hlong)
  have hmatches : (Symbol.numeral digits).Matches := .inl (.whole hne hdigits)
  have hsplits : Splits digits [.numeral digits] :=
    splits_spaced (List.forall_mem_singleton.2 hmatches)
  refine ⟨[], .numeral digits, [], ?_, ⟨digits, rfl, fun hpoint => ?_, ?_⟩, ?_⟩
  · rw [String.toList_ofList]
    exact hsplits
  · exact absurd (hdigits _ hpoint) (by decide)
  · rw [List.countP_eq_length.2 hdigits]
    exact hlong
  · exact ⟨.disjunction (.conjunction (.plain (.alone (.numeral ['0'] (.number (.int 0)) rfl)))
      .noConjunct) .noDisjunct, Nat.zero_le _, [], rfl⟩

/-- The tag that opens a span under a guard, with single blanks around its word and its guard. -/
def guardTag (guard : List Char) : Shape :=
  .tag ([' '] ++ (['i', 'f', ' '] ++ guard ++ [' ']))

/-- The guard of such a tag, if the guard holds no blank character: trimming and splitting off the
first word lead back to it. -/
theorem tag?_guardTag {guard : List Char} (hne : guard ≠ [])
    (hguard : ∀ c ∈ guard, isBlank c = false) (start : Nat) :
    Token.tag? ⟨guardTag guard, start⟩ = some (.opening (String.ofList guard)) := by
  have hhead : ∀ c, guard.head? = some c → isBlank c = false :=
    fun c hc => hguard c (List.mem_of_head? hc)
  have hlast : ∀ c, guard.getLast? = some c → isBlank c = false :=
    fun c hc => hguard c (List.mem_of_getLast? hc)
  have hspace : ∀ c ∈ [' '], isBlank c = true := List.forall_mem_singleton.2 (by decide)
  have houter : trim ([' '] ++ (['i', 'f', ' '] ++ guard ++ [' '])) = ['i', 'f', ' '] ++ guard := by
    refine trim_append_append (by simp) hspace hspace ?_ fun c hc => hlast c ?_
    · rintro c ⟨⟩
      decide
    · rwa [List.getLast?_append_of_ne_nil _ hne] at hc
  have hinner : trim ([' '] ++ (guard ++ [])) = guard :=
    trim_append_append hne hspace (by simp) hhead hlast
  rw [List.append_nil] at hinner
  rw [Token.tag?, guardTag]
  dsimp only
  rw [houter]
  exact congrArg (fun guard => some (Tag.opening (String.ofList guard))) hinner

/-- A body with nothing but such a tag, if the guard holds no sign that could end it, is one
token. -/
theorem tokenize_guardTag {guard : List Char} (hguard : '%' ∉ guard) :
    tokenize (String.ofList (guardTag guard).source) = [⟨guardTag guard, 0⟩] := by
  refine tokenize_source ⟨fun h => ?_, fun h => ?_⟩
  · exact hguard (by simpa using h.subset (List.mem_cons_of_mem _ List.mem_cons_self))
  · exact hguard (by simpa using h.subset List.mem_cons_self)

/-- One more zero than digits are ever read. -/
def overlongZeros : List Char :=
  List.replicate 4301 '0'

/-- A guard that is neither read nor misspelt: evaluating it fails whatever the configuration, and
so does the check of a body with that guard. -/
theorem integerTooLong_of_overlongZeros :
    Guard.parse (String.ofList overlongZeros) = .error .integerTooLong
      ∧ (∀ configuration,
        Guard.evaluate (String.ofList overlongZeros) configuration = .error .integerTooLong)
      ∧ ∀ limits, checkBody limits (String.ofList (guardTag overlongZeros).source)
        = .error .integerTooLong := by
  have hzeros : ∀ c ∈ overlongZeros, c = '0' := fun c hc => (List.mem_replicate.1 hc).2
  have hlength : overlongZeros.length = 4301 := List.length_replicate
  have hlong : Guard.MeetsOverlongInteger (String.ofList overlongZeros) := by
    refine Guard.meetsOverlongInteger_of_digits (fun c hc => ?_) ?_
    · rw [hzeros c hc]
      decide
    · rw [hlength]
      decide
  refine ⟨Guard.parse_eq_error_integerTooLong_iff.2 hlong,
    Guard.evaluate_of_meetsOverlongInteger hlong, fun limits => ?_⟩
  have htokens := tokenize_guardTag fun h => absurd (hzeros '%' h) (by decide)
  have htag := tag?_guardTag (List.ne_nil_of_length_eq_add_one hlength)
    (fun c hc => by rw [hzeros c hc]; decide) 0
  refine checkBody_eq_error_iff.2 ⟨rfl, _, htokens ▸ List.mem_singleton_self _,
    Token.opens_iff.2 ⟨_, htag⟩, ?_⟩
  rw [Token.guard, htag]
  exact hlong

end Templating
