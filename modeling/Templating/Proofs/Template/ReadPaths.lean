import Templating.Proofs.Guard.Faults
import Templating.Proofs.Guard.Recursion
import Templating.Proofs.Template.EvaluatedGuards
import Templating.Proofs.Template.Substitution

/-!
# What a template reads

Rendering a template reads its configuration at paths only, and these can be told from the
template: the paths that its guards name, and the variables that its placeholders name. So two
configurations that have the same at the paths told cannot be told apart by what results, be it a
text or a fault. The paths are told for all guards that can be read, whether their tags have a
partner or not; a guard that cannot be read reads nothing.

## Main definitions

* `AgreeOn`: two configurations have the same at each of some paths.

## Main results

* `Guard.Expr.holds_congr`, `Guard.evaluate_congr`: the truth of an expression and of a guard.
* `Template.resolveSpans_congr`: the spans of a token list.
* `Template.reads_only_told`: what resolving spans and inserting values can depend on.
-/

namespace Templating

/-- Two configurations have the same at each of the paths, or nothing. -/
def AgreeOn (paths : List String) (configuration configuration' : Value) : Prop :=
  ∀ p ∈ paths, configuration.resolve p = configuration'.resolve p

/-- Configurations agree on two lists of paths if they agree on each. -/
theorem agreeOn_append {paths paths' : List String} {configuration configuration' : Value} :
    AgreeOn (paths ++ paths') configuration configuration'
      ↔ AgreeOn paths configuration configuration' ∧ AgreeOn paths' configuration configuration' :=
  List.forall_mem_append

theorem AgreeOn.subset {paths paths' : List String} {configuration configuration' : Value}
    (h : AgreeOn paths configuration configuration') (hsub : paths' ⊆ paths) :
    AgreeOn paths' configuration configuration' :=
  fun p hp => h p (hsub hp)

/-! ### Guards -/

namespace Guard

variable {configuration configuration' : Value}

namespace Expr

/-- What an expression contributes to a comparison (`Expr.operand`) depends on its paths and its
truth only. -/
theorem operand_congr {e : Expr} (h : AgreeOn e.paths configuration configuration')
    (truth : Except Fault Bool) :
    e.operand configuration truth = e.operand configuration' truth := by
  cases e with
  | path p => rw [operand, operand, h p (List.mem_singleton_self p)]
  | _ => rfl

/-- **The truth of an expression depends on what stands at its paths only.** Induction on the
expression: a connective has the paths of both sides, and a comparison those of its operands
(`operand_congr`). -/
theorem holds_congr {e : Expr} (h : AgreeOn e.paths configuration configuration') :
    e.holds configuration = e.holds configuration' := by
  induction e with
  | literal l => rw [holds, holds]
  | path p => rw [holds, holds, h p (List.mem_singleton_self p)]
  | not e ih => rw [holds, holds, ih h]
  | and left right ihl ihr =>
    obtain ⟨hleft, hright⟩ := agreeOn_append.1 h
    rw [holds_and, holds_and, ihl hleft, ihr hright]
  | or left right ihl ihr =>
    obtain ⟨hleft, hright⟩ := agreeOn_append.1 h
    rw [holds_or, holds_or, ihl hleft, ihr hright]
  | compare r left right ihl ihr =>
    obtain ⟨hleft, hright⟩ := agreeOn_append.1 h
    rw [holds, holds, ihl hleft, ihr hright, operand_congr hleft, operand_congr hright]

end Expr

/-- The truth of a guard depends on what stands at the paths of its expression only. A guard that is
no expression is false under any configuration. -/
theorem evaluate_congr {guard : String}
    (h : ∀ e, parse guard = .ok e → AgreeOn e.paths configuration configuration') :
    evaluate guard configuration = evaluate guard configuration' := by
  rw [evaluate, evaluate]
  cases hparse : parse guard with
  | ok e => exact Expr.holds_congr (h e hparse)
  | error fault => cases fault <;> rfl

end Guard

namespace Template

variable {configuration configuration' : Value}

/-! ### Spans -/

/-- Resolving the spans of a token list depends on the truth of its guards only: the steps of the
pass (`Pass.step_eq`) look at the configuration nowhere else. -/
theorem resolveSpans_congr {tokens : List Token}
    (h : ∀ t ∈ tokens, t.opens = true →
      Guard.evaluate t.guard configuration = Guard.evaluate t.guard configuration') :
    resolveSpans tokens configuration = resolveSpans tokens configuration' := by
  have hstep : ∀ entry ∈ tokens.zipIdx, ∀ p : Pass,
      p.step configuration (pairedTags tokens) entry
        = p.step configuration' (pairedTags tokens) entry := by
    intro entry hentry p
    rw [Pass.step_eq, Pass.step_eq]
    cases hevaluates : p.evaluates (pairedTags tokens) entry with
    | false => rfl
    | true =>
      rw [Pass.evaluates, Bool.and_eq_true] at hevaluates
      rw [h entry.1 (List.fst_mem_of_mem_zipIdx hentry) hevaluates.2]
  rw [resolveSpans, resolveSpans, foldlM_congr hstep]

/-! ### The paths told -/

/-- The paths told for a template are those of its tokens (`Token.guardPaths`). -/
theorem mem_guardPaths {template : String} {paths : List String}
    (h : guardPaths template = .ok paths) {p : String} :
    p ∈ paths ↔ ∃ t ∈ tokenize template, ∃ told, t.guardPaths = .ok told ∧ p ∈ told := by
  obtain ⟨all, hall, ⟨⟩⟩ := bind_eq_ok_iff.1 h
  rw [List.mem_eraseDups, List.mem_flatten]
  have hforall := mapM_eq_ok_iff.1 hall
  generalize tokenize template = tokens at hforall
  clear hall h
  induction hforall with
  | nil =>
    exact iff_of_false (fun ⟨_, hmem, _⟩ => List.not_mem_nil hmem)
      fun ⟨_, hmem, _⟩ => List.not_mem_nil hmem
  | @cons t told tokens all hfirst _ ih =>
    have hsame : p ∈ told ↔ ∃ told', t.guardPaths = .ok told' ∧ p ∈ told' :=
      ⟨fun hp => ⟨told, hfirst, hp⟩, fun ⟨_, htold, hp⟩ =>
        Except.ok.inj (hfirst.symm.trans htold) ▸ hp⟩
    rw [List.exists_mem_cons_iff, List.exists_mem_cons_iff]
    exact or_congr hsame ih

/-- The paths of a token can be told unless its guard holds an integer that is too long. -/
theorem Token.exists_guardPaths {t : Token}
    (hshort : t.opens = true → Guard.HasShortIntegers t.guard) :
    ∃ paths, t.guardPaths = .ok paths := by
  rw [Token.guardPaths]
  split
  · rename_i guard htag
    cases hparse : Guard.parse guard with
    | ok e => exact ⟨_, rfl⟩
    | error fault =>
      have hguard : t.guard = guard := by rw [Token.guard, htag]
      have hread := hshort (Token.opens_iff.2 ⟨guard, htag⟩)
      rw [hguard] at hread
      obtain ⟨g, rfl⟩ := Guard.parse_error_of_hasShortIntegers hread hparse
      exact ⟨_, rfl⟩
  · exact ⟨_, rfl⟩

/-- The paths of a template can be told unless a guard holds an integer that is too long. -/
theorem exists_guardPaths {template : String}
    (hshort : ∀ t ∈ tokenize template, t.opens = true → Guard.HasShortIntegers t.guard) :
    ∃ paths, guardPaths template = .ok paths := by
  obtain ⟨all, hall⟩ := exists_mapM_eq_ok fun t ht => Token.exists_guardPaths (hshort t ht)
  exact ⟨all.flatten.eraseDups, bind_eq_ok_iff.2 ⟨all, hall, rfl⟩⟩

/-- Resolving the spans of a template depends on what stands at the paths told only, by
`evaluate_congr` for each guard and `resolveSpans_congr`. -/
theorem resolveConditionals_congr {template : String} {paths : List String}
    (hpaths : guardPaths template = .ok paths) (h : AgreeOn paths configuration configuration') :
    resolveConditionals template configuration = resolveConditionals template configuration' := by
  refine resolveSpans_congr fun t ht ho => Guard.evaluate_congr fun e he => ?_
  have htold : t.guardPaths = .ok e.paths := by
    rw [Token.guardPaths, Token.tag?_of_opens ho]
    dsimp only
    rw [he]
  exact h.subset fun p hp => (mem_guardPaths hpaths).2 ⟨t, ht, _, htold, hp⟩

/-- **What a template comes to depends on what it tells to read, and on nothing else.** The paths of
its guards can be told (`guardPaths`), and configurations that agree on them resolve its spans to
the same text or fail with the same fault; configurations that agree on its variables
(`variableNames`) insert the same values, or fail alike. -/
theorem reads_only_told {template : String}
    (hshort : ∀ t ∈ tokenize template, t.opens = true → Guard.HasShortIntegers t.guard) :
    (∃ paths, guardPaths template = .ok paths ∧ ∀ configuration configuration' : Value,
        AgreeOn paths configuration configuration' →
        resolveConditionals template configuration = resolveConditionals template configuration')
      ∧ ∀ configuration configuration' : Value,
        AgreeOn (variableNames template) configuration configuration' →
        substitute template configuration = substitute template configuration' := by
  obtain ⟨paths, hpaths⟩ := exists_guardPaths hshort
  refine ⟨⟨paths, hpaths, fun _ _ h => resolveConditionals_congr hpaths h⟩, fun _ _ h => ?_⟩
  refine substitute_congr fun t ht name href => ?_
  exact h name (mem_variableNames.2 ⟨t, ht, href⟩)

/-- A template with a span inside a span, a guard that cannot be read and a tag without a partner:
configurations that differ beside the paths told come to the same text. -/
theorem reads_only_told_nested_spans :
    let template := "\x7b% if a.b > 1 %\x7d\x7b% if not c %\x7d\x7b\x7b x \x7d\x7d"
      ++ "\x7b% endif %\x7d\x7b% endif %\x7d\x7b% if d e %\x7d"
    let configuration := Value.mapping [("a", .mapping [("b", .number (.int 2))]), ("x", .text "y")]
    let configuration' := Value.mapping
      [("d", .bool true), ("x", .text "y"), ("a", .mapping [("c", .null), ("b", .number (.int 2))])]
    (∀ t ∈ tokenize template, t.opens = true → Guard.HasShortIntegers t.guard)
      ∧ guardPaths template = .ok ["a.b", "c"]
      ∧ AgreeOn ["a.b", "c"] configuration configuration'
      ∧ resolveConditionals template configuration = resolveConditionals template configuration'
      ∧ AgreeOn (variableNames template) configuration configuration'
      ∧ substitute template configuration = substitute template configuration' := by
  intro template configuration configuration'
  have hlengths : ((tokenize template).all fun t =>
      decide (t.guard.toList.length ≤ Numeral.maxIntegerDigits)) = true := by decide +kernel
  have hshort : ∀ t ∈ tokenize template, t.opens = true → Guard.HasShortIntegers t.guard :=
    fun t ht _ => Guard.hasShortIntegers_of_length_le
      (of_decide_eq_true (List.all_eq_true.1 hlengths t ht))
  have hpaths : guardPaths template = .ok ["a.b", "c"] := by decide +kernel
  have hagree : AgreeOn ["a.b", "c"] configuration configuration' := by
    rw [AgreeOn, List.forall_mem_cons, List.forall_mem_singleton]
    exact ⟨rfl, rfl⟩
  have hvariables : AgreeOn (variableNames template) configuration configuration' := by
    rw [show variableNames template = ["x"] by decide +kernel, AgreeOn, List.forall_mem_singleton]
    rfl
  obtain ⟨⟨paths, htold, hresolve⟩, hsubstitute⟩ := reads_only_told hshort
  cases hpaths.symm.trans htold
  exact ⟨hshort, hpaths, hagree, hresolve _ _ hagree, hvariables, hsubstitute _ _ hvariables⟩

end Template

end Templating
