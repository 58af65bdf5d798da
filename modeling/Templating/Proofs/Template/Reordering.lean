import Templating.Proofs.Guard.Recursion
import Templating.Proofs.Template.Substitution
import Templating.Proofs.Value.EntryOrder

/-!
# Rendering against a reordered configuration

Configurations with the same canonical form differ in the order of entries only. Guards do not see
that order, so they resolve the conditional spans of a template in the same way. A placeholder
sees it only where its value is written as JSON text and has an order of entries: then, and only
then, the rendered texts can differ.

## Main definitions

* `insertsEntryOrder`: whether a template inserts a value that has an order of entries.

## Main results

* `Guard.evaluate_canonical`: guards do not see the order of entries.
* `resolveConditionals_canonical`: resolving conditional spans does not see it.
* `renderText_eq_of_canonical_eq`: nor does rendering, if no order of entries is inserted.
* `renderText_reversed_ne`: an order of entries that is inserted is seen.
-/

namespace Templating

namespace Guard

/-! ### Guards -/

/-- The operands in canonical form, each by `Value.canonical`. -/
def Operands.canonical (o : Operands) : Operands :=
  ⟨o.left.map Value.canonical, o.right.map Value.canonical, o.shared⟩

/-- The kind of an operand (`kindOf`) does not depend on the order of entries. -/
theorem kindOf_canonical (v : Option Value) : kindOf (v.map Value.canonical) = kindOf v := by
  rcases v with - | v
  · rfl
  · cases v <;> rfl

/-- Nor does equality of operands, by `Value.equal_canonical`. -/
theorem Operands.equal_canonical (o : Operands) : o.canonical.equal = o.equal := by
  obtain ⟨left, right, shared⟩ := o
  rw [canonical, equal, equal, kindOf_canonical, kindOf_canonical]
  refine congrArg _ ?_
  rcases left with - | x <;> rcases right with - | y
  · rfl
  · cases y <;> rfl
  · cases x <;> rfl
  · cases x with
    | list xs =>
      cases y with
      | list ys => exact congrArg (shared || ·) (Value.equalItems_canonical xs ys)
      | _ => rfl
    | mapping xs =>
      cases y with
      | mapping ys =>
        exact congrArg (shared || ·) (Value.equal_canonical (.mapping xs) (.mapping ys))
      | _ => rfl
    | _ => cases y <;> rfl

/-- The order of operands does not depend on it either, as `Operands.ordered` compares numbers
only. -/
theorem Operands.ordered_canonical (order : Number → Number → Bool) (o : Operands) :
    o.canonical.ordered order = o.ordered order := by
  obtain ⟨left, right, shared⟩ := o
  rcases left with - | x <;> rcases right with - | y
  · rfl
  · rfl
  · cases x <;> rfl
  · cases x <;> cases y <;> rfl

/-- No relation between operands depends on the order of entries: `related` is made of
`Operands.equal` and `Operands.ordered`. -/
theorem related_canonical (r : Relation) (o : Operands) : related r o.canonical = related r o := by
  cases r with
  | equal => exact o.equal_canonical
  | unequal => exact congrArg not o.equal_canonical
  | less => exact o.ordered_canonical _
  | atMost => exact o.ordered_canonical _
  | greater => exact o.ordered_canonical _
  | atLeast => exact o.ordered_canonical _

namespace Expr

/-- The value of an operand in a reordered configuration is the reordered value, because
`Value.resolve` finds the same keys. -/
theorem operand_canonical (configuration : Value) (truth : Except Fault Bool) (e : Expr) :
    e.operand configuration.canonical truth
      = (e.operand configuration truth).map (Option.map Value.canonical) := by
  cases e with
  | literal l => cases l <;> rfl
  | path p => exact congrArg Except.ok (Value.resolve_canonical p configuration)
  | _ =>
    cases truth with
    | error fault => rfl
    | ok b => rfl

/-- Expressions do not see the order of entries. Induction on the expression, with `Expr.holds_or`
and `Expr.holds_and` for the connectives. -/
theorem holds_canonical (configuration : Value) (e : Expr) :
    holds configuration.canonical e = holds configuration e := by
  induction e with
  | literal l =>
    rw [holds, holds]
  | path p =>
    rw [holds, holds, Value.resolve_canonical, Value.isTruthy_canonical]
  | not e ih =>
    rw [holds, holds, ih]
  | and left right ihl ihr =>
    rw [holds_and, holds_and, ihl, ihr]
  | or left right ihl ihr =>
    rw [holds_or, holds_or, ihl, ihr]
  | compare r left right ihl ihr =>
    rw [holds, holds, ihl, ihr, operand_canonical, operand_canonical]
    cases left.operand configuration (holds configuration left) with
    | error fault => rfl
    | ok x =>
      cases right.operand configuration (holds configuration right) with
      | error fault => rfl
      | ok y => exact congrArg Except.ok (related_canonical r ⟨x, y, samePath left right⟩)

end Expr

/-- **Guards do not see the order of entries**, by `holds_canonical` for the expression that a guard
is read as. -/
theorem evaluate_canonical (guard : String) (configuration : Value) :
    evaluate guard configuration.canonical = evaluate guard configuration := by
  rw [evaluate, evaluate]
  split
  · exact Expr.holds_canonical configuration _
  · rfl
  · rfl

end Guard

namespace Template

/-! ### Conditional spans -/

/-- A step of the pass (`Pass.step`) sees a configuration through its guards only. -/
theorem step_canonical (configuration : Value) :
    Pass.step configuration.canonical = Pass.step configuration := by
  funext paired p entry
  simp only [Pass.step, Pass.openSpan, Guard.evaluate_canonical]

/-- Resolving conditional spans does not see the order of entries: the pass takes the same steps
(`step_canonical`). -/
theorem resolveConditionals_canonical (template : String) (configuration : Value) :
    resolveConditionals template configuration.canonical
      = resolveConditionals template configuration := by
  rw [resolveConditionals, resolveConditionals, resolveSpans, resolveSpans, step_canonical]

/-- Configurations with the same canonical form resolve the spans of a template in the same way. -/
theorem resolveConditionals_eq_of_canonical_eq (template : String)
    {configuration configuration' : Value}
    (h : configuration'.canonical = configuration.canonical) :
    resolveConditionals template configuration' = resolveConditionals template configuration := by
  rw [← resolveConditionals_canonical, h, resolveConditionals_canonical]

/-! ### Inserted values -/

/-- Whether a template inserts a value that has an order of entries, as `Value.hasEntryOrder` tells
it. -/
def insertsEntryOrder (template : String) (configuration : Value) : Bool :=
  match resolveConditionals template configuration with
  | .ok resolved =>
    (variableNames resolved).any fun name => (configuration.resolve name).any Value.hasEntryOrder
  | .error _ => false

/-- The value that stands in the place of a token in the rendered text. -/
def Token.inserted? (configuration : Value) (t : Token) : Option Value :=
  (t.reference?.bind configuration.resolve).filter fun v => !v.isNull

/-- A token is replaced by its inserted value, written as text, or stays as it is. So
`Token.replacement` is told by `Token.inserted?` alone. -/
theorem replacement_eq (configuration : Value) (t : Token) : t.replacement configuration
    = match t.inserted? configuration with
      | none => .ok t.text
      | some v => v.inserted := by
  rw [Token.replacement, Token.inserted?]
  cases t.reference? with
  | none => rfl
  | some name =>
    simp only [Option.bind_some]
    cases configuration.resolve name with
    | none => rfl
    | some v =>
      simp only [Option.filter_some]
      cases v.isNull <;> rfl

/-- The value inserted from a reordered configuration is the reordered value. -/
theorem inserted?_canonical (configuration : Value) (t : Token) :
    t.inserted? configuration.canonical = (t.inserted? configuration).map Value.canonical := by
  rw [Token.inserted?, Token.inserted?]
  cases t.reference? with
  | none => rfl
  | some name =>
    rw [Option.bind_some, Option.bind_some, Value.resolve_canonical]
    cases configuration.resolve name with
    | none => rfl
    | some v =>
      rw [Option.map_some, Option.filter_some, Option.filter_some, Value.isNull_canonical]
      cases v.isNull <;> rfl

/-- A value is inserted as its text (`Value.insertedText`) unless it holds an integer with too many
digits. -/
theorem inserted_eq_ok_iff {v : Value} {text : String} :
    v.inserted = .ok text ↔ v.hasOverlongInteger = false ∧ v.insertedText = text := by
  rw [Value.inserted]
  split
  · rename_i h
    exact iff_of_false (by rintro ⟨⟩) fun hboth => by simp [hboth.1] at h
  · rename_i h
    constructor
    · rintro ⟨⟩
      exact ⟨Bool.eq_false_iff.2 h, rfl⟩
    · rintro ⟨-, rfl⟩
      rfl

/-- The parts of the rendered text have the same lengths in every order of entries. -/
theorem replacement_of_canonical_eq {configuration configuration' : Value} {t : Token}
    {part : String} (h : configuration'.canonical = configuration.canonical)
    (hpart : t.replacement configuration = .ok part) :
    ∃ part', t.replacement configuration' = .ok part' ∧ part.length = part'.length := by
  have hboth : (t.inserted? configuration').map Value.canonical
      = (t.inserted? configuration).map Value.canonical := by
    rw [← inserted?_canonical, h, inserted?_canonical]
  rw [replacement_eq] at hpart ⊢
  cases hv : t.inserted? configuration with
  | none =>
    rw [hv] at hboth hpart
    rw [Option.map_eq_none_iff.1 hboth]
    exact ⟨part, hpart, rfl⟩
  | some v =>
    rw [hv] at hboth hpart
    obtain ⟨v', hv', hcanonical⟩ := Option.map_eq_some_iff.1 hboth
    obtain ⟨hlong, rfl⟩ := inserted_eq_ok_iff.1 hpart
    rw [hv']
    refine ⟨v'.insertedText, inserted_eq_ok_iff.2 ⟨?_, rfl⟩,
      Value.length_insertedText_eq hcanonical.symm⟩
    rw [← Value.hasOverlongInteger_canonical, hcanonical, Value.hasOverlongInteger_canonical, hlong]

/-- **Rendering does not see the order of entries, if none is inserted**: every inserted value is
written in the same way in both orders. The spans are resolved alike
(`resolveConditionals_eq_of_canonical_eq`), and then `replacement_eq` compares token by token. -/
theorem renderText_eq_of_canonical_eq {template : String} {configuration configuration' : Value}
    (h : configuration'.canonical = configuration.canonical)
    (hplain : insertsEntryOrder template configuration = false) :
    renderText template configuration' = renderText template configuration := by
  rw [renderText, renderText, resolveConditionals_eq_of_canonical_eq template h]
  rw [insertsEntryOrder] at hplain
  cases hresolved : resolveConditionals template configuration with
  | error fault => rfl
  | ok resolved =>
    simp only [hresolved, List.any_eq_false] at hplain
    refine substitute_congr fun t ht name href => ?_
    have hname := hplain name (mem_variableNames.2 ⟨t, ht, href⟩)
    have hboth : (configuration'.resolve name).map Value.canonical
        = (configuration.resolve name).map Value.canonical := by
      rw [← Value.resolve_canonical, h, Value.resolve_canonical]
    cases hv : configuration.resolve name with
    | none =>
      rw [hv] at hboth
      exact Option.map_eq_none_iff.1 hboth
    | some v =>
      rw [hv] at hboth hname
      obtain ⟨v', hv', hcanonical⟩ := Option.map_eq_some_iff.1 hboth
      rw [hv', Value.eq_of_canonical_eq (Bool.eq_false_iff.2 hname) hcanonical]

/-- Rendering succeeds in every order of entries, with texts that have parts of the same lengths, by
`replacement_of_canonical_eq` for each token. -/
theorem mapM_replacement_of_canonical_eq {configuration configuration' : Value}
    (h : configuration'.canonical = configuration.canonical) {tokens : List Token}
    {parts : List String} (hparts : tokens.mapM (Token.replacement configuration) = .ok parts) :
    ∃ parts', tokens.mapM (Token.replacement configuration') = .ok parts'
      ∧ List.Forall₂ (fun p q => p.length = q.length) parts parts' := by
  rw [mapM_eq_ok_iff] at hparts
  induction hparts with
  | nil => exact ⟨[], rfl, .nil⟩
  | @cons t part tokens parts ht hrest ih =>
    obtain ⟨part', ht', hlength⟩ := replacement_of_canonical_eq h ht
    obtain ⟨parts', hrest', hlengths⟩ := ih
    refine ⟨part' :: parts', ?_, .cons hlength hlengths⟩
    rw [mapM_eq_ok_iff] at hrest' ⊢
    exact .cons ht' hrest'

/-- Rendering against a reordered configuration gives a text with parts of the same lengths. -/
theorem renderText_of_canonical_eq {template content : String}
    {configuration configuration' : Value}
    (h : configuration'.canonical = configuration.canonical)
    (hcontent : renderText template configuration = .ok content) :
    ∃ resolved parts parts', resolveConditionals template configuration = .ok resolved
      ∧ (tokenize resolved).mapM (Token.replacement configuration) = .ok parts
      ∧ (tokenize resolved).mapM (Token.replacement configuration') = .ok parts'
      ∧ List.Forall₂ (fun p q => p.length = q.length) parts parts'
      ∧ Text.concat parts = content
      ∧ renderText template configuration' = .ok (Text.concat parts') := by
  obtain ⟨resolved, hresolved, hsubstitute⟩ := bind_eq_ok_iff.1 hcontent
  obtain ⟨parts, hparts, hconcat⟩ := substitute_eq_ok_iff.1 hsubstitute
  obtain ⟨parts', hparts', hlength⟩ := mapM_replacement_of_canonical_eq h hparts
  refine ⟨resolved, parts, parts', hresolved, hparts, hparts', hlength, hconcat, ?_⟩
  rw [renderText, resolveConditionals_eq_of_canonical_eq template h, hresolved]
  exact substitute_eq_ok_iff.2 ⟨parts', hparts', rfl⟩

/-- A list or a mapping that a token refers to is inserted. -/
theorem inserted?_eq_some {configuration v : Value} {t : Token} {name : String}
    (href : t.reference? = some name) (hv : configuration.resolve name = some v)
    (hcompound : v.isCompound = true) : t.inserted? configuration = some v := by
  have hnull : v.isNull = false := by
    cases v with
    | null => cases hcompound
    | _ => rfl
  rw [Token.inserted?, href, Option.bind_some, hv, Option.filter_some, hnull]
  rfl

/-- **An order of entries that is inserted is seen.** The parts have the same lengths in both
orders, so the texts are equal only if the parts are, and the part of the inserted value is not. -/
theorem renderText_reversed_ne {template content : String} {configuration : Value}
    (hunique : configuration.hasUniqueKeys = true)
    (hcontent : renderText template configuration = .ok content)
    (hinserts : insertsEntryOrder template configuration = true) :
    ∃ content', renderText template configuration.reversed = .ok content' ∧ content' ≠ content := by
  obtain ⟨resolved, parts, parts', hresolved, hparts, hparts', hlength, rfl, hcontent'⟩ :=
    renderText_of_canonical_eq (Value.canonical_reversed hunique) hcontent
  refine ⟨Text.concat parts', hcontent', fun heq => ?_⟩
  obtain rfl := eq_of_concat_eq hlength heq.symm
  simp only [insertsEntryOrder, hresolved, List.any_eq_true, Option.any_eq_true] at hinserts
  obtain ⟨name, hname, v, hv, horder⟩ := hinserts
  obtain ⟨t, ht, href⟩ := mem_variableNames.1 hname
  obtain ⟨part, hpart, hpart'⟩ := exists_of_mapM_eq_ok hparts hparts' t ht
  have hcompound := Value.isCompound_of_hasEntryOrder horder
  have hv' : configuration.reversed.resolve name = some v.reversed := by
    rw [Value.resolve_reversed hunique, hv, Option.map_some]
  rw [replacement_eq, inserted?_eq_some href hv hcompound] at hpart
  rw [replacement_eq, inserted?_eq_some href hv' ((Value.isCompound_reversed v).trans hcompound)]
    at hpart'
  obtain ⟨-, htext⟩ := inserted_eq_ok_iff.1 hpart
  obtain ⟨-, htext'⟩ := inserted_eq_ok_iff.1 hpart'
  exact Value.insertedText_reversed_ne (Value.hasUniqueKeys_of_resolve hunique hv) horder
    (htext'.trans htext.symm)

end Template

end Templating
