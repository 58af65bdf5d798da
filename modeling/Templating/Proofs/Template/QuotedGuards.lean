import Templating.Proofs.Guard.Comparison
import Templating.Proofs.Guard.NameComparison
import Templating.Proofs.Template.WrappingLaw

/-!
# Quoted texts in guards

A text in double quotes in the guard of a tag comes through the reading of the tag and of the guard
as it is. The tag goes on to its own end, since the text holds neither delimiter and the quotes
around it keep it apart from what stands next to it; blank space is only taken away outside the
quotes; and the text ends at the next quote. So a span under the guard that compares a name with
the text is kept exactly where the name stands for that text.

## Main results

* `pair_infix_append_cons`: no pair of characters spans a character that is in neither.
* `fits_guardTag_quoted`: a tag with such a guard is one token.
* `resolveConditionals_quoted`: what a span under such a guard comes to.
-/

namespace Templating

open Templating.Text

/-- A pair of characters does not go over a character that is neither of the two. -/
theorem Text.pair_infix_append_cons {a b c : Char} {front back : List Char} (ha : a ≠ c)
    (hb : b ≠ c) (h : [a, b] <:+: front ++ c :: back) : [a, b] <:+: front ∨ [a, b] <:+: back := by
  induction front with
  | nil =>
    rcases List.infix_cons_iff.1 h with ⟨more, hmore⟩ | hback
    · exact absurd (List.cons.inj hmore).1 ha
    · exact .inr hback
  | cons d front ih =>
    rcases List.infix_cons_iff.1 h with ⟨more, hmore⟩ | hinside
    · cases front with
      | nil => exact absurd (List.cons.inj (List.cons.inj hmore).2).1 hb
      | cons e front =>
        obtain ⟨rfl, htail⟩ := List.cons.inj hmore
        obtain ⟨rfl, -⟩ := List.cons.inj htail
        exact .inl ⟨[], front, rfl⟩
    · exact (ih hinside).imp_left List.infix_cons

namespace Guard

/-- An operand is equal to a text (`Operands.equal`) if it is that text. -/
theorem equal_text_iff {x : Option Value} {s : String} {shared : Bool} :
    Operands.equal ⟨x, some (.text s), shared⟩ = true ↔ x = some (.text s) := by
  cases x with
  | none => simp [Operands.equal, kindOf]
  | some v => cases v <;> simp [Operands.equal, kindOf, Value.isNull, Value.equal]

end Guard

namespace Template

/-- The guard that compares the name `x` with a text in double quotes. -/
def quotedGuard (s : String) : String :=
  "x == \"" ++ s ++ "\""

variable {s : String}

/-- The guard has its three symbols with single spaces between them (`Guard.spaced`), so reading it
back is known. -/
theorem toList_quotedGuard (s : String) : (quotedGuard s).toList
    = Guard.spaced [.name ['x'], .relation .equal, .quoted '"' s.toList] := by
  simp [quotedGuard, Guard.spaced, Guard.Symbol.source, Guard.Relation.sign]

/-- The tag with such a guard is one token if the text holds neither delimiter of a tag: by
`Text.pair_infix_append_cons` a delimiter would not go over a quote. -/
theorem fits_guardTag_quoted (hopening : ¬['{', '%'] <:+: s.toList)
    (hclosing : ¬['%', '}'] <:+: s.toList) : (guardTag (quotedGuard s).toList).Fits := by
  have hinner : [' '] ++ (['i', 'f', ' '] ++ (quotedGuard s).toList ++ [' '])
      = " if x == ".toList ++ '"' :: (s.toList ++ '"' :: [' ']) := by
    simp [quotedGuard]
  have hpair : ∀ a b : Char, a ≠ '"' → b ≠ '"' → ¬[a, b] <:+: " if x == ".toList →
      ¬[a, b] <:+: s.toList → ¬[a, b] <:+: [' '] →
      ¬[a, b] <:+: [' '] ++ (['i', 'f', ' '] ++ (quotedGuard s).toList ++ [' ']) := by
    intro a b ha hb hfront hs hback h
    rw [hinner] at h
    rcases pair_infix_append_cons ha hb h with h | h
    · exact hfront h
    · exact (pair_infix_append_cons ha hb h).elim hs hback
  exact ⟨hpair _ _ (by decide) (by decide) (by decide) hopening (by decide),
    hpair _ _ (by decide) (by decide) (by decide) hclosing (by decide)⟩

/-- The truth of such a guard is that of `Operands.equal` for what stands at the name and the text
in quotes. -/
theorem evaluate_quotedGuard (hquote : '"' ∉ s.toList) (configuration : Value) :
    Guard.evaluate (quotedGuard s) configuration
      = .ok (Guard.Operands.equal ⟨configuration.resolve "x", some (.text s), false⟩) := by
  have hname : (Guard.Symbol.name ['x']).Matches :=
    ⟨⟨'x', [], by decide, by decide, .nil⟩, fun k => by cases k <;> decide⟩
  have hquoted : (Guard.Symbol.quoted '"' s.toList).Matches := ⟨.inl rfl, hquote⟩
  have hliteral : Guard.HasDerivation .operand (.literal (.text s)) [.quoted '"' s.toList] 0 :=
    ⟨.quoted '"' s.toList, rfl, by rw [Guard.Derivation.expr, String.ofList_toList], rfl⟩
  have h := Guard.evaluate_comparison .equal hname hquoted hliteral configuration
  rwa [← toList_quotedGuard, String.ofList_toList] at h

/-- A name of one segment leads to what is entered under it. -/
theorem resolve_mapping_x (entries : Entries) :
    (Value.mapping entries).resolve "x" = entries.get? "x" := by
  have hsegments : segments "x" = ["x"] := by decide +kernel
  rw [Value.resolve_eq_at? (by simp [hsegments]), hsegments, Value.at?, Value.entry?]
  cases entries.get? "x" <;> rfl

/-- What a span under such a guard comes to: its body if the guard is true, and nothing if not. This
is `resolveConditionals_guardTag` with the truth of `evaluate_quotedGuard`. -/
theorem resolveConditionals_quotedGuard (hquote : '"' ∉ s.toList)
    (hopening : ¬['{', '%'] <:+: s.toList) (hclosing : ¬['%', '}'] <:+: s.toList)
    (entries : Entries) :
    resolveConditionals ("\x7b% if x == \"" ++ s ++ "\" %\x7dY\x7b% endif %\x7d")
        (.mapping entries)
      = .ok (if Guard.Operands.equal ⟨entries.get? "x", some (.text s), false⟩ then "Y"
          else "") := by
  have hwrapped : "\x7b% if x == \"" ++ s ++ "\" %\x7dY\x7b% endif %\x7d"
      = String.ofList
        ((guardTag (quotedGuard s).toList).source ++ (['Y'] ++ closingTag.source)) := by
    refine String.toList_injective ?_
    simp [guardTag, quotedGuard, closingTag, Shape.source]
  have htokens : tokenize (String.ofList ['Y']) = [⟨.text ['Y'], 0⟩] := by decide +kernel
  have htags : TagsPaired (tokenize (String.ofList ['Y'])) := by decide +kernel
  have hbody : resolveConditionals (String.ofList ['Y']) (.mapping entries) = .ok "Y" := by
    rw [resolveConditionals, htokens]
    rfl
  rw [hwrapped, resolveConditionals_guardTag (fits_guardTag_quoted hopening hclosing) htags,
    String.ofList_toList, evaluate_quotedGuard hquote, resolve_mapping_x, hbody]
  cases Guard.Operands.equal ⟨entries.get? "x", some (.text s), false⟩ <;> rfl

/-- **A guard compares with exactly the text in its quotes.** In a span under a guard that compares
a name with a text in double quotes, the text holds no double quote and neither delimiter of a tag,
but may hold any other characters: the span is kept if the name stands for that very text, and
dropped if it stands for anything else or for nothing. -/
theorem resolveConditionals_quoted (hquote : '"' ∉ s.toList)
    (hopening : ¬['{', '%'] <:+: s.toList) (hclosing : ¬['%', '}'] <:+: s.toList)
    (entries : Entries) :
    (entries.get? "x" = some (.text s) →
      resolveConditionals ("\x7b% if x == \"" ++ s ++ "\" %\x7dY\x7b% endif %\x7d")
        (.mapping entries) = .ok "Y")
      ∧ (entries.get? "x" ≠ some (.text s) →
        resolveConditionals ("\x7b% if x == \"" ++ s ++ "\" %\x7dY\x7b% endif %\x7d")
          (.mapping entries) = .ok "") := by
  rw [resolveConditionals_quotedGuard hquote hopening hclosing]
  constructor
  · intro hx
    rw [if_pos (Guard.equal_text_iff.2 hx)]
  · intro hx
    rw [if_neg (mt Guard.equal_text_iff.1 hx)]

/-- A text with blank space at both ends, a line feed, a percent sign and single braces: the name
stands for the text, for the text without the blank space around it, for a list of it, and for
nothing. -/
theorem resolveConditionals_quoted_blank_ends :
    ('"' ∉ " \x7b\n% a\x7d ".toList ∧ ¬['{', '%'] <:+: " \x7b\n% a\x7d ".toList
        ∧ ¬['%', '}'] <:+: " \x7b\n% a\x7d ".toList)
      ∧ resolveConditionals
          ("\x7b% if x == \"" ++ " \x7b\n% a\x7d " ++ "\" %\x7dY\x7b% endif %\x7d")
          (.mapping [("x", .text " \x7b\n% a\x7d ")]) = .ok "Y"
      ∧ ∀ entries ∈ [[("x", .text "\x7b\n% a\x7d")], [("x", .list [.text " \x7b\n% a\x7d "])], []],
        resolveConditionals
          ("\x7b% if x == \"" ++ " \x7b\n% a\x7d " ++ "\" %\x7dY\x7b% endif %\x7d")
          (.mapping entries) = .ok "" := by
  have hquote : '"' ∉ " \x7b\n% a\x7d ".toList := by decide +kernel
  have hopening : ¬['{', '%'] <:+: " \x7b\n% a\x7d ".toList := by decide +kernel
  have hclosing : ¬['%', '}'] <:+: " \x7b\n% a\x7d ".toList := by decide +kernel
  refine ⟨⟨hquote, hopening, hclosing⟩,
    (resolveConditionals_quoted hquote hopening hclosing _).1 rfl, fun entries hentries => ?_⟩
  refine (resolveConditionals_quoted hquote hopening hclosing entries).2 ?_
  simp only [List.mem_cons, List.not_mem_nil, or_false] at hentries
  rcases hentries with rfl | rfl | rfl
  · intro heq
    have htext : some (Value.text "\x7b\n% a\x7d") = some (.text " \x7b\n% a\x7d ") := heq
    exact absurd (Value.text.inj (Option.some.inj htext)) (by decide)
  · intro heq
    cases heq
  · intro heq
    cases heq

end Template

end Templating
