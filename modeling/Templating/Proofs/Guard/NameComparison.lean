import Templating.Proofs.Guard.Printing

/-!
# Comparing a name with a literal

A guard that compares a name with a literal, written with single spaces, is read as that
comparison. Its truth is the relation between what stands at the path of that name and the value
of the literal.

## Main results

* `parse_comparison`: such a guard is read as written.
* `evaluate_comparison`: its truth.
-/

namespace Templating.Guard

open Templating.Text

variable {path : List Char} {s : Symbol} {l : Scalar}

/-- A name, a relation and a literal with single spaces between them are read as written. The
derivation is put together from those of its parts, and the printed symbols are cut apart again. -/
theorem parse_comparison (r : Relation) (hpath : (Symbol.name path).Matches) (hs : s.Matches)
    (hl : HasDerivation .operand (.literal l) [s] 0) :
    parse (String.ofList (spaced [.name path, .relation r, s]))
      = .ok (.compare r (.path (String.ofList path)) (.literal l)) := by
  have hname : HasDerivation .operand (.path (String.ofList path)) [.name path] 0 :=
    ⟨.path path, rfl, rfl, rfl⟩
  obtain ⟨d, hsymbols, hexpr, hdepth⟩ := (hname.compare r hl).negation.conjunction.disjunction
  refine parse_eq_ok_iff.2 ⟨d, ⟨?_, hdepth ▸ Nat.zero_le _⟩, hexpr⟩
  rw [String.toList_ofList, hsymbols]
  refine splits_spaced fun t ht => ?_
  simp only [List.mem_cons, List.not_mem_nil, or_false] at ht
  rcases ht with rfl | rfl | rfl
  · exact hpath
  · trivial
  · exact hs

/-- **The truth of a guard that compares a name with a literal.** It is `related` of the value that
stands at the path, or of its absence, and the value of the literal. -/
theorem evaluate_comparison (r : Relation) (hpath : (Symbol.name path).Matches) (hs : s.Matches)
    (hl : HasDerivation .operand (.literal l) [s] 0) (configuration : Value) :
    evaluate (String.ofList (spaced [.name path, .relation r, s])) configuration
      = .ok (related r ⟨configuration.resolve (String.ofList path), some l.value, false⟩) := by
  rw [evaluate, parse_comparison r hpath hs hl]
  dsimp only
  rw [Expr.holds]
  rfl

end Templating.Guard
