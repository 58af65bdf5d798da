import Templating.Command.Run
import Templating.Proofs.Configuration.InferredValues
import Templating.Proofs.Configuration.Sequence
import Templating.Proofs.Guard.BlankEnds
import Templating.Proofs.Guard.Comparison
import Templating.Proofs.Guard.NameComparison

/-!
# Numbers given on the command line

A number that is given on the command line under a name goes a long way before a guard compares it:
its text is cut from the name, read, and written into a tree at the path of the name, and the guard
finds it there again. On that way nothing is lost. What stands at the path is the number that a
guard with the same text means, so the two are equal, and integers of any size are compared as the
integers they are.

## Main definitions

* `evaluateGiven`: the truth of a guard in the configuration that texts `KEY=VALUE` give.

## Main results

* `empty_not_mem_segments`: the path of a name has no empty segment.
* `exists_resolve_of_given`: the number stands at the path of its name.
* `evaluateGiven_related`: a guard compares the number given with the one in its own text.
* `evaluateGiven_numbers`: both meanings of a number are one.
-/

namespace Templating

open Templating.Text

/-! ### Names as keys -/

/-- Points in a name stand apart, so that there is something before and after each of them.
Induction on the rest of the name. -/
theorem Guard.ne_nil_of_mem_splitOn {c : Char} {cs : List Char} (hc : c ≠ '.')
    (h : IsNameRest cs) : ∀ part ∈ splitOn '.' (c :: cs), part ≠ [] := by
  have hinside : ∀ c' : Char, inName c' = true → c' ≠ '.' := by
    rintro c' hc' rfl
    exact absurd hc' (by decide)
  induction h generalizing c with
  | nil => simp [splitOn, hc]
  | @inside c' cs hc' _ ih =>
    have hrest := ih (hinside c' hc')
    rw [splitOn, if_neg hc]
    split
    · simp
    · rename_i part parts hparts
      rw [hparts, List.forall_mem_cons] at hrest
      exact List.forall_mem_cons.2 ⟨List.cons_ne_nil _ _, hrest.2⟩
  | @point c' cs hc' _ ih =>
    have hsplit : splitOn '.' (c :: '.' :: c' :: cs) = [c] :: splitOn '.' (c' :: cs) := by
      simp [splitOn, hc]
    rw [hsplit]
    exact List.forall_mem_cons.2 ⟨List.cons_ne_nil _ _, ih (hinside c' hc')⟩

variable {key s s' : String}

/-- The path of a name has no empty segment, so `Value.resolve` leads where its segments lead. -/
theorem empty_not_mem_segments (hkey : Guard.IsWord key.toList) : "" ∉ segments key := by
  obtain ⟨c, rest, hcons, hc, hrest⟩ := hkey
  have hpoint : c ≠ '.' := by
    rintro rfl
    exact absurd hc (by decide)
  rw [segments, hcons]
  intro hempty
  obtain ⟨part, hpart, hof⟩ := List.mem_map.1 hempty
  exact Guard.ne_nil_of_mem_splitOn hpoint hrest part hpart (String.ofList_injective hof)

/-- A name is cut by `keyValue` from a value that is given under it, at the first equality sign, as
no name has one. -/
theorem keyValue_of_isWord (hkey : Guard.IsWord key.toList) :
    keyValue (key ++ "=" ++ s) = .ok (key, s) := by
  have hmem : ∀ c ∈ key.toList, c ≠ '=' ∧ isBlank c = false := by
    intro c hc
    rcases hkey.inName_or_eq_point c hc with hname | rfl
    · refine ⟨?_, Guard.not_isBlank_of_inName hname⟩
      rintro rfl
      exact absurd hname (by decide)
    · decide
  have htrim : trim key.toList = key.toList :=
    trim_eq_self (fun c hc => (hmem c (List.mem_of_head? hc)).2)
      fun c hc => (hmem c (List.mem_of_getLast? hc)).2
  have hne : key ≠ "" := by
    rintro rfl
    obtain ⟨c, rest, ⟨⟩, -⟩ := hkey
  exact keyValue_eq_ok_iff.2 ⟨key.toList, by simp, fun h => (hmem _ h).1 rfl, htrim, hne⟩

/-! ### The configuration -/

/-- **What a text given under a name stands for is found at the path of that name** in the
configuration that is built from it. -/
theorem exists_resolve_of_given {v : Value} (hkey : Guard.IsWord key.toList)
    (hv : inferred s = .ok v) :
    ∃ c, Command.contextConfiguration [key ++ "=" ++ s] = .ok c ∧ c.resolve key = some v := by
  have hvalues : inferredValues [key ++ "=" ++ s] = .ok (.mapping [(key, v)]) := by
    have hgiven : keyValues [key ++ "=" ++ s] = .ok [(key, .text s)] := by
      rw [keyValues, List.mapM_cons, keyValue_of_isWord hkey]
      rfl
    rw [inferredValues, hgiven]
    simp only [inferEntries, hv, bind, Except.bind, pure, Except.pure]
  have hagrees : AgreesBelow [(key, v)] := by
    simp only [AgreesBelow, List.forall_mem_cons, List.not_mem_nil, false_imp_iff, implies_true,
      and_true, List.self_eq_append_right]
    rintro rest rfl
    rfl
  obtain ⟨c, hc, hleads⟩ := exists_leadsTo_of_agreesBelow
    (List.forall_mem_singleton.2 (empty_not_mem_segments hkey)) hagrees
  refine ⟨c, ?_, hleads _ (List.mem_singleton_self _)⟩
  rw [Command.contextConfiguration, hvalues]
  exact hc

/-- The truth of a guard in the configuration that texts `KEY=VALUE` give. -/
def evaluateGiven (pairs : List String) (guard : String) : Except Fault Bool := do
  let configuration ← Command.contextConfiguration pairs
  Guard.evaluate guard configuration

/-- A guard compares the number that is given under a name with the one in its own text:
`Guard.evaluate_comparison` in the configuration of `exists_resolve_of_given`. -/
theorem evaluateGiven_related {m n : Number} (r : Guard.Relation)
    (hkey : (Guard.Symbol.name key.toList).Matches)
    (hs : (Guard.Symbol.numeral s.toList).Matches) (hm : plainNumber s.toList = .ok m)
    (hs' : (Guard.Symbol.numeral s'.toList).Matches)
    (hn : Guard.numeralLiteral s'.toList = .ok (.number n)) :
    evaluateGiven [key ++ "=" ++ s]
        (key ++ " " ++ String.ofList r.sign ++ " " ++ s')
      = .ok (Guard.related r ⟨some (.number m), some (.number n), false⟩) := by
  have hv : inferred s = .ok (.number m) := by
    rw [Guard.inferred_of_matches hs, hm]
    rfl
  have hliteral : Guard.HasDerivation .operand (.literal (.number n)) [.numeral s'.toList] 0 :=
    ⟨.numeral s'.toList _ hn, rfl, rfl, rfl⟩
  have hguard : key ++ " " ++ String.ofList r.sign ++ " " ++ s' = String.ofList
      (Guard.spaced [.name key.toList, .relation r, .numeral s'.toList]) := by
    refine String.toList_injective ?_
    simp [Guard.spaced, Guard.Symbol.source]
  obtain ⟨c, hc, hresolve⟩ := exists_resolve_of_given hkey.1 hv
  rw [evaluateGiven, hc, hguard]
  dsimp only [bind, Except.bind]
  rw [Guard.evaluate_comparison r hkey hs' hliteral, String.ofList_toList, hresolve]
  rfl

/-! ### Comparing what is given -/

/-- A written integer is read by `plainNumber` as an integer of its value. -/
theorem plainNumber_text (w : WrittenInteger) :
    plainNumber w.text.toList = .ok (.int w.value) := by
  simp only [plainNumber, Guard.contains_point_text, Bool.false_eq_true, if_false, w.integer?_text]

/-- A number that is given under a name is equal to itself in a guard, in whatever script its digits
are written and of whatever size it is, and the order of integers in guards is that of the
integers. -/
theorem evaluateGiven_numbers (hkey : (Guard.Symbol.name key.toList).Matches) :
    (∀ s : String, (Guard.Symbol.numeral s.toList).Matches →
        s.toList.countP isDigit ≤ Numeral.maxIntegerDigits →
        evaluateGiven [key ++ "=" ++ s] (key ++ " == " ++ s) = .ok true)
      ∧ ∀ m n : WrittenInteger, evaluateGiven [key ++ "=" ++ m.text] (key ++ " < " ++ n.text)
          = .ok (decide (m.value < n.value)) := by
  constructor
  · intro s hs hshort
    obtain ⟨n, hliteral, hplain, hnan⟩ := Guard.exists_number_of_matches hs hshort
    obtain ⟨p, hp⟩ := Option.isSome_iff_exists.1 (Number.isSome_place_iff.2 hnan)
    have hvalue : n.exactValue? = some p.value := by rw [Number.exactValue?_eq, hp, Option.map_some]
    have h := evaluateGiven_related .equal hkey hs hplain hs hliteral
    rw [(Guard.related_numbers hvalue hvalue).1, decide_eq_true rfl] at h
    simpa [Guard.Relation.sign, String.append_assoc] using h
  · intro m n
    have h := evaluateGiven_related .less hkey (Guard.matches_text m) (plainNumber_text m)
      (Guard.matches_text n) (Guard.numeralLiteral_text n)
    rw [(Guard.related_numbers (m := .int m.value) (n := .int n.value) rfl rfl).2.1] at h
    have hvalues : (((m.value : ℚ) : WithTop ℚ) : WithBot (WithTop ℚ)) < ((n.value : ℚ) : WithTop ℚ)
        ↔ m.value < n.value := by
      rw [WithBot.coe_lt_coe, WithTop.coe_lt_coe, Int.cast_lt]
    rw [decide_eq_decide.2 hvalues] at h
    simpa [Guard.Relation.sign, String.append_assoc] using h

/-- A fraction in Arabic-Indic digits, and two integers that no floating point number tells
apart. -/
theorem evaluateGiven_numbers_limit :
    (Guard.Symbol.name "retry.limit".toList).Matches
      ∧ evaluateGiven ["retry.limit" ++ "=" ++ "-٤٢.٥"] ("retry.limit" ++ " == " ++ "-٤٢.٥")
        = .ok true
      ∧ evaluateGiven ["retry.limit" ++ "=" ++ "9007199254740992"]
          ("retry.limit" ++ " < " ++ "9007199254740993") = .ok true
      ∧ evaluateGiven ["retry.limit" ++ "=" ++ "9007199254740993"]
          ("retry.limit" ++ " < " ++ "9007199254740992") = .ok false := by
  have hkey : (Guard.Symbol.name "retry.limit".toList).Matches := by
    have hread : (Guard.nameRest "etry.limit".toList).1 = "etry.limit".toList := by decide +kernel
    have hrest := Guard.isNameRest_nameRest "etry.limit".toList
    rw [hread] at hrest
    exact ⟨⟨'r', "etry.limit".toList, rfl, by decide, hrest⟩, fun k => by cases k <;> decide⟩
  obtain ⟨hequal, hless⟩ := evaluateGiven_numbers hkey
  have hdecimal : Guard.IsDecimal (['٤', '٢'] ++ '.' :: ['٥']) :=
    .point (List.cons_ne_nil _ _) (List.all_eq_true.1 (by decide)) (List.cons_ne_nil _ _)
      (List.all_eq_true.1 (by decide))
  have hfraction : (Guard.Symbol.numeral "-٤٢.٥".toList).Matches := .inr ⟨_, rfl, hdecimal⟩
  let small : WrittenInteger :=
    ⟨false, "9007199254740992".toList, by decide, List.all_eq_true.1 (by decide), by decide⟩
  let large : WrittenInteger :=
    ⟨false, "9007199254740993".toList, by decide, List.all_eq_true.1 (by decide), by decide⟩
  have hsmall : small.text = "9007199254740992" := String.ofList_toList
  have hlarge : large.text = "9007199254740993" := String.ofList_toList
  have hlt : small.value < large.value := by decide +kernel
  refine ⟨hkey, hequal _ hfraction (by decide), ?_, ?_⟩
  · have h := hless small large
    rwa [hsmall, hlarge, decide_eq_true hlt] at h
  · have h := hless large small
    rwa [hsmall, hlarge, decide_eq_false hlt.asymm] at h

end Templating
