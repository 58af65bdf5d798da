import Templating.Proofs.Guard.OverlongIntegers
import Templating.Proofs.Guard.Printing

/-!
# Blank space around a guard

Blank space before and after a guard does not change what the guard says. In front it is skipped.
At the end no symbol can take it in, because no symbol ends with a blank character, and a number
may stand before it as it may at the end. So the guard is split into the same symbols, and its
truth depends on those alone.

## Main results

* `Symbol.begins_append_blank_iff`: what may stand at the head before blank space at the end.
* `splits_surrounded_iff`: a text between blank characters has the same symbols.
* `evaluate_congr_symbols`: the truth of a guard depends on its symbols.
* `evaluate_surrounded`: blank space around a guard does not change its truth.
-/

namespace Templating.Guard

open Templating.Text

/-! ### Characters of symbols -/

/-- No character of a name is blank: `inName` accepts letters, digits and underscores, and `isBlank`
none of these. -/
theorem not_isBlank_of_inName {c : Char} (h : inName c = true) : isBlank c = false := by
  have hrange : (48 ≤ c.toNat ∧ c.toNat ≤ 57) ∨ startsName c = true := by
    rw [inName, Char.isAlphanum, Bool.or_assoc, Bool.or_comm c.isDigit, ← Bool.or_assoc,
      Bool.or_eq_true] at h
    refine h.symm.imp_left fun hdigit => ?_
    simpa [Char.isDigit, UInt32.le_iff_toNat_le] using hdigit
  have hbounds := hrange.imp_right bounds_of_startsName
  simp only [isBlank, Bool.or_eq_false_iff, Bool.and_eq_false_iff, decide_eq_false_iff_not,
    beq_eq_false_iff_ne]
  omega

/-- A character that a name may begin with may also stand further on in it. -/
theorem inName_of_startsName {c : Char} (h : startsName c = true) : inName c = true := by
  rw [startsName, Bool.or_eq_true] at h
  rw [inName, Bool.or_eq_true, Char.isAlphanum, Bool.or_eq_true]
  exact h.imp_left .inl

/-- A name is made of letters, digits, underscores and points. -/
theorem IsWord.inName_or_eq_point {cs : List Char} (h : IsWord cs) :
    ∀ c ∈ cs, inName c = true ∨ c = '.' := by
  obtain ⟨c, rest, rfl, hc, hrest⟩ := h
  exact List.forall_mem_cons.2 ⟨.inl (inName_of_startsName hc), hrest.inName_or_eq_point⟩

/-- A number may end before blank space: a blank character is neither in a name nor a point. -/
theorem not_continuesNumber_of_isBlank {c : Char} (h : isBlank c = true) :
    continuesNumber c = false := by
  rw [continuesNumber, Bool.or_eq_false_iff, beq_eq_false_iff_ne]
  refine ⟨Bool.eq_false_iff.2 fun hname => ?_, ?_⟩
  · cases h.symm.trans (not_isBlank_of_inName hname)
  · rintro rfl
    exact absurd h (by decide)

namespace Symbol

variable {s : Symbol} {cs rest rest' after : List Char}

/-- No symbol ends with a blank character. A quoted text ends with its quote, a number with a digit,
and a name with a letter, a digit or an underscore. -/
theorem Matches.not_isBlank_of_getLast? (h : s.Matches) {c : Char}
    (hc : s.source.getLast? = some c) : isBlank c = false := by
  have hword {word : List Char} (h : IsWord word) (hc : word.getLast? = some c) :
      isBlank c = false := by
    rcases h.inName_or_eq_point c (List.mem_of_getLast? hc) with hin | rfl
    · exact not_isBlank_of_inName hin
    · decide
  cases s with
  | quoted quote content =>
    have hlast : (quote :: (content ++ [quote])).getLast? = some quote := by
      rw [← List.cons_append, List.getLast?_concat]
    cases hlast.symm.trans hc
    rcases h.1 with rfl | rfl <;> decide
  | numeral digits =>
    obtain ⟨d, hlast, hd⟩ := getLast?_of_matches_numeral h
    cases hlast.symm.trans hc
    exact not_isBlank_of_isDigit hd
  | relation r => cases r <;> cases hc <;> decide
  | opening => cases hc; decide
  | closing => cases hc; decide
  | keyword k => exact hword (isWord_spelling k) hc
  | name path => exact hword h.1 hc

/-- Blank space at the end of what follows does not matter to whether a symbol may stand before it:
it only matters to a number, and a number may end there too. -/
theorem mayPrecede_append_blank_iff (hafter : ∀ c ∈ after, isBlank c = true) :
    s.MayPrecede (rest ++ after) ↔ s.MayPrecede rest := by
  cases s with
  | numeral digits =>
    cases rest with
    | nil =>
      refine iff_of_true ?_ rfl
      cases after with
      | nil => rfl
      | cons c after =>
        have hc := not_continuesNumber_of_isBlank (hafter c List.mem_cons_self)
        change (!continuesNumber c) = true
        rw [hc, Bool.not_false]
    | cons c rest => exact Iff.rfl
  | _ => exact Iff.rfl

/-- What may stand at the head of a text before blank space at its end may stand there without it:
the symbol cannot reach into that space, by `Matches.not_isBlank_of_getLast?`. -/
theorem begins_append_blank_iff (hafter : ∀ c ∈ after, isBlank c = true) :
    s.Begins (cs ++ after) rest' ↔ ∃ rest, rest' = rest ++ after ∧ s.Begins cs rest := by
  constructor
  · rintro ⟨hsource, hpattern, hfollow⟩
    rcases List.append_eq_append_iff.1 hsource with ⟨mid, hcs, rfl⟩ | ⟨mid, hmid, rfl⟩
    · rw [mayPrecede_append_blank_iff hafter] at hfollow
      exact ⟨mid, rfl, hcs.symm, hpattern, hfollow⟩
    · -- A symbol that reached into the blank space would end there.
      rcases List.eq_nil_or_concat' mid with rfl | ⟨front, c, rfl⟩
      · rw [List.append_nil] at hmid
        refine ⟨[], rfl, by rw [hmid, List.append_nil], hpattern, ?_⟩
        exact (mayPrecede_append_blank_iff hafter).1 hfollow
      · have hlast : s.source.getLast? = some c := by
          rw [hmid, ← List.append_assoc, List.getLast?_concat]
        have hblank := hafter c (by simp)
        cases hblank.symm.trans (hpattern.not_isBlank_of_getLast? hlast)
  · rintro ⟨rest, rfl, hsource, hpattern, hfollow⟩
    refine ⟨?_, hpattern, (mayPrecede_append_blank_iff hafter).2 hfollow⟩
    rw [← List.append_assoc, hsource]

/-- The next symbol is the same before blank space at the end, since the candidates are the same and
their lengths compare in the same way. -/
theorem isNext_append_blank_iff (hafter : ∀ c ∈ after, isBlank c = true) :
    s.IsNext (cs ++ after) (rest ++ after) ↔ s.IsNext cs rest := by
  have hlength : ∀ rest', (rest ++ after).length ≤ (rest' ++ after).length
      ↔ rest.length ≤ rest'.length := by
    intro rest'
    rw [List.length_append, List.length_append, Nat.add_le_add_iff_right]
  constructor
  · rintro ⟨hbegins, hlongest⟩
    obtain ⟨rest', heq, hbegins'⟩ := (begins_append_blank_iff hafter).1 hbegins
    obtain rfl := List.append_cancel_right heq
    refine ⟨hbegins', fun t rest' ht => (hlength rest').1 (hlongest t _ ?_)⟩
    exact (begins_append_blank_iff hafter).2 ⟨rest', rfl, ht⟩
  · rintro ⟨hbegins, hlongest⟩
    refine ⟨(begins_append_blank_iff hafter).2 ⟨rest, rfl, hbegins⟩, fun t rest' ht => ?_⟩
    obtain ⟨rest', rfl, ht'⟩ := (begins_append_blank_iff hafter).1 ht
    exact (hlength rest').2 (hlongest t rest' ht')

end Symbol

/-! ### Symbols of a surrounded text -/

section Splits

variable {cs before after : List Char} {symbols : List Symbol}

/-- A blank character in front is skipped. -/
theorem splits_cons_blank_iff {c : Char} (hc : isBlank c = true) :
    Splits (c :: cs) symbols ↔ Splits cs symbols := by
  constructor
  · intro h
    cases h with
    | blank _ h => exact h
    | symbol hs _ => cases hc.symm.trans hs.begins.not_isBlank
  · exact .blank hc

/-- Blank space at the end belongs to no symbol. Induction on the splitting in both directions. -/
theorem splits_append_blank_iff (hafter : ∀ c ∈ after, isBlank c = true) :
    Splits (cs ++ after) symbols ↔ Splits cs symbols := by
  constructor
  · intro h
    generalize htext : cs ++ after = text at h
    induction h generalizing cs after with
    | nil =>
      obtain ⟨rfl, -⟩ := List.append_eq_nil_iff.1 htext
      exact .nil
    | @blank c text symbols hc _ ih =>
      cases cs with
      | nil =>
        obtain rfl : after = c :: text := htext
        exact ih (fun d hd => hafter d (List.mem_cons_of_mem _ hd)) (List.nil_append text)
      | cons d cs =>
        obtain ⟨rfl, hrest⟩ := List.cons.inj htext
        exact .blank hc (ih hafter hrest)
    | symbol hs _ ih =>
      rw [← htext] at hs
      obtain ⟨rest, rfl, -⟩ := (Symbol.begins_append_blank_iff hafter).1 hs.begins
      exact .symbol ((Symbol.isNext_append_blank_iff hafter).1 hs) (ih hafter rfl)
  · intro h
    induction h with
    | nil =>
      induction after with
      | nil => exact .nil
      | cons c after ih =>
        rw [List.forall_mem_cons] at hafter
        exact .blank hafter.1 (ih hafter.2)
    | blank hc _ ih => exact .blank hc ih
    | symbol hs _ ih => exact .symbol ((Symbol.isNext_append_blank_iff hafter).2 hs) ih

/-- **A text between blank characters has the same symbols.** The characters in front are skipped
one by one, and those at the end by `splits_append_blank_iff`. -/
theorem splits_surrounded_iff (hbefore : ∀ c ∈ before, isBlank c = true)
    (hafter : ∀ c ∈ after, isBlank c = true) :
    Splits (before ++ (cs ++ after)) symbols ↔ Splits cs symbols := by
  induction before with
  | nil => exact splits_append_blank_iff hafter
  | cons c before ih =>
    rw [List.forall_mem_cons] at hbefore
    rw [List.cons_append, splits_cons_blank_iff hbefore.1]
    exact ih hbefore.2

end Splits

/-! ### The truth of a surrounded guard -/

/-- The truth of a guard depends on its symbols, because `parse` comes to the same expression or the
same fault for texts with the same splittings. -/
theorem evaluate_congr_symbols {source source' : String}
    (h : ∀ symbols, Splits source.toList symbols ↔ Splits source'.toList symbols)
    (configuration : Value) : evaluate source configuration = evaluate source' configuration := by
  have hok : ∀ e, parse source = .ok e ↔ parse source' = .ok e := by
    intro e
    simp only [parse_eq_ok_iff, Derivation.IsOf, h]
  have hlong : parse source = .error .integerTooLong ↔ parse source' = .error .integerTooLong := by
    simp only [parse_eq_error_integerTooLong_iff, MeetsOverlongInteger, h]
  rw [evaluate, evaluate]
  cases hparse : parse source with
  | ok e => rw [(hok e).1 hparse]
  | error fault =>
    cases hparse' : parse source' with
    | ok e => cases hparse.symm.trans ((hok e).2 hparse')
    | error fault' =>
      obtain ⟨g, rfl⟩ | rfl := parse_error hparse
      · obtain ⟨g', rfl⟩ | rfl := parse_error hparse'
        · rfl
        · cases hparse.symm.trans (hlong.2 hparse')
      · cases hparse'.symm.trans (hlong.1 hparse)
        rfl

/-- **Blank space around a guard does not change its truth**, nor the fault of a guard that cannot
be evaluated. -/
theorem evaluate_surrounded {before cs after : List Char} (hbefore : ∀ c ∈ before, isBlank c = true)
    (hafter : ∀ c ∈ after, isBlank c = true) (configuration : Value) :
    evaluate (String.ofList (before ++ (cs ++ after))) configuration
      = evaluate (String.ofList cs) configuration := by
  refine evaluate_congr_symbols (fun symbols => ?_) configuration
  rw [String.toList_ofList, String.toList_ofList]
  exact splits_surrounded_iff hbefore hafter

end Templating.Guard
