import Mathlib.Data.Set.Basic
import Mathlib.Logic.Relation
import Mathlib.Order.Bounds.Defs
import Templating.Proofs.Guard.LongestMatch

/-!
# Where the lexemes of a guard stand

A guard is cut step by step: a blank character is passed over, or the longest symbol at the head of
the text ahead is taken as a lexeme. Every step leaves less text, so the cutting ends, either with
the guard or before a character that is not blank and with which no symbol begins. At every moment
the lexemes taken so far stand one behind the other in the text that is behind and cover all of it
but blank space. They are also the lexemes of that text alone, although the end of a number depends
on the character after it.

## Main definitions

* `LaidOut`: lexemes that stand in a text one behind the other.
* `missedPlaces`: the places of a text that are neither blank nor covered by lexemes.
* `Lexing`, `Lexing.Step`, `Lexing.Reaches`: the cutting of a guard, its steps and its runs.

## Main results

* `Lexing.exists_not_step`, `Lexing.exists_isStuck`: the cutting ends.
* `Lexing.lex_eq_answer`: where it ends tells the lexemes of the guard or the fault.
* `Lexing.Reaches.accountsFor`: what was taken accounts for all that is behind.
* `Lexing.lex_behind`: what was taken are the lexemes of what is behind.
* `lexemes_cover`: the lexemes of a guard, or the place where the cutting ends early.
-/

namespace Templating.Guard

open Templating.Text

/-! ### Lexemes in a text -/

/-- The place behind a lexeme. -/
def Lexeme.stop (l : Lexeme) : Nat :=
  l.position + l.symbol.source.length

/-- Lexemes that stand in a text where they say, one behind the other and none of them empty. A
number is not followed by a letter, a digit, an underscore or a point; no other symbol asks for
anything behind it. -/
structure LaidOut (cs : List Char) (lexemes : List Lexeme) : Prop where
  nonempty : ∀ l ∈ lexemes, l.symbol.source ≠ []
  stands : ∀ l ∈ lexemes, l.symbol.source <+: cs.drop l.position
  apart : lexemes.Pairwise fun l l' => l.position < l'.position ∧ l.stop ≤ l'.position
  ended : ∀ l ∈ lexemes, ∀ digits, l.symbol = .numeral digits →
    ∀ c, cs[l.stop]? = some c → c.isAlphanum = false ∧ c ≠ '_' ∧ c ≠ '.'

/-- The places of a text where a character stands that is not blank and in none of the lexemes.
Where there are none, the lexemes cover the text but for blank space. -/
def missedPlaces (cs : List Char) (lexemes : List Lexeme) : Set Nat :=
  {i | ∃ c, cs[i]? = some c ∧ isBlank c = false
    ∧ ∀ l ∈ lexemes, ¬(l.position ≤ i ∧ i < l.stop)}

theorem laidOut_nil (cs : List Char) : LaidOut cs [] :=
  ⟨nofun, nofun, .nil, nofun⟩

/-- A lexeme that is not empty ends behind where it begins. -/
theorem Lexeme.position_lt_stop {l : Lexeme} (h : l.symbol.source ≠ []) : l.position < l.stop :=
  Nat.lt_add_of_pos_right (List.length_pos_iff.2 h)

/-- The longest symbol at the head of a text is not empty, so every step takes something. -/
theorem Symbol.IsNext.source_ne_nil {s : Symbol} {cs rest : List Char} (h : s.IsNext cs rest) :
    s.source ≠ [] :=
  source_ne_nil_of_symbol? (symbol?_eq_some_iff.2 h)

/-- What may follow a number begins with no letter, digit, underscore or point. -/
theorem not_isAlphanum_of_mayFollowNumber {cs : List Char} {c : Char}
    (h : mayFollowNumber cs = true) (hc : cs.head? = some c) :
    c.isAlphanum = false ∧ c ≠ '_' ∧ c ≠ '.' := by
  obtain ⟨rest, rfl⟩ := List.head?_eq_some_iff.1 hc
  rw [mayFollowNumber, Bool.not_eq_true', continuesNumber, inName, Bool.or_eq_false_iff,
    Bool.or_eq_false_iff, beq_eq_false_iff_ne, beq_eq_false_iff_ne] at h
  exact and_assoc.1 h

variable {cs rest front tail : List Char} {lexemes : List Lexeme} {s : Symbol} {position : Nat}

/-- The text behind a symbol, in terms of places of the whole text. -/
theorem eq_drop_of_begins (h : s.Begins (cs.drop position) rest) :
    rest = cs.drop (position + s.source.length) := by
  rw [← List.drop_drop, ← h.source, List.drop_left]

/-- **The longest symbol behind all lexemes is one more of them.** It stands where it was found, it
begins behind the lexemes before it, and what may follow it is what `Symbol.Begins` says. -/
theorem LaidOut.concat (h : LaidOut cs lexemes) (hs : s.IsNext (cs.drop position) rest)
    (hbehind : ∀ l ∈ lexemes, l.stop ≤ position) : LaidOut cs (lexemes ++ [⟨s, position⟩]) := by
  refine ⟨List.forall_mem_append.2 ⟨h.nonempty, ?_⟩, List.forall_mem_append.2 ⟨h.stands, ?_⟩, ?_,
    List.forall_mem_append.2 ⟨h.ended, ?_⟩⟩
  · exact List.forall_mem_singleton.2 hs.source_ne_nil
  · exact List.forall_mem_singleton.2 ⟨rest, hs.begins.source⟩
  · refine List.pairwise_append.2 ⟨h.apart, List.pairwise_singleton _ _, fun l hl l' hl' => ?_⟩
    obtain rfl := List.mem_singleton.1 hl'
    exact ⟨Nat.lt_of_lt_of_le (l.position_lt_stop (h.nonempty l hl)) (hbehind l hl), hbehind l hl⟩
  · refine List.forall_mem_singleton.2 fun digits hdigits c hc => ?_
    obtain rfl : s = .numeral digits := hdigits
    refine not_isAlphanum_of_mayFollowNumber hs.begins.follow ?_
    rw [eq_drop_of_begins hs.begins, List.head?_drop]
    exact hc

/-! ### Cutting step by step -/

/-- A guard on the way of being cut: the lexemes taken so far, the place that is reached, and the
text ahead of it. -/
structure Lexing where
  taken : List Lexeme
  position : Nat
  ahead : List Char

namespace Lexing

/-- Nothing is taken yet. -/
def start (source : String) : Lexing :=
  ⟨[], 0, source.toList⟩

/-- A blank character is passed over, or the longest symbol is taken. -/
inductive Step : Lexing → Lexing → Prop
  | blank {taken : List Lexeme} {position : Nat} {c : Char} {cs : List Char}
      (hc : isBlank c = true) : Step ⟨taken, position, c :: cs⟩ ⟨taken, position + 1, cs⟩
  | symbol {taken : List Lexeme} {position : Nat} {cs rest : List Char} {s : Symbol}
      (hs : s.IsNext cs rest) :
      Step ⟨taken, position, cs⟩ ⟨taken ++ [⟨s, position⟩], position + s.source.length, rest⟩

/-- Some steps, or none: the runs of `Step`. What a step keeps to, a run keeps to by induction on
this. -/
def Reaches : Lexing → Lexing → Prop :=
  Relation.ReflTransGen Step

/-- No step can be taken. -/
def IsStuck (r : Lexing) : Prop :=
  ∀ r', ¬Step r r'

/-- What is answered where no step can be taken: the lexemes at the end of the guard, elsewhere a
fault at the place that is reached. -/
def answer (r : Lexing) : Except GuardFault (List Lexeme) :=
  match r.ahead with
  | [] => .ok r.taken
  | c :: _ => .error (.unexpectedCharacter c r.position)

/-- The lexemes taken so far and those of the text ahead, or the fault in it. No step changes it
(`Step.result_eq`). -/
def result (r : Lexing) : Except GuardFault (List Lexeme) :=
  (lexFrom r.position r.ahead).map (r.taken ++ ·)

variable {r r' : Lexing}

/-! ### The cutting ends -/

/-- Every step leaves less text. This is the measure by which the cutting ends. -/
theorem Step.length_lt (h : Step r r') : r'.ahead.length < r.ahead.length := by
  cases h with
  | blank hc => exact Nat.lt_succ_self _
  | symbol hs => exact length_lt_of_symbol? (symbol?_eq_some_iff.2 hs)

/-- There are no more steps than characters: a run with more would leave less than nothing
(`Step.length_lt`). -/
theorem exists_not_step (run : Nat → Lexing) :
    ∃ n ≤ (run 0).ahead.length, ¬Step (run n) (run (n + 1)) := by
  by_contra! hrun
  have hlength : ∀ n ≤ (run 0).ahead.length + 1,
      (run n).ahead.length + n ≤ (run 0).ahead.length := by
    intro n
    induction n with
    | zero => exact fun _ => Nat.le_refl _
    | succ n ih =>
      intro hn
      have hlt := (hrun n (Nat.le_of_succ_le_succ hn)).length_lt
      have hle := ih (Nat.le_of_succ_le hn)
      omega
  have hle := hlength _ (Nat.le_refl _)
  omega

/-- **Steps can be taken until none can.** Strong induction on the length of the text ahead. -/
theorem exists_isStuck (r : Lexing) : ∃ r', Reaches r r' ∧ r'.IsStuck := by
  induction hn : r.ahead.length using Nat.strongRecOn generalizing r with
  | ind n ih =>
    by_cases hstuck : r.IsStuck
    · exact ⟨r, .refl, hstuck⟩
    · obtain ⟨next, hstep⟩ : ∃ next, Step r next := by
        simpa only [IsStuck, not_forall, not_not] using hstuck
      obtain ⟨r', hreaches, hend⟩ := ih _ (hn ▸ hstep.length_lt) next rfl
      exact ⟨r', .head hstep hreaches, hend⟩

/-! ### The answer -/

/-- A step does not change what the cutting comes to: `lexFrom` passes over a blank character, and
takes the longest symbol (`lexFrom_of_isNext`). -/
theorem Step.result_eq (h : Step r r') : r.result = r'.result := by
  cases h with
  | blank hc => rw [result, result, lexFrom, if_pos hc]
  | @symbol taken position cs rest s hs =>
    rw [result, result, lexFrom_of_isNext hs]
    dsimp only
    cases lexFrom (position + s.source.length) rest with
    | error fault => rfl
    | ok more => exact congrArg Except.ok (List.append_assoc taken [_] more).symm

theorem Reaches.result_eq (h : Reaches r r') : r.result = r'.result := by
  induction h with
  | refl => rfl
  | tail _ hstep ih => exact ih.trans hstep.result_eq

/-- Where no step can be taken, the text ahead is empty or begins with what is neither blank nor a
symbol: any symbol that `symbol?` found would be a step. -/
theorem IsStuck.of_cons (h : r.IsStuck) {c : Char} (hahead : r.ahead = c :: cs) :
    isBlank c = false ∧ symbol? (c :: cs) = none := by
  obtain ⟨taken, position, ahead⟩ := r
  obtain rfl : ahead = c :: cs := hahead
  refine ⟨Bool.eq_false_iff.2 fun hc => h _ (.blank hc), Option.eq_none_iff_forall_ne_some.2 ?_⟩
  rintro ⟨s, rest⟩ hsome
  exact h _ (.symbol (symbol?_eq_some_iff.1 hsome))

/-- Where no step can be taken, the cutting comes to its `answer`. -/
theorem IsStuck.result_eq (h : r.IsStuck) : r.result = r.answer := by
  rw [result, answer]
  cases hahead : r.ahead with
  | nil =>
    rw [lexFrom]
    exact congrArg Except.ok (List.append_nil _)
  | cons c cs =>
    obtain ⟨hblank, hnone⟩ := h.of_cons hahead
    rw [lexFrom, if_neg (by simp [hblank])]
    split
    · rfl
    · rename_i hsome
      cases hnone.symm.trans hsome

theorem isStuck_of_nil (h : r.ahead = []) : r.IsStuck :=
  fun _ hstep => Nat.not_lt_zero _ (List.length_eq_zero_iff.2 h ▸ hstep.length_lt)

/-- **The lexemes of a guard, or the fault, are told where no step can be taken any more**: the
result is the same from the start to there (`Reaches.result_eq`). -/
theorem lex_eq_answer {source : String} (h : Reaches (start source) r) (hstuck : r.IsStuck) :
    lex source = r.answer := by
  rw [← hstuck.result_eq, ← h.result_eq, result, start, lex]
  cases lexFrom 0 source.toList <;> rfl

/-! ### What was taken accounts for what is behind -/

/-- The lexemes taken so far are laid out in the text behind the place that is reached, and nothing
there is missed but blank space. This is the invariant of the cutting. -/
structure AccountsFor (r : Lexing) (cs : List Char) : Prop where
  ahead : r.ahead = cs.drop r.position
  laidOut : LaidOut cs r.taken
  behind : ∀ l ∈ r.taken, l.stop ≤ r.position
  missed : ∀ i ∈ missedPlaces cs r.taken, r.position ≤ i

/-- A step keeps the invariant. A blank character is not missed, and a symbol is one more lexeme
(`LaidOut.concat`) that covers the places up to its end. -/
theorem Step.accountsFor (h : Step r r') (hr : r.AccountsFor cs) : r'.AccountsFor cs := by
  cases h with
  | @blank taken position c rest hc =>
    have hplace : c :: rest = cs.drop position := hr.ahead
    refine ⟨?_, hr.laidOut, fun l hl => Nat.le_succ_of_le (hr.behind l hl), fun i hi => ?_⟩
    · dsimp only
      rw [← List.drop_drop, ← hplace]
      rfl
    · refine Nat.lt_of_le_of_ne (hr.missed i hi) ?_
      rintro rfl
      -- The character that was passed over is blank, so its place is not missed.
      obtain ⟨d, hd, hblank, -⟩ := hi
      rw [← List.head?_drop, ← hplace] at hd
      cases hd
      cases hc.symm.trans hblank
  | @symbol taken position ahead rest s hs =>
    have hplace : ahead = cs.drop position := hr.ahead
    rw [hplace] at hs
    refine ⟨eq_drop_of_begins hs.begins, hr.laidOut.concat hs hr.behind, ?_, ?_⟩
    · refine List.forall_mem_append.2 ⟨fun l hl => ?_, List.forall_mem_singleton.2 (Nat.le_refl _)⟩
      exact Nat.le_trans (hr.behind l hl) (Nat.le_add_right _ _)
    · rintro i ⟨c, hc, hblank, hout⟩
      obtain ⟨hearlier, hlast⟩ := List.forall_mem_append.1 hout
      have hle := hr.missed i ⟨c, hc, hblank, hearlier⟩
      exact Nat.le_of_not_lt fun hlt => hlast _ (List.mem_singleton_self _) ⟨hle, hlt⟩

/-- **What was taken accounts for all that is behind.** Induction on the steps. -/
theorem Reaches.accountsFor (h : Reaches r r') (hr : r.AccountsFor cs) : r'.AccountsFor cs := by
  induction h with
  | refl => exact hr
  | tail _ hstep ih => exact hstep.accountsFor ih

/-- Before the first step nothing is taken and nothing is behind. -/
theorem accountsFor_start (source : String) : (start source).AccountsFor source.toList :=
  ⟨rfl, laidOut_nil _, nofun, fun _ _ => Nat.zero_le _⟩

/-- At the end of the text nothing is missed, since there is no place at or behind the end. -/
theorem AccountsFor.missedPlaces_eq_empty (h : r.AccountsFor cs) (hend : r.ahead = []) :
    missedPlaces cs r.taken = ∅ := by
  refine Set.eq_empty_iff_forall_notMem.2 fun i hi => ?_
  obtain ⟨c, hc, -⟩ := id hi
  have hlength := (List.getElem?_eq_some_iff.1 hc).1
  have hle := List.drop_eq_nil_iff.1 (h.ahead.symm.trans hend)
  have hposition := h.missed i hi
  omega

/-- A character that is not blank is the first one missed when it is reached: no lexeme taken goes
over it, and everything before it is accounted for. -/
theorem AccountsFor.isLeast_missedPlaces (h : r.AccountsFor cs) {c : Char}
    (hahead : r.ahead = c :: rest) (hc : isBlank c = false) :
    cs[r.position]? = some c ∧ IsLeast (missedPlaces cs r.taken) r.position := by
  have hplace : cs[r.position]? = some c := by
    rw [← List.head?_drop, ← h.ahead, hahead]
    rfl
  refine ⟨hplace, ⟨c, hplace, hc, fun l hl hin => ?_⟩, h.missed⟩
  exact Nat.not_lt.2 (h.behind l hl) hin.2

end Lexing

/-! ### The text behind by itself -/

namespace Symbol

/-- Behind its first character a number has digits and a point only; a sign can stand nowhere else
than at the front. -/
theorem isDigit_or_eq_point_of_matches {digits more : List Char} {c : Char}
    (h : (numeral (digits ++ c :: more)).Matches) (hne : digits ≠ []) :
    isDigit c = true ∨ c = '.' := by
  rcases h with h | ⟨body, heq, h⟩
  · exact h.isDigit_or_eq_point c (by simp)
  · obtain ⟨first, digits, rfl⟩ := List.exists_cons_of_ne_nil hne
    obtain ⟨-, rfl⟩ := List.cons.inj heq
    exact h.isDigit_or_eq_point c (by simp)

/-- A first part of a number that ends in a digit is a number (`matches_numeral_of_initial`). -/
theorem matches_numeral_of_prefix {digits digits' : List Char} (h : (numeral digits').Matches)
    (hinitial : digits <+: digits') (hlast : ∃ c, digits.getLast? = some c ∧ isDigit c = true) :
    (numeral digits).Matches :=
  matches_numeral_of_initial (hinitial.trans (prefix_longestNumeral h [])) hlast

/-- Only a number begins with a digit or a minus sign. One case for each kind of symbol. -/
theorem Begins.exists_numeral {c : Char} (h : s.Begins (c :: cs) rest)
    (hc : isDigit c = true ∨ c = '-') : ∃ digits, s = .numeral digits := by
  have hcs := h.source
  have hpattern := h.pattern
  cases s with
  | numeral digits => exact ⟨digits, rfl⟩
  | quoted quote content =>
    obtain ⟨rfl, -⟩ := List.cons.inj hcs
    rcases hpattern.1 with rfl | rfl <;> exact absurd hc (by decide)
  | relation r => cases r <;> (obtain ⟨rfl, -⟩ := List.cons.inj hcs; exact absurd hc (by decide))
  | opening => obtain ⟨rfl, -⟩ := List.cons.inj hcs; exact absurd hc (by decide)
  | closing => obtain ⟨rfl, -⟩ := List.cons.inj hcs; exact absurd hc (by decide)
  | keyword k => cases k <;> (obtain ⟨rfl, -⟩ := List.cons.inj hcs; exact absurd hc (by decide))
  | name path =>
    obtain ⟨d, more, rfl, hd, -⟩ := hpattern.1
    obtain ⟨rfl, -⟩ := List.cons.inj hcs
    rcases hc with hdigit | rfl
    · cases hdigit.symm.trans (not_isDigit_of_startsName hd)
    · exact absurd hd (by decide)

/-- What may be followed by a text may be followed by a first part of it, as only the first
character of the text counts. -/
theorem MayPrecede.of_append (h : s.MayPrecede (rest ++ tail)) : s.MayPrecede rest := by
  cases s with
  | numeral digits =>
    cases rest with
    | nil => rfl
    | cons c rest => exact h
  | _ => trivial

/-- More text at the end can only matter to a number at the end, where it brings the first character
behind it. -/
theorem MayPrecede.append_or (h : s.MayPrecede rest) (tail : List Char) :
    s.MayPrecede (rest ++ tail) ∨ rest = [] ∧ ∃ digits, s = .numeral digits := by
  cases s with
  | numeral digits =>
    cases rest with
    | nil => exact .inr ⟨rfl, digits, rfl⟩
    | cons c rest => exact .inl h
  | _ => exact .inl trivial

/-- If a number is cut in two before a digit, the symbol that begins with the digit makes the first
part longer: that symbol is a number too, and the digits of the two join. -/
theorem exists_longer_numeral {taken more after : List Char} {c : Char} {t : Symbol}
    (h : (numeral (taken ++ c :: more)).Matches) (hc : isDigit c = true)
    (ht : t.Begins (c :: more ++ tail) (after ++ tail)) :
    ∃ digits, (numeral digits).Begins (taken ++ c :: more ++ tail) (after ++ tail)
      ∧ after.length < (c :: more).length := by
  obtain ⟨behind, rfl⟩ := ht.exists_numeral (.inl hc)
  obtain ⟨last, hlast, hdigit⟩ := getLast?_of_matches_numeral ht.pattern
  have hbehind : behind ≠ [] := by
    rintro rfl
    cases hlast
  have hmore : behind ++ after = c :: more := by
    have hsource := ht.source
    rw [← List.append_assoc] at hsource
    exact List.append_cancel_right hsource
  refine ⟨taken ++ behind, ⟨?_, matches_numeral_of_prefix h ⟨after, ?_⟩ ⟨last, ?_, hdigit⟩,
    ht.follow⟩, ?_⟩
  · rw [← hmore]
    simp [source]
  · rw [List.append_assoc, hmore]
  · rw [List.getLast?_append_of_ne_nil _ hbehind, hlast]
  · rw [← hmore, List.length_append]
    exact Nat.lt_add_of_pos_left (List.length_pos_iff.2 hbehind)

/-- **Cutting does not look ahead too far.** A symbol that is the longest one before a text is so
without that text, if a symbol begins behind it wherever a digit does. Without the text only a
number could become longer, and then `exists_longer_numeral` would have made it longer before. -/
theorem IsNext.of_append (h : s.IsNext (front ++ tail) (rest ++ tail))
    (hnext : ∀ c more, rest = c :: more → isDigit c = true →
      ∃ t after, Begins t (rest ++ tail) (after ++ tail)) : s.IsNext front rest := by
  have hfront : s.source ++ rest = front := by
    have hsource := h.begins.source
    rw [← List.append_assoc] at hsource
    exact List.append_cancel_right hsource
  refine ⟨⟨hfront, h.begins.pattern, h.begins.follow.of_append⟩, fun t rest' ht => ?_⟩
  rcases ht.follow.append_or tail with hfollow | ⟨rfl, digits, rfl⟩
  · have hsource : t.source ++ (rest' ++ tail) = front ++ tail := by
      rw [← List.append_assoc, ht.source]
    have hle := h.longest t (rest' ++ tail) ⟨hsource, ht.pattern, hfollow⟩
    simpa only [List.length_append, Nat.add_le_add_iff_right] using hle
  -- A number takes up all of `front`, and the text behind could carry it on. Then `s` is a shorter
  -- number with a digit behind it; the number that begins there would make `s` longer.
  · obtain rfl : digits = front := by simpa [source] using ht.source
    cases rest with
    | nil => exact Nat.le_refl _
    | cons c more =>
      obtain ⟨first, others, hcons, hfirst⟩ := exists_cons_of_matches_numeral ht.pattern
      obtain ⟨taken, rfl⟩ : ∃ taken, s = .numeral taken :=
        (hcons ▸ h.begins).exists_numeral hfirst
      obtain rfl : taken ++ c :: more = digits := hfront
      have hc : isDigit c = true := by
        refine (isDigit_or_eq_point_of_matches ht.pattern h.source_ne_nil).resolve_right ?_
        rintro rfl
        have hpoint : (!continuesNumber '.') = true := h.begins.follow
        exact absurd hpoint (by decide)
      obtain ⟨t, after, hbegins⟩ := hnext c more rfl hc
      obtain ⟨longer, hlonger, hlength⟩ := exists_longer_numeral ht.pattern hc hbegins
      have hle := h.longest _ _ hlonger
      simp only [List.length_append] at hle
      omega

end Symbol

namespace Lexing

variable {r r' : Lexing}

/-- The text ahead after a step is a last part of the one before. -/
theorem Step.suffix (h : Step r r') : r'.ahead <:+ r.ahead := by
  cases h with
  | blank hc => exact List.suffix_cons _ _
  | symbol hs => exact ⟨_, hs.begins.source⟩

theorem Reaches.suffix (h : Reaches r r') : r'.ahead <:+ r.ahead := by
  induction h with
  | refl => exact List.suffix_rfl
  | tail _ hstep ih => exact hstep.suffix.trans ih

/-- Where a digit is ahead and the cutting goes on, a symbol begins with it: a digit is not blank,
so the next step takes one. -/
theorem Reaches.exists_begins_of_digit (h : Reaches r r') {c : Char} {more : List Char}
    (hahead : r.ahead = c :: more ++ r'.ahead) (hc : isDigit c = true) :
    ∃ t after, Symbol.Begins t r.ahead (after ++ r'.ahead) := by
  rcases h.cases_head with rfl | ⟨next, hstep, hreaches⟩
  · have hlength := congrArg List.length hahead
    simp only [List.length_append, List.length_cons] at hlength
    omega
  · obtain ⟨after, hafter⟩ := Reaches.suffix hreaches
    cases hstep with
    | @blank taken position d cs hblank =>
      obtain ⟨rfl, -⟩ := List.cons.inj hahead
      cases hblank.symm.trans (not_isBlank_of_isDigit hc)
    | @symbol taken position cs rest s hs => exact ⟨s, after, hafter ▸ hs.begins⟩

/-- What was cut is cut in the same way without the text that is still ahead. The induction goes
from the last step back to the first, since whether a number ends can depend on the step after
it. -/
theorem Reaches.exists_reaches_end (h : Reaches r r') :
    ∃ front, r.ahead = front ++ r'.ahead
      ∧ Reaches ⟨r.taken, r.position, front⟩ ⟨r'.taken, r'.position, []⟩ := by
  -- From the last step back to the first: where a number ends can depend on the steps after it.
  induction h using Relation.ReflTransGen.head_induction_on with
  | refl => exact ⟨[], rfl, .refl⟩
  | @head r next hstep hreaches ih =>
    obtain ⟨front, hfront, hend⟩ := ih
    cases hstep with
    | @blank taken position c cs hc =>
      exact ⟨c :: front, congrArg (c :: ·) hfront, .head (.blank hc) hend⟩
    | @symbol taken position cs rest s hs =>
      obtain rfl : rest = front ++ r'.ahead := hfront
      have hahead : s.source ++ front ++ r'.ahead = cs := by
        rw [List.append_assoc, hs.begins.source]
      rw [← hahead] at hs
      refine ⟨s.source ++ front, hahead.symm, .head (.symbol (hs.of_append ?_)) hend⟩
      rintro c more rfl hc
      exact Reaches.exists_begins_of_digit hreaches rfl hc

/-- **The lexemes taken so far are those of the text behind**: without the text ahead, the same run
ends at the end of the guard (`Reaches.exists_reaches_end`). -/
theorem lex_behind {source : String} (h : Reaches (start source) r) :
    lex (String.ofList (source.toList.take r.position)) = .ok r.taken := by
  obtain ⟨front, hfront, hend⟩ := h.exists_reaches_end
  have hbehind : source.toList.take r.position = front := by
    have hahead := (h.accountsFor (accountsFor_start source)).ahead
    have hsplit : source.toList.take r.position ++ r.ahead = front ++ r.ahead := by
      rw [hahead, List.take_append_drop, ← hahead]
      exact hfront
    exact List.append_cancel_right hsplit
  have hstart : Reaches (start (String.ofList front)) ⟨r.taken, r.position, []⟩ := by
    rw [start, String.toList_ofList]
    exact hend
  rw [hbehind]
  exact lex_eq_answer hstart (isStuck_of_nil rfl)

end Lexing

/-! ### The lexemes of a guard -/

/-- **The lexemes of a guard cover it.** The lexemes of a guard are not empty and stand where they
say, one behind the other (`LaidOut`), with nothing but blank space between them and at both ends
(`missedPlaces`), and no number is followed by a letter, a digit, an underscore or a point. If a
guard cannot be cut to its end, the fault tells the first place that is neither blank nor covered by
the lexemes taken before, and these are the lexemes of the text up to that place. The cutting takes
no more steps than the guard has characters, and where it ends tells what the guard comes to. -/
theorem lexemes_cover (source : String) :
    (∀ lexemes, lex source = .ok lexemes →
        LaidOut source.toList lexemes ∧ missedPlaces source.toList lexemes = ∅)
      ∧ (∀ fault, lex source = .error fault →
        ∃ (r : Lexing) (c : Char), Lexing.Reaches (.start source) r ∧ r.IsStuck
          ∧ fault = .unexpectedCharacter c r.position ∧ source.toList[r.position]? = some c
          ∧ IsLeast (missedPlaces source.toList r.taken) r.position
          ∧ LaidOut source.toList r.taken
          ∧ lex (String.ofList (source.toList.take r.position)) = .ok r.taken)
      ∧ (∀ run : Nat → Lexing, run 0 = .start source →
        ∃ n ≤ source.length, ¬Lexing.Step (run n) (run (n + 1)))
      ∧ ∀ r, Lexing.Reaches (.start source) r → r.IsStuck → lex source = r.answer := by
  obtain ⟨r, hreaches, hstuck⟩ := (Lexing.start source).exists_isStuck
  have hanswer := Lexing.lex_eq_answer hreaches hstuck
  have hcovers := hreaches.accountsFor (Lexing.accountsFor_start source)
  rw [Lexing.answer] at hanswer
  refine ⟨fun lexemes hlex => ?_, fun fault hlex => ?_, fun run hrun => ?_,
    fun r => Lexing.lex_eq_answer⟩
  · rw [hlex] at hanswer
    split at hanswer
    · rename_i hend
      cases hanswer
      exact ⟨hcovers.laidOut, hcovers.missedPlaces_eq_empty hend⟩
    · cases hanswer
  · rw [hlex] at hanswer
    split at hanswer
    · cases hanswer
    · rename_i c rest hahead
      cases hanswer
      obtain ⟨hplace, hleast⟩ := hcovers.isLeast_missedPlaces hahead (hstuck.of_cons hahead).1
      exact ⟨r, c, hreaches, hstuck, rfl, hplace, hleast, hcovers.laidOut,
        Lexing.lex_behind hreaches⟩
  · have hlength : (run 0).ahead.length = source.length := by
      rw [hrun, Lexing.start, String.length_toList]
    exact hlength ▸ Lexing.exists_not_step run

/-- Three lexemes, the first with points and the last with a sign; and a guard in which a number is
cut short before a digit, because no number may stand before the letter behind that digit. -/
theorem lexemes_cover_numbers :
    (lex " a.b>=-1.5" = .ok [⟨.name ['a', '.', 'b'], 1⟩, ⟨.relation .atLeast, 4⟩,
          ⟨.numeral ['-', '1', '.', '5'], 6⟩]
        ∧ missedPlaces [' ', 'a', '.', 'b', '>', '=', '-', '1', '.', '5']
          [⟨.name ['a', '.', 'b'], 1⟩, ⟨.relation .atLeast, 4⟩,
            ⟨.numeral ['-', '1', '.', '5'], 6⟩] = ∅)
      ∧ lex "7 \u0661\u0662a" = .error (.unexpectedCharacter '\u0662' 3)
      ∧ IsLeast (missedPlaces ['7', ' ', '\u0661', '\u0662', 'a']
        [⟨.numeral ['7'], 0⟩, ⟨.numeral ['\u0661'], 2⟩]) 3 := by
  have hlex : lex " a.b>=-1.5" = .ok [⟨.name ['a', '.', 'b'], 1⟩, ⟨.relation .atLeast, 4⟩,
      ⟨.numeral ['-', '1', '.', '5'], 6⟩] := by decide +kernel
  have hfault : lex "7 \u0661\u0662a" = .error (.unexpectedCharacter '\u0662' 3) := by
    decide +kernel
  refine ⟨⟨hlex, ((lexemes_cover _).1 _ hlex).2⟩, hfault, ?_⟩
  obtain ⟨r, c, -, -, hposition, -, hleast, -, hbehind⟩ := (lexemes_cover _).2.1 _ hfault
  obtain ⟨-, hplace⟩ : '\u0662' = c ∧ 3 = r.position := by simpa using hposition
  have htaken : lex "7 \u0661" = .ok [⟨.numeral ['7'], 0⟩, ⟨.numeral ['\u0661'], 2⟩] := by
    decide +kernel
  rw [← hplace] at hbehind hleast
  rw [Except.ok.inj (htaken.symm.trans hbehind)]
  exact hleast

end Templating.Guard
