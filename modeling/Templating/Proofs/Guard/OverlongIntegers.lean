import Templating.Proofs.Guard.Reading

/-!
# Integers that are too long

Digits beyond a certain number are never read as an integer. A guard that holds such an integer is
not misspelt, but it cannot be read either, if reading comes to the integer. Which integers
reading comes to is a matter of the grammar alone: those in front of which everything can be the
beginning of a derivation that goes on with a number. Where it cannot, the guard is found to be
misspelt before the integer is looked at.

## Main definitions

* `Symbol.IsOverlong`: integers with more digits than are ever read.
* `Awaits`: a number may follow symbols.
* `MeetsOverlongInteger`: a number may stand where an integer that is too long stands in a guard.
* `Stalls`: the same for a list of lexemes and any nonterminal.

## Main results

* `Derivation.stops`: the reader of a nonterminal stops where a number may stand.
* `stalls_of_readNegation`: it stops nowhere else.
* `parse_eq_error_integerTooLong_iff`: the guards that are not read because of an integer.
-/

namespace Templating.Guard

/-! ### Where a number may stand -/

namespace Symbol

/-- Numerals without a point that have more digits than are ever read
(`Numeral.maxIntegerDigits`). -/
def IsOverlong (s : Symbol) : Prop :=
  ∃ digits, s = .numeral digits ∧ '.' ∉ digits
    ∧ Numeral.maxIntegerDigits < digits.countP Text.isDigit

/-- Numerals that are not read: `numeralLiteral` fails on them. This is what the readers see of a
numeral, and `IsOverlong` what it is (`isUnread_iff_isOverlong`). -/
def IsUnread (s : Symbol) : Prop :=
  ∃ digits, s = .numeral digits ∧ numeralLiteral digits = .error .integerTooLong

/-- A numeral is not read if it is an integer that is too long, and only then: with a point it is a
decimal fraction, which can have any number of digits. -/
theorem isUnread_iff_isOverlong {s : Symbol}
    (h : ∀ digits, s = .numeral digits → IsNumeral digits) :
    s.IsUnread ↔ s.IsOverlong := by
  refine exists_congr fun digits => and_congr_right fun hs => ?_
  constructor
  · intro herror
    obtain ⟨-, hpoint, hnone⟩ := numeralLiteral_error herror
    refine ⟨hpoint, Nat.lt_of_not_le fun hle => ?_⟩
    have hsome := (isSome_integer?_iff_of_isNumeral (h digits hs) hpoint).2 hle
    simp [hnone] at hsome
  · rintro ⟨hpoint, hlong⟩
    have hnone : Numeral.integer? digits = none := by
      rw [← Option.not_isSome_iff_eq_none, isSome_integer?_iff_of_isNumeral (h digits hs) hpoint]
      exact Nat.not_le_of_lt hlong
    rw [numeralLiteral, if_neg (by simpa using hpoint), hnone]

end Symbol

/-- A number may follow the symbols: a derivation in which parentheses and negations nest at most
`depth` deep begins with them and goes on with a number. Which number does not matter, so the
derivation has `0`. -/
def Awaits (depth : Nat) (n : Level) (front : List Symbol) : Prop :=
  ∃ d : Derivation n, d.depth ≤ depth ∧ ∃ after, d.symbols = front ++ .numeral ['0'] :: after

/-- An integer that is too long stands in the guard where a number may stand: everything in front of
it `Awaits` a number. -/
def MeetsOverlongInteger (source : String) : Prop :=
  ∃ front s rest, Splits source.toList (front ++ s :: rest) ∧ s.IsOverlong
    ∧ Awaits maxNesting .disjunction front

/-- A numeral that is not read stands among the lexemes where a number may stand. For a whole guard
this is `MeetsOverlongInteger`; here it is said of any nonterminal, for the inductions below. -/
def Stalls (depth : Nat) (n : Level) (lexemes : List Lexeme) : Prop :=
  ∃ front l rest, lexemes = front ++ l :: rest ∧ l.symbol.IsUnread
    ∧ Awaits depth n (front.map (·.symbol))

/-! ### Readers stop at such integers -/

/-- The reader of a nonterminal, in which parentheses and negations nest at most `depth` deep, fails
because of an integer that is too long. It is to failing what `Reads` is to reading. -/
def Stops (endPosition depth : Nat) : (n : Level) → List Lexeme → Prop
  | .disjunction, lexemes =>
    readDisjunction (readNegation endPosition depth) lexemes = .error .integerTooLong
  | .moreDisjuncts, lexemes => ∀ left,
    readRun (.keyword .or) .or (readConjunction endPosition depth) left lexemes
      = .error .integerTooLong
  | .conjunction, lexemes => readConjunction endPosition depth lexemes = .error .integerTooLong
  | .moreConjuncts, lexemes => ∀ left,
    readRun (.keyword .and) .and (readNegation endPosition depth) left lexemes
      = .error .integerTooLong
  | .negation, lexemes => readNegation endPosition depth lexemes = .error .integerTooLong
  | .comparison, lexemes =>
    readComparison (readOperand endPosition (innerNegation? endPosition depth)) lexemes
      = .error .integerTooLong
  | .operand, lexemes =>
    readOperand endPosition (innerNegation? endPosition depth) lexemes = .error .integerTooLong

section Split

variable {s x : Symbol} {a b after : List Symbol} {front : List Lexeme}

/-- A symbol behind some lexemes stands in the first of two parts, or the lexemes go over it; then
they take up the whole first part. -/
theorem split_of_append_eq (h : a ++ b = front.map (·.symbol) ++ x :: after) :
    (∃ after', a = front.map (·.symbol) ++ x :: after') ∨ ∃ first between,
      front = first ++ between ∧ first.map (·.symbol) = a
        ∧ b = between.map (·.symbol) ++ x :: after := by
  rcases List.append_eq_append_iff.1 h with ⟨between, hfront, hb⟩ | ⟨between, ha, hafter⟩
  · obtain ⟨first, between, rfl, hfirst, rfl⟩ := List.map_eq_append_iff.1 hfront
    exact .inr ⟨first, between, rfl, hfirst, hb⟩
  · rcases List.cons_eq_append_iff.1 hafter with ⟨rfl, rfl⟩ | ⟨after', rfl, rfl⟩
    · exact .inr ⟨front, [], (List.append_nil _).symm, by rw [ha, List.append_nil], rfl⟩
    · exact .inl ⟨after', ha⟩

/-- A symbol other than the first one stands behind it, so there are lexemes in front, the first of
which has the first symbol. -/
theorem split_of_cons_eq (h : s :: b = front.map (·.symbol) ++ x :: after) (hne : s ≠ x) :
    ∃ position behind, front = ⟨s, position⟩ :: behind
      ∧ b = behind.map (·.symbol) ++ x :: after := by
  cases front with
  | nil => exact absurd (List.cons.inj h).1 hne
  | cons l behind =>
    obtain ⟨rfl, hb⟩ := List.cons.inj h
    exact ⟨l.position, behind, rfl, hb⟩

/-- A single symbol has no other behind it. This rules out the operands of one symbol in
`Derivation.stops`. -/
theorem not_singleton_eq (hne : s ≠ x) : [s] ≠ front.map (·.symbol) ++ x :: after := by
  intro h
  obtain ⟨position, behind, -, hnil⟩ := split_of_cons_eq h hne
  exact List.append_ne_nil_of_right_ne_nil _ (List.cons_ne_nil x after) hnil.symm

end Split

/-- Whether a nonterminal ends is not told by which number follows, as no number carries anything
on. It takes the derivation with `0` over to the lexemes with the integer that is too long. -/
theorem Level.EndsBefore.of_numeral {n : Level} {between after after' : List Symbol}
    {digits digits' : List Char} (h : n.EndsBefore (between ++ .numeral digits :: after)) :
    n.EndsBefore (between ++ .numeral digits' :: after') := by
  cases between with
  | nil => exact Level.endsBefore_cons (by rintro b ⟨⟩) _
  | cons s between => exact h

section Stop

variable {connective : Symbol} {joined : Expr → Expr → Expr} {operand : Reader} {fault : Fault}
  {e : Expr} {front behind : List Lexeme}

/-- A chain of operands fails where its first operand does, or where that is read and the run
behind it fails. -/
theorem readChain_eq_error
    (h : operand (front ++ behind) = .error fault ∨ ∃ taken left, front = taken ++ left
      ∧ operand (taken ++ (left ++ behind)) = .ok (e, left ++ behind)
      ∧ ∀ before, readRun connective joined operand before (left ++ behind) = .error fault) :
    readChain connective joined operand (front ++ behind) = .error fault := by
  rcases h with hfails | ⟨taken, left, rfl, hread, hrun⟩
  · exact bind_eq_error_iff.2 (.inl hfails)
  · rw [List.append_assoc]
    exact bind_eq_error_iff.2 (.inr ⟨_, hread, hrun e⟩)

/-- A run fails where the operand behind its connective does, or where that is read and the run
fails further on. -/
theorem readRun_eq_error (before : Expr) {l : Lexeme} (hl : l.symbol = connective)
    (h : operand (front ++ behind) = .error fault ∨ ∃ taken left, front = taken ++ left
      ∧ operand (taken ++ (left ++ behind)) = .ok (e, left ++ behind)
      ∧ ∀ before, readRun connective joined operand before (left ++ behind) = .error fault) :
    readRun connective joined operand before (l :: (front ++ behind)) = .error fault := by
  rcases h with hfails | ⟨taken, left, rfl, hread, hrun⟩
  · rw [readRun, if_pos hl, hfails]
  · rw [List.append_assoc, readRun_of_operand before hl hread]
    exact hrun _

end Stop

section NumberPlace

variable {endPosition depth : Nat} {m n : Level} {l : Lexeme} {rest : List Lexeme}

/-- The reader of a derivation's nonterminal stops at the lexeme `l` wherever the derivation has a
number in its place. This is what the induction for `Derivation.stops` carries. -/
def Derivation.StopsAt (endPosition depth : Nat) (l : Lexeme) (rest : List Lexeme)
    (d : Derivation n) : Prop :=
  ∀ {front : List Lexeme} {after : List Symbol},
    d.symbols = front.map (·.symbol) ++ .numeral ['0'] :: after →
    Stops endPosition depth n (front ++ l :: rest)

/-- **Two parts, read one after the other.** The number stands in the first part, and its reader
stops there; or the first part is read, as a part that ends before the numeral ends before the
number, and the reader of the second one stops. -/
theorem Derivation.StopsAt.sequence {first : Derivation m} {more : Derivation n}
    {front : List Lexeme} {after : List Symbol}
    (hfirst : first.StopsAt endPosition depth l rest)
    (hmore : more.StopsAt endPosition depth l rest) (hdepth : first.depth ≤ depth)
    (hl : l.symbol.IsUnread) (hends : m.EndsBefore (more.symbols ++ []))
    (h : first.symbols ++ more.symbols = front.map (·.symbol) ++ .numeral ['0'] :: after) :
    Stops endPosition depth m (front ++ l :: rest)
      ∨ ∃ taken left, front = taken ++ left
        ∧ Reads endPosition depth m first.expr (taken ++ (left ++ l :: rest)) (left ++ l :: rest)
        ∧ Stops endPosition depth n (left ++ l :: rest) := by
  obtain ⟨digits, hsymbol, -⟩ := hl
  rcases split_of_append_eq h with ⟨after', hsymbols⟩ | ⟨taken, left, rfl, htaken, hsymbols⟩
  · exact .inl (hfirst hsymbols)
  · refine .inr ⟨taken, left, rfl, first.reads endPosition hdepth htaken ?_, hmore hsymbols⟩
    rw [List.append_nil, hsymbols] at hends
    rw [List.map_append, List.map_cons, hsymbol]
    exact hends.of_numeral

end NumberPlace

/-- **Readers stop at such integers.** The reader of a nonterminal fails at a numeral that is not
read if its derivation has a number there. Induction on the derivation; the two connectives go by
`Derivation.StopsAt.sequence`. -/
theorem Derivation.stops (endPosition : Nat) {n : Level} (d : Derivation n) {depth : Nat}
    (hdepth : d.depth ≤ depth) {front rest : List Lexeme} {l : Lexeme} {after : List Symbol}
    (hl : l.symbol.IsUnread)
    (h : d.symbols = front.map (·.symbol) ++ .numeral ['0'] :: after) :
    Stops endPosition depth n (front ++ l :: rest) := by
  induction d generalizing depth front after with
  | disjunction first more ihf ihm =>
    obtain ⟨hfirst, hmore⟩ := Nat.max_le.1 hdepth
    -- The numeral stands in the first operand, which stops there, or behind it, where the run
    -- stops.
    have hends := more.endsBefore_conjunction (Level.endsBefore_nil _)
    exact readChain_eq_error (StopsAt.sequence (ihf hfirst) (ihm hmore) hfirst hl hends h)
  | noDisjunct => exact absurd h (by simp [symbols])
  | orElse next more ihn ihm =>
    obtain ⟨hnext, hmore⟩ := Nat.max_le.1 hdepth
    have hends := more.endsBefore_conjunction (Level.endsBefore_nil _)
    obtain ⟨position, front, rfl, hbehind⟩ := split_of_cons_eq h (by rintro ⟨⟩)
    intro before
    exact readRun_eq_error before rfl
      (StopsAt.sequence (ihn hnext) (ihm hmore) hnext hl hends hbehind)
  | conjunction first more ihf ihm =>
    obtain ⟨hfirst, hmore⟩ := Nat.max_le.1 hdepth
    have hends := more.endsBefore_negation (Level.endsBefore_nil _)
    exact readChain_eq_error (StopsAt.sequence (ihf hfirst) (ihm hmore) hfirst hl hends h)
  | noConjunct => exact absurd h (by simp [symbols])
  | andAlso next more ihn ihm =>
    obtain ⟨hnext, hmore⟩ := Nat.max_le.1 hdepth
    have hends := more.endsBefore_negation (Level.endsBefore_nil _)
    obtain ⟨position, front, rfl, hbehind⟩ := split_of_cons_eq h (by rintro ⟨⟩)
    intro before
    exact readRun_eq_error before rfl
      (StopsAt.sequence (ihn hnext) (ihm hmore) hnext hl hends hbehind)
  | not negated ih =>
    obtain ⟨position, front, rfl, hbehind⟩ := split_of_cons_eq h (by rintro ⟨⟩)
    obtain ⟨depth, rfl⟩ := Nat.exists_eq_add_of_le' (Nat.le_trans (Nat.le_add_left 1 _) hdepth)
    exact bind_eq_error_iff.2 (.inl (ih (Nat.le_of_succ_le_succ hdepth) hbehind))
  | plain compared ih =>
    have hstops := ih hdepth h
    rw [Stops, readNegation_eq, readNegationOver_of_head_ne]
    · exact hstops
    · obtain ⟨s, tail, hsymbols, hs⟩ := compared.exists_cons_symbols_comparison
      -- Neither the numeral itself nor the first symbol of a comparison negates.
      intro l' more hl'
      cases front with
      | nil =>
        obtain ⟨digits, hsymbol, -⟩ := hl
        obtain ⟨rfl, -⟩ := List.cons.inj hl'
        simp [hsymbol]
      | cons l'' front =>
        obtain ⟨rfl, -⟩ := List.cons.inj hl'
        obtain ⟨rfl, -⟩ := List.cons.inj (hsymbols.symm.trans h)
        exact hs
  | alone single ih => exact bind_eq_error_iff.2 (.inl (ih hdepth h))
  | compare left r right ihl ihr =>
    obtain ⟨hleft, hright⟩ := Nat.max_le.1 hdepth
    -- The left side stops, or it is read (`Derivation.reads`) and the right side stops.
    rcases split_of_append_eq h with ⟨after', hsymbols⟩ | ⟨front, between, rfl, hfront, hsymbols⟩
    · exact bind_eq_error_iff.2 (.inl (ihl hleft hsymbols))
    · obtain ⟨position, between, rfl, hbehind⟩ := split_of_cons_eq hsymbols (by rintro ⟨⟩)
      rw [List.append_assoc]
      refine bind_eq_error_iff.2 (.inr
        ⟨_, left.reads endPosition hleft hfront (Level.endsBefore_operand _), ?_⟩)
      exact bind_eq_error_iff.2 (.inl (ihr hright hbehind))
  | numeral digits' literal hliteral =>
    cases front with
    | nil =>
      obtain ⟨digits, hsymbol, hunread⟩ := hl
      obtain ⟨symbol, position⟩ := l
      obtain rfl : symbol = .numeral digits := hsymbol
      exact bind_eq_error_iff.2 (.inl hunread)
    | cons l' front =>
      have hnil := (List.cons.inj h).2
      exact absurd hnil.symm (List.append_ne_nil_of_right_ne_nil _ (List.cons_ne_nil _ _))
  | group inner ih =>
    obtain ⟨position, front, rfl, hbehind⟩ := split_of_cons_eq h (by rintro ⟨⟩)
    obtain ⟨depth, rfl⟩ := Nat.exists_eq_add_of_le' (Nat.le_trans (Nat.le_add_left 1 _) hdepth)
    rcases split_of_append_eq hbehind with ⟨after', hsymbols⟩ | ⟨front, between, -, -, hclosing⟩
    · exact bind_eq_error_iff.2 (.inl (ih (Nat.le_of_succ_le_succ hdepth) hsymbols))
    · exact absurd hclosing (not_singleton_eq (by rintro ⟨⟩))
  -- The other operands have no numeral among their symbols.
  | quoted quote content => exact absurd h (not_singleton_eq (by rintro ⟨⟩))
  | truth b => exact absurd h (not_singleton_eq (by rintro ⟨⟩))
  | path p => exact absurd h (not_singleton_eq (by rintro ⟨⟩))

/-! ### Readers stop nowhere else -/

namespace Stalls

variable {depth depth' : Nat} {e : Expr} {lexemes rest : List Lexeme} {l : Lexeme}

/-- A number that may stand in a part may stand in the whole. The rules below are cases of it: each
names the derivation of the whole into which that of the part is put (`hwhole`). -/
theorem of_part {m n : Level} (h : Stalls depth m lexemes) (before : List Lexeme)
    (hwhole : ∀ d : Derivation m, d.depth ≤ depth → ∃ d' : Derivation n, d'.depth ≤ depth'
      ∧ ∃ after, d'.symbols = before.map (·.symbol) ++ (d.symbols ++ after)) :
    Stalls depth' n (before ++ lexemes) := by
  obtain ⟨front, l, rest, rfl, hl, d, hdepth, after, hsymbols⟩ := h
  obtain ⟨d', hdepth', after', hsymbols'⟩ := hwhole d hdepth
  refine ⟨before ++ front, l, rest, (List.append_assoc _ _ _).symm, hl, d', hdepth',
    after ++ after', ?_⟩
  rw [hsymbols', hsymbols, List.map_append, List.append_assoc, List.append_assoc,
    List.cons_append]

/-- A numeral that is not read stands where an operand is expected. -/
theorem numeral (hl : l.symbol.IsUnread) : Stalls depth .operand (l :: lexemes) :=
  ⟨[], l, lexemes, rfl, hl, .numeral ['0'] (.number (.int 0)) rfl, Nat.zero_le _, [], rfl⟩

/-- It stands in the disjunction behind an opening parenthesis. -/
theorem group (hl : l.symbol = .opening) (h : Stalls depth .disjunction lexemes) :
    Stalls (depth + 1) .operand (l :: lexemes) :=
  h.of_part [l] fun d hd =>
    ⟨.group d, Nat.succ_le_succ hd, [.closing], by simp [Derivation.symbols, hl]⟩

/-- It stands in an operand alone. -/
theorem alone (h : Stalls depth .operand lexemes) : Stalls depth .comparison lexemes :=
  h.of_part [] fun d hd => ⟨.alone d, hd, [], by simp [Derivation.symbols]⟩

/-- It stands in the right operand of a relation, behind a left one that has been derived. -/
theorem compare {r : Relation} (hl : l.symbol = .relation r)
    (hleft : Derives depth .operand e lexemes (l :: rest)) (h : Stalls depth .operand rest) :
    Stalls depth .comparison lexemes := by
  obtain ⟨left, -, hdepth, front, rfl, hfront⟩ := hleft
  rw [List.append_cons]
  exact h.of_part (front ++ [l]) fun d hd => ⟨.compare left r d, Nat.max_le.2 ⟨hdepth, hd⟩, [],
    by simp [Derivation.symbols, hfront, hl]⟩

/-- It stands in a comparison alone. -/
theorem plain (h : Stalls depth .comparison lexemes) : Stalls depth .negation lexemes :=
  h.of_part [] fun d hd => ⟨.plain d, hd, [], by simp [Derivation.symbols]⟩

/-- It stands in what a keyword negates, one deeper. -/
theorem not (hl : l.symbol = .keyword .not) (h : Stalls depth .negation lexemes) :
    Stalls (depth + 1) .negation (l :: lexemes) :=
  h.of_part [l] fun d hd =>
    ⟨.not d, Nat.succ_le_succ hd, [], by simp [Derivation.symbols, hl]⟩

/-- It stands in the first negation of a conjunction. -/
theorem firstConjunct (h : Stalls depth .negation lexemes) : Stalls depth .conjunction lexemes :=
  h.of_part [] fun d hd => ⟨.conjunction d .noConjunct,
    Nat.max_le.2 ⟨hd, Nat.zero_le _⟩, [], by simp [Derivation.symbols]⟩

/-- It stands in a run of conjuncts, behind a first negation that has been derived. -/
theorem laterConjuncts (hfirst : Derives depth .negation e lexemes rest)
    (h : Stalls depth .moreConjuncts rest) : Stalls depth .conjunction lexemes := by
  obtain ⟨first, -, hdepth, front, rfl, hfront⟩ := hfirst
  exact h.of_part front fun d hd => ⟨.conjunction first d, Nat.max_le.2 ⟨hdepth, hd⟩, [],
    by simp [Derivation.symbols, hfront]⟩

/-- It stands in the negation behind the keyword. -/
theorem andNext (hl : l.symbol = .keyword .and) (h : Stalls depth .negation lexemes) :
    Stalls depth .moreConjuncts (l :: lexemes) :=
  h.of_part [l] fun d hd => ⟨.andAlso d .noConjunct,
    Nat.max_le.2 ⟨hd, Nat.zero_le _⟩, [], by simp [Derivation.symbols, hl]⟩

/-- It stands further on in the run, behind a conjunct that has been derived. -/
theorem andLater (hl : l.symbol = .keyword .and) (hnext : Derives depth .negation e lexemes rest)
    (h : Stalls depth .moreConjuncts rest) : Stalls depth .moreConjuncts (l :: lexemes) := by
  obtain ⟨next, -, hdepth, front, rfl, hfront⟩ := hnext
  exact h.of_part (l :: front) fun d hd => ⟨.andAlso next d,
    Nat.max_le.2 ⟨hdepth, hd⟩, [], by simp [Derivation.symbols, hfront, hl]⟩

/-- It stands in the first conjunction of a disjunction. -/
theorem firstDisjunct (h : Stalls depth .conjunction lexemes) :
    Stalls depth .disjunction lexemes :=
  h.of_part [] fun d hd => ⟨.disjunction d .noDisjunct,
    Nat.max_le.2 ⟨hd, Nat.zero_le _⟩, [], by simp [Derivation.symbols]⟩

/-- It stands in a run of disjuncts, behind a first conjunction that has been derived. -/
theorem laterDisjuncts (hfirst : Derives depth .conjunction e lexemes rest)
    (h : Stalls depth .moreDisjuncts rest) : Stalls depth .disjunction lexemes := by
  obtain ⟨first, -, hdepth, front, rfl, hfront⟩ := hfirst
  exact h.of_part front fun d hd => ⟨.disjunction first d, Nat.max_le.2 ⟨hdepth, hd⟩, [],
    by simp [Derivation.symbols, hfront]⟩

/-- It stands in the conjunction behind the keyword. -/
theorem orNext (hl : l.symbol = .keyword .or) (h : Stalls depth .conjunction lexemes) :
    Stalls depth .moreDisjuncts (l :: lexemes) :=
  h.of_part [l] fun d hd => ⟨.orElse d .noDisjunct,
    Nat.max_le.2 ⟨hd, Nat.zero_le _⟩, [], by simp [Derivation.symbols, hl]⟩

/-- It stands further on in the run, behind a disjunct that has been derived. -/
theorem orLater (hl : l.symbol = .keyword .or) (hnext : Derives depth .conjunction e lexemes rest)
    (h : Stalls depth .moreDisjuncts rest) : Stalls depth .moreDisjuncts (l :: lexemes) := by
  obtain ⟨next, -, hdepth, front, rfl, hfront⟩ := hnext
  exact h.of_part (l :: front) fun d hd => ⟨.orElse next d,
    Nat.max_le.2 ⟨hdepth, hd⟩, [], by simp [Derivation.symbols, hfront, hl]⟩

end Stalls

/-- A run fails as one of its operands does: what holds where the next operand fails (`hnext`), and
further on behind an operand that is read (`hlater`), holds where the run fails. Induction along
`readRun`. -/
theorem of_readRun_error {connective : Symbol} {joined : Expr → Expr → Expr} {operand : Reader}
    {P : List Lexeme → Prop} {fault : Fault}
    (hnext : ∀ {l lexemes}, l.symbol = connective → operand lexemes = .error fault →
      P (l :: lexemes))
    (hlater : ∀ {l right lexemes rest}, l.symbol = connective →
      operand lexemes = .ok (right, rest) → P rest → P (l :: lexemes))
    {left : Expr} {lexemes : List Lexeme}
    (h : readRun connective joined operand left lexemes = .error fault) : P lexemes := by
  fun_induction readRun connective joined operand left lexemes with
  | case1 => cases h
  | case2 left l lexemes hl fault' hread =>
    cases h
    exact hnext hl hread
  | case3 left l lexemes hl right rest hread _ ih => exact hlater hl hread (ih h)
  | case4 => cases h
  | case5 => cases h

section Sound

variable {endPosition depth : Nat} {lexemes : List Lexeme}

/-- Where the reader of negations stops, a number may stand. The readers of the other nonterminals
are put together from it, so they are shown to do the same under this assumption. -/
def StopsWhereAwaited (endPosition depth : Nat) : Prop :=
  ∀ {lexemes}, Stops endPosition depth .negation lexemes → Stalls depth .negation lexemes

/-- Where the reader of conjunctions stops, a number may stand: in its first negation or in one of
its run (`of_readRun_error`). -/
theorem stalls_of_readConjunction (hnegation : StopsWhereAwaited endPosition depth)
    (h : Stops endPosition depth .conjunction lexemes) : Stalls depth .conjunction lexemes := by
  have hread : ReadsDerived endPosition depth := derives_of_readNegation endPosition depth
  obtain hfirst | ⟨⟨first, rest⟩, hfirst, hrun⟩ := bind_eq_error_iff.1 h
  · exact (hnegation hfirst).firstConjunct
  · refine .laterConjuncts (hread hfirst) (of_readRun_error ?_ ?_ hrun)
    · exact fun hl hnext => .andNext hl (hnegation hnext)
    · exact fun hl hnext hlater => .andLater hl (hread hnext) hlater

/-- Where the reader of disjunctions stops, a number may stand, in the same way. -/
theorem stalls_of_readDisjunction (hnegation : StopsWhereAwaited endPosition depth)
    (h : Stops endPosition depth .disjunction lexemes) : Stalls depth .disjunction lexemes := by
  have hread {e : Expr} {lexemes rest : List Lexeme}
      (h : readConjunction endPosition depth lexemes = .ok (e, rest)) :
      Derives depth .conjunction e lexemes rest :=
    derives_of_readConjunction (derives_of_readNegation endPosition depth) h
  obtain hfirst | ⟨⟨first, rest⟩, hfirst, hrun⟩ := bind_eq_error_iff.1 h
  · exact (stalls_of_readConjunction hnegation hfirst).firstDisjunct
  · refine .laterDisjuncts (hread hfirst) (of_readRun_error ?_ ?_ hrun)
    · exact fun hl hnext => .orNext hl (stalls_of_readConjunction hnegation hnext)
    · exact fun hl hnext hlater => .orLater hl (hread hnext) hlater

variable (hinner : ∀ below, depth = below + 1 → StopsWhereAwaited endPosition below)

include hinner

/-- Where the reader of operands stops, a number may stand: it is at a numeral, or in parentheses,
where negations are read one level deeper (`hinner`). -/
theorem stalls_of_readOperand (h : Stops endPosition depth .operand lexemes) :
    Stalls depth .operand lexemes := by
  rw [Stops, readOperand.eq_def] at h
  split at h
  · cases h
  · rename_i digits position rest
    obtain hliteral | ⟨l, -, ⟨⟩⟩ := bind_eq_error_iff.1 h
    exact .numeral ⟨digits, rfl, hliteral⟩
  · cases h
  · cases h
  · cases h
  · cases depth with
    | zero => cases h
    | succ below =>
      obtain hread | ⟨⟨e, rest⟩, -, hclosing⟩ := bind_eq_error_iff.1 h
      · exact .group rfl (stalls_of_readDisjunction (hinner below rfl) hread)
      · dsimp only [readClosing] at hclosing
        split at hclosing <;> cases hclosing
  · rename_i hother
    cases lexemes <;> cases h

/-- Where the reader of comparisons stops, a number may stand: in the left operand, or in the right
one behind a relation. -/
theorem stalls_of_readComparison (h : Stops endPosition depth .comparison lexemes) :
    Stalls depth .comparison lexemes := by
  obtain hleft | ⟨⟨left, behind⟩, hleft, hright⟩ := bind_eq_error_iff.1 h
  · exact (stalls_of_readOperand hinner hleft).alone
  · have hread := derives_of_readOperand (fun below _ => derives_of_readNegation endPosition below)
      hleft
    dsimp only at hright
    split at hright
    · obtain hright | ⟨⟨right, rest⟩, -, ⟨⟩⟩ := bind_eq_error_iff.1 hright
      exact .compare rfl hread (stalls_of_readOperand hinner hright)
    · cases hright

omit hinner in
/-- **Readers stop nowhere else.** Where the reader of negations stops, a number may stand.
Induction on how deep parentheses and negations may nest. -/
theorem stalls_of_readNegation (endPosition depth : Nat) : StopsWhereAwaited endPosition depth := by
  induction depth with
  | zero =>
    intro lexemes h
    rw [Stops, readNegation_eq, readNegationOver.eq_def] at h
    split at h
    · cases h
    · exact .plain (stalls_of_readComparison (by rintro below ⟨⟩) h)
  | succ depth ih =>
    intro lexemes h
    rw [Stops, readNegation_eq, readNegationOver.eq_def] at h
    split at h
    · obtain hread | ⟨⟨negated, rest⟩, -, ⟨⟩⟩ := bind_eq_error_iff.1 h
      exact .not rfl (ih hread)
    · refine .plain (stalls_of_readComparison ?_ h)
      rintro below ⟨⟩
      exact ih

end Sound

/-! ### The guards that are not read because of an integer -/

/-- Reading lexemes stops exactly where an integer is that is too long and a number may stand:
`Derivation.stops` in one direction, `stalls_of_readDisjunction` in the other. -/
theorem parseLexemes_eq_error_integerTooLong_iff {endPosition : Nat} {lexemes : List Lexeme} :
    parseLexemes endPosition lexemes = .error .integerTooLong
      ↔ Stalls maxNesting .disjunction lexemes := by
  constructor
  · intro h
    rw [parseLexemes.eq_def] at h
    split at h
    · cases h
    · obtain hread | ⟨⟨e, rest⟩, -, hend⟩ := bind_eq_error_iff.1 h
      · exact stalls_of_readDisjunction (stalls_of_readNegation endPosition maxNesting) hread
      · cases rest <;> cases hend
  · rintro ⟨front, l, rest, rfl, hl, d, hdepth, after, hsymbols⟩
    rw [parseLexemes.eq_def]
    split
    · rename_i hnil
      exact absurd hnil (by simp)
    · exact bind_eq_error_iff.2 (.inl (d.stops endPosition hdepth hl hsymbols))

/-- **The guards that are not read because of an integer.** A guard is not read because of an
integer if one that is too long stands where a number may, and only then. What stands behind it does
not matter, as long as the guard splits into lexemes. -/
theorem parse_eq_error_integerTooLong_iff {source : String} :
    parse source = .error .integerTooLong ↔ MeetsOverlongInteger source := by
  constructor
  · intro h
    rw [parse] at h
    split at h
    · cases h
    · rename_i lexemes hlex
      obtain ⟨front, l, rest, rfl, hl, hawaits⟩ := parseLexemes_eq_error_integerTooLong_iff.1 h
      have hsplits := splits_of_lexFrom hlex
      rw [List.map_append, List.map_cons] at hsplits
      refine ⟨_, _, _, hsplits, (Symbol.isUnread_iff_isOverlong ?_).1 hl, hawaits⟩
      exact isNumeral_of_mem_lex hlex l (by simp)
  · rintro ⟨front, s, rest, hsplits, hs, hawaits⟩
    obtain ⟨lexemes, hlex, hsymbols⟩ := exists_lexFrom_of_splits hsplits 0
    obtain ⟨front, behind, rfl, rfl, hbehind⟩ := List.map_eq_append_iff.1 hsymbols
    obtain ⟨l, rest, rfl, rfl, rfl⟩ := List.map_eq_cons_iff.1 hbehind
    rw [parse, lex, hlex]
    refine parseLexemes_eq_error_integerTooLong_iff.2 ⟨front, l, rest, rfl, ?_, hawaits⟩
    refine (Symbol.isUnread_iff_isOverlong ?_).2 hs
    exact isNumeral_of_mem_lexFrom hlex l (by simp)

end Templating.Guard
