import Templating.Proofs.Guard.Numerals
import Templating.Proofs.Guard.Recursion
import Templating.Proofs.Outcome

/-!
# What can go wrong with a guard

Reading a guard fails because the guard is misspelt or because it holds an integer that is too
long; evaluating it can fail besides because an integer is beyond the floating point numbers
where its truth is asked for. A reader of lexemes never makes up lexemes, so what is known of
those it gets it keeps to.

## Main definitions

* `Reader.Respects`: a reader that fails only in given ways on given lexemes.
* `HasShortIntegers`: guards without an integer that is too long.

## Main results

* `parse_error`: the faults of reading a guard.
* `parse_error_of_hasShortIntegers`: those of a guard without an integer that is too long.
* `Expr.holds_error`, `evaluate_error`: the faults of evaluating it.
-/

namespace Templating.Guard

section Respects

/-! ### Readers that fail in given ways -/

variable (Fine : Lexeme → Prop) (Allowed : Fault → Prop)

/-- Failing only with given faults (`Allowed`), or leaving lexemes of a given kind (`Fine`). -/
def Keeps {α : Type} : Except Fault (α × List Lexeme) → Prop
  | .error fault => Allowed fault
  | .ok (_, rest) => ∀ l ∈ rest, Fine l

/-- On lexemes of a given kind the reader fails only with given faults, and what it leaves are
lexemes of that kind (`Keeps`). The readers are put together from one another, and each keeps to
this if its parts do. -/
def Reader.Respects (read : Reader) : Prop :=
  ∀ lexemes, (∀ l ∈ lexemes, Fine l) → Keeps Fine Allowed (read lexemes)

variable {Fine Allowed}

/-- What is read after a reading keeps to what is known: the lexemes that are left are of the given
kind, so the next reader may be asked. -/
theorem Keeps.bind {α β : Type} {outcome : Except Fault (α × List Lexeme)}
    {next : α × List Lexeme → Except Fault (β × List Lexeme)} (h : Keeps Fine Allowed outcome)
    (hnext : ∀ a rest, (∀ l ∈ rest, Fine l) → Keeps Fine Allowed (next (a, rest))) :
    Keeps Fine Allowed (outcome >>= next) := by
  match outcome, h with
  | .error fault, h => exact h
  | .ok (a, rest), h => exact hnext a rest h

/-- A run respects what its operands do. Induction along `readRun`, over any expression before
it. -/
theorem readRun_respects {connective : Symbol} {joined : Expr → Expr → Expr} {operand : Reader}
    (h : operand.Respects Fine Allowed) (left : Expr) :
    Reader.Respects Fine Allowed (readRun connective joined operand left) := by
  intro lexemes hfine
  fun_induction readRun connective joined operand left lexemes with
  | case1 left => exact hfine
  | case2 left l rest hl fault hread =>
    have hkeeps := h rest fun l hl => hfine l (List.mem_cons_of_mem _ hl)
    rwa [hread] at hkeeps
  | case3 left l rest hl right rest' hread hle ih =>
    have hkeeps := h rest fun l hl => hfine l (List.mem_cons_of_mem _ hl)
    rw [hread] at hkeeps
    exact ih hkeeps
  | case4 left l rest hl right rest' hread hlt =>
    have hkeeps := h rest fun l hl => hfine l (List.mem_cons_of_mem _ hl)
    rwa [hread] at hkeeps
  | case5 left l rest hl => exact hfine

/-- A chain respects what its operands do: its first operand, and the run behind it by
`readRun_respects`. -/
theorem readChain_respects {connective : Symbol} {joined : Expr → Expr → Expr} {operand : Reader}
    (h : operand.Respects Fine Allowed) :
    (readChain connective joined operand).Respects Fine Allowed := fun lexemes hfine =>
  (h lexemes hfine).bind fun left rest hrest => readRun_respects h left rest hrest

/-- A disjunction respects what its negations do, being a chain of chains of them:
`readChain_respects` twice. -/
theorem readDisjunction_respects {negation : Reader} (h : negation.Respects Fine Allowed) :
    (readDisjunction negation).Respects Fine Allowed :=
  readChain_respects (readChain_respects h)

/-- A comparison respects what its operands do, with or without a relation. -/
theorem readComparison_respects {operand : Reader} (h : operand.Respects Fine Allowed) :
    (readComparison operand).Respects Fine Allowed := by
  intro lexemes hfine
  refine (h lexemes hfine).bind fun left rest hrest => ?_
  dsimp only
  split
  · rename_i r position rest
    exact (h rest fun l hl => hrest l (List.mem_cons_of_mem _ hl)).bind fun _ _ hrest => hrest
  · exact hrest

variable (hguard : ∀ fault, Allowed (.guard fault))

include hguard

/-- A lexeme that does not fit, or the end of the guard, is a fault of the guard, and these are
allowed (`hguard`). -/
theorem misplaced_allowed (endPosition : Nat) (lexemes : List Lexeme) :
    Allowed (misplaced endPosition lexemes) := by
  cases lexemes with
  | nil => exact hguard _
  | cons l rest => exact hguard _

/-- A closing parenthesis that is missing is a fault of the guard, which is allowed (`hguard`). -/
theorem readClosing_respects (endPosition : Nat) (e : Expr) :
    (readClosing endPosition e).Respects Fine Allowed := by
  intro lexemes hfine
  simp only [readClosing]
  split
  · exact fun l hl => hfine l (List.mem_cons_of_mem _ hl)
  · exact hguard _

variable (hnumeral : ∀ l, Fine l → ∀ digits, l.symbol = .numeral digits →
  ∀ fault, numeralLiteral digits = .error fault → Allowed fault)

include hnumeral

/-- An operand respects what is known if its numerals do (`hnumeral`) and negations one level deeper
(`hinner`). One case for each kind of lexeme that an operand can begin with. -/
theorem readOperand_respects (endPosition : Nat) {inner : Option Reader}
    (hinner : ∀ read ∈ inner, Reader.Respects Fine Allowed read) :
    (readOperand endPosition inner).Respects Fine Allowed := by
  intro lexemes hfine
  have htail : ∀ l ∈ lexemes.tail, Fine l := fun l hl => hfine l (List.mem_of_mem_tail hl)
  simp only [readOperand]
  split
  · exact htail
  · rename_i digits position rest
    have hfirst := hnumeral _ (hfine _ List.mem_cons_self) digits rfl
    cases hliteral : numeralLiteral digits with
    | error fault => exact hfirst fault hliteral
    | ok l => exact htail
  · exact htail
  · exact htail
  · exact htail
  · rename_i position rest
    cases inner with
    | none => exact hguard _
    | some negation =>
      refine Keeps.bind (readDisjunction_respects (hinner negation rfl) rest htail) ?_
      exact fun e rest hrest => readClosing_respects hguard endPosition e rest hrest
  · exact misplaced_allowed hguard endPosition _

/-- A negation respects what is known if negations one level deeper (`inner`) do. Without a deeper
level there is a fault of the guard, since it nests too deep. -/
theorem readNegationOver_respects (endPosition : Nat) {inner : Option Reader}
    (hinner : ∀ read ∈ inner, Reader.Respects Fine Allowed read) :
    (readNegationOver endPosition inner).Respects Fine Allowed := by
  intro lexemes hfine
  simp only [readNegationOver]
  split
  · rename_i position rest
    cases inner with
    | none => exact hguard _
    | some negation =>
      refine Keeps.bind (hinner negation rfl rest fun l hl =>
        hfine l (List.mem_cons_of_mem _ hl)) ?_
      exact fun e rest hrest => hrest
  · exact readComparison_respects (readOperand_respects hguard hnumeral endPosition hinner) _ hfine

/-- Negations respect what is known, however deep they may nest. Induction on the depth, by
`readNegationOver_respects`. -/
theorem readNegation_respects (endPosition depth : Nat) :
    (readNegation endPosition depth).Respects Fine Allowed := by
  induction depth with
  | zero => exact readNegationOver_respects hguard hnumeral endPosition (by simp)
  | succ depth ih =>
    refine readNegationOver_respects hguard hnumeral endPosition fun read hread => ?_
    obtain rfl : readNegation endPosition depth = read := by simpa using hread
    exact ih

variable (Fine Allowed)

/-- **Reading lexemes of a given kind fails only with given faults.** A guard without lexemes and
one with lexemes left over are faults of the guard. -/
theorem parseLexemes_error {endPosition : Nat} {lexemes : List Lexeme}
    (hfine : ∀ l ∈ lexemes, Fine l) {fault : Fault}
    (h : parseLexemes endPosition lexemes = .error fault) : Allowed fault := by
  rw [parseLexemes.eq_def] at h
  split at h
  · cases h
    exact hguard _
  · have hkeeps := readDisjunction_respects
      (readNegation_respects hguard hnumeral endPosition maxNesting) lexemes hfine
    match hread : readDisjunction (readNegation endPosition maxNesting) lexemes, hkeeps with
    | .error fault', hkeeps =>
      rw [hread] at h
      cases h
      exact hkeeps
    | .ok (e, []), _ =>
      rw [hread] at h
      cases h
    | .ok (e, l :: rest), _ =>
      rw [hread] at h
      cases h
      exact hguard _

end Respects

/-! ### The faults of reading -/

/-- A numeral has no literal only if it is an integer that is not read: it has no point, and
`Numeral.integer?` gives nothing. -/
theorem numeralLiteral_error {digits : List Char} {fault : Fault}
    (h : numeralLiteral digits = .error fault) :
    fault = .integerTooLong ∧ '.' ∉ digits ∧ Numeral.integer? digits = none := by
  rw [numeralLiteral] at h
  split at h
  · simp at h
  · rename_i hpoint
    split at h
    · simp at h
    · rename_i hnone
      exact ⟨by simpa using h.symm, by simpa using hpoint, hnone⟩

/-- **The faults of reading a guard**: it is misspelt or holds an integer that is too long. Here
nothing is asked of the lexemes, so a numeral fails as `numeralLiteral_error` says. -/
theorem parse_error {source : String} {fault : Fault} (h : parse source = .error fault) :
    (∃ g, fault = .guard g) ∨ fault = .integerTooLong := by
  rw [parse] at h
  split at h
  · rename_i g _
    exact .inl ⟨g, by simpa using h.symm⟩
  · refine parseLexemes_error (fun _ => True)
      (fun fault => (∃ g, fault = .guard g) ∨ fault = .integerTooLong)
      (fun g => .inl ⟨g, rfl⟩) ?_ (fun _ _ => trivial) h
    exact fun _ _ digits _ fault hfault => .inr (numeralLiteral_error hfault).1

/-- No integer of the guard has more digits than are ever read (`Numeral.maxIntegerDigits`).
Numerals with a point may have any number of them. -/
def HasShortIntegers (source : String) : Prop :=
  ∀ lexemes, lex source = .ok lexemes → ∀ l ∈ lexemes, ∀ digits, l.symbol = .numeral digits →
    '.' ∉ digits → digits.countP Text.isDigit ≤ Numeral.maxIntegerDigits

/-- No lexeme is longer than the guard. Induction along `lexFrom`: a lexeme at the head is a part of
the characters that are left. -/
theorem length_source_le_of_mem_lexFrom {position : Nat} {cs : List Char} {lexemes : List Lexeme}
    (h : lexFrom position cs = .ok lexemes) :
    ∀ l ∈ lexemes, l.symbol.source.length ≤ cs.length := by
  fun_induction lexFrom position cs generalizing lexemes with
  | case1 =>
    cases h
    simp
  | case2 position c cs hblank ih => exact fun l hl => Nat.le_succ_of_le (ih h l hl)
  | case3 => cases h
  | case4 position c cs hblank s rest hsymbol ih =>
    obtain ⟨more, hmore, ⟨⟩⟩ := bind_eq_ok_iff.1 h
    have hlength := congrArg List.length (source_symbol? hsymbol)
    rw [List.length_append] at hlength
    intro l hl
    rcases List.mem_cons.1 hl with rfl | hl
    · exact Nat.le_of_add_right_le (Nat.le_of_eq hlength)
    · have := ih hmore l hl
      omega

/-- A guard without more characters than digits are read (`Numeral.maxIntegerDigits`) holds no
integer that is too long. -/
theorem hasShortIntegers_of_length_le {source : String}
    (h : source.toList.length ≤ Numeral.maxIntegerDigits) : HasShortIntegers source := by
  intro lexemes hlex l hl digits hdigits _
  have hlength := length_source_le_of_mem_lexFrom hlex l hl
  rw [hdigits] at hlength
  exact Nat.le_trans List.countP_le_length (Nat.le_trans hlength h)

/-- A guard without an integer that is too long cannot be read only if it is misspelt. For
`parseLexemes_error` the lexemes of the given kind are those that are no such integers. -/
theorem parse_error_of_hasShortIntegers {source : String} (hshort : HasShortIntegers source)
    {fault : Fault} (h : parse source = .error fault) : ∃ g, fault = .guard g := by
  rw [parse] at h
  split at h
  · rename_i g _
    exact ⟨g, by simpa using h.symm⟩
  · rename_i lexemes hlex
    refine parseLexemes_error
      (fun l => ∀ digits, l.symbol = .numeral digits →
        IsNumeral digits ∧ ('.' ∉ digits → digits.countP Text.isDigit ≤ Numeral.maxIntegerDigits))
      (fun fault => ∃ g, fault = .guard g) (fun g => ⟨g, rfl⟩) ?_ ?_ h
    · intro l hl digits hdigits fault hfault
      obtain ⟨-, hpoint, hnone⟩ := numeralLiteral_error hfault
      have hsome := (isSome_integer?_iff_of_isNumeral (hl digits hdigits).1 hpoint).2
        ((hl digits hdigits).2 hpoint)
      simp [hnone] at hsome
    · exact fun l hl digits hdigits =>
        ⟨isNumeral_of_mem_lex hlex l hl digits hdigits, hshort lexemes hlex l hl digits hdigits⟩

/-! ### The faults of evaluating -/

/-- The truth of a value (`isTruthy`) is unknown only because of the size of an integer. -/
theorem isTruthy_error {v : Option Value} {fault : Fault} (h : isTruthy v = .error fault) :
    fault = .numberTooLarge := by
  rw [isTruthy.eq_def] at h
  split at h <;> try (simp at h)
  rw [isTruthyNumber.eq_def] at h
  split at h
  · split at h
    · simp at h
    · split at h
      · simp at h
      · simpa using h.symm
  · simp at h

namespace Expr

variable {configuration : Value}

/-- An operand fails only as its truth does; a literal and a path have a value and do not fail
(`Expr.operand`). -/
theorem operand_error {e : Expr} {truth : Except Fault Bool} {fault : Fault}
    (h : e.operand configuration truth = .error fault) : truth = .error fault := by
  cases truth with
  | error fault' =>
    cases e with
    | literal l => simp [operand] at h
    | path p => simp [operand] at h
    | _ => simpa [operand, Except.map] using h
  | ok b => cases e <;> simp [operand, Except.map] at h

/-- **The truth of an expression is unknown only where the truth of a number is**
(`isTruthy_error`). Structural induction; comparing two values by `related` never fails. -/
theorem holds_error {e : Expr} {fault : Fault} (h : e.holds configuration = .error fault) :
    fault = .numberTooLarge := by
  induction e generalizing fault with
  | literal l =>
    rw [holds] at h
    exact isTruthy_error h
  | path p =>
    rw [holds] at h
    exact isTruthy_error h
  | not e ih =>
    rw [holds] at h
    obtain he | ⟨b, -, ⟨⟩⟩ := bind_eq_error_iff.1 h
    exact ih he
  | and left right ihl ihr =>
    rw [holds_and] at h
    obtain hl | ⟨b, -, hr⟩ := bind_eq_error_iff.1 h
    · exact ihl hl
    · cases b with
      | true => exact ihr hr
      | false => cases hr
  | or left right ihl ihr =>
    rw [holds_or] at h
    obtain hl | ⟨b, -, hr⟩ := bind_eq_error_iff.1 h
    · exact ihl hl
    · cases b with
      | true => cases hr
      | false => exact ihr hr
  | compare r left right ihl ihr =>
    rw [holds] at h
    obtain hx | ⟨x, -, h⟩ := bind_eq_error_iff.1 h
    · exact ihl (operand_error hx)
    · obtain hy | ⟨y, -, ⟨⟩⟩ := bind_eq_error_iff.1 h
      exact ihr (operand_error hy)

end Expr

/-- Evaluating a guard fails only because of the size of an integer, where it is read
(`parse_error`) or where its truth is asked for (`Expr.holds_error`); a misspelt guard counts as
false. -/
theorem evaluate_error {guard : String} {configuration : Value} {fault : Fault}
    (h : evaluate guard configuration = .error fault) :
    fault = .integerTooLong ∨ fault = .numberTooLarge := by
  rw [evaluate] at h
  split at h
  · exact .inr (Expr.holds_error h)
  · simp at h
  · rename_i fault' hnot hparse
    obtain rfl : fault' = fault := by simpa using h
    rcases parse_error hparse with ⟨g, rfl⟩ | rfl
    · exact absurd rfl (hnot g)
    · exact .inl rfl

end Templating.Guard
