import Templating.Proofs.Guard.Reading
import Templating.Proofs.Value.JsonText

/-!
# Writing guards

An expression is written with parentheses only where the grammar needs them: around an operand
that holds together less tightly than its place asks for, and around a right operand of its own
connective. Its symbols have a derivation that stands for the expression, and with single spaces
between them they split into themselves, so the expression is read back.

## Main definitions

* `Expr.symbols`, `Expr.nesting`: how an expression is written, and how deep that nests.
* `Expr.source`: the symbols with single spaces between them.
* `Expr.IsPrintable`: expressions all of whose literals and paths have a symbol.
* `writtenInteger`: an integer as it is written.

## Main results

* `splits_spaced`: symbols that follow their patterns are split at the spaces.
* `Expr.IsPrintable.isWritten`: what is written has a derivation wherever it may stand.
* `parse_source`: what is written is read back.
-/

namespace Templating.Guard

open Templating.Text

/-! ### Writing an expression -/

/-- The symbol of a literal. A text stands between double quotes unless it holds one; then it stands
between single ones, which `IsPrintableLiteral` makes sure it can. -/
def literalSymbol : Scalar → Symbol
  | .bool b => .keyword (if b then .true else .false)
  | .number n => .numeral (Json.numberText n)
  | .text s => .quoted (if '"' ∈ s.toList then '\x27' else '"') s.toList

namespace Expr

/-- The nonterminal of the rule that makes up an expression. -/
def level : Expr → Level
  | literal _ => .operand
  | path _ => .operand
  | not _ => .negation
  | and _ _ => .conjunction
  | or _ _ => .disjunction
  | compare _ _ _ => .comparison

/-- Whether an expression stands in parentheses where a nonterminal is expected: if it holds
together less tightly (`Level.binding`) than the nonterminal does. -/
def isEnclosed (e : Expr) (n : Level) : Bool :=
  e.level.binding < n.binding

/-- Parentheses around what is written, where they are needed. -/
def enclose (e : Expr) (n : Level) (symbols : List Symbol) : List Symbol :=
  if e.isEnclosed n then .opening :: (symbols ++ [.closing]) else symbols

/-- The symbols by which an expression is written. The right operand of a connective is enclosed
where the next tighter nonterminal is expected, so that a run leans to the left when it is read. -/
def symbols : Expr → List Symbol
  | literal l => [literalSymbol l]
  | path p => [.name p.toList]
  | not e => .keyword .not :: e.enclose .negation e.symbols
  | and left right =>
    left.enclose .conjunction left.symbols ++ .keyword .and :: right.enclose .negation right.symbols
  | or left right =>
    left.enclose .disjunction left.symbols
      ++ .keyword .or :: right.enclose .conjunction right.symbols
  | compare r left right =>
    left.enclose .operand left.symbols ++ .relation r :: right.enclose .operand right.symbols

/-- One more where an expression stands in parentheses. -/
def deepen (e : Expr) (n : Level) (depth : Nat) : Nat :=
  if e.isEnclosed n then depth + 1 else depth

/-- How deep parentheses and negations nest where an expression is written. It is the depth of the
derivation of what is written (`Expr.IsPrintable.isWritten`). -/
def nesting : Expr → Nat
  | literal _ => 0
  | path _ => 0
  | not e => e.deepen .negation e.nesting + 1
  | and left right =>
    max (left.deepen .conjunction left.nesting) (right.deepen .negation right.nesting)
  | or left right =>
    max (left.deepen .disjunction left.nesting) (right.deepen .conjunction right.nesting)
  | compare _ left right =>
    max (left.deepen .operand left.nesting) (right.deepen .operand right.nesting)

end Expr

/-- Symbols with single spaces between them. -/
def spaced : List Symbol → List Char
  | [] => []
  | [s] => s.source
  | s :: t :: rest => s.source ++ ' ' :: spaced (t :: rest)

/-- How an expression is written. -/
def Expr.source (e : Expr) : String :=
  String.ofList (spaced e.symbols)

/-! ### What can be written -/

/-- A truth value, an integer that is not too long to be read, or a text without one of the two
quotes. Floating point numbers are left out: some of them, such as the infinite ones, are denoted by
no literal. -/
def IsPrintableLiteral : Scalar → Prop
  | .bool _ => True
  | .number (.int i) => i.natAbs.repr.length ≤ Numeral.maxIntegerDigits
  | .number (.binary _) => False
  | .text s => ¬('"' ∈ s.toList ∧ '\x27' ∈ s.toList)

/-- The literals of an expression have symbols (`IsPrintableLiteral`), and its paths are names and
no keywords. -/
def Expr.IsPrintable : Expr → Prop
  | literal l => IsPrintableLiteral l
  | path p => IsWord p.toList ∧ ∀ k : Keyword, k.spelling ≠ p.toList
  | not e => e.IsPrintable
  | and left right => left.IsPrintable ∧ right.IsPrintable
  | or left right => left.IsPrintable ∧ right.IsPrintable
  | compare _ left right => left.IsPrintable ∧ right.IsPrintable

/-! ### Integers -/

/-- The text of a written integer follows the pattern of a number, with or without a sign. -/
theorem matches_text (w : WrittenInteger) : (Symbol.numeral w.text.toList).Matches := by
  have hdecimal : IsDecimal w.digits := .whole w.nonempty w.isDigit_of_mem_digits
  rw [WrittenInteger.toList_text]
  split
  · exact .inr ⟨_, rfl, hdecimal⟩
  · exact .inl hdecimal

/-- The text of a written integer has no point, so it is read as an integer and not as a decimal
fraction. -/
theorem contains_point_text (w : WrittenInteger) : w.text.toList.contains '.' = false := by
  rw [List.contains_eq_mem, decide_eq_false_iff_not]
  intro hmem
  rcases w.isDigit_or_eq_minus _ hmem with hdigit | heq
  · exact absurd hdigit (by decide)
  · exact absurd heq (by decide)

/-- The text of a written integer stands for the integer as a literal, by
`WrittenInteger.integer?_text`. -/
theorem numeralLiteral_text (w : WrittenInteger) :
    numeralLiteral w.text.toList = .ok (.number (.int w.value)) := by
  simp only [numeralLiteral, contains_point_text, Bool.false_eq_true, if_false, w.integer?_text]

/-- An integer that is not too long, as it is written: its sign and the digits of its absolute
value, without leading zeros. -/
def writtenInteger (i : Int) (h : i.natAbs.repr.length ≤ Numeral.maxIntegerDigits) :
    WrittenInteger where
  negative := decide (i < 0)
  digits := i.natAbs.repr.toList
  nonempty := repr_ne_nil _
  decimal _ hc := isDigit_of_mem_repr hc
  short := h

section Written

variable {i : Int} (h : i.natAbs.repr.length ≤ Numeral.maxIntegerDigits)

/-- Its text is the one that `integerText` gives. -/
theorem text_writtenInteger : (writtenInteger i h).text = integerText i := by
  refine String.toList_injective ?_
  rw [WrittenInteger.toList_text, toList_integerText]
  simp only [writtenInteger, decide_eq_true_eq]

/-- Its value is the integer itself: `natOfDigits` undoes `Nat.repr`. -/
theorem value_writtenInteger : (writtenInteger i h).value = i := by
  simp only [WrittenInteger.value, writtenInteger, decide_eq_true_eq, ← natOfDigits_digitValues,
    natOfDigits_digitValues_repr]
  split <;> omega

include h

/-- The text of an integer stands for the integer as a literal: `numeralLiteral_text` at
`writtenInteger`. -/
theorem numeralLiteral_integerText :
    numeralLiteral (integerText i).toList = .ok (.number (.int i)) := by
  have hliteral := numeralLiteral_text (writtenInteger i h)
  rwa [text_writtenInteger, value_writtenInteger] at hliteral

/-- The text of an integer follows the pattern of a number: `matches_text` at `writtenInteger`. -/
theorem matches_integerText : (Symbol.numeral (integerText i).toList).Matches := by
  have hmatches := matches_text (writtenInteger i h)
  rwa [text_writtenInteger] at hmatches

end Written

/-! ### Splitting at spaces -/

/-- A name holds letters, digits, underscores and points, and nothing else. -/
theorem IsNameRest.inName_or_eq_point {cs : List Char} (h : IsNameRest cs) :
    ∀ c ∈ cs, inName c = true ∨ c = '.' := by
  induction h with
  | nil => simp
  | inside hc _ ih => exact List.forall_mem_cons.2 ⟨.inl hc, ih⟩
  | point hc _ ih =>
    exact List.forall_mem_cons.2 ⟨.inr rfl, List.forall_mem_cons.2 ⟨.inl hc, ih⟩⟩

/-- So no space stands in a word. -/
theorem IsWord.space_not_mem {cs : List Char} (h : IsWord cs) : ' ' ∉ cs := by
  obtain ⟨c, rest, rfl, hc, hrest⟩ := h
  intro hmem
  rcases List.mem_cons.1 hmem with rfl | hmem
  · exact absurd hc (by decide)
  · rcases hrest.inName_or_eq_point _ hmem with hin | heq
    · exact absurd hin (by decide)
    · exact absurd heq (by decide)

namespace Symbol

/-- No symbol but a quoted text holds a space, so a space is where any of them ends. -/
theorem Matches.space_not_mem {s : Symbol} (h : s.Matches)
    (hs : ∀ quote content, s ≠ .quoted quote content) : ' ' ∉ s.source := by
  cases s with
  | quoted quote content => exact absurd rfl (hs quote content)
  | numeral digits =>
    have hdecimal {body : List Char} (h : IsDecimal body) : ' ' ∉ body := by
      intro hmem
      rcases h.isDigit_or_eq_point _ hmem with hdigit | heq
      · exact absurd hdigit (by decide)
      · exact absurd heq (by decide)
    rcases h with h | ⟨body, rfl, h⟩
    · exact hdecimal h
    · exact List.not_mem_cons_of_ne_of_not_mem (by decide) (hdecimal h)
  | relation r => cases r <;> decide
  | opening => decide
  | closing => decide
  | keyword k => exact (isWord_spelling k).space_not_mem
  | name path => exact h.1.space_not_mem

/-- A symbol that begins with a quote is a quoted text, with that quote: the other patterns begin
with other characters. -/
theorem Matches.exists_eq_quoted {s : Symbol} (h : s.Matches) {quote : Char} {tail : List Char}
    (hsource : s.source = quote :: tail) (hquote : quote = '"' ∨ quote = '\x27') :
    ∃ content, s = .quoted quote content := by
  have hword {cs : List Char} (h : IsWord cs) : cs ≠ quote :: tail := by
    obtain ⟨c, rest, rfl, hc, -⟩ := h
    intro heq
    obtain ⟨rfl, -⟩ := List.cons.inj heq
    rcases hquote with rfl | rfl <;> exact absurd hc (by decide)
  cases s with
  | quoted quote' content =>
    obtain ⟨rfl, -⟩ := List.cons.inj hsource
    exact ⟨content, rfl⟩
  | numeral digits =>
    obtain ⟨c, rest, rfl, hc⟩ := exists_cons_of_matches_numeral h
    obtain ⟨rfl, -⟩ := List.cons.inj hsource
    rcases hquote with rfl | rfl <;> exact absurd hc (by decide)
  | relation r =>
    rcases hquote with rfl | rfl <;> cases r <;> cases hsource
  | opening => rcases hquote with rfl | rfl <;> cases hsource
  | closing => rcases hquote with rfl | rfl <;> cases hsource
  | keyword k => exact absurd hsource (hword (isWord_spelling k))
  | name path => exact absurd hsource (hword h.1)

/-- **A symbol is the longest one before a space or the end.** A longer one would hold the space and
so be a quoted text, which is read up to its own second quote and no further. -/
theorem Matches.isNext {s : Symbol} (h : s.Matches) {rest : List Char}
    (hrest : ∀ c, rest.head? = some c → c = ' ') : s.IsNext (s.source ++ rest) rest := by
  refine ⟨⟨rfl, h, ?_⟩, fun t rest' ht => Nat.le_of_not_lt fun hlonger => ?_⟩
  · cases s with
    | numeral digits =>
      rcases rest with - | ⟨c, rest⟩
      · rfl
      · obtain rfl := hrest c rfl
        rfl
    | _ => trivial
  · have hsource := ht.source
    obtain ⟨mid, hmid, rfl⟩ : ∃ mid, t.source = s.source ++ mid ∧ rest = mid ++ rest' := by
      rcases List.append_eq_append_iff.1 hsource with ⟨mid, -, rfl⟩ | ⟨mid, hmid, hrest'⟩
      · simp at hlonger
      · exact ⟨mid, hmid, hrest'⟩
    obtain ⟨mid, rfl⟩ : ∃ more, mid = ' ' :: more := by
      rcases mid with - | ⟨c, mid⟩
      · exact absurd hlonger (Nat.lt_irrefl _)
      · obtain rfl := hrest c rfl
        exact ⟨mid, rfl⟩
    -- Only a quoted text could go on over the space, and it would have ended before.
    obtain ⟨quote, content, rfl⟩ : ∃ quote content, t = .quoted quote content := by
      by_contra hnone
      refine ht.pattern.space_not_mem (fun quote content heq => hnone ⟨_, _, heq⟩) ?_
      rw [hmid]
      exact List.mem_append_right _ List.mem_cons_self
    obtain ⟨hquote, hcontent⟩ := ht.pattern
    rcases hs : s.source with - | ⟨c, tail⟩
    · rw [hs] at hmid
      obtain ⟨rfl, -⟩ := List.cons.inj hmid
      exact absurd hquote (by decide)
    · rw [hs] at hmid
      obtain ⟨rfl, -⟩ := List.cons.inj hmid
      obtain ⟨content', rfl⟩ := h.exists_eq_quoted hs hquote
      obtain ⟨-, rfl⟩ := List.cons.inj hs
      have hbody : content ++ [quote] = content' ++ [quote] ++ ' ' :: mid := (List.cons.inj hmid).2
      rw [List.append_assoc] at hbody
      have hends : quotedBody? quote (content ++ [quote]) = some (content, []) :=
        quotedBody?_eq_some_iff.2 ⟨rfl, hcontent⟩
      rw [hbody, List.singleton_append, quotedBody?_eq_some_iff.2 ⟨rfl, h.2⟩] at hends
      cases hends

end Symbol

/-- **Symbols that follow their patterns are split at the spaces between them.** Recursion along the
symbols; each is the next one by `Matches.isNext`, and the space behind it is skipped. -/
theorem splits_spaced : ∀ {symbols : List Symbol}, (∀ s ∈ symbols, s.Matches) →
    Splits (spaced symbols) symbols
  | [], _ => .nil
  | [s], h => by
    have hnext : s.IsNext (s.source ++ []) [] :=
      (h s List.mem_cons_self).isNext (by rintro c ⟨⟩)
    rw [List.append_nil] at hnext
    exact .symbol hnext .nil
  | s :: t :: rest, h => by
    have hspace : Splits (' ' :: spaced (t :: rest)) (t :: rest) :=
      .blank (by decide) (splits_spaced fun s hs => h s (List.mem_cons_of_mem _ hs))
    refine .symbol ((h s List.mem_cons_self).isNext ?_) hspace
    rintro c ⟨⟩
    rfl

/-! ### One more operand of a run -/

namespace Derivation

/-- One more operand at the end of a run of disjuncts. A derivation holds a run from left to right,
while the expression of a run leans to the left, so the last operand comes in at the end. -/
def addDisjunct : Derivation .moreDisjuncts → Derivation .conjunction → Derivation .moreDisjuncts
  | noDisjunct, last => orElse last noDisjunct
  | orElse next more, last => orElse next (addDisjunct more last)

/-- One more operand at the end of a run of conjuncts, as in `addDisjunct`. -/
def addConjunct : Derivation .moreConjuncts → Derivation .negation → Derivation .moreConjuncts
  | noConjunct, last => andAlso last noConjunct
  | andAlso next more, last => andAlso next (addConjunct more last)

/-- The symbols of a longer run of disjuncts are those of the run, the keyword, and those of the
operand. -/
theorem symbols_addDisjunct : ∀ (more : Derivation .moreDisjuncts)
    (last : Derivation .conjunction),
    (more.addDisjunct last).symbols = more.symbols ++ .keyword .or :: last.symbols
  | noDisjunct, _ => by simp [addDisjunct, symbols]
  | orElse _ more, last => by simp [addDisjunct, symbols, symbols_addDisjunct more last]

/-- The expression of a longer run of disjuncts joins the operand to that of the run. -/
theorem expr_addDisjunct : ∀ (more : Derivation .moreDisjuncts) (last : Derivation .conjunction)
    (left : Expr), (more.addDisjunct last).expr left = .or (more.expr left) last.expr
  | noDisjunct, last, _ => by
    rw [addDisjunct]
    rfl
  | orElse _ more, last, _ => by
    rw [addDisjunct]
    exact expr_addDisjunct more last _

/-- The depth of a longer run of disjuncts is the greater of the two depths. -/
theorem depth_addDisjunct : ∀ (more : Derivation .moreDisjuncts)
    (last : Derivation .conjunction),
    (more.addDisjunct last).depth = max more.depth last.depth
  | noDisjunct, last => by
    rw [addDisjunct]
    exact Nat.max_comm _ _
  | orElse next more, last => by
    rw [addDisjunct, depth, depth, depth_addDisjunct more last, Nat.max_assoc]

/-- The symbols of a longer run of conjuncts, as in `symbols_addDisjunct`. -/
theorem symbols_addConjunct : ∀ (more : Derivation .moreConjuncts) (last : Derivation .negation),
    (more.addConjunct last).symbols = more.symbols ++ .keyword .and :: last.symbols
  | noConjunct, _ => by simp [addConjunct, symbols]
  | andAlso _ more, last => by simp [addConjunct, symbols, symbols_addConjunct more last]

/-- The expression of a longer run of conjuncts, as in `expr_addDisjunct`. -/
theorem expr_addConjunct : ∀ (more : Derivation .moreConjuncts) (last : Derivation .negation)
    (left : Expr), (more.addConjunct last).expr left = .and (more.expr left) last.expr
  | noConjunct, last, _ => by
    rw [addConjunct]
    rfl
  | andAlso _ more, last, _ => by
    rw [addConjunct]
    exact expr_addConjunct more last _

/-- The depth of a longer run of conjuncts, as in `depth_addDisjunct`. -/
theorem depth_addConjunct : ∀ (more : Derivation .moreConjuncts) (last : Derivation .negation),
    (more.addConjunct last).depth = max more.depth last.depth
  | noConjunct, last => by
    rw [addConjunct]
    exact Nat.max_comm _ _
  | andAlso next more, last => by
    rw [addConjunct, depth, depth, depth_addConjunct more last, Nat.max_assoc]

end Derivation

/-! ### What is written is read -/

/-- The symbols are derived from a nonterminal with a given meaning, and parentheses and negations
nest exactly `depth` deep in them. The rules below build such derivations up, one for each place
where an expression can stand. -/
def HasDerivation (n : Level) (meaning : n.Meaning) (symbols : List Symbol) (depth : Nat) : Prop :=
  ∃ d : Derivation n, d.symbols = symbols ∧ d.expr = meaning ∧ d.depth = depth

namespace HasDerivation

variable {e left right : Expr} {symbols symbols' : List Symbol} {depth depth' : Nat}

theorem comparison (h : HasDerivation .operand e symbols depth) :
    HasDerivation .comparison e symbols depth := by
  obtain ⟨d, rfl, rfl, rfl⟩ := h
  exact ⟨.alone d, rfl, rfl, rfl⟩

theorem negation (h : HasDerivation .comparison e symbols depth) :
    HasDerivation .negation e symbols depth := by
  obtain ⟨d, rfl, rfl, rfl⟩ := h
  exact ⟨.plain d, rfl, rfl, rfl⟩

/-- A negation alone is a conjunction, with no conjuncts behind it. -/
theorem conjunction (h : HasDerivation .negation e symbols depth) :
    HasDerivation .conjunction e symbols depth := by
  obtain ⟨d, rfl, rfl, rfl⟩ := h
  exact ⟨.conjunction d .noConjunct, List.append_nil _, rfl, Nat.max_zero _⟩

/-- A conjunction alone is a disjunction, with no disjuncts behind it. -/
theorem disjunction (h : HasDerivation .conjunction e symbols depth) :
    HasDerivation .disjunction e symbols depth := by
  obtain ⟨d, rfl, rfl, rfl⟩ := h
  exact ⟨.disjunction d .noDisjunct, List.append_nil _, rfl, Nat.max_zero _⟩

/-- A disjunction in parentheses is an operand, nested one deeper. -/
theorem group (h : HasDerivation .disjunction e symbols depth) :
    HasDerivation .operand e (.opening :: (symbols ++ [.closing])) (depth + 1) := by
  obtain ⟨d, rfl, rfl, rfl⟩ := h
  exact ⟨.group d, rfl, rfl, rfl⟩

/-- A negation is negated by its keyword, nested one deeper. -/
theorem not (h : HasDerivation .negation e symbols depth) :
    HasDerivation .negation (.not e) (.keyword .not :: symbols) (depth + 1) := by
  obtain ⟨d, rfl, rfl, rfl⟩ := h
  exact ⟨.not d, rfl, rfl, rfl⟩

/-- Two operands with a relation between them are a comparison. -/
theorem compare (r : Relation) (hleft : HasDerivation .operand left symbols depth)
    (hright : HasDerivation .operand right symbols' depth') :
    HasDerivation .comparison (.compare r left right) (symbols ++ .relation r :: symbols')
      (max depth depth') := by
  obtain ⟨d, rfl, rfl, rfl⟩ := hleft
  obtain ⟨d', rfl, rfl, rfl⟩ := hright
  exact ⟨.compare d r d', rfl, rfl, rfl⟩

/-- A conjunction goes on with one more operand at its end, by `Derivation.addConjunct`. -/
theorem and (hleft : HasDerivation .conjunction left symbols depth)
    (hright : HasDerivation .negation right symbols' depth') :
    HasDerivation .conjunction (.and left right) (symbols ++ .keyword .and :: symbols')
      (max depth depth') := by
  obtain ⟨last, rfl, rfl, rfl⟩ := hright
  obtain ⟨d, rfl, rfl, rfl⟩ := hleft
  cases d with
  | conjunction first more =>
    refine ⟨.conjunction first (more.addConjunct last), ?_, more.expr_addConjunct last _, ?_⟩
    · rw [Derivation.symbols, Derivation.symbols, more.symbols_addConjunct, List.append_assoc]
    · rw [Derivation.depth, Derivation.depth, more.depth_addConjunct, Nat.max_assoc]

/-- A disjunction goes on with one more operand at its end, by `Derivation.addDisjunct`. -/
theorem or (hleft : HasDerivation .disjunction left symbols depth)
    (hright : HasDerivation .conjunction right symbols' depth') :
    HasDerivation .disjunction (.or left right) (symbols ++ .keyword .or :: symbols')
      (max depth depth') := by
  obtain ⟨last, rfl, rfl, rfl⟩ := hright
  obtain ⟨d, rfl, rfl, rfl⟩ := hleft
  cases d with
  | disjunction first more =>
    refine ⟨.disjunction first (more.addDisjunct last), ?_, more.expr_addDisjunct last _, ?_⟩
    · rw [Derivation.symbols, Derivation.symbols, more.symbols_addDisjunct, List.append_assoc]
    · rw [Derivation.depth, Derivation.depth, more.depth_addDisjunct, Nat.max_assoc]

end HasDerivation

/-- What is written for an expression, in parentheses where they are needed (`Expr.enclose`), is
derived from each nonterminal that an operand is derived from, and nests as deep as `Expr.deepen`
says. This is what the induction of `Expr.IsPrintable.isWritten` carries. -/
structure Expr.IsWritten (e : Expr) : Prop where
  operand : HasDerivation .operand e (e.enclose .operand e.symbols) (e.deepen .operand e.nesting)
  negation : HasDerivation .negation e (e.enclose .negation e.symbols)
    (e.deepen .negation e.nesting)
  conjunction : HasDerivation .conjunction e (e.enclose .conjunction e.symbols)
    (e.deepen .conjunction e.nesting)
  disjunction : HasDerivation .disjunction e (e.enclose .disjunction e.symbols)
    (e.deepen .disjunction e.nesting)

namespace Expr.IsWritten

variable {e : Expr}

/-- Whether an expression is enclosed depends only on how tightly it holds together; this decides
the four fields of `Expr.IsWritten` in the lemmas below. -/
theorem isEnclosed_of_binding {m : Level} (hlevel : e.level.binding = m.binding) (n : Level) :
    e.isEnclosed n = decide (m.binding < n.binding) := by
  rw [isEnclosed, hlevel]

/-- What is derived as an operand needs no parentheses anywhere. -/
theorem of_operand (hlevel : e.level.binding = Level.operand.binding)
    (h : HasDerivation .operand e e.symbols e.nesting) : e.IsWritten := by
  constructor <;> simp only [enclose, deepen, isEnclosed_of_binding hlevel, Level.binding,
    Nat.reduceLT, decide_false, Bool.false_eq_true, if_false]
  · exact h
  · exact h.comparison.negation
  · exact h.comparison.negation.conjunction
  · exact h.comparison.negation.conjunction.disjunction

/-- What is derived as a negation stands in parentheses as an operand, and nowhere else. -/
theorem of_negation (hlevel : e.level.binding = Level.negation.binding)
    (h : HasDerivation .negation e e.symbols e.nesting) : e.IsWritten := by
  constructor <;> simp only [enclose, deepen, isEnclosed_of_binding hlevel, Level.binding,
    Nat.reduceLT, decide_true, decide_false, Bool.false_eq_true, if_true, if_false]
  · exact h.conjunction.disjunction.group
  · exact h
  · exact h.conjunction
  · exact h.conjunction.disjunction

/-- What is derived as a conjunction stands in parentheses as an operand and as a negation. -/
theorem of_conjunction (hlevel : e.level.binding = Level.conjunction.binding)
    (h : HasDerivation .conjunction e e.symbols e.nesting) : e.IsWritten := by
  constructor <;> simp only [enclose, deepen, isEnclosed_of_binding hlevel, Level.binding,
    Nat.reduceLT, decide_true, decide_false, Bool.false_eq_true, if_true, if_false]
  · exact h.disjunction.group
  · exact h.disjunction.group.comparison.negation
  · exact h
  · exact h.disjunction

/-- What is derived as a disjunction stands in parentheses everywhere but as a disjunction. -/
theorem of_disjunction (hlevel : e.level.binding = Level.disjunction.binding)
    (h : HasDerivation .disjunction e e.symbols e.nesting) : e.IsWritten := by
  constructor <;> simp only [enclose, deepen, isEnclosed_of_binding hlevel, Level.binding,
    Nat.reduceLT, decide_true, decide_false, Bool.false_eq_true, if_true, if_false]
  · exact h.group
  · exact h.group.comparison.negation
  · exact h.group.comparison.negation.conjunction
  · exact h

end Expr.IsWritten

/-- A printable literal has a derivation: its symbol is read as the literal. -/
theorem hasDerivation_literal {l : Scalar} (h : IsPrintableLiteral l) :
    HasDerivation .operand (.literal l) [literalSymbol l] 0 := by
  cases l with
  | bool b => exact ⟨.truth b, rfl, rfl, rfl⟩
  | number n =>
    cases n with
    | int i => exact ⟨.numeral _ _ (numeralLiteral_integerText h), rfl, rfl, rfl⟩
    | binary x => exact absurd h id
  | text s =>
    refine ⟨.quoted (if '"' ∈ s.toList then '\x27' else '"') s.toList, rfl, ?_, rfl⟩
    rw [Derivation.expr, String.ofList_toList]

/-- **What is written for a printable expression is derived wherever it may stand.** Structural
induction: each constructor is derived from its own nonterminal, from its operands where these may
stand there, and one of the four lemmas above encloses it for the others. -/
theorem Expr.IsPrintable.isWritten {e : Expr} (h : e.IsPrintable) : e.IsWritten := by
  induction e with
  | literal l => exact .of_operand rfl (hasDerivation_literal h)
  | path p =>
    exact .of_operand rfl ⟨.path p.toList, rfl, by rw [Derivation.expr, String.ofList_toList], rfl⟩
  | not e ih => exact .of_negation rfl (ih h).negation.not
  | and left right ihl ihr =>
    exact .of_conjunction rfl ((ihl h.1).conjunction.and (ihr h.2).negation)
  | or left right ihl ihr =>
    exact .of_disjunction rfl ((ihl h.1).disjunction.or (ihr h.2).conjunction)
  | compare r left right ihl ihr =>
    exact .of_negation rfl ((ihl h.1).operand.compare r (ihr h.2).operand).negation

/-- The symbol of a printable literal follows its pattern. -/
theorem matches_literalSymbol {l : Scalar} (h : IsPrintableLiteral l) :
    (literalSymbol l).Matches := by
  cases l with
  | bool b => trivial
  | number n =>
    cases n with
    | int i => exact matches_integerText h
    | binary x => exact absurd h id
  | text s =>
    rw [literalSymbol]
    split
    · rename_i hdouble
      exact ⟨.inr rfl, fun hsingle => h ⟨hdouble, hsingle⟩⟩
    · rename_i hdouble
      exact ⟨.inl rfl, hdouble⟩

/-- The symbols of a printable expression follow their patterns, parentheses, keywords and relations
among them. Structural induction. -/
theorem Expr.IsPrintable.matches {e : Expr} (h : e.IsPrintable) : ∀ s ∈ e.symbols, s.Matches := by
  have henclosed {e : Expr} (n : Level) (h : ∀ s ∈ e.symbols, s.Matches) :
      ∀ s ∈ e.enclose n e.symbols, s.Matches := by
    rw [enclose]
    split
    · rw [List.forall_mem_cons, List.forall_mem_append, List.forall_mem_singleton]
      exact ⟨trivial, h, trivial⟩
    · exact h
  induction e with
  | literal l => exact List.forall_mem_singleton.2 (matches_literalSymbol h)
  | path p => exact List.forall_mem_singleton.2 h
  | not e ih => exact List.forall_mem_cons.2 ⟨trivial, henclosed _ (ih h)⟩
  | and left right ihl ihr =>
    exact List.forall_mem_append.2 ⟨henclosed _ (ihl h.1),
      List.forall_mem_cons.2 ⟨trivial, henclosed _ (ihr h.2)⟩⟩
  | or left right ihl ihr =>
    exact List.forall_mem_append.2 ⟨henclosed _ (ihl h.1),
      List.forall_mem_cons.2 ⟨trivial, henclosed _ (ihr h.2)⟩⟩
  | compare r left right ihl ihr =>
    exact List.forall_mem_append.2 ⟨henclosed _ (ihl h.1),
      List.forall_mem_cons.2 ⟨trivial, henclosed _ (ihr h.2)⟩⟩

/-- **What is written for an expression is read back**, unless it nests too deeply. Its text splits
into its symbols (`splits_spaced`), these have a derivation that stands for the expression
(`Expr.IsPrintable.isWritten`), and a derivation is what reading finds (`parse_eq_ok_iff`). -/
theorem parse_source {e : Expr} (h : e.IsPrintable) (hnesting : e.nesting ≤ maxNesting) :
    parse e.source = .ok e := by
  obtain ⟨d, hsymbols, hexpr, hdepth⟩ := h.isWritten.disjunction
  have henclosed : e.isEnclosed .disjunction = false := by
    rw [Expr.isEnclosed, decide_eq_false_iff_not]
    exact Nat.not_lt_zero _
  simp only [Expr.enclose, Expr.deepen, henclosed, Bool.false_eq_true, if_false] at hsymbols hdepth
  refine parse_eq_ok_iff.2 ⟨d, ⟨?_, hdepth ▸ hnesting⟩, hexpr⟩
  rw [Expr.source, String.toList_ofList, hsymbols]
  exact splits_spaced h.matches

/-- Parentheses stand around a disjunction that is negated, a conjunction on the right of another
one and a negation that is compared. -/
theorem parse_source_mixed_connectives : ∃ e : Expr,
    e = .and (.not (.or (.path "a") (.path "b.c")))
        (.and (.compare .less (.literal (.number (.int (-1)))) (.not (.literal (.bool true))))
          (.literal (.text "it\x27s")))
      ∧ e.source = "not ( a or b.c ) and ( -1 < ( not true ) and \"it\x27s\" )"
      ∧ parse e.source = .ok e := by
  refine ⟨_, rfl, by decide +kernel, parse_source ⟨⟨?_, ?_⟩, ⟨?_, trivial⟩, ?_⟩ ?_⟩
  · exact ⟨⟨'a', [], by decide, by decide, .nil⟩, fun k => by cases k <;> decide⟩
  · exact ⟨⟨'b', ['.', 'c'], by decide, by decide, .point (by decide) .nil⟩,
      fun k => by cases k <;> decide⟩
  · show (1 : Nat).repr.length ≤ Numeral.maxIntegerDigits
    decide +kernel
  · show ¬('"' ∈ "it\x27s".toList ∧ '\x27' ∈ "it\x27s".toList)
    decide +kernel
  · decide +kernel

end Templating.Guard
