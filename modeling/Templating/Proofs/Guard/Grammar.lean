import Templating.Guard.Parse

/-!
# The grammar of guards

A guard is a disjunction of conjunctions of negations of comparisons of operands:

    disjunction ::= conjunction ("or" conjunction)*
    conjunction ::= negation ("and" negation)*
    negation    ::= "not" negation | comparison
    comparison  ::= operand (relation operand)?
    operand     ::= quoted text | number | "true" | "false" | path | "(" disjunction ")"

A derivation is a tree of these rules. It has the sequence of symbols that it derives, the
expression that it stands for, in which a run of one connective leans to the left, and a depth:
how many parentheses and negations stand around its innermost symbols.

## Main definitions

* `Derivation`: the derivations, for each nonterminal of the grammar.
* `Derivation.symbols`, `Derivation.expr`, `Derivation.depth`: what a derivation has.
* `Derivation.IsDetermined`: the symbols of a derivation tell it and where it ends.

## Main results

* `Derivation.IsDetermined.sequence`: two parts that are read one after the other are determined.
* `Derivation.append_inj`: no sequence of symbols goes on as another one of the same nonterminal.
* `Derivation.eq_of_symbols_eq`: a sequence of symbols has one derivation at most.
-/

namespace Templating.Guard

/-! ### Derivations -/

/-- The nonterminals. Two of them, `moreDisjuncts` and `moreConjuncts`, stand for what may be
repeated in a run of one connective. -/
inductive Level where
  | disjunction
  | moreDisjuncts
  | conjunction
  | moreConjuncts
  | negation
  | comparison
  | operand

/-- The derivations of a nonterminal. A number is derived with the literal that it denotes. -/
inductive Derivation : Level → Type where
  | disjunction (first : Derivation .conjunction) (more : Derivation .moreDisjuncts) :
      Derivation .disjunction
  | noDisjunct : Derivation .moreDisjuncts
  | orElse (next : Derivation .conjunction) (more : Derivation .moreDisjuncts) :
      Derivation .moreDisjuncts
  | conjunction (first : Derivation .negation) (more : Derivation .moreConjuncts) :
      Derivation .conjunction
  | noConjunct : Derivation .moreConjuncts
  | andAlso (next : Derivation .negation) (more : Derivation .moreConjuncts) :
      Derivation .moreConjuncts
  | not (negated : Derivation .negation) : Derivation .negation
  | plain (compared : Derivation .comparison) : Derivation .negation
  | alone (single : Derivation .operand) : Derivation .comparison
  | compare (left : Derivation .operand) (r : Relation) (right : Derivation .operand) :
      Derivation .comparison
  | quoted (quote : Char) (content : List Char) : Derivation .operand
  | numeral (digits : List Char) (l : Scalar) (h : numeralLiteral digits = .ok l) :
      Derivation .operand
  | truth (b : Bool) : Derivation .operand
  | path (p : List Char) : Derivation .operand
  | group (inner : Derivation .disjunction) : Derivation .operand

/-- What the derivations of a nonterminal stand for: an expression, or, for `moreDisjuncts` and
`moreConjuncts`, how the rest of a run joins further operands to the expression on its left. -/
abbrev Level.Meaning : Level → Type
  | moreDisjuncts => Expr → Expr
  | moreConjuncts => Expr → Expr
  | _ => Expr

namespace Derivation

/-- The symbols that a derivation derives, from left to right. -/
def symbols : {n : Level} → Derivation n → List Symbol
  | _, disjunction first more => first.symbols ++ more.symbols
  | _, noDisjunct => []
  | _, orElse next more => .keyword .or :: (next.symbols ++ more.symbols)
  | _, conjunction first more => first.symbols ++ more.symbols
  | _, noConjunct => []
  | _, andAlso next more => .keyword .and :: (next.symbols ++ more.symbols)
  | _, not negated => .keyword .not :: negated.symbols
  | _, plain compared => compared.symbols
  | _, alone single => single.symbols
  | _, compare left r right => left.symbols ++ .relation r :: right.symbols
  | _, quoted quote content => [.quoted quote content]
  | _, numeral digits _ _ => [.numeral digits]
  | _, truth b => [.keyword (if b then .true else .false)]
  | _, path p => [.name p]
  | _, group inner => .opening :: (inner.symbols ++ [.closing])

/-- The expression that a derivation stands for. The rest of a run takes the expression to its left
as an argument, so that a run of one connective leans to the left. -/
def expr : {n : Level} → Derivation n → n.Meaning
  | _, disjunction first more => more.expr first.expr
  | _, noDisjunct => fun left => left
  | _, orElse next more => fun left => more.expr (.or left next.expr)
  | _, conjunction first more => more.expr first.expr
  | _, noConjunct => fun left => left
  | _, andAlso next more => fun left => more.expr (.and left next.expr)
  | _, not negated => .not negated.expr
  | _, plain compared => compared.expr
  | _, alone single => single.expr
  | _, compare left r right => .compare r left.expr right.expr
  | _, quoted _ content => .literal (.text (String.ofList content))
  | _, numeral _ l _ => .literal l
  | _, truth b => .literal (.bool b)
  | _, path p => .path (String.ofList p)
  | _, group inner => inner.expr

/-- How many parentheses and negations stand around the innermost symbols: `not` and `group` add one
each, and no other rule adds any. -/
def depth : {n : Level} → Derivation n → Nat
  | _, disjunction first more => max first.depth more.depth
  | _, noDisjunct => 0
  | _, orElse next more => max next.depth more.depth
  | _, conjunction first more => max first.depth more.depth
  | _, noConjunct => 0
  | _, andAlso next more => max next.depth more.depth
  | _, not negated => negated.depth + 1
  | _, plain compared => compared.depth
  | _, alone single => single.depth
  | _, compare left _ right => max left.depth right.depth
  | _, quoted _ _ => 0
  | _, numeral _ _ _ => 0
  | _, truth _ => 0
  | _, path _ => 0
  | _, group inner => inner.depth + 1

end Derivation

/-! ### Where a nonterminal ends -/

/-- How tightly what a nonterminal derives holds together. A symbol carries it on if it binds at
least as tightly (`Symbol.binding?`). -/
def Level.binding : Level → Nat
  | disjunction => 0
  | moreDisjuncts => 0
  | conjunction => 1
  | moreConjuncts => 1
  | negation => 2
  | comparison => 2
  | operand => 3

/-- How tightly a symbol binds what stands on its two sides, if it joins them. -/
def Symbol.binding? : Symbol → Option Nat
  | keyword .or => some 0
  | keyword .and => some 1
  | relation _ => some 2
  | _ => none

/-- What follows does not begin with a symbol that could carry on what the nonterminal derives. -/
def Level.EndsBefore (n : Level) (rest : List Symbol) : Prop :=
  ∀ s, rest.head? = some s → ∀ b, s.binding? = some b → b < n.binding

theorem Level.endsBefore_nil (n : Level) : n.EndsBefore [] := by
  rintro s ⟨⟩

/-- Whether a nonterminal ends before a sequence depends on the first symbol alone. -/
theorem Level.endsBefore_cons {n : Level} {s : Symbol}
    (h : ∀ b, s.binding? = some b → b < n.binding) (rest : List Symbol) :
    n.EndsBefore (s :: rest) := by
  rintro t ⟨⟩
  exact h

/-- An operand ends before whatever follows, because no symbol binds more tightly than a
relation. -/
theorem Level.endsBefore_operand (rest : List Symbol) : operand.EndsBefore rest := by
  intro s _ b hb
  cases s with
  | keyword k => cases k <;> cases hb <;> decide
  | relation r => cases hb; decide
  | _ => cases hb

/-- A symbol that could carry a nonterminal on does not follow where the nonterminal ends. -/
theorem Level.EndsBefore.ne {n : Level} {s t : Symbol} {rest : List Symbol}
    (h : n.EndsBefore (s :: rest)) (ht : t.binding? = some n.binding) : s ≠ t := by
  rintro rfl
  exact absurd (h _ rfl _ ht) (Nat.lt_irrefl _)

/-- What ends a nonterminal also ends one that holds together more tightly, by `Level.binding`. -/
theorem Level.EndsBefore.mono {m n : Level} {rest : List Symbol} (h : m.EndsBefore rest)
    (hle : m.binding ≤ n.binding) : n.EndsBefore rest :=
  fun s hs b hb => Nat.lt_of_lt_of_le (h s hs b hb) hle

namespace Derivation

/-- Behind the first operand of a disjunction no conjunction goes on. -/
theorem endsBefore_conjunction (more : Derivation .moreDisjuncts) {rest : List Symbol}
    (h : Level.moreDisjuncts.EndsBefore rest) :
    Level.conjunction.EndsBefore (more.symbols ++ rest) := by
  cases more with
  | noDisjunct => exact h.mono (by decide)
  | orElse next more => exact Level.endsBefore_cons (by rintro b ⟨⟩; decide) _

/-- Behind the first operand of a conjunction no negation goes on. -/
theorem endsBefore_negation (more : Derivation .moreConjuncts) {rest : List Symbol}
    (h : Level.moreConjuncts.EndsBefore rest) :
    Level.negation.EndsBefore (more.symbols ++ rest) := by
  cases more with
  | noConjunct => exact h.mono (by decide)
  | andAlso next more => exact Level.endsBefore_cons (by rintro b ⟨⟩; decide) _

/-- An operand begins with a symbol other than a negation. -/
theorem exists_cons_symbols_operand (d : Derivation .operand) :
    ∃ s rest, d.symbols = s :: rest ∧ s ≠ .keyword .not := by
  cases d with
  | truth b => cases b <;> exact ⟨_, [], rfl, by simp⟩
  | group inner => exact ⟨.opening, _, rfl, by simp⟩
  | quoted quote content => exact ⟨_, [], rfl, by simp⟩
  | numeral digits l h => exact ⟨_, [], rfl, by simp⟩
  | path p => exact ⟨_, [], rfl, by simp⟩

/-- A comparison begins with a symbol other than a negation. -/
theorem exists_cons_symbols_comparison (d : Derivation .comparison) :
    ∃ s rest, d.symbols = s :: rest ∧ s ≠ .keyword .not := by
  cases d with
  | alone single => exact single.exists_cons_symbols_operand
  | compare left r right =>
    obtain ⟨s, rest, hleft, hs⟩ := left.exists_cons_symbols_operand
    exact ⟨s, rest ++ .relation r :: right.symbols, by rw [symbols, hleft]; rfl, hs⟩

/-- A comparison does not derive what a negation derives: the first symbol tells the two apart, by
`exists_cons_symbols_comparison`. -/
theorem symbols_not_append_ne (negated : Derivation .negation) (compared : Derivation .comparison)
    (rest rest' : List Symbol) : (not negated).symbols ++ rest ≠ compared.symbols ++ rest' := by
  obtain ⟨s, tail, hsymbols, hs⟩ := compared.exists_cons_symbols_comparison
  rw [hsymbols]
  intro h
  exact hs (List.cons.inj h).1.symm

/-! ### Derivations are unique -/

/-- The symbols of a derivation tell the derivation and where it ends, unless what follows could
carry it on (`Level.EndsBefore`). This is what the induction for `append_inj` carries from the
parts of a derivation to the whole. -/
def IsDetermined {n : Level} (d : Derivation n) : Prop :=
  ∀ (d' : Derivation n) {rest rest' : List Symbol}, n.EndsBefore rest → n.EndsBefore rest' →
    d.symbols ++ rest = d'.symbols ++ rest' → d = d' ∧ rest = rest'

namespace IsDetermined

/-- **Two parts, one after the other.** The first part tells where it ends, since it ends before
whatever the second nonterminal derives (`hends`), and what is left there tells the second part.
Both connectives have this shape, in the first operand and in every later one. -/
theorem sequence {m n : Level} {first first' : Derivation m} {more more' : Derivation n}
    {rest rest' : List Symbol} (hfirst : first.IsDetermined) (hmore : more.IsDetermined)
    (hends : ∀ (more : Derivation n) {rest}, n.EndsBefore rest →
      m.EndsBefore (more.symbols ++ rest))
    (hrest : n.EndsBefore rest) (hrest' : n.EndsBefore rest')
    (h : (first.symbols ++ more.symbols) ++ rest = (first'.symbols ++ more'.symbols) ++ rest') :
    first = first' ∧ more = more' ∧ rest = rest' := by
  rw [List.append_assoc, List.append_assoc] at h
  obtain ⟨rfl, hbehind⟩ := hfirst first' (hends more hrest) (hends more' hrest') h
  obtain ⟨rfl, rfl⟩ := hmore more' hrest hrest' hbehind
  exact ⟨rfl, rfl, rfl⟩

/-- An operand alone is not the left side of a comparison: in `compare` a relation follows, which
could carry `alone` on. -/
theorem alone {single : Derivation .operand} (hsingle : single.IsDetermined) :
    (alone single).IsDetermined := by
  intro d' rest rest' hrest hrest' h
  cases d' with
  | alone single' =>
    obtain ⟨rfl, rfl⟩ :=
      hsingle single' (Level.endsBefore_operand _) (Level.endsBefore_operand _) h
    exact ⟨rfl, rfl⟩
  | compare left' r' right' =>
    rw [symbols, symbols, List.append_assoc] at h
    obtain ⟨-, rfl⟩ := hsingle left' (Level.endsBefore_operand _) (Level.endsBefore_operand _) h
    exact absurd rfl (hrest.ne (t := .relation r') rfl)

/-- A comparison tells its two operands and the relation between them. -/
theorem compare {left right : Derivation .operand} (r : Relation) (hleft : left.IsDetermined)
    (hright : right.IsDetermined) : (compare left r right).IsDetermined := by
  intro d' rest rest' hrest hrest' h
  cases d' with
  | alone single' =>
    rw [symbols, symbols, List.append_assoc] at h
    obtain ⟨-, rfl⟩ := hleft single' (Level.endsBefore_operand _) (Level.endsBefore_operand _) h
    exact absurd rfl (hrest'.ne (t := .relation r) rfl)
  | compare left' r' right' =>
    rw [symbols, symbols, List.append_assoc, List.append_assoc] at h
    obtain ⟨rfl, hjoined⟩ :=
      hleft left' (Level.endsBefore_operand _) (Level.endsBefore_operand _) h
    obtain ⟨hr, hbehind⟩ := List.cons.inj hjoined
    obtain rfl := Symbol.relation.inj hr
    obtain ⟨rfl, rfl⟩ :=
      hright right' (Level.endsBefore_operand _) (Level.endsBefore_operand _) hbehind
    exact ⟨rfl, rfl⟩

/-- Parentheses tell what they enclose, since nothing goes on over the closing one. -/
theorem group {inner : Derivation .disjunction} (hinner : inner.IsDetermined) :
    (group inner).IsDetermined := by
  intro d' rest rest' _ _ h
  cases d' with
  | group inner' =>
    rw [symbols, symbols, List.cons_append, List.cons_append, List.append_assoc,
      List.append_assoc] at h
    have hclosing (rest : List Symbol) : Level.disjunction.EndsBefore (.closing :: rest) :=
      Level.endsBefore_cons (by rintro b ⟨⟩) rest
    obtain ⟨rfl, houter⟩ := hinner inner' (hclosing _) (hclosing _) (List.cons.inj h).2
    exact ⟨rfl, (List.cons.inj houter).2⟩
  | _ => cases h

end IsDetermined

/-- Every derivation is determined by its symbols. Induction on the derivation, with the other
derivation split by its constructor: the connectives by `IsDetermined.sequence`, a run that ends
against one that goes on by `Level.EndsBefore.ne`. -/
theorem isDetermined {n : Level} (d : Derivation n) : d.IsDetermined := by
  induction d with
  | disjunction first more ihf ihm =>
    intro d' rest rest' hrest hrest' h
    cases d' with
    | disjunction first' more' =>
      obtain ⟨rfl, rfl, rfl⟩ := ihf.sequence ihm endsBefore_conjunction hrest hrest' h
      exact ⟨rfl, rfl⟩
  | noDisjunct =>
    intro d' rest rest' hrest hrest' h
    cases d' with
    | noDisjunct => exact ⟨rfl, h⟩
    | orElse next' more' =>
      subst h
      exact absurd rfl (hrest.ne (t := .keyword .or) rfl)
  | orElse next more ihn ihm =>
    intro d' rest rest' hrest hrest' h
    cases d' with
    | noDisjunct =>
      subst h
      exact absurd rfl (hrest'.ne (t := .keyword .or) rfl)
    | orElse next' more' =>
      obtain ⟨rfl, rfl, rfl⟩ :=
        ihn.sequence ihm endsBefore_conjunction hrest hrest' (List.cons.inj h).2
      exact ⟨rfl, rfl⟩
  | conjunction first more ihf ihm =>
    intro d' rest rest' hrest hrest' h
    cases d' with
    | conjunction first' more' =>
      obtain ⟨rfl, rfl, rfl⟩ := ihf.sequence ihm endsBefore_negation hrest hrest' h
      exact ⟨rfl, rfl⟩
  | noConjunct =>
    intro d' rest rest' hrest hrest' h
    cases d' with
    | noConjunct => exact ⟨rfl, h⟩
    | andAlso next' more' =>
      subst h
      exact absurd rfl (hrest.ne (t := .keyword .and) rfl)
  | andAlso next more ihn ihm =>
    intro d' rest rest' hrest hrest' h
    cases d' with
    | noConjunct =>
      subst h
      exact absurd rfl (hrest'.ne (t := .keyword .and) rfl)
    | andAlso next' more' =>
      obtain ⟨rfl, rfl, rfl⟩ :=
        ihn.sequence ihm endsBefore_negation hrest hrest' (List.cons.inj h).2
      exact ⟨rfl, rfl⟩
  | not negated ih =>
    intro d' rest rest' hrest hrest' h
    cases d' with
    | not negated' =>
      obtain ⟨rfl, rfl⟩ := ih negated' hrest hrest' (List.cons.inj h).2
      exact ⟨rfl, rfl⟩
    | plain compared' => exact absurd h (symbols_not_append_ne _ _ _ _)
  | plain compared ih =>
    intro d' rest rest' hrest hrest' h
    cases d' with
    | not negated' => exact absurd h.symm (symbols_not_append_ne _ _ _ _)
    | plain compared' =>
      obtain ⟨rfl, rfl⟩ := ih compared' hrest hrest' h
      exact ⟨rfl, rfl⟩
  | alone single ih => exact .alone ih
  | compare left r right ihl ihr => exact .compare r ihl ihr
  | quoted quote content =>
    intro d' rest rest' _ _ h
    cases d' <;> cases h
    exact ⟨rfl, rfl⟩
  | numeral digits l hl =>
    intro d' rest rest' _ _ h
    cases d' with
    | numeral digits' l' hl' =>
      -- The literal is a function of the digits, so a derivation of them has no other.
      obtain ⟨hsymbol, rfl⟩ := List.cons.inj h
      obtain rfl := Symbol.numeral.inj hsymbol
      obtain rfl := Except.ok.inj (hl.symm.trans hl')
      exact ⟨rfl, rfl⟩
    | _ => cases h
  | truth b =>
    intro d' rest rest' _ _ h
    cases d' with
    | truth b' =>
      obtain ⟨hsymbol, rfl⟩ := List.cons.inj h
      cases b <;> cases b' <;> cases hsymbol <;> exact ⟨rfl, rfl⟩
    | _ => cases h
  | path p =>
    intro d' rest rest' _ _ h
    cases d' <;> cases h
    exact ⟨rfl, rfl⟩
  | group inner ih => exact .group ih

/-- **Unique splitting.** No sequence of symbols of a nonterminal goes on as another one: the
derivation tells where it ends, unless a symbol follows that could carry it on. -/
theorem append_inj {n : Level} (d d' : Derivation n) {rest rest' : List Symbol}
    (hrest : n.EndsBefore rest) (hrest' : n.EndsBefore rest')
    (h : d.symbols ++ rest = d'.symbols ++ rest') : d = d' ∧ rest = rest' :=
  d.isDetermined d' hrest hrest' h

/-- A sequence of symbols has one derivation at most: `append_inj` with nothing behind either. -/
theorem eq_of_symbols_eq {n : Level} {d d' : Derivation n} (h : d.symbols = d'.symbols) : d = d' :=
  (append_inj d d' n.endsBefore_nil n.endsBefore_nil (congrArg (· ++ []) h)).1

end Derivation

end Templating.Guard
