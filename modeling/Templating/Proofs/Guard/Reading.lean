import Templating.Proofs.Guard.Faults
import Templating.Proofs.Guard.Grammar
import Templating.Proofs.Guard.LongestMatch

/-!
# Reading a guard is deriving it

The readers of a guard go down the rules of its grammar, one reader for a nonterminal. What a
reader returns has a derivation that takes up the lexemes that were read, and a derivation is
read if what follows it cannot carry it on. Since a guard splits into lexemes in one way and the
lexemes have one derivation at most, the expression that is read is the only one there can be.

## Main definitions

* `Reads`: what the reader of a nonterminal returns.
* `Derives`: what the derivations of a nonterminal allow.

## Main results

* `Derivation.reads`: derivations are read.
* `derives_of_readDisjunction`: what is read is derived.
* `parse_eq_ok_iff`: the expressions of a guard are those of its derivations.
* `parse_eq_ok_iff_derivation`: reading a guard is complete, sound and unambiguous.
-/

namespace Templating.Guard

/-! ### The readers of the nonterminals -/

/-- The reader of what stands one level deeper, if there is one: parentheses and negations may nest
no deeper than `depth`. -/
def innerNegation? (endPosition : Nat) : (depth : Nat) → Option Reader
  | 0 => none
  | depth + 1 => some (readNegation endPosition depth)

/-- `readNegation` in terms of the reader one level deeper, the form in which both depths of its
definition are treated alike. -/
theorem readNegation_eq (endPosition depth : Nat) :
    readNegation endPosition depth
      = readNegationOver endPosition (innerNegation? endPosition depth) := by
  cases depth <;> rfl

/-- Reads a conjunction of negations. `readDisjunction` is the chain over it. -/
def readConjunction (endPosition depth : Nat) : Reader :=
  readChain (.keyword .and) .and (readNegation endPosition depth)

/-- The reader of a nonterminal, in which parentheses and negations nest at most `depth` deep,
returns a meaning and a rest of the lexemes. What is left of a run returns a function of the
expression before it. -/
def Reads (endPosition depth : Nat) : (n : Level) → n.Meaning → List Lexeme → List Lexeme → Prop
  | .disjunction, e, lexemes, rest =>
    readDisjunction (readNegation endPosition depth) lexemes = .ok (e, rest)
  | .moreDisjuncts, join, lexemes, rest => ∀ left,
    readRun (.keyword .or) .or (readConjunction endPosition depth) left lexemes
      = .ok (join left, rest)
  | .conjunction, e, lexemes, rest => readConjunction endPosition depth lexemes = .ok (e, rest)
  | .moreConjuncts, join, lexemes, rest => ∀ left,
    readRun (.keyword .and) .and (readNegation endPosition depth) left lexemes
      = .ok (join left, rest)
  | .negation, e, lexemes, rest => readNegation endPosition depth lexemes = .ok (e, rest)
  | .comparison, e, lexemes, rest =>
    readComparison (readOperand endPosition (innerNegation? endPosition depth)) lexemes
      = .ok (e, rest)
  | .operand, e, lexemes, rest =>
    readOperand endPosition (innerNegation? endPosition depth) lexemes = .ok (e, rest)

/-! ### Derivations are read -/

section Complete

variable {connective : Symbol} {joined : Expr → Expr → Expr} {operand : Reader}

/-- A run ends where its connective does not follow. -/
theorem readRun_of_head_ne (left : Expr) {rest : List Lexeme}
    (h : ∀ l more, rest = l :: more → l.symbol ≠ connective) :
    readRun connective joined operand left rest = .ok (left, rest) := by
  cases rest with
  | nil => rw [readRun]
  | cons l more => rw [readRun, if_neg (h l more rfl)]

/-- A run goes on with the operand behind its connective. The operand takes something off the
lexemes, so the run goes on with fewer. -/
theorem readRun_of_operand (left : Expr) {l : Lexeme} {front rest : List Lexeme} {right : Expr}
    (hl : l.symbol = connective) (h : operand (front ++ rest) = .ok (right, rest)) :
    readRun connective joined operand left (l :: (front ++ rest))
      = readRun connective joined operand (joined left right) rest := by
  rw [readRun, if_pos hl, h]
  exact if_pos (by simp)

/-- A chain reads its first operand and then the run behind it. -/
theorem readChain_of_readRun {lexemes rest rest' : List Lexeme} {left e : Expr}
    (h : operand lexemes = .ok (left, rest))
    (hrun : readRun connective joined operand left rest = .ok (e, rest')) :
    readChain connective joined operand lexemes = .ok (e, rest') :=
  bind_eq_ok_iff.2 ⟨_, h, hrun⟩

end Complete

/-- The symbol that ends a nonterminal is not the one that carries it on, put in terms of the
lexemes that the readers look at. -/
theorem Level.EndsBefore.head_ne {n : Level} {s : Symbol} {rest : List Lexeme}
    (h : n.EndsBefore (rest.map (·.symbol))) (hs : s.binding? = some n.binding) :
    ∀ l more, rest = l :: more → l.symbol ≠ s := by
  rintro l more rfl
  exact h.ne hs

/-- A comparison ends behind its first operand where no relation follows. -/
theorem readComparison_of_head_ne {operand : Reader} {lexemes rest : List Lexeme} {e : Expr}
    (h : operand lexemes = .ok (e, rest))
    (hrest : ∀ r l more, rest = l :: more → l.symbol ≠ .relation r) :
    readComparison operand lexemes = .ok (e, rest) := by
  rw [readComparison, bind_eq_ok_iff]
  refine ⟨_, h, ?_⟩
  dsimp only
  split
  · rename_i r position more
    exact absurd rfl (hrest r _ _ rfl)
  · rfl

/-- A negation that does not begin with its keyword is a comparison. -/
theorem readNegationOver_of_head_ne {endPosition : Nat} {inner : Option Reader}
    {lexemes : List Lexeme} (h : ∀ l more, lexemes = l :: more → l.symbol ≠ .keyword .not) :
    readNegationOver endPosition inner lexemes
      = readComparison (readOperand endPosition inner) lexemes := by
  rw [readNegationOver.eq_def]
  split
  · exact absurd rfl (h _ _ rfl)
  · rfl

/-- The reader of a derivation's nonterminal returns what the derivation stands for, wherever its
symbols are followed by lexemes that cannot carry it on. This is what the induction for
`Derivation.reads` carries. -/
def Derivation.IsRead (endPosition depth : Nat) {n : Level} (d : Derivation n) : Prop :=
  ∀ {front rest : List Lexeme}, front.map (·.symbol) = d.symbols →
    n.EndsBefore (rest.map (·.symbol)) → Reads endPosition depth n d.expr (front ++ rest) rest

/-- **Two parts, read one after the other.** The lexemes of two parts fall apart into those that
the first reader takes, which ends before whatever the second nonterminal derives (`hends`), and
those that it leaves to the second one. -/
theorem Derivation.IsRead.sequence {endPosition depth : Nat} {m n : Level} {first : Derivation m}
    {more : Derivation n} {front rest : List Lexeme}
    (hfirst : first.IsRead endPosition depth) (hmore : more.IsRead endPosition depth)
    (hends : ∀ {rest}, n.EndsBefore rest → m.EndsBefore (more.symbols ++ rest))
    (hfront : front.map (·.symbol) = first.symbols ++ more.symbols)
    (hrest : n.EndsBefore (rest.map (·.symbol))) :
    ∃ taken left, front = taken ++ left
      ∧ Reads endPosition depth m first.expr (taken ++ (left ++ rest)) (left ++ rest)
      ∧ Reads endPosition depth n more.expr (left ++ rest) rest := by
  obtain ⟨taken, left, rfl, htaken, hleft⟩ := List.map_eq_append_iff.1 hfront
  refine ⟨taken, left, rfl, hfirst htaken ?_, hmore hleft hrest⟩
  rw [List.map_append, hleft]
  exact hends hrest

/-- **Completeness of the readers.** A derivation that is not too deep is read if what follows
cannot carry it on. Induction on the derivation; the two connectives go by
`Derivation.IsRead.sequence`. -/
theorem Derivation.reads (endPosition : Nat) {n : Level} (d : Derivation n) {depth : Nat}
    (hdepth : d.depth ≤ depth) {front rest : List Lexeme}
    (hfront : front.map (·.symbol) = d.symbols) (hrest : n.EndsBefore (rest.map (·.symbol))) :
    Reads endPosition depth n d.expr (front ++ rest) rest := by
  induction d generalizing depth front rest with
  | disjunction first more ihf ihm =>
    obtain ⟨hfirst, hmore⟩ := Nat.max_le.1 hdepth
    obtain ⟨taken, left, rfl, hread, hrun⟩ :=
      IsRead.sequence (ihf hfirst) (ihm hmore) more.endsBefore_conjunction hfront hrest
    rw [List.append_assoc]
    exact readChain_of_readRun hread (hrun _)
  | noDisjunct =>
    obtain rfl := List.map_eq_nil_iff.1 hfront
    exact fun left => readRun_of_head_ne left (hrest.head_ne rfl)
  | orElse next more ihn ihm =>
    obtain ⟨hnext, hmore⟩ := Nat.max_le.1 hdepth
    obtain ⟨l, front, rfl, hl, hfront⟩ := List.map_eq_cons_iff.1 hfront
    obtain ⟨taken, left, rfl, hread, hrun⟩ :=
      IsRead.sequence (ihn hnext) (ihm hmore) more.endsBefore_conjunction hfront hrest
    -- What was read before the connective is general, since the run has joined it to the operand by
    -- then.
    intro before
    rw [List.cons_append, List.append_assoc, readRun_of_operand before hl hread]
    exact hrun _
  | conjunction first more ihf ihm =>
    obtain ⟨hfirst, hmore⟩ := Nat.max_le.1 hdepth
    obtain ⟨taken, left, rfl, hread, hrun⟩ :=
      IsRead.sequence (ihf hfirst) (ihm hmore) more.endsBefore_negation hfront hrest
    rw [List.append_assoc]
    exact readChain_of_readRun hread (hrun _)
  | noConjunct =>
    obtain rfl := List.map_eq_nil_iff.1 hfront
    exact fun left => readRun_of_head_ne left (hrest.head_ne rfl)
  | andAlso next more ihn ihm =>
    obtain ⟨hnext, hmore⟩ := Nat.max_le.1 hdepth
    obtain ⟨l, front, rfl, hl, hfront⟩ := List.map_eq_cons_iff.1 hfront
    obtain ⟨taken, left, rfl, hread, hrun⟩ :=
      IsRead.sequence (ihn hnext) (ihm hmore) more.endsBefore_negation hfront hrest
    intro before
    rw [List.cons_append, List.append_assoc, readRun_of_operand before hl hread]
    exact hrun _
  | not negated ih =>
    obtain ⟨⟨-, position⟩, front, rfl, rfl, hnegated⟩ := List.map_eq_cons_iff.1 hfront
    obtain ⟨depth, rfl⟩ := Nat.exists_eq_add_of_le' (Nat.le_trans (Nat.le_add_left 1 _) hdepth)
    exact bind_eq_ok_iff.2 ⟨_, ih (Nat.le_of_succ_le_succ hdepth) hnegated hrest, rfl⟩
  | plain compared ih =>
    have hread := ih hdepth hfront hrest
    rw [Reads, readNegation_eq, readNegationOver_of_head_ne]
    · exact hread
    · -- A comparison does not begin with the keyword that negates.
      obtain ⟨s, tail, hsymbols, hs⟩ := compared.exists_cons_symbols_comparison
      obtain ⟨l', front, rfl, rfl, -⟩ := List.map_eq_cons_iff.1 (hfront.trans hsymbols)
      intro l more hl
      obtain ⟨rfl, -⟩ := List.cons.inj hl
      exact hs
  | alone single ih =>
    exact readComparison_of_head_ne (ih hdepth hfront (Level.endsBefore_operand _))
      fun r => hrest.head_ne rfl
  | compare left r right ihl ihr =>
    obtain ⟨hleft, hright⟩ := Nat.max_le.1 hdepth
    obtain ⟨front, joined, rfl, hfirst, hjoined⟩ := List.map_eq_append_iff.1 hfront
    obtain ⟨⟨-, position⟩, behind, rfl, rfl, hbehind⟩ := List.map_eq_cons_iff.1 hjoined
    rw [List.append_assoc]
    refine bind_eq_ok_iff.2 ⟨_, ihl hleft hfirst (Level.endsBefore_operand _), ?_⟩
    exact bind_eq_ok_iff.2 ⟨_, ihr hright hbehind (Level.endsBefore_operand _), rfl⟩
  | quoted quote content =>
    obtain ⟨⟨-, position⟩, front, rfl, rfl, hnil⟩ := List.map_eq_cons_iff.1 hfront
    obtain rfl := List.map_eq_nil_iff.1 hnil
    rfl
  | numeral digits l hl =>
    obtain ⟨⟨-, position⟩, front, rfl, rfl, hnil⟩ := List.map_eq_cons_iff.1 hfront
    obtain rfl := List.map_eq_nil_iff.1 hnil
    exact bind_eq_ok_iff.2 ⟨l, hl, rfl⟩
  | truth b =>
    obtain ⟨⟨-, position⟩, front, rfl, rfl, hnil⟩ := List.map_eq_cons_iff.1 hfront
    obtain rfl := List.map_eq_nil_iff.1 hnil
    cases b <;> rfl
  | path p =>
    obtain ⟨⟨-, position⟩, front, rfl, rfl, hnil⟩ := List.map_eq_cons_iff.1 hfront
    obtain rfl := List.map_eq_nil_iff.1 hnil
    rfl
  | group inner ih =>
    obtain ⟨⟨-, position⟩, body, rfl, rfl, hbody⟩ := List.map_eq_cons_iff.1 hfront
    obtain ⟨front, last, rfl, hinner, hlast⟩ := List.map_eq_append_iff.1 hbody
    obtain ⟨⟨-, position'⟩, behind, rfl, rfl, hnil⟩ := List.map_eq_cons_iff.1 hlast
    obtain rfl := List.map_eq_nil_iff.1 hnil
    obtain ⟨depth, rfl⟩ := Nat.exists_eq_add_of_le' (Nat.le_trans (Nat.le_add_left 1 _) hdepth)
    rw [List.cons_append, List.append_assoc]
    refine bind_eq_ok_iff.2 ⟨_, ih (Nat.le_of_succ_le_succ hdepth) hinner ?_, rfl⟩
    -- The closing parenthesis binds nothing, so the group ends before it.
    exact Level.endsBefore_cons (by rintro b ⟨⟩) _

/-! ### What is read is derived -/

/-- The lexemes down to a rest are derived from a nonterminal with a given meaning, and parentheses
and negations nest at most `depth` deep in them. There is one rule below for each constructor of
`Derivation`. -/
def Derives (depth : Nat) (n : Level) (meaning : n.Meaning) (lexemes rest : List Lexeme) : Prop :=
  ∃ d : Derivation n, d.expr = meaning ∧ d.depth ≤ depth
    ∧ ∃ front, lexemes = front ++ rest ∧ front.map (·.symbol) = d.symbols

namespace Derives

variable {depth : Nat} {lexemes rest rest' : List Lexeme}

/-- **Two parts, derived one after the other.** Their lexemes are derived by the symbols of the one
in front of those of the other. -/
theorem sequence {m n : Level} {first : m.Meaning} {join : n.Meaning}
    (hfirst : Derives depth m first lexemes rest) (hmore : Derives depth n join rest rest') :
    ∃ (d : Derivation m) (d' : Derivation n), d.expr = first ∧ d'.expr = join
      ∧ max d.depth d'.depth ≤ depth
      ∧ ∃ front, lexemes = front ++ rest' ∧ front.map (·.symbol) = d.symbols ++ d'.symbols := by
  obtain ⟨d, hfirst, hd, front, rfl, hfront⟩ := hfirst
  obtain ⟨d', hjoin, hd', behind, rfl, hbehind⟩ := hmore
  exact ⟨d, d', hfirst, hjoin, Nat.max_le.2 ⟨hd, hd'⟩, front ++ behind,
    (List.append_assoc _ _ _).symm, by rw [List.map_append, hfront, hbehind]⟩

/-- A conjunction and the disjuncts behind it make a `Derivation.disjunction`. -/
theorem disjunction {first : Expr} {join : Expr → Expr}
    (hfirst : Derives depth .conjunction first lexemes rest)
    (hmore : Derives depth .moreDisjuncts join rest rest') :
    Derives depth .disjunction (join first) lexemes rest' := by
  obtain ⟨d, m, rfl, rfl, hdepth, front, rfl, hfront⟩ := hfirst.sequence hmore
  exact ⟨.disjunction d m, rfl, hdepth, front, rfl, hfront⟩

/-- Behind the keyword, a conjunction and the disjuncts behind it make a `Derivation.orElse`. -/
theorem orElse {right : Expr} {join : Expr → Expr} {l : Lexeme} (hl : l.symbol = .keyword .or)
    (hnext : Derives depth .conjunction right lexemes rest)
    (hmore : Derives depth .moreDisjuncts join rest rest') :
    Derives depth .moreDisjuncts (fun left => join (.or left right)) (l :: lexemes) rest' := by
  obtain ⟨d, m, rfl, rfl, hdepth, front, rfl, hfront⟩ := hnext.sequence hmore
  exact ⟨.orElse d m, rfl, hdepth, l :: front, rfl, by rw [List.map_cons, hl, hfront]; rfl⟩

/-- A negation and the conjuncts behind it make a `Derivation.conjunction`. -/
theorem conjunction {first : Expr} {join : Expr → Expr}
    (hfirst : Derives depth .negation first lexemes rest)
    (hmore : Derives depth .moreConjuncts join rest rest') :
    Derives depth .conjunction (join first) lexemes rest' := by
  obtain ⟨d, m, rfl, rfl, hdepth, front, rfl, hfront⟩ := hfirst.sequence hmore
  exact ⟨.conjunction d m, rfl, hdepth, front, rfl, hfront⟩

/-- Behind the keyword, a negation and the conjuncts behind it make a `Derivation.andAlso`. -/
theorem andAlso {right : Expr} {join : Expr → Expr} {l : Lexeme} (hl : l.symbol = .keyword .and)
    (hnext : Derives depth .negation right lexemes rest)
    (hmore : Derives depth .moreConjuncts join rest rest') :
    Derives depth .moreConjuncts (fun left => join (.and left right)) (l :: lexemes) rest' := by
  obtain ⟨d, m, rfl, rfl, hdepth, front, rfl, hfront⟩ := hnext.sequence hmore
  exact ⟨.andAlso d m, rfl, hdepth, l :: front, rfl, by rw [List.map_cons, hl, hfront]; rfl⟩

/-- Behind the keyword, a negation makes a `Derivation.not`, one deeper. -/
theorem not {e : Expr} {l : Lexeme} (hl : l.symbol = .keyword .not)
    (h : Derives depth .negation e lexemes rest) :
    Derives (depth + 1) .negation (.not e) (l :: lexemes) rest := by
  obtain ⟨d, rfl, hd, front, rfl, hfront⟩ := h
  exact ⟨.not d, rfl, Nat.succ_le_succ hd, l :: front, rfl, by rw [List.map_cons, hl, hfront]; rfl⟩

/-- A comparison alone makes a `Derivation.plain`. -/
theorem plain {e : Expr} (h : Derives depth .comparison e lexemes rest) :
    Derives depth .negation e lexemes rest := by
  obtain ⟨d, rfl, hd, front, hlexemes, hfront⟩ := h
  exact ⟨.plain d, rfl, hd, front, hlexemes, hfront⟩

/-- An operand alone makes a `Derivation.alone`. -/
theorem alone {e : Expr} (h : Derives depth .operand e lexemes rest) :
    Derives depth .comparison e lexemes rest := by
  obtain ⟨d, rfl, hd, front, hlexemes, hfront⟩ := h
  exact ⟨.alone d, rfl, hd, front, hlexemes, hfront⟩

/-- Two operands with a relation between them make a `Derivation.compare`. -/
theorem compare {left right : Expr} {r : Relation} {l : Lexeme} (hl : l.symbol = .relation r)
    (hleft : Derives depth .operand left lexemes (l :: rest))
    (hright : Derives depth .operand right rest rest') :
    Derives depth .comparison (.compare r left right) lexemes rest' := by
  obtain ⟨d, rfl, hd, front, rfl, hfront⟩ := hleft
  obtain ⟨d', rfl, hd', behind, rfl, hbehind⟩ := hright
  exact ⟨.compare d r d', rfl, Nat.max_le.2 ⟨hd, hd'⟩, front ++ l :: behind, by simp,
    by rw [List.map_append, List.map_cons, hl, hfront, hbehind]; rfl⟩

/-- A disjunction between parentheses makes a `Derivation.group`, one deeper. -/
theorem group {e : Expr} {l l' : Lexeme} (hl : l.symbol = .opening) (hl' : l'.symbol = .closing)
    (h : Derives depth .disjunction e lexemes (l' :: rest)) :
    Derives (depth + 1) .operand e (l :: lexemes) rest := by
  obtain ⟨d, rfl, hd, front, rfl, hfront⟩ := h
  exact ⟨.group d, rfl, Nat.succ_le_succ hd, l :: (front ++ [l']), by simp,
    by rw [List.map_cons, List.map_append, hl, hfront, List.map_singleton, hl']; rfl⟩

/-- An operand of one lexeme: a quoted text, a number, a truth value or a path. -/
theorem lexeme (d : Derivation .operand) {l : Lexeme} (hsymbols : d.symbols = [l.symbol])
    (hd : d.depth = 0) : Derives depth .operand d.expr (l :: rest) rest :=
  ⟨d, rfl, hd ▸ Nat.zero_le _, [l], rfl, hsymbols.symm⟩

end Derives

/-- What a run returns joins the operands behind its connectives to the first one. `P` is what is to
be shown of such a run, by a rule for where it ends (`hnil`) and one for where it goes on (`hcons`).
Induction along `readRun`. -/
theorem exists_of_readRun {connective : Symbol} {joined : Expr → Expr → Expr} {operand : Reader}
    {P : (Expr → Expr) → List Lexeme → List Lexeme → Prop}
    (hnil : ∀ rest, P (fun left => left) rest rest)
    (hcons : ∀ {l right join lexemes rest rest'}, l.symbol = connective →
      operand lexemes = .ok (right, rest) → P join rest rest' →
      P (fun left => join (joined left right)) (l :: lexemes) rest')
    {left e : Expr} {lexemes rest : List Lexeme}
    (h : readRun connective joined operand left lexemes = .ok (e, rest)) :
    ∃ join, P join lexemes rest ∧ join left = e := by
  fun_induction readRun connective joined operand left lexemes with
  | case1 left =>
    cases h
    exact ⟨_, hnil [], rfl⟩
  | case2 => cases h
  | case3 left l lexemes hl right rest' hread _ ih =>
    obtain ⟨join, hjoin, rfl⟩ := ih h
    exact ⟨_, hcons hl hread hjoin, rfl⟩
  | case4 left l lexemes hl right rest' hread _ =>
    cases h
    exact ⟨_, hcons hl hread (hnil _), rfl⟩
  | case5 left l lexemes _ =>
    cases h
    exact ⟨_, hnil _, rfl⟩

section Sound

variable {endPosition depth : Nat} {e : Expr} {lexemes rest : List Lexeme}

/-- What is read as a negation is derived from one. The readers of the other nonterminals are put
together from that of negations, so they are shown to do the same under this assumption. -/
def ReadsDerived (endPosition depth : Nat) : Prop :=
  ∀ {e : Expr} {lexemes rest : List Lexeme},
    readNegation endPosition depth lexemes = .ok (e, rest) → Derives depth .negation e lexemes rest

/-- What is read as a conjunction is derived from one: its first negation, and its run by
`exists_of_readRun`. -/
theorem derives_of_readConjunction (hnegation : ReadsDerived endPosition depth)
    (h : readConjunction endPosition depth lexemes = .ok (e, rest)) :
    Derives depth .conjunction e lexemes rest := by
  obtain ⟨⟨first, behind⟩, hfirst, hrun⟩ := bind_eq_ok_iff.1 h
  obtain ⟨join, hjoin, rfl⟩ := exists_of_readRun (P := Derives depth .moreConjuncts)
    (fun _ => ⟨.noConjunct, rfl, Nat.zero_le _, [], rfl, rfl⟩)
    (fun hl hread => Derives.andAlso hl (hnegation hread)) hrun
  exact (hnegation hfirst).conjunction hjoin

/-- What is read as a disjunction is derived from one, in the same way. -/
theorem derives_of_readDisjunction (hnegation : ReadsDerived endPosition depth)
    (h : readDisjunction (readNegation endPosition depth) lexemes = .ok (e, rest)) :
    Derives depth .disjunction e lexemes rest := by
  obtain ⟨⟨first, behind⟩, hfirst, hrun⟩ := bind_eq_ok_iff.1 h
  obtain ⟨join, hjoin, rfl⟩ := exists_of_readRun (P := Derives depth .moreDisjuncts)
    (fun _ => ⟨.noDisjunct, rfl, Nat.zero_le _, [], rfl, rfl⟩)
    (fun hl hread => Derives.orElse hl (derives_of_readConjunction hnegation hread)) hrun
  exact (derives_of_readConjunction hnegation hfirst).disjunction hjoin

variable (hinner : ∀ below, depth = below + 1 → ReadsDerived endPosition below)

include hinner

/-- What is read as an operand is derived from one. In parentheses negations are read one level
deeper (`hinner`), where there is one. -/
theorem derives_of_readOperand
    (h : readOperand endPosition (innerNegation? endPosition depth) lexemes = .ok (e, rest)) :
    Derives depth .operand e lexemes rest := by
  rw [readOperand.eq_def] at h
  split at h
  · rename_i quote content position rest
    cases h
    exact .lexeme (.quoted quote content) rfl rfl
  · obtain ⟨l, hl, ⟨⟩⟩ := bind_eq_ok_iff.1 h
    exact .lexeme (.numeral _ l hl) rfl rfl
  · cases h
    exact .lexeme (.truth true) rfl rfl
  · cases h
    exact .lexeme (.truth false) rfl rfl
  · rename_i path position rest
    cases h
    exact .lexeme (.path path) rfl rfl
  · cases depth with
    | zero => cases h
    | succ below =>
      obtain ⟨⟨e', behind⟩, hread, hclosing⟩ := bind_eq_ok_iff.1 h
      dsimp only [readClosing] at hclosing
      split at hclosing
      · cases hclosing
        exact .group rfl rfl (derives_of_readDisjunction (hinner below rfl) hread)
      · cases hclosing
  · cases h

/-- What is read as a comparison is derived from one, with or without a relation. -/
theorem derives_of_readComparison
    (h : readComparison (readOperand endPosition (innerNegation? endPosition depth)) lexemes
      = .ok (e, rest)) :
    Derives depth .comparison e lexemes rest := by
  obtain ⟨⟨left, behind⟩, hleft, hright⟩ := bind_eq_ok_iff.1 h
  replace hleft := derives_of_readOperand hinner hleft
  dsimp only at hright
  split at hright
  · obtain ⟨⟨right, behind⟩, hread, ⟨⟩⟩ := bind_eq_ok_iff.1 hright
    exact .compare rfl hleft (derives_of_readOperand hinner hread)
  · cases hright
    exact .alone hleft

omit hinner in
/-- **What is read is derived.** What is read as a negation is derived from one. Induction on how
deep parentheses and negations may nest. -/
theorem derives_of_readNegation (endPosition depth : Nat) : ReadsDerived endPosition depth := by
  induction depth with
  | zero =>
    intro e lexemes rest h
    rw [readNegation_eq, readNegationOver.eq_def] at h
    split at h
    · cases h
    · exact .plain (derives_of_readComparison (by rintro below ⟨⟩) h)
  | succ depth ih =>
    intro e lexemes rest h
    rw [readNegation_eq, readNegationOver.eq_def] at h
    split at h
    · obtain ⟨⟨negated, behind⟩, hread, ⟨⟩⟩ := bind_eq_ok_iff.1 h
      exact .not rfl (ih hread)
    · refine .plain (derives_of_readComparison ?_ h)
      rintro below ⟨⟩
      exact ih

end Sound

/-! ### The expression of a guard -/

/-- A guard splits into the symbols of a derivation (`Splits`), in which parentheses and negations
nest no deeper than they may (`maxNesting`). -/
def Derivation.IsOf (d : Derivation .disjunction) (source : String) : Prop :=
  Splits source.toList d.symbols ∧ d.depth ≤ maxNesting

/-- The derivation of a disjunction has symbols, so an empty guard has none. -/
theorem Derivation.symbols_ne_nil (d : Derivation .disjunction) : d.symbols ≠ [] := by
  cases d with
  | disjunction conjunction _ =>
    cases conjunction with
    | conjunction negation _ =>
      cases negation with
      | not negated => simp [symbols]
      | plain compared =>
        obtain ⟨s, rest, hsymbols, -⟩ := compared.exists_cons_symbols_comparison
        simp [symbols, hsymbols]

/-- Reading lexemes gives an expression exactly if they are derived with that meaning:
`Derivation.reads` in one direction, `derives_of_readDisjunction` in the other, and nothing is left
behind. -/
theorem parseLexemes_eq_ok_iff {endPosition : Nat} {lexemes : List Lexeme} {e : Expr} :
    parseLexemes endPosition lexemes = .ok e ↔ ∃ d : Derivation .disjunction,
      lexemes.map (·.symbol) = d.symbols ∧ d.depth ≤ maxNesting ∧ d.expr = e := by
  constructor
  · intro h
    rw [parseLexemes.eq_def] at h
    split at h
    · cases h
    · obtain ⟨⟨e', rest⟩, hread, hend⟩ := bind_eq_ok_iff.1 h
      obtain ⟨d, hexpr, hdepth, front, rfl, hfront⟩ :=
        derives_of_readDisjunction (derives_of_readNegation endPosition maxNesting) hread
      dsimp only at hend
      split at hend
      · cases hend
        exact ⟨d, by rw [List.append_nil, hfront], hdepth, hexpr⟩
      · cases hend
  · rintro ⟨d, hsymbols, hdepth, rfl⟩
    have hread : Reads endPosition maxNesting .disjunction d.expr (lexemes ++ []) [] :=
      d.reads endPosition hdepth hsymbols Level.disjunction.endsBefore_nil
    rw [List.append_nil] at hread
    rw [parseLexemes.eq_def]
    split
    · exact absurd hsymbols.symm d.symbols_ne_nil
    · exact bind_eq_ok_iff.2 ⟨_, hread, rfl⟩

/-- **The expressions of a guard are those of its derivations.** A guard splits into the symbols of
its lexemes and into no others, so the lexemes can be left out of the statement. -/
theorem parse_eq_ok_iff {source : String} {e : Expr} :
    parse source = .ok e ↔ ∃ d : Derivation .disjunction, d.IsOf source ∧ d.expr = e := by
  constructor
  · intro h
    rw [parse] at h
    split at h
    · cases h
    · rename_i lexemes hlex
      obtain ⟨d, hsymbols, hdepth, rfl⟩ := parseLexemes_eq_ok_iff.1 h
      exact ⟨d, ⟨hsymbols ▸ splits_of_lexFrom hlex, hdepth⟩, rfl⟩
  · rintro ⟨d, ⟨hsplits, hdepth⟩, rfl⟩
    obtain ⟨lexemes, hlex, hsymbols⟩ := exists_lexFrom_of_splits hsplits 0
    rw [parse, lex, hlex]
    exact parseLexemes_eq_ok_iff.2 ⟨d, hsymbols, hdepth, rfl⟩

/-- **Reading is sound and complete for the grammar**, whatever the guard: the expression that is
read is that of a derivation of the guard, every such expression is read, and a guard without one is
misspelt. There is one way to split a guard into lexemes (`Splits.unique`) and to derive them
(`Derivation.eq_of_symbols_eq`) at most. -/
theorem parse_eq_ok_iff_derivation {source : String} (hshort : HasShortIntegers source) :
    (∀ e, parse source = .ok e ↔ ∃ d : Derivation .disjunction, d.IsOf source ∧ d.expr = e)
      ∧ ((¬∃ d : Derivation .disjunction, d.IsOf source) →
        ∃ fault, parse source = .error (.guard fault))
      ∧ (∀ symbols symbols', Splits source.toList symbols → Splits source.toList symbols' →
        symbols = symbols')
      ∧ ∀ d d' : Derivation .disjunction, Splits source.toList d.symbols →
        Splits source.toList d'.symbols → d = d' := by
  refine ⟨fun e => parse_eq_ok_iff, fun hnone => ?_, fun _ _ => Splits.unique, ?_⟩
  · cases hparse : parse source with
    | ok e =>
      obtain ⟨d, hd, -⟩ := parse_eq_ok_iff.1 hparse
      exact absurd ⟨d, hd⟩ hnone
    | error fault =>
      obtain ⟨g, rfl⟩ := parse_error_of_hasShortIntegers hshort hparse
      exact ⟨g, rfl⟩
  · intro d d' hd hd'
    exact Derivation.eq_of_symbols_eq (hd.unique hd')

/-- A conjunction holds together more tightly than a disjunction, and a run leans to the left. -/
theorem exists_derivation_of_mixed_run :
    ∃ d : Derivation .disjunction, d.IsOf "a or not (b or c) and d or 1 < 2" ∧
      d.expr = .or (.or (.path "a") (.and (.not (.or (.path "b") (.path "c"))) (.path "d")))
        (.compare .less (.literal (.number (.int 1))) (.literal (.number (.int 2)))) :=
  ((parse_eq_ok_iff_derivation (hasShortIntegers_of_length_le (by decide +kernel))).1 _).1
    (by decide +kernel)

end Templating.Guard
