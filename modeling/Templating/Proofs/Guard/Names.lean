import Templating.Proofs.Guard.Reading

/-!
# The names of a guard

The paths that the expression of a guard reads are the names among its lexemes, one for one and in
their order. Reading turns every name into one path, through every rule of the grammar and however
deep the rules nest, and nothing else into a path. The lexemes in turn stand in the guard one behind
the other, so the order of the names is the order of their places.

## Main definitions

* `Symbol.name?`: the name that a symbol is.
* `Level.Tells`: the paths that the meaning of a nonterminal has.

## Main results

* `Derivation.tells`: a derivation has the names that it derives.
* `paths_of_parse`: the paths of a guard are its names.
* `pairwise_of_lexFrom`, `standsAt_of_lexFrom`: where lexemes stand.
-/

namespace Templating.Guard

open Templating.Text

/-! ### Names among symbols -/

/-- The name that a symbol is, if it is one. -/
def Symbol.name? : Symbol → Option String
  | name path => some (String.ofList path)
  | _ => none

/-- `Symbol.name?` finds a name in a symbol that is this name and in no other. -/
theorem Symbol.name?_eq_some_iff {s : Symbol} {name : String} :
    s.name? = some name ↔ s = .name name.toList := by
  cases s with
  | name path =>
    rw [name?, Option.some.injEq, Symbol.name.injEq]
    exact ⟨fun h => by rw [← h, String.toList_ofList], fun h => by rw [h, String.ofList_toList]⟩
  | _ => exact iff_of_false nofun nofun

/-- The meaning of a nonterminal has given paths. What joins further operands to an expression puts
them behind those of the expression. -/
def Level.Tells : (n : Level) → n.Meaning → List String → Prop
  | .disjunction, e, names => e.paths = names
  | .moreDisjuncts, join, names => ∀ left, (join left).paths = left.paths ++ names
  | .conjunction, e, names => e.paths = names
  | .moreConjuncts, join, names => ∀ left, (join left).paths = left.paths ++ names
  | .negation, e, names => e.paths = names
  | .comparison, e, names => e.paths = names
  | .operand, e, names => e.paths = names

/-- What a derivation stands for has the names among the symbols that it derives. Induction on the
derivation; the rest of a run appends its names to those of the expression on its left. -/
theorem Derivation.tells {n : Level} (d : Derivation n) :
    n.Tells d.expr (d.symbols.filterMap Symbol.name?) := by
  induction d with
  | disjunction first more ihf ihm =>
    rw [symbols, List.filterMap_append, ← ihf]
    exact ihm _
  | noDisjunct => exact fun left => (List.append_nil _).symm
  | orElse next more ihn ihm =>
    intro left
    rw [symbols, List.filterMap_cons_none rfl, List.filterMap_append, ← ihn, ← List.append_assoc]
    exact ihm _
  | conjunction first more ihf ihm =>
    rw [symbols, List.filterMap_append, ← ihf]
    exact ihm _
  | noConjunct => exact fun left => (List.append_nil _).symm
  | andAlso next more ihn ihm =>
    intro left
    rw [symbols, List.filterMap_cons_none rfl, List.filterMap_append, ← ihn, ← List.append_assoc]
    exact ihm _
  | not negated ih => exact ih
  | plain compared ih => exact ih
  | alone single ih => exact ih
  | compare left r right ihl ihr =>
    rw [symbols, List.filterMap_append, List.filterMap_cons_none rfl, ← ihl, ← ihr]
    rfl
  | quoted quote content => rfl
  | numeral digits l hl => rfl
  | truth b => cases b <;> rfl
  | path p => rfl
  | group inner ih =>
    rw [symbols, List.filterMap_cons_none rfl, List.filterMap_append, ← ih]
    exact (List.append_nil _).symm

/-- **The paths of a guard are its names.** The derivation that `parse` finds for the lexemes has
them in their order, by `Derivation.tells`. -/
theorem paths_of_parse {source : String} {e : Expr} (h : parse source = .ok e) :
    ∃ lexemes, lex source = .ok lexemes
      ∧ e.paths = lexemes.filterMap fun l => l.symbol.name? := by
  rw [parse] at h
  split at h
  · cases h
  · rename_i lexemes hlex
    obtain ⟨d, hsymbols, -, rfl⟩ := parseLexemes_eq_ok_iff.1 h
    refine ⟨lexemes, hlex, d.tells.trans ?_⟩
    rw [← hsymbols, List.filterMap_map]
    rfl

/-! ### Where lexemes stand -/

section Places

variable {position : Nat} {cs : List Char} {lexemes : List Lexeme}

/-- A lexeme stands in the text where it says: as many characters before it as its position is ahead
of where `lexFrom` began. -/
theorem standsAt_of_lexFrom (h : lexFrom position cs = .ok lexemes) :
    ∀ l ∈ lexemes, ∃ before, l.position = position + before.length
      ∧ before ++ l.symbol.source <+: cs := by
  fun_induction lexFrom position cs generalizing lexemes with
  | case1 =>
    cases h
    exact List.forall_mem_nil _
  | case2 position c cs hblank ih =>
    intro l hl
    obtain ⟨before, hposition, hstands⟩ := ih h l hl
    refine ⟨c :: before, ?_, List.cons_prefix_cons.2 ⟨rfl, hstands⟩⟩
    rw [hposition, List.length_cons]
    omega
  | case3 => cases h
  | case4 position c cs hblank s rest hsymbol ih =>
    obtain ⟨more, hmore, ⟨⟩⟩ := bind_eq_ok_iff.1 h
    have hsource := source_symbol? hsymbol
    refine List.forall_mem_cons.2 ⟨⟨[], rfl, rest, hsource⟩, fun l hl => ?_⟩
    obtain ⟨before, hposition, hstands⟩ := ih hmore l hl
    refine ⟨s.source ++ before, ?_, ?_⟩
    · rw [hposition, List.length_append, Nat.add_assoc]
    · rw [← hsource, List.append_assoc]
      exact List.prefix_append_right_inj _ |>.2 hstands

/-- Every lexeme begins before the next one, since `lexFrom` goes on behind a symbol, which has at
least one character. -/
theorem pairwise_of_lexFrom (h : lexFrom position cs = .ok lexemes) :
    lexemes.Pairwise fun l l' => l.position < l'.position := by
  fun_induction lexFrom position cs generalizing lexemes with
  | case1 =>
    cases h
    exact .nil
  | case2 position c cs hblank ih => exact ih h
  | case3 => cases h
  | case4 position c cs hblank s rest hsymbol ih =>
    obtain ⟨more, hmore, ⟨⟩⟩ := bind_eq_ok_iff.1 h
    have hlength := List.length_pos_iff.2 (source_ne_nil_of_symbol? hsymbol)
    refine List.pairwise_cons.2 ⟨fun l hl => ?_, ih hmore⟩
    obtain ⟨before, hposition, -⟩ := standsAt_of_lexFrom hmore l hl
    dsimp only
    omega

end Places

end Templating.Guard
