import Templating.Fault
import Templating.Text.Blank
import Templating.Text.DecimalDigit

/-!
# Lexemes of a guard

A guard is cut into lexemes with blank space between them: quoted texts, numbers, relation
signs, parentheses, and words. A word is a name of dotted segments or one of the five keywords.
A quoted text ends at the next quote of its kind and has no escapes. A number may not be
followed by a character that could continue it or a name; a shorter number is taken if the
longest one is.

## Main definitions

* `Relation`: the six comparison relations.
* `Symbol`: what a lexeme is.
* `Lexeme`: a symbol at a place.
* `lex`: the lexemes of a guard.
-/

namespace Templating.Guard

open Templating.Text

/-- A comparison relation. -/
inductive Relation where
  | equal
  | unequal
  | less
  | atMost
  | greater
  | atLeast
  deriving DecidableEq

/-- The sign of a relation. -/
def Relation.sign : Relation → List Char
  | equal => ['=', '=']
  | unequal => ['!', '=']
  | less => ['<']
  | atMost => ['<', '=']
  | greater => ['>']
  | atLeast => ['>', '=']

/-- A word with a meaning of its own. -/
inductive Keyword where
  | and
  | or
  | not
  | true
  | false
  deriving DecidableEq

/-- The spelling of a keyword. -/
def Keyword.spelling : Keyword → List Char
  | and => ['a', 'n', 'd']
  | or => ['o', 'r']
  | not => ['n', 'o', 't']
  | true => ['t', 'r', 'u', 'e']
  | false => ['f', 'a', 'l', 's', 'e']

/-- What a lexeme is. Each kind holds what its text has to say, so that `Symbol.source` gives the
text again. -/
inductive Symbol where
  | quoted (quote : Char) (content : List Char)
  | numeral (digits : List Char)
  | relation (r : Relation)
  | opening
  | closing
  | keyword (k : Keyword)
  | name (path : List Char)
  deriving DecidableEq

/-- The characters of a symbol as they stand in the guard. -/
def Symbol.source : Symbol → List Char
  | quoted quote content => quote :: (content ++ [quote])
  | numeral digits => digits
  | relation r => r.sign
  | opening => ['(']
  | closing => [')']
  | keyword k => k.spelling
  | name path => path

/-- A symbol and its place in the guard, counted in characters. -/
structure Lexeme where
  symbol : Symbol
  position : Nat
  deriving DecidableEq

/-- The lexeme as it stands in the guard. -/
def Lexeme.text (l : Lexeme) : String :=
  String.ofList l.symbol.source

/-! ### Character classes -/

/-- Whether a character may begin a name. -/
def startsName (c : Char) : Bool :=
  c.isAlpha || c == '_'

/-- Whether a character may stand inside a segment of a name. -/
def inName (c : Char) : Bool :=
  c.isAlphanum || c == '_'

/-- Whether a character after a number forbids the number to end there. -/
def continuesNumber (c : Char) : Bool :=
  inName c || c == '.'

/-! ### Reading one symbol -/

/-- The characters up to the next quote and the text after that quote. There are no escapes, so the
quote itself cannot stand inside. -/
def quotedBody? (quote : Char) : List Char → Option (List Char × List Char)
  | [] => none
  | c :: cs =>
    if c = quote then some ([], cs)
    else (quotedBody? quote cs).map fun (content, rest) => (c :: content, rest)

/-- The longest text of a number without a sign at the head: digits, and a point with digits
or none; and the text after it. -/
def longestUnsigned (cs : List Char) : List Char × List Char :=
  match cs.dropWhile isDigit with
  | '.' :: after =>
    if (cs.takeWhile isDigit).isEmpty || (after.takeWhile isDigit).isEmpty then
      (cs.takeWhile isDigit, cs.dropWhile isDigit)
    else (cs.takeWhile isDigit ++ '.' :: after.takeWhile isDigit, after.dropWhile isDigit)
  | _ => (cs.takeWhile isDigit, cs.dropWhile isDigit)

/-- The longest text of a number at the head, where a minus sign may stand in front; and the
text after it. -/
def longestNumeral : List Char → List Char × List Char
  | '-' :: cs => ('-' :: (longestUnsigned cs).1, (longestUnsigned cs).2)
  | cs => longestUnsigned cs

/-- Whether a number may be followed by this text. -/
def mayFollowNumber : List Char → Bool
  | [] => true
  | c :: _ => !continuesNumber c

/-- Takes characters back from the end of a number, which stand last first in the first argument,
until it ends in a digit and may be followed by what comes after it (`mayFollowNumber`). -/
def shortenNumeral? : List Char → List Char → Option (List Char × List Char)
  | [], _ => none
  | c :: taken, rest =>
    if isDigit c && mayFollowNumber rest then some ((c :: taken).reverse, rest)
    else shortenNumeral? taken (c :: rest)

/-- The number at the head of the text: the longest one (`longestNumeral`), shortened until it may
end where it does. -/
def numeral? (cs : List Char) : Option (List Char × List Char) :=
  shortenNumeral? (longestNumeral cs).1.reverse (longestNumeral cs).2

/-- The sign of a relation at the head of the text; of two possible ones the longer. -/
def relation? : List Char → Option (Relation × List Char)
  | '=' :: '=' :: cs => some (.equal, cs)
  | '!' :: '=' :: cs => some (.unequal, cs)
  | '>' :: '=' :: cs => some (.atLeast, cs)
  | '<' :: '=' :: cs => some (.atMost, cs)
  | '>' :: cs => some (.greater, cs)
  | '<' :: cs => some (.less, cs)
  | _ => none

/-- The rest of a name after its first character, and the text after it. A dot belongs to the
name only if another segment follows. -/
def nameRest : List Char → List Char × List Char
  | [] => ([], [])
  | [c] => if inName c then ([c], []) else ([], [c])
  | c :: c' :: cs =>
    if inName c || (c == '.' && inName c') then
      (c :: (nameRest (c' :: cs)).1, (nameRest (c' :: cs)).2)
    else ([], c :: c' :: cs)

/-- The keyword of a given spelling. -/
def Keyword.ofSpelling? (word : List Char) : Option Keyword :=
  [Keyword.and, .or, .not, .true, .false].find? fun k => k.spelling = word

/-- A word is a keyword if it is spelled like one, else a name. Keywords are spelled in small
letters. -/
def wordSymbol (word : List Char) : Symbol :=
  match Keyword.ofSpelling? word with
  | some k => .keyword k
  | none => .name word

/-- The word at the head of the text: a character that `startsName`, and the rest of the name. -/
def word? : List Char → Option (Symbol × List Char)
  | [] => none
  | c :: cs =>
    if startsName c then some (wordSymbol (c :: (nameRest cs).1), (nameRest cs).2) else none

/-- The quoted text at the head of the text. -/
def quoted? : List Char → Option (Symbol × List Char)
  | [] => none
  | c :: cs =>
    if c = '"' ∨ c = '\x27' then
      (quotedBody? c cs).map fun (content, rest) => (.quoted c content, rest)
    else none

/-- The parenthesis at the head of the text. -/
def parenthesis? : List Char → Option (Symbol × List Char)
  | '(' :: cs => some (.opening, cs)
  | ')' :: cs => some (.closing, cs)
  | _ => none

/-- The symbol at the head of the text and the text after it. The kinds of symbols are tried in this
order, and the first that is found is taken. -/
def symbol? (cs : List Char) : Option (Symbol × List Char) :=
  (quoted? cs).or <|
    ((numeral? cs).map fun (digits, rest) => (.numeral digits, rest)).or <|
      ((relation? cs).map fun (r, rest) => (.relation r, rest)).or <|
        (parenthesis? cs).or (word? cs)

/-! ### Nothing is lost -/

/-- A quoted text and what is left make up the text. -/
theorem source_quoted? {cs rest : List Char} {s : Symbol} (h : quoted? cs = some (s, rest)) :
    s.source ++ rest = cs := by
  have body : ∀ (quote : Char) (cs content rest : List Char),
      quotedBody? quote cs = some (content, rest) → content ++ quote :: rest = cs := by
    intro quote cs
    induction cs with
    | nil => simp [quotedBody?]
    | cons c cs ih =>
      intro content rest h
      rw [quotedBody?] at h
      split at h
      · rename_i hc
        obtain ⟨rfl, rfl⟩ := by simpa using h
        simp [hc]
      · obtain ⟨⟨content', rest'⟩, hbody, heq⟩ := Option.map_eq_some_iff.1 h
        obtain ⟨rfl, rfl⟩ : c :: content' = content ∧ rest' = rest := by simpa using heq
        simp [ih _ _ hbody]
  cases cs with
  | nil => simp [quoted?] at h
  | cons c cs =>
    rw [quoted?] at h
    split at h
    · obtain ⟨⟨content, rest'⟩, hbody, heq⟩ := Option.map_eq_some_iff.1 h
      obtain ⟨rfl, rfl⟩ : Symbol.quoted c content = s ∧ rest' = rest := by simpa using heq
      simpa [Symbol.source] using body _ _ _ _ hbody
    · simp at h

/-- A number without a sign and what is left make up the text. -/
theorem longestUnsigned_append (cs : List Char) :
    (longestUnsigned cs).1 ++ (longestUnsigned cs).2 = cs := by
  have hsplit : cs.takeWhile isDigit ++ cs.dropWhile isDigit = cs :=
    List.takeWhile_append_dropWhile
  unfold longestUnsigned
  split
  · rename_i after hafter
    split
    · exact hsplit
    · have hfraction : after.takeWhile isDigit ++ after.dropWhile isDigit = after :=
        List.takeWhile_append_dropWhile
      simp only [List.append_assoc, List.cons_append, hfraction, ← hafter, hsplit]
  · exact hsplit

/-- A number and what is left make up the text, by `longestUnsigned_append` behind the sign. -/
theorem longestNumeral_append (cs : List Char) :
    (longestNumeral cs).1 ++ (longestNumeral cs).2 = cs := by
  fun_cases longestNumeral cs <;> simp [longestUnsigned_append]

/-- Taking characters back from a number moves them in front of what is left, and leaves at least
one. -/
theorem shortenNumeral?_append {taken cs digits rest : List Char}
    (h : shortenNumeral? taken cs = some (digits, rest)) :
    digits ++ rest = taken.reverse ++ cs ∧ digits ≠ [] := by
  induction taken generalizing cs with
  | nil => simp [shortenNumeral?] at h
  | cons c taken ih =>
    rw [shortenNumeral?] at h
    split at h
    · obtain ⟨rfl, rfl⟩ := by simpa using h
      simp
    · simpa using ih h

/-- The sign of a relation and what is left make up the text. -/
theorem source_relation? {cs rest : List Char} {r : Relation}
    (h : relation? cs = some (r, rest)) : r.sign ++ rest = cs := by
  fun_cases relation? cs <;> simp_all [relation?] <;>
    (obtain ⟨rfl, rfl⟩ := h; rfl)

theorem source_parenthesis? {cs rest : List Char} {s : Symbol}
    (h : parenthesis? cs = some (s, rest)) : s.source ++ rest = cs := by
  fun_cases parenthesis? cs <;> simp_all [parenthesis?] <;>
    (obtain ⟨rfl, rfl⟩ := h; rfl)

/-- The rest of a name and what is left make up the text. -/
theorem nameRest_append (cs : List Char) : (nameRest cs).1 ++ (nameRest cs).2 = cs := by
  fun_induction nameRest cs <;> simp_all

/-- A word is written as it is spelled, keyword or name. -/
theorem source_wordSymbol (word : List Char) : (wordSymbol word).source = word := by
  unfold wordSymbol
  split
  · rename_i k hk
    simpa [Symbol.source] using List.find?_some hk
  · rfl

/-- A word and what is left make up the text. -/
theorem source_word? {cs rest : List Char} {s : Symbol} (h : word? cs = some (s, rest)) :
    s.source ++ rest = cs := by
  cases cs with
  | nil => simp [word?] at h
  | cons c cs =>
    rw [word?] at h
    split at h
    · obtain ⟨rfl, rfl⟩ := by simpa using h
      simp [source_wordSymbol, nameRest_append]
    · simp at h

/-- **A symbol and the text after it make up the text**, whichever kind of symbol it is. -/
theorem source_symbol? {cs rest : List Char} {s : Symbol} (h : symbol? cs = some (s, rest)) :
    s.source ++ rest = cs := by
  simp only [symbol?, Option.or_eq_some_iff] at h
  rcases h with h | ⟨-, h | ⟨-, h | ⟨-, h | ⟨-, h⟩⟩⟩⟩
  · exact source_quoted? h
  · obtain ⟨⟨digits, rest'⟩, hdigits, heq⟩ := Option.map_eq_some_iff.1 h
    obtain ⟨rfl, rfl⟩ : Symbol.numeral digits = s ∧ rest' = rest := by simpa using heq
    have happ := (shortenNumeral?_append hdigits).1
    simpa [Symbol.source, longestNumeral_append] using happ
  · obtain ⟨⟨r, rest'⟩, hr, heq⟩ := Option.map_eq_some_iff.1 h
    obtain ⟨rfl, rfl⟩ : Symbol.relation r = s ∧ rest' = rest := by simpa using heq
    simpa [Symbol.source] using source_relation? hr
  · exact source_parenthesis? h
  · exact source_word? h

/-- A symbol has at least one character. -/
theorem source_ne_nil_of_symbol? {cs rest : List Char} {s : Symbol}
    (h : symbol? cs = some (s, rest)) : s.source ≠ [] := by
  simp only [symbol?, Option.or_eq_some_iff] at h
  rcases h with h | ⟨-, h | ⟨-, h | ⟨-, h | ⟨-, h⟩⟩⟩⟩
  · fun_cases quoted? cs with
    | case1 => simp [quoted?] at h
    | case2 c cs hc =>
      rw [quoted?, if_pos hc] at h
      obtain ⟨⟨content, rest'⟩, -, heq⟩ := Option.map_eq_some_iff.1 h
      obtain ⟨rfl, -⟩ : Symbol.quoted c content = s ∧ rest' = rest := by simpa using heq
      simp [Symbol.source]
    | case3 c cs hc => simp [quoted?, hc] at h
  · obtain ⟨⟨digits, rest'⟩, hdigits, heq⟩ := Option.map_eq_some_iff.1 h
    obtain ⟨rfl, rfl⟩ : Symbol.numeral digits = s ∧ rest' = rest := by simpa using heq
    exact (shortenNumeral?_append hdigits).2
  · obtain ⟨⟨r, rest'⟩, hr, heq⟩ := Option.map_eq_some_iff.1 h
    obtain ⟨rfl, rfl⟩ : Symbol.relation r = s ∧ rest' = rest := by simpa using heq
    cases r <;> simp [Symbol.source, Relation.sign]
  · fun_cases parenthesis? cs with
    | case1 cs =>
      obtain ⟨rfl, -⟩ : Symbol.opening = s ∧ cs = rest := by simpa [parenthesis?] using h
      simp [Symbol.source]
    | case2 cs =>
      obtain ⟨rfl, -⟩ : Symbol.closing = s ∧ cs = rest := by simpa [parenthesis?] using h
      simp [Symbol.source]
    | case3 => simp [parenthesis?] at h
  · fun_cases word? cs with
    | case1 => simp [word?] at h
    | case2 c cs hc =>
      rw [word?, if_pos hc] at h
      obtain ⟨rfl, -⟩ := by simpa using h
      simp [source_wordSymbol]
    | case3 c cs hc => simp [word?, hc] at h

/-- Taking a symbol leaves less text, which is why `lexFrom` comes to an end. -/
theorem length_lt_of_symbol? {cs rest : List Char} {s : Symbol}
    (h : symbol? cs = some (s, rest)) : rest.length < cs.length := by
  have hne := List.length_pos_iff.2 (source_ne_nil_of_symbol? h)
  have happ := congrArg List.length (source_symbol? h)
  simp only [List.length_append] at happ
  omega

/-! ### The lexemes of a guard -/

/-- The lexemes of a text that stands `position` characters into the guard. -/
def lexFrom (position : Nat) (cs : List Char) : Except GuardFault (List Lexeme) :=
  match cs with
  | [] => .ok []
  | c :: cs' =>
    if isBlank c then lexFrom (position + 1) cs'
    else
      match _h : symbol? (c :: cs') with
      | none => .error (.unexpectedCharacter c position)
      | some (s, rest) => do
        let more ← lexFrom (position + s.source.length) rest
        return ⟨s, position⟩ :: more
termination_by cs.length
decreasing_by
  · simp
  · exact length_lt_of_symbol? ‹_›

/-- The lexemes of a guard, in order. -/
def lex (source : String) : Except GuardFault (List Lexeme) :=
  lexFrom 0 source.toList

end Templating.Guard
