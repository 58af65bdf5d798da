import Templating.Text.Blank

/-!
# Tokens of a template

A template is cut into three kinds of token: literal text, placeholders `{{ … }}` and tags
`{% … %}`. A placeholder holds no brace. A tag ends at the first `%}` after its opening and
holds no second opening `{%` before it. Brace sequences that form neither are literal text, so
every template has a token list and nothing of it is lost.

## Main definitions

* `Shape`: what a token is, with the characters between its delimiters.
* `delimited?`: the placeholder or tag that begins exactly at the head of a text.
* `Cursor`: a place in a template, from which tokens are pulled one by one.
* `tokenize`: the tokens of a whole template.
-/

namespace Templating.Template

open Templating.Text

/-- What a token is: a run of literal text, or the characters between the delimiters of a
placeholder or of a tag. -/
inductive Shape where
  | text (run : List Char)
  | placeholder (inner : List Char)
  | tag (inner : List Char)
  deriving DecidableEq

namespace Shape

/-- The characters of the token as they stand in the template, delimiters included. -/
def source : Shape → List Char
  | text run => run
  | placeholder inner => '{' :: '{' :: (inner ++ ['}', '}'])
  | tag inner => '{' :: '%' :: (inner ++ ['%', '}'])

/-- What stands between the token's delimiters, trimmed (`Shape.content`). -/
def content : Shape → List Char
  | text _ => []
  | placeholder inner => trim inner
  | tag inner => trim inner

end Shape

/-! ### Recognising delimited tokens -/

/-- Reads on from an opening `{{`: the characters up to the closing pair and what follows it.
There is none if another brace comes first. -/
def placeholderBody? : List Char → Option (List Char × List Char)
  | [] => none
  | '}' :: '}' :: rest => some ([], rest)
  | c :: cs =>
    if c = '{' ∨ c = '}' then none
    else (placeholderBody? cs).map fun (inner, rest) => (c :: inner, rest)

/-- Reads on from an opening `{%`: the characters up to the first `%}` and what follows it.
There is none if another `{%` comes first; a brace right before the closing `%}` belongs to the
tag. -/
def tagBody? : List Char → Option (List Char × List Char)
  | [] => none
  | '%' :: '}' :: rest => some ([], rest)
  | '{' :: '%' :: '}' :: rest => some (['{'], rest)
  | '{' :: '%' :: _ => none
  | c :: cs => (tagBody? cs).map fun (inner, rest) => (c :: inner, rest)

/-- The placeholder or tag that begins exactly here, and the text after it. -/
def delimited? : List Char → Option (Shape × List Char)
  | '{' :: '{' :: cs => (placeholderBody? cs).map fun (inner, rest) => (.placeholder inner, rest)
  | '{' :: '%' :: cs => (tagBody? cs).map fun (inner, rest) => (.tag inner, rest)
  | _ => none

/-- The characters before the first place where a placeholder or tag begins (`delimited?`), and the
text from that place on. -/
def literalRun : List Char → List Char × List Char
  | [] => ([], [])
  | c :: cs =>
    if (delimited? (c :: cs)).isSome then ([], c :: cs)
    else (c :: (literalRun cs).1, (literalRun cs).2)

/-- The token at the head of a text and what follows it; none once the text is exhausted. Where
nothing is `delimited?`, it is literal text up to the next place where something is. -/
def nextShape? : List Char → Option (Shape × List Char)
  | [] => none
  | c :: cs =>
    match delimited? (c :: cs) with
    | some found => some found
    | none => some (.text (c :: (literalRun cs).1), (literalRun cs).2)

/-! ### Nothing is lost -/

/-- The inside of a placeholder, its closing pair and what is left make up the text. -/
theorem source_placeholderBody? {cs inner rest : List Char}
    (h : placeholderBody? cs = some (inner, rest)) : inner ++ '}' :: '}' :: rest = cs := by
  fun_induction placeholderBody? cs generalizing inner with
  | case1 => simp at h
  | case2 rest' =>
    obtain ⟨rfl, rfl⟩ : [] = inner ∧ rest' = rest := by simpa using h
    rfl
  | case3 => simp at h
  | case4 c cs _ _ ih =>
    obtain ⟨⟨inner', rest'⟩, hbody, heq⟩ := Option.map_eq_some_iff.1 h
    obtain ⟨rfl, rfl⟩ : c :: inner' = inner ∧ rest' = rest := by simpa using heq
    simp [ih hbody]

/-- The inside of a tag, its closing pair and what is left make up the text. -/
theorem source_tagBody? {cs inner rest : List Char}
    (h : tagBody? cs = some (inner, rest)) : inner ++ '%' :: '}' :: rest = cs := by
  fun_induction tagBody? cs generalizing inner with
  | case1 => simp at h
  | case2 rest' =>
    obtain ⟨rfl, rfl⟩ : [] = inner ∧ rest' = rest := by simpa using h
    rfl
  | case3 rest' =>
    obtain ⟨rfl, rfl⟩ : ['{'] = inner ∧ rest' = rest := by simpa using h
    rfl
  | case4 => simp at h
  | case5 c cs _ _ _ ih =>
    obtain ⟨⟨inner', rest'⟩, hbody, heq⟩ := Option.map_eq_some_iff.1 h
    obtain ⟨rfl, rfl⟩ : c :: inner' = inner ∧ rest' = rest := by simpa using heq
    simp [ih hbody]

/-- A delimited token and the text after it make up the text it was found in. -/
theorem source_delimited? {cs rest : List Char} {shape : Shape}
    (h : delimited? cs = some (shape, rest)) : shape.source ++ rest = cs := by
  fun_cases delimited? cs with
  | case1 cs =>
    obtain ⟨⟨inner, rest'⟩, hbody, heq⟩ := Option.map_eq_some_iff.1 h
    obtain ⟨rfl, rfl⟩ : Shape.placeholder inner = shape ∧ rest' = rest := by simpa using heq
    simpa [Shape.source] using source_placeholderBody? hbody
  | case2 cs =>
    obtain ⟨⟨inner, rest'⟩, hbody, heq⟩ := Option.map_eq_some_iff.1 h
    obtain ⟨rfl, rfl⟩ : Shape.tag inner = shape ∧ rest' = rest := by simpa using heq
    simpa [Shape.source] using source_tagBody? hbody
  | case3 => simp [delimited?] at h

/-- What is delimited is no literal text. -/
theorem delimited?_ne_text (cs run rest : List Char) :
    delimited? cs ≠ some (.text run, rest) := by
  intro h
  fun_cases delimited? cs with
  | case1 => simp [delimited?] at h
  | case2 => simp [delimited?] at h
  | case3 => simp [delimited?] at h

/-- The literal run and the text after it make up the whole text. -/
theorem literalRun_append (cs : List Char) : (literalRun cs).1 ++ (literalRun cs).2 = cs := by
  fun_induction literalRun cs with
  | case1 => rfl
  | case2 => rfl
  | case3 c cs _ ih => simp [ih]

/-- The next token and the text after it make up the text. -/
theorem source_nextShape? {cs rest : List Char} {shape : Shape}
    (h : nextShape? cs = some (shape, rest)) : shape.source ++ rest = cs := by
  fun_cases nextShape? cs with
  | case1 => simp [nextShape?] at h
  | case2 c cs found hfound =>
    obtain rfl : found = (shape, rest) := by simpa [nextShape?, hfound] using h
    exact source_delimited? hfound
  | case3 c cs hnone =>
    obtain ⟨rfl, rfl⟩ :
        Shape.text (c :: (literalRun cs).1) = shape ∧ (literalRun cs).2 = rest := by
      simpa [nextShape?, hnone] using h
    simp [Shape.source, literalRun_append]

/-- No token is empty. -/
theorem source_ne_nil_of_nextShape? {cs rest : List Char} {shape : Shape}
    (h : nextShape? cs = some (shape, rest)) : shape.source ≠ [] := by
  fun_cases nextShape? cs with
  | case1 => simp [nextShape?] at h
  | case2 c cs found hfound =>
    obtain rfl : found = (shape, rest) := by simpa [nextShape?, hfound] using h
    cases shape with
    | text run => exact absurd hfound (delimited?_ne_text _ _ _)
    | placeholder inner => simp [Shape.source]
    | tag inner => simp [Shape.source]
  | case3 c cs hnone =>
    obtain ⟨rfl, -⟩ :
        Shape.text (c :: (literalRun cs).1) = shape ∧ (literalRun cs).2 = rest := by
      simpa [nextShape?, hnone] using h
    simp [Shape.source]

/-- Taking a token leaves less text. -/
theorem length_lt_of_nextShape? {cs rest : List Char} {shape : Shape}
    (h : nextShape? cs = some (shape, rest)) : rest.length < cs.length := by
  have hne := List.length_pos_iff.2 (source_ne_nil_of_nextShape? h)
  have happ := congrArg List.length (source_nextShape? h)
  simp only [List.length_append] at happ
  omega

/-! ### Tokens and cursors -/

/-- A token and its place in the template, counted in characters. -/
structure Token where
  /-- What the token is. -/
  shape : Shape
  /-- How many characters stand before it. -/
  start : Nat
  deriving DecidableEq

/-- What a tag says: it opens a conditional span under a guard, closes one, or is of no known
kind. -/
inductive Tag where
  | opening (guard : String)
  | closing
  | unknown
  deriving DecidableEq

/-- Reads the trimmed content of a tag. The word `if` opens a span and the rest is its guard;
`endif` alone closes one. -/
def Tag.ofContent (content : List Char) : Tag :=
  if firstWord content = ['i', 'f'] then
    .opening (String.ofList (trim (afterFirstWord content)))
  else if content = ['e', 'n', 'd', 'i', 'f'] then .closing
  else .unknown

namespace Token

/-- The text of the token as it stands in the template. -/
def text (t : Token) : String :=
  String.ofList t.shape.source

/-- The place right after the token. -/
def stop (t : Token) : Nat :=
  t.start + t.shape.source.length

/-- What stands between the token's delimiters, trimmed (`Shape.content`). -/
def content (t : Token) : String :=
  String.ofList t.shape.content

/-- What the token says as a tag (`Tag.ofContent`); none if it is not a tag. -/
def tag? (t : Token) : Option Tag :=
  match t.shape with
  | .tag inner => some (Tag.ofContent (trim inner))
  | _ => none

/-- The guard of a tag that opens a span, empty for every other token. -/
def guard (t : Token) : String :=
  match t.tag? with
  | some (.opening guard) => guard
  | _ => ""

end Token

/-- A place in a template: how many characters lie behind it, and those still ahead. -/
structure Cursor where
  position : Nat
  ahead : List Char
  deriving DecidableEq

namespace Cursor

/-- The place before the first character of a template. -/
def ofText (template : String) : Cursor :=
  ⟨0, template.toList⟩

/-- The next token and the place after it; none at the end of the template. The shape is that of
`nextShape?`, and the cursor adds the place. -/
def next? (c : Cursor) : Option (Token × Cursor) :=
  match nextShape? c.ahead with
  | none => none
  | some (shape, rest) =>
    some (⟨shape, c.position⟩, ⟨c.position + shape.source.length, rest⟩)

/-- Taking a token leaves less text, which is why `Cursor.remaining` comes to an end. -/
theorem length_lt_of_next? {c c' : Cursor} {t : Token} (h : c.next? = some (t, c')) :
    c'.ahead.length < c.ahead.length := by
  unfold next? at h
  split at h
  · simp at h
  · rename_i shape rest hnext
    obtain ⟨-, rfl⟩ := by simpa using h
    exact length_lt_of_nextShape? hnext

/-- Every token from here to the end of the template, in order. -/
def remaining (c : Cursor) : List Token :=
  match _h : c.next? with
  | none => []
  | some (t, c') => t :: c'.remaining
termination_by c.ahead.length
decreasing_by exact length_lt_of_next? ‹_›

/-- The place after the last token. -/
def atEnd (c : Cursor) : Cursor :=
  ⟨c.position + c.ahead.length, []⟩

end Cursor

/-- The tokens of a template, in order: those that remain from its first place on
(`Cursor.remaining`). -/
def tokenize (template : String) : List Token :=
  (Cursor.ofText template).remaining

end Templating.Template
