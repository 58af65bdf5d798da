import Templating.Fault
import Templating.Number.Numeral
import Templating.Text.Hexadecimal
import Templating.Text.Search
import Templating.Value.Basic

/-!
# The lexemes of JSON

A JSON text consists of brackets, braces, commas, colons, strings, numbers and words, with blank
space around them. A number without a fraction and without a power of ten is an integer, any
other a floating point number; besides the words of the format there are words for infinity and
not-a-number. Inside a string a backslash begins an escape, and control characters have to be
escaped.

The lexemes of a text end with the first place that begins none, which is marked as junk.

## Main definitions

* `Json.Lexeme`: the lexemes.
* `Json.nextLexeme`: the lexeme at the head of a text.
* `Json.lexemes`: the lexemes of a text.
-/

namespace Templating.Json

open Templating.Text

/-- A lexeme of a JSON text. -/
inductive Lexeme where
  | openList
  | closeList
  | openMapping
  | closeMapping
  | comma
  | colon
  | text (s : String)
  /-- A word or a floating point number. -/
  | literal (v : Value)
  /-- An integer by its sign and its digits. -/
  | integer (digits : List Char)
  | junk

/-! ### Strings -/

/-- The character that an escape of one letter stands for. -/
def escapedChar? (c : Char) : Option Char :=
  match c with
  | '"' => some '"'
  | '\\' => some '\\'
  | '/' => some '/'
  | 'b' => some '\x08'
  | 'f' => some '\x0c'
  | 'n' => some '\n'
  | 'r' => some '\r'
  | 't' => some '\t'
  | _ => none

/-- The characters of a string after its opening quote, up to its closing quote, as numbers, and
the text after it. An escape by number gives that number. -/
def stringUnits? : List Char → Option (List Nat × List Char)
  | [] => none
  | '"' :: rest => some ([], rest)
  | '\\' :: 'u' :: a :: b :: c :: d :: rest =>
    match hexNumber? [a, b, c, d], stringUnits? rest with
    | some n, some (units, rest) => some (n :: units, rest)
    | _, _ => none
  | '\\' :: c :: rest =>
    match escapedChar? c, stringUnits? rest with
    | some c, some (units, rest) => some (c.toNat :: units, rest)
    | _, _ => none
  | c :: rest =>
    if c.toNat < 0x20 then none
    else (stringUnits? rest).map fun (units, rest) => (c.toNat :: units, rest)

/-- Whether a number is the first half of a surrogate pair. -/
def isHighSurrogate (n : Nat) : Bool :=
  0xD800 ≤ n && n ≤ 0xDBFF

/-- Whether a number is the second half of a surrogate pair. -/
def isLowSurrogate (n : Nat) : Bool :=
  0xDC00 ≤ n && n ≤ 0xDFFF

/-- The character with a number; the replacement character for half of a surrogate pair. -/
def charOfUnit (n : Nat) : Char :=
  if isHighSurrogate n || isLowSurrogate n then '\uFFFD' else Char.ofNat n

/-- The characters that numbers stand for, where a surrogate pair stands for one. Half of a pair is
no character and is replaced (`charOfUnit`). -/
def charsOfUnits : List Nat → List Char
  | high :: low :: rest =>
    if isHighSurrogate high && isLowSurrogate low then
      Char.ofNat (0x10000 + (high - 0xD800) * 0x400 + (low - 0xDC00)) :: charsOfUnits rest
    else charOfUnit high :: charsOfUnits (low :: rest)
  | [n] => [charOfUnit n]
  | [] => []

/-! ### Numbers -/

/-- Whether a character is one of the ten digits of JSON. -/
def isJsonDigit (c : Char) : Bool :=
  '0' ≤ c && c ≤ '9'

/-- The digits at the head of a text, and the text after them. -/
def digitRun (cs : List Char) : List Char × List Char :=
  (cs.takeWhile isJsonDigit, cs.dropWhile isJsonDigit)

/-- The part of a number before the point: one zero, or digits of which the first is no zero. -/
def wholePart : List Char → List Char × List Char
  | '0' :: rest => (['0'], rest)
  | cs => digitRun cs

/-- The point and the digits after it; nothing if there are none. -/
def fractionPart (cs : List Char) : List Char × List Char :=
  match cs with
  | '.' :: rest =>
    let (ds, rest) := digitRun rest
    if ds.isEmpty then ([], cs) else ('.' :: ds, rest)
  | _ => ([], cs)

/-- The sign at the head of a power of ten. -/
def powerSign : List Char → List Char × List Char
  | '+' :: rest => (['+'], rest)
  | '-' :: rest => (['-'], rest)
  | cs => ([], cs)

/-- The power of ten of a number; nothing if there is none. -/
def powerPart (cs : List Char) : List Char × List Char :=
  match cs with
  | [] => ([], [])
  | e :: rest =>
    if e = 'e' ∨ e = 'E' then
      let (sign, rest) := powerSign rest
      let (ds, rest) := digitRun rest
      if ds.isEmpty then ([], cs) else (e :: (sign ++ ds), rest)
    else ([], cs)

/-- The number after a sign: an integer if it has neither a fraction nor a power of ten, and a
floating point number if it has (`Numeral.decimal?`). -/
def nextNumber (sign cs : List Char) : Lexeme × List Char :=
  let (whole, rest) := wholePart cs
  if whole.isEmpty then (.junk, [])
  else
    let (fraction, rest) := fractionPart rest
    let (power, rest) := powerPart rest
    if fraction.isEmpty && power.isEmpty then (.integer (sign ++ whole), rest)
    else
      match Numeral.decimal? (sign ++ whole ++ fraction ++ power) with
      | some x => (.literal (.binary x), rest)
      | none => (.junk, [])

/-! ### Lexemes -/

/-- Whether a character is blank space in JSON. -/
def isJsonBlank (c : Char) : Bool :=
  c = ' ' || c = '\t' || c = '\n' || c = '\r'

/-- The words and what they stand for. -/
def words : List (List Char × Value) :=
  [("null".toList, .null), ("true".toList, .bool true), ("false".toList, .bool false),
    ("NaN".toList, .binary .nan), ("Infinity".toList, .binary (.infinite false)),
    ("-Infinity".toList, .binary (.infinite true))]

/-- The word at the head of a text, and the text after it. -/
def nextWord? (cs : List Char) : Option (Value × List Char) :=
  words.findSome? fun (word, v) => (dropLeading word cs).map fun rest => (v, rest)

/-- The lexeme at the head of a text that does not begin with blank space, and the text after
it. -/
def nextLexeme (cs : List Char) : Lexeme × List Char :=
  match cs with
  | '[' :: rest => (.openList, rest)
  | ']' :: rest => (.closeList, rest)
  | '\x7b' :: rest => (.openMapping, rest)
  | '\x7d' :: rest => (.closeMapping, rest)
  | ',' :: rest => (.comma, rest)
  | ':' :: rest => (.colon, rest)
  | '"' :: rest =>
    match stringUnits? rest with
    | some (units, rest) => (.text (String.ofList (charsOfUnits units)), rest)
    | none => (.junk, [])
  | cs =>
    match nextWord? cs with
    | some (v, rest) => (.literal v, rest)
    | none =>
      match cs with
      | '-' :: rest => nextNumber ['-'] rest
      | cs => nextNumber [] cs

/-- The lexemes of a text, at most the given number of them. Nothing is looked at behind what is no
lexeme. -/
def lexemesUpTo : Nat → List Char → List Lexeme
  | 0, _ => []
  | n + 1, cs =>
    match cs.dropWhile isJsonBlank with
    | [] => []
    | cs =>
      match nextLexeme cs with
      | (.junk, _) => [.junk]
      | (lexeme, rest) => lexeme :: lexemesUpTo n rest

/-- The lexemes of a text. Each has at least one character, so there are no more of them than
characters. -/
def lexemes (s : String) : List Lexeme :=
  lexemesUpTo s.toList.length s.toList

end Templating.Json
