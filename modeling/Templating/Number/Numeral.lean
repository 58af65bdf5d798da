import Templating.Number.Binary64
import Templating.Text.Blank
import Templating.Text.DecimalDigit

/-!
# Reading numbers

Two ways of reading a text as a number. An integer is an optional sign and decimal digits; a
decimal number may also have a fraction and a power of ten, or be a word for infinity or
not-a-number. Digits are those of any script, single underscores may stand between digits, and
blank characters around the number are ignored, the four information separators excepted.

## Main definitions

* `Numeral.integer?`: the integer that a text denotes.
* `Numeral.decimal?`: the floating point number that a text denotes.
* `Numeral.isPlain`: the shape of a number without padding, power and underscores.
-/

namespace Templating.Numeral

open Templating.Text

/-- The longest text of digits that is read as an integer. Longer ones are refused by `integer?`,
but not by `decimal?`. -/
def maxIntegerDigits : Nat := 4300

/-- Whether a character may stand around a number: a blank one (`isBlank`), but no information
separator. -/
def isPadding (c : Char) : Bool :=
  isBlank c && !(0x1C ≤ c.toNat && c.toNat ≤ 0x1F)

/-- The text without the padding at either end. -/
def unpadded (cs : List Char) : List Char :=
  ((cs.dropWhile isPadding).reverse.dropWhile isPadding).reverse

/-- Digits from here on, where an underscore is passed over if a digit follows it. -/
def moreDigits : List Char → List Nat × List Char
  | [] => ([], [])
  | [c] =>
    match digitValue? c with
    | some d => ([d], [])
    | none => ([], [c])
  | c :: c' :: cs =>
    match digitValue? c with
    | some d => (d :: (moreDigits (c' :: cs)).1, (moreDigits (c' :: cs)).2)
    | none =>
      if c = '_' ∧ isDigit c' then moreDigits (c' :: cs) else ([], c :: c' :: cs)

/-- The digits at the head of the text, if it begins with one, and the text after them. -/
def digits (cs : List Char) : List Nat × List Char :=
  match cs with
  | [] => ([], [])
  | c :: _ => if isDigit c then moreDigits cs else ([], cs)

/-- Whether the text begins with a minus sign, and the text after the sign if there is one. -/
def sign : List Char → Bool × List Char
  | '-' :: cs => (true, cs)
  | '+' :: cs => (false, cs)
  | cs => (false, cs)

/-- The integer that a text denotes; none if it has another form or more than
`maxIntegerDigits` digits. -/
def integer? (cs : List Char) : Option Int :=
  let (negative, body) := sign (unpadded cs)
  let (ds, rest) := digits body
  if ds.isEmpty || !rest.isEmpty || maxIntegerDigits < ds.length then none
  else some (if negative then -(natOfDigits ds : Int) else natOfDigits ds)

/-- The power of ten at the end of a decimal number: `e` and an integer. No power is the power
zero; none if something else follows. -/
def power? : List Char → Option Int
  | [] => some 0
  | c :: cs =>
    if c = 'e' ∨ c = 'E' then
      let (negative, body) := sign cs
      let (ds, rest) := digits body
      if ds.isEmpty || !rest.isEmpty then none
      else some (if negative then -(natOfDigits ds : Int) else natOfDigits ds)
    else none

/-- The number with the given digits before and after the point and the given power of ten, rounded
once (`Binary64.ofDecimal`). -/
def ofParts (negative : Bool) (whole fraction : List Nat) (power : Int) : Binary64 :=
  let ds := (whole ++ fraction).dropWhile (· = 0)
  Binary64.ofDecimal negative (natOfDigits ds) ds.length (power - fraction.length)

/-- A number without its sign: digits, a point and a fraction, of which either side of the point
may be empty but not both, and a power of ten. -/
def unsigned? (negative : Bool) (cs : List Char) : Option Binary64 :=
  let (whole, rest) := digits cs
  let (fraction, rest) :=
    match rest with
    | '.' :: after => digits after
    | _ => ([], rest)
  if whole.isEmpty && fraction.isEmpty then none
  else (power? rest).map (ofParts negative whole fraction)

/-- The floating point number that a text denotes: a word for one that is not finite, in letters of
either case, or a number as `unsigned?` reads it. -/
def decimal? (cs : List Char) : Option Binary64 :=
  let (negative, body) := sign (unpadded cs)
  let word := String.ofList (body.map Char.toLower)
  if word = "inf" ∨ word = "infinity" then some (.infinite negative)
  else if word = "nan" then some .nan
  else unsigned? negative body

/-- Whether a text consists of a minus sign or none, digits, and a point with digits or none. -/
def isPlain (cs : List Char) : Bool :=
  let body := match cs with
    | '-' :: rest => rest
    | _ => cs
  match body.dropWhile isDigit with
  | [] => !body.isEmpty
  | '.' :: fraction =>
    !(body.takeWhile isDigit).isEmpty && !fraction.isEmpty && fraction.all isDigit
  | _ => false

end Templating.Numeral
