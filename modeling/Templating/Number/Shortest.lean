import Templating.Number.Binary64
import Templating.Text.DecimalDigit

/-!
# Shortest decimal texts

A binary floating point number is written with the fewest significant digits that read back as
the same number; of several such decimals the nearest to the number is taken, and of two equally
near ones the one with the even last digit. For each count of digits only the two neighbours of
the number on that decimal grid have to be tried.

Texts are positional for decimal exponents from -4 to 15 and always show a digit after the point;
other exponents use the exponential notation with a sign and at least two exponent digits.

## Main definitions

* `Decimal`: a significand and a power of ten.
* `Magnitude.shortest`: the shortest decimal that reads back.
* `Binary64.text`: the text of a number.
-/

namespace Templating

open Templating.Text

/-- The decimal fraction `significand * 10 ^ exponent`. -/
structure Decimal where
  significand : Nat
  exponent : Int
  deriving DecidableEq

namespace Decimal

/-- The digits of the significand. -/
def digits (d : Decimal) : List Char :=
  d.significand.repr.toList

/-- The number that the decimal denotes. -/
def toBinary64 (d : Decimal) : Binary64 :=
  Binary64.ofDecimal false d.significand d.digits.length d.exponent

/-- The same decimal fraction without zeros at the end of the significand; at most `bound` of
them are taken off. -/
def stripZeros : (bound : Nat) → Decimal → Decimal
  | 0, d => d
  | bound + 1, d =>
    if d.significand ≠ 0 ∧ d.significand % 10 = 0 then
      stripZeros bound ⟨d.significand / 10, d.exponent + 1⟩
    else d

/-- The power of ten of the first digit. -/
def leadingExponent (d : Decimal) : Int :=
  d.exponent + d.digits.length - 1

/-- The decimal in positional notation, with at least one digit on either side of the point. -/
def positionalText (d : Decimal) : List Char :=
  let ds := d.digits
  let point := d.exponent + ds.length
  if point ≤ 0 then '0' :: '.' :: (List.replicate (-point).toNat '0' ++ ds)
  else if 0 ≤ d.exponent then ds ++ List.replicate d.exponent.toNat '0' ++ ['.', '0']
  else ds.take point.toNat ++ '.' :: ds.drop point.toNat

/-- The exponent in exponential notation: its sign and at least two digits. -/
def exponentText (e : Int) : List Char :=
  let ds := e.natAbs.repr.toList
  (if e < 0 then '-' else '+') :: (if ds.length < 2 then '0' :: ds else ds)

/-- The decimal in exponential notation, with one digit before the point and no point where no
digit follows. -/
def exponentialText (d : Decimal) : List Char :=
  let mantissa :=
    match d.digits with
    | [] => []
    | [c] => [c]
    | c :: cs => c :: '.' :: cs
  mantissa ++ 'e' :: exponentText d.leadingExponent

/-- The text of the decimal: positional for leading exponents from -4 to 15. -/
def text (d : Decimal) : List Char :=
  if -4 ≤ d.leadingExponent ∧ d.leadingExponent < 16 then d.positionalText
  else d.exponentialText

end Decimal

namespace Magnitude

/-- The power of ten of the first decimal digit of a magnitude other than zero. -/
def leadingExponent (m : Magnitude) : Int :=
  let whole := m.units / unitsPerOne
  if whole = 0 then
    -((List.range 324).countP fun k => m.units * Nat.pow 10 (k + 1) < unitsPerOne : Nat) - 1
  else (whole.repr.length : Int) - 1

/-- Of the decimals with `count` digits next to the magnitude, the nearest of those that read
back. -/
def decimalWith? (m : Magnitude) (count : Nat) : Option Decimal :=
  let exponent := m.leadingExponent - (count - 1 : Int)
  let n := m.units * Nat.pow 10 (-exponent).toNat
  let d := unitsPerOne * Nat.pow 10 exponent.toNat
  let lower : Decimal := ⟨n / d, exponent⟩
  let upper : Decimal := ⟨n / d + 1, exponent⟩
  let target := Binary64.finite false m
  if lower.toBinary64 = target then
    if upper.toBinary64 = target then
      if roundedQuotient n d = n / d then some lower else some upper
    else some lower
  else if upper.toBinary64 = target then some upper
  else none

/-- The shortest decimal that reads back as the magnitude. Seventeen digits always suffice. -/
def shortest (m : Magnitude) : Decimal :=
  match (List.range 17).findSome? fun k => m.decimalWith? (k + 1) with
  | some d => d.stripZeros d.digits.length
  | none => ⟨m.units / unitsPerOne, 0⟩

end Magnitude

namespace Binary64

/-- The text of a number: shortest digits, with a sign for negative numbers and negative zero. -/
def text : Binary64 → String
  | nan => "nan"
  | infinite negative => if negative then "-inf" else "inf"
  | finite negative m =>
    let digits := if m.units = 0 then ['0', '.', '0'] else m.shortest.text
    String.ofList (if negative then '-' :: digits else digits)

end Binary64

end Templating
