/-!
# Binary floating point numbers of 64 bits

The fractional numbers of configurations are the binary floating point numbers of 64 bits, with
a signed zero, two infinities and one not-a-number. They are held by exact value: every finite
one is a whole multiple of the smallest positive one, `2 ^ -1074`, so a magnitude is a natural
number of these *units*. Arithmetic is exact arithmetic on units followed by one rounding to
the nearest representable magnitude, ties going to the even significand.

## Main definitions

* `Magnitude`: a representable number of units.
* `Binary64`: the numbers.
* `Binary64.ofRatio`: the number nearest to a ratio of units.
* `Binary64.ofDecimal`, `Binary64.ofInt`, `Binary64.ofQuotient`: the numbers nearest to a decimal
  fraction, an integer and a quotient of naturals.
-/

namespace Templating

/-! ### Magnitudes -/

/-- How many binary digits a natural number has. -/
def bitLength (n : Nat) : Nat :=
  if n = 0 then 0 else n.log2 + 1

/-- The gap between neighbouring magnitudes around `n` units is two to this power: a significand has
53 binary digits. Below `2 ^ 53` units neighbours are one unit apart. -/
def gapExponent (n : Nat) : Nat :=
  bitLength n - 53

/-- Whether a number of units is the magnitude of a finite number: it fills at most 53 binary
digits from its first one on, and lies below `2 ^ 1024`. -/
def isRepresentable (units : Nat) : Bool :=
  decide (bitLength units ≤ 2098) && units % Nat.pow 2 (gapExponent units) == 0

/-- The magnitude of a finite number, in units of `2 ^ -1074`, which carries the proof that it is
one (`isRepresentable`). -/
structure Magnitude where
  units : Nat
  representable : isRepresentable units = true
  deriving DecidableEq

namespace Magnitude

/-- The magnitude zero. -/
def zero : Magnitude :=
  ⟨0, by decide⟩

end Magnitude

/-- How many units make one. -/
def unitsPerOne : Nat :=
  Nat.pow 2 1074

/-! ### Rounding -/

/-- The quotient rounded to the nearest natural number, a tie to the even one. All rounding goes
through it. -/
def roundedQuotient (n d : Nat) : Nat :=
  let quotient := n / d
  let twice := 2 * (n % d)
  if twice < d then quotient
  else if d < twice then quotient + 1
  else if quotient % 2 = 0 then quotient else quotient + 1

/-- The ratio `n / d` rounded to a multiple of the gap that belongs to its size (`gapExponent`). -/
def roundedUnits (n d : Nat) : Nat :=
  let gap := Nat.pow 2 (gapExponent (n / d))
  roundedQuotient n (d * gap) * gap

/-! ### The numbers -/

/-- A binary floating point number of 64 bits. There is one not-a-number, and a zero of either
sign. -/
inductive Binary64 where
  | nan
  | infinite (negative : Bool)
  | finite (negative : Bool) (magnitude : Magnitude)
  deriving DecidableEq

namespace Binary64

/-- The number with a given sign and number of units, infinite if there is no such finite one. It is
applied to units that `roundedUnits` has rounded. -/
def ofUnits (negative : Bool) (units : Nat) : Binary64 :=
  if h : isRepresentable units = true then finite negative ⟨units, h⟩ else infinite negative

/-- The number nearest to a ratio of units with a given sign; ratios beyond the largest finite
number round to infinity. -/
def ofRatio (negative : Bool) (n d : Nat) : Binary64 :=
  ofUnits negative (roundedUnits n d)

/-- The zero with a plus sign. -/
def zero : Binary64 :=
  finite false Magnitude.zero

/-- The number nearest to an integer, infinite if that lies beyond the finite ones. -/
def ofInt (i : Int) : Binary64 :=
  ofRatio (decide (i < 0)) (i.natAbs * unitsPerOne) 1

/-- The number, if it is finite. -/
def finite? : Binary64 → Option Binary64
  | finite negative magnitude => some (finite negative magnitude)
  | _ => none

/-- The number nearest to an integer, if that is finite. `isTruthyNumber` asks for it. -/
def ofInt? (i : Int) : Option Binary64 :=
  (ofInt i).finite?

/-- The number nearest to a quotient of natural numbers. -/
def ofQuotient (n d : Nat) : Binary64 :=
  ofRatio false (n * unitsPerOne) d

/-- The number nearest to `significand * 10 ^ exponent`, where the significand has `digits`
decimal digits. A decimal fraction of `10 ^ 309` or more is infinite and one below `10 ^ -324`
is zero, so no power of ten beyond these bounds is ever computed. -/
def ofDecimal (negative : Bool) (significand digits : Nat) (exponent : Int) : Binary64 :=
  if significand = 0 then finite negative Magnitude.zero
  else if 309 < exponent + digits then infinite negative
  else if exponent + digits < -323 then finite negative Magnitude.zero
  else
    ofRatio negative (significand * Nat.pow 10 exponent.toNat * unitsPerOne)
      (Nat.pow 10 (-exponent).toNat)

/-- The exact value, if it is a whole number. No rounding takes place. -/
def toInt? : Binary64 → Option Int
  | finite negative m =>
    if m.units % unitsPerOne = 0 then
      let whole : Int := (m.units / unitsPerOne : Nat)
      some (if negative then -whole else whole)
    else none
  | _ => none

/-- Whether the number is a zero of either sign. -/
def isZero : Binary64 → Bool
  | finite _ m => m.units == 0
  | _ => false

/-- The number with the opposite sign. -/
def neg : Binary64 → Binary64
  | nan => nan
  | infinite negative => infinite !negative
  | finite negative m => finite (!negative) m

/-- The sum, rounded once. A sum that is exactly zero has a minus sign only if both terms have
one. -/
def add : Binary64 → Binary64 → Binary64
  | nan, _ => nan
  | _, nan => nan
  | infinite a, infinite b => if a = b then infinite a else nan
  | infinite a, finite _ _ => infinite a
  | finite _ _, infinite b => infinite b
  | finite a m, finite b n =>
    let sum : Int :=
      (if a then -(m.units : Int) else m.units) + (if b then -(n.units : Int) else n.units)
    if sum = 0 then finite (a && b) Magnitude.zero
    else ofRatio (decide (sum < 0)) sum.natAbs 1

/-- The difference, rounded once: `add` with the sign of the second turned around. -/
def sub (x y : Binary64) : Binary64 :=
  add x (neg y)

end Binary64

end Templating
