/-!
# Hexadecimal digits

The sixteen hexadecimal digits. They are written in lower case and read in either.
-/

namespace Templating.Text

/-- The hexadecimal digit of a number below sixteen. -/
def hexDigit (n : Nat) : Char :=
  if n < 10 then Char.ofNat (48 + n) else Char.ofNat (87 + n)

/-- The `count` last hexadecimal digits of a number, the most significant first, in small
letters. -/
def hexDigits (count n : Nat) : List Char :=
  ((List.range count).map fun place => hexDigit (n / Nat.pow 16 place % 16)).reverse

/-- The number that a hexadecimal digit stands for. -/
def hexValue? (c : Char) : Option Nat :=
  if '0' ≤ c ∧ c ≤ '9' then some (c.toNat - 48)
  else if 'a' ≤ c ∧ c ≤ 'f' then some (c.toNat - 87)
  else if 'A' ≤ c ∧ c ≤ 'F' then some (c.toNat - 55)
  else none

/-- The number that hexadecimal digits stand for, the most significant first, in letters of either
case. -/
def hexNumber? (cs : List Char) : Option Nat :=
  cs.foldlM (fun n c => (hexValue? c).map (16 * n + ·)) 0

end Templating.Text
