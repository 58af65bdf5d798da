/-!
# Decimal digits

Numbers in guards, options and command line values may be written with the decimal digits of
any script. The digits of a script are ten consecutive characters from zero to nine, so a table
of the zeros is enough.

## Main definitions

* `digitValue?`: the value of a decimal digit.
* `natOfDigits`: the number that a list of digit values denotes.
-/

namespace Templating.Text

/-- The code points of the decimal digits zero, script by script. The other nine digits of a script
follow its zero. -/
def digitZeros : List Nat :=
  [0x30, 0x660, 0x6F0, 0x7C0, 0x966, 0x9E6, 0xA66, 0xAE6, 0xB66, 0xBE6, 0xC66, 0xCE6, 0xD66,
   0xDE6, 0xE50, 0xED0, 0xF20, 0x1040, 0x1090, 0x17E0, 0x1810, 0x1946, 0x19D0, 0x1A80, 0x1A90,
   0x1B50, 0x1BB0, 0x1C40, 0x1C50, 0xA620, 0xA8D0, 0xA900, 0xA9D0, 0xA9F0, 0xAA50, 0xABF0,
   0xFF10, 0x104A0, 0x10D30, 0x11066, 0x110F0, 0x11136, 0x111D0, 0x112F0, 0x11450, 0x114D0,
   0x11650, 0x116C0, 0x11730, 0x118E0, 0x11950, 0x11C50, 0x11D50, 0x11DA0, 0x16A60, 0x16AC0,
   0x16B50, 0x1D7CE, 0x1D7D8, 0x1D7E2, 0x1D7EC, 0x1D7F6, 0x1E140, 0x1E2F0, 0x1E950, 0x1FBF0]

/-- The value of a decimal digit of any script (`digitZeros`). -/
def digitValue? (c : Char) : Option Nat :=
  (digitZeros.find? fun z => z ≤ c.toNat && c.toNat < z + 10).map (c.toNat - ·)

/-- Whether a character is a decimal digit of some script. -/
def isDigit (c : Char) : Bool :=
  (digitValue? c).isSome

/-- The number that the digit values denote, the first one the most significant. It takes any
values, so it can be told by `natOfDigits_append_singleton`. -/
def natOfDigits (digits : List Nat) : Nat :=
  digits.foldl (fun n d => 10 * n + d) 0

/-- The decimal text of an integer. -/
def integerText (i : Int) : String :=
  if i < 0 then "-" ++ i.natAbs.repr else i.natAbs.repr

theorem digitValue?_lt {c : Char} {d : Nat} (h : digitValue? c = some d) : d < 10 := by
  obtain ⟨z, hfind, rfl⟩ := Option.map_eq_some_iff.1 h
  have hrange := List.find?_some hfind
  simp only [Bool.and_eq_true, decide_eq_true_eq] at hrange
  omega

/-- One more digit makes the number ten times as large and adds the digit. -/
theorem natOfDigits_append_singleton (digits : List Nat) (d : Nat) :
    natOfDigits (digits ++ [d]) = 10 * natOfDigits digits + d := by
  simp [natOfDigits]

end Templating.Text
