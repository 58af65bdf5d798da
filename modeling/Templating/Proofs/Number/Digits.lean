import Mathlib.Algebra.Group.Nat.Defs
import Mathlib.Data.List.Basic
import Templating.Number.Numeral

/-!
# Runs of digits

The digits of every script lie apart from the characters that may stand around a number, so a
text that begins and ends with a digit has no padding to lose. A run of digits is read to its
end, and the digits of a natural number are read back as the number.

## Main definitions

* `digitValues`: the values of the decimal digits zero to nine.
* `WrittenInteger`: integers as they are written, with their text and their value.

## Main results

* `natOfDigits_digitValues_repr`: the digits of a number denote it.
* `head?_repr_ne_zero`: a number other than zero does not begin with a zero.
* `Numeral.digits_append`: a run of digits is read to its end.
* `WrittenInteger.integer?_text`: a written integer is read as the integer that is written.
-/

namespace Templating

open Templating.Text

/-! ### Digits of every script -/

/-- The digits of every script lie apart from the blank characters: the table `digitZeros` of their
zeros avoids the ranges in which those stand. -/
theorem digitZeros_apart : ∀ z ∈ digitZeros, z = 0x30 ∨ (0xA0 < z ∧ z + 9 < 0x1680)
    ∨ (0x1680 < z ∧ z + 9 < 0x2000) ∨ 0x3000 < z := by
  decide

/-- No digit of any script is blank, by `digitZeros_apart`. -/
theorem not_isBlank_of_isDigit {c : Char} (h : isDigit c = true) : isBlank c = false := by
  obtain ⟨d, hd⟩ := Option.isSome_iff_exists.1 h
  obtain ⟨z, hfind, -⟩ := Option.map_eq_some_iff.1 hd
  have hz := List.find?_some hfind
  simp only [Bool.and_eq_true, decide_eq_true_eq] at hz
  have hapart := digitZeros_apart z (List.mem_of_find?_eq_some hfind)
  simp only [isBlank, Bool.or_eq_false_iff, Bool.and_eq_false_iff, decide_eq_false_iff_not,
    beq_eq_false_iff_ne]
  omega

/-- A digit is one of the ten common ones, or lies beyond the first blank character that is not
among the lowest. -/
theorem bounds_of_isDigit {c : Char} (h : isDigit c = true) :
    (48 ≤ c.toNat ∧ c.toNat ≤ 57) ∨ 0xA0 < c.toNat := by
  obtain ⟨d, hd⟩ := Option.isSome_iff_exists.1 h
  obtain ⟨z, hfind, -⟩ := Option.map_eq_some_iff.1 hd
  have hz := List.find?_some hfind
  have hapart := digitZeros_apart z (List.mem_of_find?_eq_some hfind)
  simp only [Bool.and_eq_true, decide_eq_true_eq] at hz
  omega

/-- `Char.toLower` changes no digit of any script. -/
theorem toLower_of_isDigit {c : Char} (h : isDigit c = true) : c.toLower = c := by
  refine dif_neg fun hletter => ?_
  have hlower : 'A'.toNat ≤ c.toNat := UInt32.le_iff_toNat_le.1 hletter.1
  have hupper : c.toNat ≤ 'Z'.toNat := UInt32.le_iff_toNat_le.1 hletter.2
  have hA : 'A'.toNat = 65 := rfl
  have hZ : 'Z'.toNat = 90 := rfl
  have hbounds := bounds_of_isDigit h
  omega

/-- A text that begins with a digit or a minus sign is none of the words that stand for values,
whose first character is neither. -/
theorem ofList_map_toLower_ne {c c' : Char} {cs cs' : List Char} (hc : isDigit c = true ∨ c = '-')
    (hc' : isDigit c' = false) (hminus : c' ≠ '-') :
    String.ofList ((c :: cs).map Char.toLower) ≠ String.ofList (c' :: cs') := by
  intro heq
  have hhead := (List.cons.inj (String.ofList_injective heq)).1
  rcases hc with hdigit | rfl
  · rw [toLower_of_isDigit hdigit] at hhead
    rw [← hhead, hdigit] at hc'
    cases hc'
  · exact hminus hhead.symm

namespace Numeral

theorem not_isPadding_of_not_isBlank {c : Char} (h : isBlank c = false) :
    isPadding c = false := by
  simp [isPadding, h]

theorem not_isPadding_of_isDigit {c : Char} (h : isDigit c = true) : isPadding c = false :=
  not_isPadding_of_not_isBlank (not_isBlank_of_isDigit h)

/-- One more digit in front of what `moreDigits` reads adds its value. -/
theorem moreDigits_cons {c : Char} {cs : List Char} {d : Nat} (h : digitValue? c = some d) :
    moreDigits (c :: cs) = (d :: (moreDigits cs).1, (moreDigits cs).2) := by
  cases cs with
  | nil => simp [moreDigits, h]
  | cons c' cs => simp [moreDigits, h]

/-- A run of digits is read to its end by `moreDigits`. Induction on the run. -/
theorem moreDigits_of_all {cs : List Char} (h : ∀ c ∈ cs, isDigit c = true) :
    (moreDigits cs).1.length = cs.length ∧ (moreDigits cs).2 = [] := by
  induction cs with
  | nil => exact ⟨rfl, rfl⟩
  | cons c cs ih =>
    obtain ⟨d, hd⟩ := Option.isSome_iff_exists.1 (h c List.mem_cons_self)
    obtain ⟨hlength, hrest⟩ := ih fun c' hc' => h c' (List.mem_cons_of_mem _ hc')
    rw [moreDigits_cons hd]
    exact ⟨by simp [hlength], hrest⟩

/-- A text that begins with a digit has no sign to cut off. -/
theorem sign_of_isDigit {c : Char} (h : isDigit c = true) (cs : List Char) :
    sign (c :: cs) = (false, c :: cs) := by
  rw [sign.eq_def]
  split
  · rename_i heq
    obtain ⟨rfl, -⟩ := List.cons.inj heq
    exact absurd h (by decide)
  · rename_i heq
    obtain ⟨rfl, -⟩ := List.cons.inj heq
    exact absurd h (by decide)
  · rfl

/-- A text with no padding at either end is left as it is by `unpadded`. -/
theorem unpadded_eq_self {cs : List Char} (hfirst : ∀ c, cs.head? = some c → isPadding c = false)
    (hlast : ∀ c, cs.getLast? = some c → isPadding c = false) : unpadded cs = cs := by
  have drop : ∀ {ds : List Char}, (∀ c, ds.head? = some c → isPadding c = false) →
      ds.dropWhile isPadding = ds := by
    intro ds h
    cases ds with
    | nil => rfl
    | cons d ds => exact List.dropWhile_cons_of_neg (by simp [h d rfl])
  rw [unpadded, drop hfirst, drop fun c hc => hlast c (by rwa [← List.head?_reverse]),
    List.reverse_reverse]

end Numeral

/-! ### The digits of a natural number -/

/-- The values of the decimal digits zero to nine. -/
def digitValues (cs : List Char) : List Nat :=
  cs.map fun c => c.toNat - '0'.toNat

/-- The values of two runs of digits, one after the other. -/
theorem digitValues_append (cs ds : List Char) :
    digitValues (cs ++ ds) = digitValues cs ++ digitValues ds :=
  List.map_append

@[simp]
theorem length_digitValues (cs : List Char) : (digitValues cs).length = cs.length :=
  List.length_map _

/-- The number that the values denote is the one that the library reads from the characters with
`Nat.ofDigitChars`. -/
theorem natOfDigits_digitValues (cs : List Char) :
    natOfDigits (digitValues cs) = Nat.ofDigitChars 10 cs 0 := by
  rw [natOfDigits, digitValues, List.foldl_map, Nat.ofDigitChars_eq_foldl]

/-- **The digits of a number denote it**, by `Nat.ofDigitChars_ten_toDigits`. -/
theorem natOfDigits_digitValues_repr (n : Nat) : natOfDigits (digitValues n.repr.toList) = n := by
  rw [natOfDigits_digitValues, Nat.toList_repr, Nat.ofDigitChars_ten_toDigits]

/-- Zeros at the end are powers of ten, by `Nat.ofDigitChars_replicate_zero`. -/
theorem natOfDigits_append_zeros (cs : List Char) (k : Nat) :
    natOfDigits (digitValues (cs ++ List.replicate k '0'))
      = natOfDigits (digitValues cs) * 10 ^ k := by
  rw [natOfDigits_digitValues, natOfDigits_digitValues, Nat.ofDigitChars_append,
    Nat.ofDigitChars_replicate_zero, Nat.mul_comm]

/-- A natural number is written with decimal digits only, by `Nat.isDigit_of_mem_toDigits`. -/
theorem isDigit_of_mem_repr {n : Nat} {c : Char} (h : c ∈ n.repr.toList) : c.isDigit = true := by
  rw [Nat.toList_repr] at h
  exact Nat.isDigit_of_mem_toDigits (by omega) (by omega) h

/-- A natural number has at least one digit. -/
theorem repr_ne_nil (n : Nat) : n.repr.toList ≠ [] := by
  rw [Nat.toList_repr]
  exact Nat.toDigits_ne_nil

/-- A number other than zero does not begin with a zero. Strong induction, dividing by ten. -/
theorem head?_repr_ne_zero {n : Nat} (h : n ≠ 0) : n.repr.toList.head? ≠ some '0' := by
  rw [Nat.toList_repr]
  induction n using Nat.strongRecOn with
  | ind n ih =>
    by_cases hn : n < 10
    · rw [Nat.toDigits_of_lt_base hn, List.head?_cons, ne_eq, Option.some.injEq]
      intro hzero
      have hvalue := Nat.toNat_digitChar_sub_48_of_lt_ten hn
      rw [hzero] at hvalue
      exact h hvalue.symm
    · rw [Nat.toDigits_of_base_le (by omega) (by omega), List.head?_append_of_ne_nil _
        Nat.toDigits_ne_nil]
      exact ih (n / 10) (by omega) (by omega)

/-- A decimal digit has its own value, since the common digits come first in `digitZeros`. -/
theorem digitValue?_of_isDigit {c : Char} (h : c.isDigit = true) :
    digitValue? c = some (c.toNat - '0'.toNat) := by
  obtain ⟨hlower, hupper⟩ := Char.isDigit_iff_toNat.1 h
  have hfind : digitZeros.find? (fun z => z ≤ c.toNat && c.toNat < z + 10) = some 0x30 := by
    refine List.find?_cons_of_pos ?_
    simp only [Bool.and_eq_true, decide_eq_true_eq]
    exact ⟨hlower, Nat.lt_succ_of_le hupper⟩
  rw [digitValue?, hfind]
  rfl

/-- Decimal digits are digits of some script. -/
theorem isDigit_of_decimal {c : Char} (h : c.isDigit = true) : isDigit c = true := by
  rw [isDigit, digitValue?_of_isDigit h]
  rfl

namespace Numeral

/-- Whether a text does not go on with more digits: its first character is neither a digit nor an
underscore. -/
def EndsDigits (rest : List Char) : Prop :=
  ∀ c, rest.head? = some c → digitValue? c = none ∧ c ≠ '_'

/-- Nothing goes on at the end of the text. -/
theorem endsDigits_nil : EndsDigits [] := by
  intro c hc
  cases hc

/-- No digit is read where none goes on. -/
theorem moreDigits_of_endsDigits {rest : List Char} (h : EndsDigits rest) :
    moreDigits rest = ([], rest) := by
  rcases rest with - | ⟨c, - | ⟨c', rest⟩⟩
  · rfl
  · obtain ⟨hnone, -⟩ := h c rfl
    simp only [moreDigits, hnone]
  · obtain ⟨hnone, hne⟩ := h c rfl
    simp only [moreDigits, hnone, hne, false_and, if_false]

/-- A run of digits is read to its end by `moreDigits`, by the values of the digits. Induction on
the run. -/
theorem moreDigits_append {cs rest : List Char} (h : ∀ c ∈ cs, c.isDigit = true)
    (hrest : EndsDigits rest) : moreDigits (cs ++ rest) = (digitValues cs, rest) := by
  induction cs with
  | nil => exact moreDigits_of_endsDigits hrest
  | cons c cs ih =>
    rw [List.cons_append, moreDigits_cons (digitValue?_of_isDigit (h c List.mem_cons_self)),
      ih fun c' hc' => h c' (List.mem_cons_of_mem _ hc')]
    rfl

/-- The same for a run that may not be empty: `Numeral.digits` reads the values of the run and
leaves the rest. -/
theorem digits_append {cs rest : List Char} (h : ∀ c ∈ cs, c.isDigit = true)
    (hrest : EndsDigits rest) : digits (cs ++ rest) = (digitValues cs, rest) := by
  rw [← moreDigits_append h hrest]
  cases cs with
  | nil =>
    rw [List.nil_append, moreDigits_of_endsDigits hrest]
    cases rest with
    | nil => rfl
    | cons c rest => simp only [digits, isDigit, (hrest c rfl).1, Option.isSome_none,
        Bool.false_eq_true, if_false]
  | cons c cs =>
    have hc := isDigit_of_decimal (h c List.mem_cons_self)
    simp only [List.cons_append, digits, hc, if_true]

end Numeral

/-! ### Integers as they are written -/

/-- A minus sign or none, and decimal digits, not too many. -/
structure WrittenInteger where
  negative : Bool
  digits : List Char
  nonempty : digits ≠ []
  decimal : ∀ c ∈ digits, c.isDigit = true
  short : digits.length ≤ Numeral.maxIntegerDigits

namespace WrittenInteger

/-- The text of a written integer. -/
def text (w : WrittenInteger) : String :=
  String.ofList (if w.negative then '-' :: w.digits else w.digits)

/-- The integer that is written. -/
def value (w : WrittenInteger) : Int :=
  if w.negative then -Nat.ofDigitChars 10 w.digits 0 else Nat.ofDigitChars 10 w.digits 0

variable (w : WrittenInteger)

theorem toList_text : w.text.toList = if w.negative then '-' :: w.digits else w.digits :=
  String.toList_ofList

/-- The digits of a written integer are digits of some script. -/
theorem isDigit_of_mem_digits : ∀ c ∈ w.digits, isDigit c = true :=
  fun c hc => isDigit_of_decimal (w.decimal c hc)

/-- A written integer has digits and minus signs only. -/
theorem isDigit_or_eq_minus : ∀ c ∈ w.text.toList, isDigit c = true ∨ c = '-' := by
  intro c hc
  rw [toList_text] at hc
  split at hc
  · exact (List.mem_cons.1 hc).symm.imp_left (w.isDigit_of_mem_digits c)
  · exact .inl (w.isDigit_of_mem_digits c hc)

/-- A written integer has no padding to lose. -/
theorem unpadded_text : Numeral.unpadded w.text.toList = w.text.toList := by
  have hpadding : ∀ c ∈ w.text.toList, Numeral.isPadding c = false := by
    intro c hc
    rcases w.isDigit_or_eq_minus c hc with hdigit | rfl
    · exact Numeral.not_isPadding_of_isDigit hdigit
    · decide
  exact Numeral.unpadded_eq_self (fun c hc => hpadding c (List.mem_of_head? hc))
    fun c hc => hpadding c (List.mem_of_getLast? hc)

/-- The sign of a written integer is cut from its digits. -/
theorem sign_text : Numeral.sign w.text.toList = (w.negative, w.digits) := by
  rw [toList_text]
  cases w.negative with
  | true => rfl
  | false =>
    obtain ⟨c, cs, hcons⟩ := List.exists_cons_of_ne_nil w.nonempty
    have hc := w.isDigit_of_mem_digits c (hcons ▸ List.mem_cons_self)
    rw [hcons]
    exact Numeral.sign_of_isDigit hc cs

/-- **A written integer is read as the integer that is written**: it is not padded
(`unpadded_text`), its digits are read to their end, and there are not too many. -/
theorem integer?_text : Numeral.integer? w.text.toList = some w.value := by
  have hdigits : Numeral.digits w.digits = (digitValues w.digits, []) := by
    have hrun := Numeral.digits_append w.decimal Numeral.endsDigits_nil
    rwa [List.append_nil] at hrun
  have hnonempty : (digitValues w.digits).isEmpty = false := by
    simpa [digitValues] using w.nonempty
  simp only [Numeral.integer?, w.unpadded_text, w.sign_text, hdigits, hnonempty,
    length_digitValues, natOfDigits_digitValues]
  rw [if_neg (by simpa using w.short)]
  rfl

end WrittenInteger

end Templating
