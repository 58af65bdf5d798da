import Mathlib.Data.Bool.AllAny
import Templating.Proofs.Number.Digits
import Templating.Proofs.Number.Shortest

/-!
# Reading back the text of a number

The text of a floating point number is read back as the number: its digits around the point, or
before the power of ten, are those of the shortest decimal, and zeros that stand at either end do
not count. So two numbers with the same text are the same.

## Main results

* `Numeral.unsigned?_text`: the text of a decimal is read back as the decimal.
* `Numeral.decimal?_text`: the text of a number is read back as the number.
* `Binary64.text_injective`: different numbers have different texts.
-/

namespace Templating

open Templating.Text

/-- Zeros at the end of the significand may be taken off for as many more in the exponent. Induction
on their number. -/
theorem Binary64.ofDecimal_shift_pow {significand : Nat} (h : significand ≠ 0) (negative : Bool)
    (digits k : Nat) (exponent : Int) :
    ofDecimal negative (significand * 10 ^ k) (digits + k) (exponent - k)
      = ofDecimal negative significand digits exponent := by
  induction k with
  | zero => simp
  | succ k ih =>
    have hne : significand * 10 ^ k ≠ 0 := Nat.mul_ne_zero h (Nat.pow_pos (by omega)).ne'
    have hexponent : exponent - ((k + 1 : Nat) : Int) = exponent - k - 1 := by omega
    rw [Nat.pow_succ, ← Nat.mul_assoc, ← Nat.add_assoc, hexponent, ofDecimal_shift hne, ih]

/-- The sign does not matter to the magnitude that `ofDecimal` comes to. -/
theorem Binary64.ofDecimal_eq_finite {significand digits : Nat} {exponent : Int} {m : Magnitude}
    (h : ofDecimal false significand digits exponent = finite false m) (negative : Bool) :
    ofDecimal negative significand digits exponent = finite negative m := by
  rw [ofDecimal] at h ⊢
  split
  · rename_i hzero
    rw [if_pos hzero] at h
    cases h
    rfl
  · rename_i hzero
    rw [if_neg hzero] at h
    split
    · rename_i hlarge
      rw [if_pos hlarge] at h
      cases h
    · rename_i hlarge
      rw [if_neg hlarge] at h
      split
      · rename_i hsmall
        rw [if_pos hsmall] at h
        cases h
        rfl
      · rename_i hsmall
        rw [if_neg hsmall, ofRatio, ofUnits] at h
        rw [ofRatio, ofUnits]
        split
        · rename_i hrepresentable
          rw [dif_pos hrepresentable] at h
          cases h
          rfl
        · rename_i hrepresentable
          rw [dif_neg hrepresentable] at h
          cases h

namespace Numeral

/-! ### The parts of a text -/

/-- A run of digits ends before a character that is neither a digit nor an underscore. -/
theorem endsDigits_of_head {c : Char} (rest : List Char) (h : digitValue? c = none)
    (hne : c ≠ '_') : EndsDigits (c :: rest) := by
  intro c' hc'
  obtain rfl : c = c' := by simpa using hc'
  exact ⟨h, hne⟩

/-- Digits, a point and a fraction: `unsigned?` reads the two runs and leaves the power of ten. -/
theorem unsigned?_point (negative : Bool) {whole fraction rest : List Char} (hne : whole ≠ [])
    (hwhole : ∀ c ∈ whole, c.isDigit = true) (hfraction : ∀ c ∈ fraction, c.isDigit = true)
    (hrest : EndsDigits rest) :
    unsigned? negative (whole ++ '.' :: (fraction ++ rest))
      = (power? rest).map (ofParts negative (digitValues whole) (digitValues fraction)) := by
  have hdot : EndsDigits ('.' :: (fraction ++ rest)) :=
    endsDigits_of_head _ (by decide) (by decide)
  have hempty : (digitValues whole).isEmpty = false := by
    simpa [digitValues] using hne
  simp only [unsigned?, digits_append hwhole hdot, digits_append hfraction hrest, hempty,
    Bool.false_and, Bool.false_eq_true, if_false]

/-- Digits without a point: `unsigned?` reads one run and leaves the power of ten. -/
theorem unsigned?_whole (negative : Bool) {whole rest : List Char} (hne : whole ≠ [])
    (hwhole : ∀ c ∈ whole, c.isDigit = true) (hrest : EndsDigits rest)
    (hpoint : rest.head? ≠ some '.') :
    unsigned? negative (whole ++ rest)
      = (power? rest).map (ofParts negative (digitValues whole) []) := by
  have hempty : (digitValues whole).isEmpty = false := by
    simpa [digitValues] using hne
  simp only [unsigned?, digits_append hwhole hrest]
  split
  · exact absurd rfl hpoint
  · simp only [hempty, Bool.false_and, Bool.false_eq_true, if_false]

/-- A power of ten with its sign is read back from `Decimal.exponentText`. -/
theorem power?_exponentText (e : Int) : power? ('e' :: Decimal.exponentText e) = some e := by
  have hall : ∀ c ∈ e.natAbs.repr.toList, c.isDigit = true := fun _ => isDigit_of_mem_repr
  have hdigits : ∀ cs : List Char, (∀ c ∈ cs, c.isDigit = true) →
      digits cs = (digitValues cs, []) := by
    intro cs hcs
    simpa using digits_append hcs endsDigits_nil
  have hread : ∀ cs : List Char, cs = e.natAbs.repr.toList ∨ cs = '0' :: e.natAbs.repr.toList →
      digits cs = (digitValues cs, []) ∧ (digitValues cs).isEmpty = false
        ∧ natOfDigits (digitValues cs) = e.natAbs := by
    rintro cs (rfl | rfl)
    · refine ⟨hdigits _ hall, ?_, natOfDigits_digitValues_repr _⟩
      simp [digitValues]
    · refine ⟨hdigits _ ?_, rfl, ?_⟩
      · rintro c (- | ⟨-, hc⟩)
        · rfl
        · exact hall c hc
      · exact natOfDigits_digitValues_repr _
  obtain ⟨hdigits, hempty, hvalue⟩ := hread
    (if e.natAbs.repr.toList.length < 2 then '0' :: e.natAbs.repr.toList
      else e.natAbs.repr.toList) (by split <;> simp)
  simp only [Decimal.exponentText]
  generalize (if e.natAbs.repr.toList.length < 2 then '0' :: e.natAbs.repr.toList
    else e.natAbs.repr.toList) = cs at hdigits hempty hvalue ⊢
  rcases lt_or_ge e 0 with hneg | hpos
  · simp only [if_pos hneg, power?, sign, hdigits, hempty, hvalue, true_or, if_true,
      List.isEmpty_nil, Bool.not_true, Bool.or_false, Bool.false_eq_true, if_false,
      Option.some.injEq]
    omega
  · simp only [if_neg (not_lt.2 hpos), power?, sign, hdigits, hempty, hvalue, true_or, if_true,
      List.isEmpty_nil, Bool.not_true, Bool.or_false, Bool.false_eq_true, if_false,
      Option.some.injEq]
    omega

/-- The digits of a number with zeros around them: those in front do not count, and those behind are
made up for in the exponent. -/
theorem ofParts_eq (negative : Bool) {whole fraction : List Char} {n j k : Nat} (hn : n ≠ 0)
    (h : whole ++ fraction = List.replicate j '0' ++ (n.repr.toList ++ List.replicate k '0'))
    (power : Int) :
    ofParts negative (digitValues whole) (digitValues fraction) power
      = Binary64.ofDecimal negative n n.repr.toList.length (power - fraction.length + k) := by
  have hdrop : (digitValues whole ++ digitValues fraction).dropWhile (· = 0)
      = digitValues (n.repr.toList ++ List.replicate k '0') := by
    rw [← digitValues_append, h, digitValues_append, List.dropWhile_append_of_pos]
    · obtain ⟨c, cs, hcs⟩ := List.exists_cons_of_ne_nil (repr_ne_nil n)
      have hzero : c ≠ '0' := by
        rintro rfl
        exact head?_repr_ne_zero hn (by rw [hcs]; rfl)
      have hdigit := (Char.isDigit_iff_toNat.1
        (isDigit_of_mem_repr (n := n) (c := c) (by rw [hcs]; exact List.mem_cons_self))).1
      rw [hcs]
      refine List.dropWhile_cons_of_neg ?_
      simp only [decide_eq_true_eq]
      intro hvalue
      exact hzero (Char.toNat_inj.1 (by omega))
    · intro d hd
      obtain ⟨c, hc, rfl⟩ := List.mem_map.1 hd
      rw [List.eq_of_mem_replicate hc]
      rfl
  have hexponent : power - (fraction.length : Int)
      = power - fraction.length + k - k := by omega
  simp only [ofParts, hdrop, length_digitValues, List.length_append, List.length_replicate,
    natOfDigits_append_zeros, natOfDigits_digitValues_repr]
  rw [hexponent, Binary64.ofDecimal_shift_pow hn, ← hexponent]

/-! ### The texts of decimals -/

/-- The digits of a decimal are decimal digits. -/
theorem isDigit_of_mem_digits {d : Decimal} {c : Char} (h : c ∈ d.digits) : c.isDigit = true :=
  isDigit_of_mem_repr h

theorem isDigit_of_mem_zeros {k : Nat} {c : Char} (h : c ∈ List.replicate k '0') :
    c.isDigit = true := by
  rw [List.eq_of_mem_replicate h]
  rfl

/-- Digits around a point are read as a decimal whose digits they are, up to zeros at the ends:
`unsigned?_point`, and `ofParts_eq` for the zeros. -/
theorem unsigned?_point_eq (negative : Bool) {d : Decimal} (hd : d.significand ≠ 0)
    (whole fraction : List Char) (j k : Nat) (hne : whole ≠ [])
    (hwhole : ∀ c ∈ whole, c.isDigit = true) (hfraction : ∀ c ∈ fraction, c.isDigit = true)
    (h : whole ++ fraction = List.replicate j '0' ++ (d.digits ++ List.replicate k '0'))
    (hexponent : d.exponent = k - fraction.length) :
    unsigned? negative (whole ++ '.' :: fraction)
      = some (Binary64.ofDecimal negative d.significand d.digits.length d.exponent) := by
  have hparts := unsigned?_point negative hne hwhole hfraction endsDigits_nil
  rw [List.append_nil] at hparts
  rw [hparts, power?, Option.map_some, ofParts_eq negative hd h, hexponent]
  congr 2
  omega

/-- A decimal in positional notation is read back. The point stands behind, within or before the
digits, and zeros fill the gap. -/
theorem unsigned?_positionalText (negative : Bool) {d : Decimal} (hd : d.significand ≠ 0) :
    unsigned? negative d.positionalText
      = some (Binary64.ofDecimal negative d.significand d.digits.length d.exponent) := by
  simp only [Decimal.positionalText]
  split
  · -- The point stands in front of all digits, behind a zero and perhaps in front of more.
    rename_i hpoint
    refine unsigned?_point_eq negative hd ['0'] _
      ((-(d.exponent + d.digits.length)).toNat + 1) 0 (List.cons_ne_nil _ _) ?_ ?_ ?_ ?_
    · rintro c (- | ⟨-, hc⟩)
      · rfl
      · cases hc
    · intro c hc
      rcases List.mem_append.1 hc with hzero | hdigit
      · exact isDigit_of_mem_zeros hzero
      · exact isDigit_of_mem_digits hdigit
    · simp [List.replicate_succ]
    · simp only [List.length_append, List.length_replicate]
      omega
  · rename_i hpoint
    split
    · -- The point stands behind all digits, with zeros filling the gap.
      rename_i hexponent
      refine unsigned?_point_eq negative hd _ ['0'] 0 (d.exponent.toNat + 1) ?_ ?_ ?_ ?_ ?_
      · exact List.append_ne_nil_of_left_ne_nil (repr_ne_nil _) _
      · intro c hc
        rcases List.mem_append.1 hc with hdigit | hzero
        · exact isDigit_of_mem_digits hdigit
        · exact isDigit_of_mem_zeros hzero
      · rintro c (- | ⟨-, hc⟩)
        · rfl
        · cases hc
      · simp [List.replicate_succ']
      · simp only [List.length_singleton]
        omega
    · -- The point stands among the digits.
      refine unsigned?_point_eq negative hd _ _ 0 0 ?_ ?_ ?_ ?_ ?_
      · intro hempty
        rcases List.take_eq_nil_iff.1 hempty with hzero | hnil
        · omega
        · exact repr_ne_nil _ hnil
      · exact fun c hc => isDigit_of_mem_digits (List.mem_of_mem_take hc)
      · exact fun c hc => isDigit_of_mem_digits (List.mem_of_mem_drop hc)
      · simp
      · simp only [List.length_drop]
        omega

/-- A decimal in exponential notation is read back, with a point behind its first digit if it has
others, and `power?_exponentText` for what follows. -/
theorem unsigned?_exponentialText (negative : Bool) {d : Decimal} (hd : d.significand ≠ 0) :
    unsigned? negative d.exponentialText
      = some (Binary64.ofDecimal negative d.significand d.digits.length d.exponent) := by
  have hends : EndsDigits ('e' :: Decimal.exponentText d.leadingExponent) :=
    endsDigits_of_head _ (by decide) (by decide)
  obtain ⟨c, cs, hcs⟩ := List.exists_cons_of_ne_nil (repr_ne_nil d.significand)
  have hdigits : d.digits = c :: cs := hcs
  have hall : ∀ c' ∈ c :: cs, c'.isDigit = true := by
    rw [← hdigits]
    exact fun _ => isDigit_of_mem_digits
  have hfirst : ∀ c' ∈ [c], c'.isDigit = true := by
    rintro c' (- | ⟨-, hc'⟩)
    · exact hall c List.mem_cons_self
    · cases hc'
  have hparts : [c] ++ cs
      = List.replicate 0 '0' ++ (d.significand.repr.toList ++ List.replicate 0 '0') := by
    rw [hcs]
    simp
  have hexponent : d.leadingExponent - cs.length + (0 : Nat) = d.exponent := by
    rw [Decimal.leadingExponent, hdigits, List.length_cons]
    omega
  have hvalue := ofParts_eq negative hd hparts d.leadingExponent
  rw [hexponent] at hvalue
  have hrest : ∀ c' ∈ cs, c'.isDigit = true := fun c' hc' => hall c' (List.mem_cons_of_mem _ hc')
  have hlength : d.digits.length = d.significand.repr.toList.length := rfl
  rw [hlength, ← hvalue]
  simp only [Decimal.exponentialText, hdigits]
  rcases cs with - | ⟨c', cs⟩
  · rw [unsigned?_whole negative (List.cons_ne_nil _ _) hfirst hends (by simp),
      power?_exponentText, Option.map_some]
    rfl
  · have hpoint := unsigned?_point negative (List.cons_ne_nil _ _) hfirst hrest hends
    rw [power?_exponentText, Option.map_some] at hpoint
    exact hpoint

/-- **The text of a decimal is read back as the decimal**, in whichever of the two notations it is
written. -/
theorem unsigned?_text (negative : Bool) {d : Decimal} (hd : d.significand ≠ 0) :
    unsigned? negative d.text
      = some (Binary64.ofDecimal negative d.significand d.digits.length d.exponent) := by
  rw [Decimal.text]
  split
  · exact unsigned?_positionalText negative hd
  · exact unsigned?_exponentialText negative hd

end Numeral

/-! ### The characters of a text -/

namespace Decimal

/-- Whether a character may stand in the text of a decimal. -/
def IsTextChar (c : Char) : Prop :=
  c.isDigit = true ∨ c = '.' ∨ c = 'e' ∨ c = '-' ∨ c = '+'

/-- The characters that may stand in the text of a decimal can be told. -/
instance (c : Char) : Decidable (IsTextChar c) :=
  inferInstanceAs (Decidable (_ ∨ _))

/-- The digits of a natural number may stand in the text of a decimal. -/
theorem isTextChar_of_mem_repr {n : Nat} : ∀ c ∈ n.repr.toList, IsTextChar c :=
  fun _ hc => .inl (isDigit_of_mem_repr hc)

theorem isTextChar_of_mem_zeros {k : Nat} : ∀ c ∈ List.replicate k '0', IsTextChar c :=
  fun _ hc => .inl (Numeral.isDigit_of_mem_zeros hc)

/-- Positional notation has digits and a point only. -/
theorem isTextChar_of_mem_positionalText (d : Decimal) :
    ∀ c ∈ d.positionalText, IsTextChar c := by
  have hdigits : ∀ c ∈ d.digits, IsTextChar c := isTextChar_of_mem_repr
  simp only [positionalText]
  split
  · rw [List.forall_mem_cons, List.forall_mem_cons, List.forall_mem_append]
    exact ⟨by decide, by decide, isTextChar_of_mem_zeros, hdigits⟩
  · split
    · rw [List.forall_mem_append, List.forall_mem_append]
      exact ⟨⟨hdigits, isTextChar_of_mem_zeros⟩, List.all_iff_forall_prop.1 rfl⟩
    · rw [List.forall_mem_append, List.forall_mem_cons]
      exact ⟨fun c hc => hdigits c (List.mem_of_mem_take hc), by decide,
        fun c hc => hdigits c (List.mem_of_mem_drop hc)⟩

/-- A power of ten is written with digits behind a sign. -/
theorem isTextChar_of_mem_exponentText (e : Int) : ∀ c ∈ exponentText e, IsTextChar c := by
  simp only [exponentText]
  rw [List.forall_mem_cons]
  constructor
  · split <;> decide
  · split
    · rw [List.forall_mem_cons]
      exact ⟨by decide, isTextChar_of_mem_repr⟩
    · exact isTextChar_of_mem_repr

/-- Exponential notation has digits, a point and a power of ten only. -/
theorem isTextChar_of_mem_exponentialText (d : Decimal) :
    ∀ c ∈ d.exponentialText, IsTextChar c := by
  have hdigits : ∀ c ∈ d.digits, IsTextChar c := isTextChar_of_mem_repr
  simp only [exponentialText]
  rw [List.forall_mem_append, List.forall_mem_cons]
  refine ⟨?_, by decide, isTextChar_of_mem_exponentText _⟩
  split
  · rintro c (- | -)
  · rename_i heq
    rwa [heq] at hdigits
  · rename_i heq
    rw [heq, List.forall_mem_cons] at hdigits
    rw [List.forall_mem_cons, List.forall_mem_cons]
    exact ⟨hdigits.1, by decide, hdigits.2⟩

/-- The text of a decimal has `IsTextChar` characters only, in both notations. -/
theorem isTextChar_of_mem_text (d : Decimal) : ∀ c ∈ d.text, IsTextChar c := by
  rw [text]
  split
  · exact isTextChar_of_mem_positionalText d
  · exact isTextChar_of_mem_exponentialText d

/-- The text of a decimal begins with a digit. -/
theorem text_eq_cons (d : Decimal) : ∃ c cs, d.text = c :: cs ∧ c.isDigit = true := by
  obtain ⟨c, cs, hcs⟩ := List.exists_cons_of_ne_nil (repr_ne_nil d.significand)
  have hdigits : d.digits = c :: cs := hcs
  have hc : c.isDigit = true :=
    isDigit_of_mem_repr (n := d.significand) (by rw [hcs]; exact List.mem_cons_self)
  simp only [text, positionalText, exponentialText]
  split
  · split
    · exact ⟨_, _, rfl, rfl⟩
    · split
      · rw [hdigits]
        exact ⟨_, _, rfl, hc⟩
      · rename_i hpoint _
        obtain ⟨k, hk⟩ : ∃ k, (d.exponent + d.digits.length).toNat = k + 1 :=
          ⟨(d.exponent + d.digits.length).toNat - 1, by omega⟩
        rw [hk, hdigits]
        exact ⟨_, _, rfl, hc⟩
  · rw [hdigits]
    cases cs with
    | nil => exact ⟨_, _, rfl, hc⟩
    | cons c' cs => exact ⟨_, _, rfl, hc⟩

/-- The text of a decimal has a point or a power of ten, which tells it from an integer. -/
theorem point_mem_text (d : Decimal) : '.' ∈ d.text ∨ 'e' ∈ d.text := by
  simp only [text, positionalText, exponentialText]
  split
  · split
    · simp
    · split <;> simp
  · simp

end Decimal

/-! ### The texts of numbers -/

/-- No character of the text of a decimal is padding. -/
theorem Decimal.IsTextChar.not_isPadding {c : Char} (h : Decimal.IsTextChar c) :
    Numeral.isPadding c = false := by
  rcases h with hdigit | rfl | rfl | rfl | rfl
  · exact Numeral.not_isPadding_of_isDigit (isDigit_of_decimal hdigit)
  all_goals decide

namespace Numeral

theorem unpadded_of_isTextChar {cs : List Char} (h : ∀ c ∈ cs, Decimal.IsTextChar c) :
    unpadded cs = cs :=
  unpadded_eq_self (fun c hc => (h c (List.mem_of_head? hc)).not_isPadding)
    fun c hc => (h c (List.mem_of_getLast? hc)).not_isPadding

/-- A sign and a number that begins with a digit are read by `decimal?` one after the other. -/
theorem decimal?_signed {negative : Bool} {c : Char} {cs : List Char} (hc : c.isDigit = true)
    (h : ∀ c' ∈ c :: cs, Decimal.IsTextChar c') :
    decimal? (if negative then '-' :: c :: cs else c :: cs) = unsigned? negative (c :: cs) := by
  have hsign : sign (unpadded (if negative then '-' :: c :: cs else c :: cs))
      = (negative, c :: cs) := by
    cases negative with
    | true =>
      rw [if_pos rfl, unpadded_of_isTextChar (List.forall_mem_cons.2 ⟨by decide, h⟩)]
      rfl
    | false =>
      rw [if_neg Bool.false_ne_true, unpadded_of_isTextChar h]
      exact sign_of_isDigit (isDigit_of_decimal hc) cs
  have hdigit : isDigit c = true ∨ c = '-' := .inl (isDigit_of_decimal hc)
  have hinf : String.ofList ((c :: cs).map Char.toLower) ≠ "inf" :=
    ofList_map_toLower_ne hdigit (by decide) (by decide)
  have hinfinity : String.ofList ((c :: cs).map Char.toLower) ≠ "infinity" :=
    ofList_map_toLower_ne hdigit (by decide) (by decide)
  have hnan : String.ofList ((c :: cs).map Char.toLower) ≠ "nan" :=
    ofList_map_toLower_ne hdigit (by decide) (by decide)
  simp only [decimal?, hsign, hinf, hinfinity, hnan, or_self, if_false]

end Numeral

namespace Binary64

/-- The text of a finite number, without its sign. -/
def digitsOf (m : Magnitude) : List Char :=
  if m.units = 0 then ['0', '.', '0'] else m.shortest.text

/-- The text of a finite number is that of its magnitude, behind a minus sign if it is negative. -/
theorem toList_text_finite (negative : Bool) (m : Magnitude) :
    (text (.finite negative m)).toList = if negative then '-' :: digitsOf m else digitsOf m := by
  rw [text, String.toList_ofList]
  rfl

/-- That of a magnitude begins with a digit. -/
theorem digitsOf_eq_cons (m : Magnitude) : ∃ c cs, digitsOf m = c :: cs ∧ c.isDigit = true := by
  rw [digitsOf]
  split
  · exact ⟨_, _, rfl, rfl⟩
  · exact Decimal.text_eq_cons _

theorem isTextChar_of_mem_digitsOf (m : Magnitude) :
    ∀ c ∈ digitsOf m, Decimal.IsTextChar c := by
  rw [digitsOf]
  split
  · exact List.all_iff_forall_prop.1 rfl
  · exact Decimal.isTextChar_of_mem_text _

end Binary64

/-- **The text of a number is read back as the number.** The words for infinities and not-a-number
are read as such; a magnitude is read as its shortest decimal, which rounds to it. -/
theorem Numeral.decimal?_text (x : Binary64) : decimal? x.text.toList = some x := by
  rcases x with - | negative | ⟨negative, m⟩
  · decide
  · cases negative <;> decide
  · obtain ⟨c, cs, hcs, hc⟩ := Binary64.digitsOf_eq_cons m
    have hchars := Binary64.isTextChar_of_mem_digitsOf m
    rw [hcs] at hchars
    rw [Binary64.toList_text_finite, hcs, decimal?_signed hc hchars, ← hcs, Binary64.digitsOf]
    by_cases hm : m.units = 0
    · have hzero : m = .zero := by
        obtain ⟨units, representable⟩ := m
        cases hm
        rfl
      rw [if_pos hm, hzero]
      rfl
    · have hshortest := Magnitude.toBinary64_shortest hm
      have hd := Decimal.significand_ne_zero hm hshortest
      rw [if_neg hm, unsigned?_text negative hd]
      exact congrArg some (Binary64.ofDecimal_eq_finite hshortest negative)

/-- Different numbers have different texts, because `Numeral.decimal?` reads them back. -/
theorem Binary64.text_injective : Function.Injective Binary64.text := by
  intro x y h
  have hx := Numeral.decimal?_text x
  rw [h, Numeral.decimal?_text y] at hx
  exact (Option.some.inj hx).symm

end Templating
