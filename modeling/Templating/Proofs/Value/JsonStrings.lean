import Mathlib.Tactic.SplitIfs
import Templating.Value.Json
import Templating.Value.JsonLexeme

/-!
# Reading back JSON strings

A string is written character by character, and the reader takes off exactly what was written for
a character, so it finds the closing quote where it was written. What it finds before the quote
are the code units of sixteen bits of the characters; the two halves of a surrogate pair are put
together again, since no character has the number of a half.

## Main definitions

* `Json.codeUnits`: the code units of sixteen bits of a character.

## Main results

* `Json.stringUnits?_quoted`: a string is read back up to its closing quote.
* `Json.charsOfUnits_codeUnits`: the code units of a text give the text.
* `Json.quoted_append_inj`: no string goes on as another one.
-/

namespace Templating

open Templating.Text

/-! ### Hexadecimal digits -/

/-- A hexadecimal digit is read back by its value. All sixteen are tried. -/
theorem Text.hexValue?_hexDigit : ∀ n < 16, hexValue? (hexDigit n) = some n := by
  decide

/-- Four hexadecimal digits are read back. -/
theorem Text.hexNumber?_hexDigits {n : Nat} (h : n < 0x10000) :
    hexNumber? (hexDigits 4 n) = some n := by
  have hdigit : ∀ place, hexValue? (hexDigit (n / Nat.pow 16 place % 16))
      = some (n / Nat.pow 16 place % 16) :=
    fun place => hexValue?_hexDigit _ (Nat.mod_lt _ (by omega))
  have hdigits : hexDigits 4 n = [hexDigit (n / Nat.pow 16 3 % 16),
      hexDigit (n / Nat.pow 16 2 % 16), hexDigit (n / Nat.pow 16 1 % 16),
      hexDigit (n / Nat.pow 16 0 % 16)] := rfl
  rw [hdigits]
  simp only [hexNumber?, List.foldlM_cons, List.foldlM_nil, hdigit, Option.map_some,
    Option.bind_eq_bind, Option.bind_some, Option.pure_def, Option.some.injEq]
  simp only [Nat.pow_eq, Nat.reducePow, Nat.pow_zero, Nat.div_one]
  omega

namespace Json

/-! ### Code units -/

/-- The code units of sixteen bits of a character: itself, or a surrogate pair. -/
def codeUnits (c : Char) : List Nat :=
  if c.toNat < 0x10000 then [c.toNat]
  else [0xD800 + (c.toNat - 0x10000) / 0x400, 0xDC00 + (c.toNat - 0x10000) % 0x400]

/-- No character has the number of half a surrogate pair, so `codeUnits` of different characters
cannot be confused. -/
theorem not_isSurrogate (c : Char) :
    isHighSurrogate c.toNat = false ∧ isLowSurrogate c.toNat = false := by
  have hvalid : c.toNat < 0xD800 ∨ 0xDFFF < c.toNat ∧ c.toNat < 0x110000 := c.valid
  simp only [isHighSurrogate, isLowSurrogate, Bool.and_eq_false_iff, decide_eq_false_iff_not]
  omega

theorem toNat_lt (c : Char) : c.toNat < 0x110000 := by
  have hvalid : c.toNat < 0xD800 ∨ 0xDFFF < c.toNat ∧ c.toNat < 0x110000 := c.valid
  omega

/-- The code units of a character are put together again by `charsOfUnits`: a pair of surrogates
gives the character of which it was made, and any other unit is no half of a pair
(`not_isSurrogate`). -/
theorem charsOfUnits_append (c : Char) (units : List Nat) :
    charsOfUnits (codeUnits c ++ units) = c :: charsOfUnits units := by
  rw [codeUnits]
  split
  · obtain ⟨hhigh, hlow⟩ := not_isSurrogate c
    have hself : charOfUnit c.toNat = c := by
      simp only [charOfUnit, hhigh, hlow, Bool.or_self, Bool.false_eq_true, if_false,
        Char.ofNat_toNat]
    cases units with
    | nil => simp only [List.append_nil, charsOfUnits, hself]
    | cons unit units =>
      simp only [List.cons_append, List.nil_append, charsOfUnits, hhigh, Bool.false_and,
        Bool.false_eq_true, if_false, hself]
  · have hlt := toNat_lt c
    have hhigh : isHighSurrogate (0xD800 + (c.toNat - 0x10000) / 0x400) = true := by
      simp only [isHighSurrogate, Bool.and_eq_true, decide_eq_true_eq]
      omega
    have hlow : isLowSurrogate (0xDC00 + (c.toNat - 0x10000) % 0x400) = true := by
      simp only [isLowSurrogate, Bool.and_eq_true, decide_eq_true_eq]
      omega
    have hself : 0x10000 + (0xD800 + (c.toNat - 0x10000) / 0x400 - 0xD800) * 0x400
        + (0xDC00 + (c.toNat - 0x10000) % 0x400 - 0xDC00) = c.toNat := by
      omega
    simp only [List.cons_append, List.nil_append, charsOfUnits, hhigh, hlow, Bool.and_self,
      if_true, hself, Char.ofNat_toNat]

/-- The `codeUnits` of a text give the text. -/
theorem charsOfUnits_codeUnits (cs : List Char) : charsOfUnits (cs.flatMap codeUnits) = cs := by
  induction cs with
  | nil => rfl
  | cons c cs ih => rw [List.flatMap_cons, charsOfUnits_append, ih]

/-! ### Escapes -/

/-- What one step of `stringUnits?` takes off the head of a text, before the others. -/
def readUnits (units : List Nat) (rest : List Char) : Option (List Nat × List Char) :=
  (stringUnits? rest).map fun (more, rest) => (units ++ more, rest)

/-- The escape of a code unit is read back by its four digits (`Text.hexNumber?_hexDigits`). -/
theorem stringUnits?_unitEscape {n : Nat} (h : n < 0x10000) (rest : List Char) :
    stringUnits? (unitEscape n ++ rest) = readUnits [n] rest := by
  obtain ⟨a, b, c, d, hdigits⟩ : ∃ a b c d, hexDigits 4 n = [a, b, c, d] := ⟨_, _, _, _, rfl⟩
  have hnumber := hexNumber?_hexDigits h
  rw [hdigits] at hnumber
  rw [unitEscape, hdigits]
  simp only [List.cons_append, List.nil_append, stringUnits?, hnumber, readUnits]
  cases stringUnits? rest with
  | none => rfl
  | some read => rfl

/-- An escape of one letter is read back. -/
theorem stringUnits?_escapedChar {c c' : Char} (h : escapedChar? c = some c')
    (rest : List Char) : stringUnits? ('\\' :: c :: rest) = readUnits [c'.toNat] rest := by
  have hne : c ≠ 'u' := by
    rintro rfl
    cases h
  rw [stringUnits?.eq_def]
  split
  · rename_i heq
    cases heq
  · rename_i heq
    cases heq
  · rename_i heq
    cases heq
    exact absurd rfl hne
  · rename_i heq
    cases heq
    rw [h, readUnits]
    cases stringUnits? rest with
    | none => rfl
    | some read => rfl
  · rename_i hother heq
    cases heq
    exact (hother _ _ rfl rfl).elim

/-- A character that needs no escape is read back. -/
theorem stringUnits?_plain {c : Char} (hquote : c ≠ '"') (hescape : c ≠ '\\')
    (hprintable : 0x20 ≤ c.toNat) (rest : List Char) :
    stringUnits? (c :: rest) = readUnits [c.toNat] rest := by
  rw [stringUnits?.eq_def]
  split
  · rename_i heq
    cases heq
  · rename_i heq
    cases heq
    exact absurd rfl hquote
  · rename_i heq
    cases heq
    exact absurd rfl hescape
  · rename_i heq
    cases heq
    exact absurd rfl hescape
  · rename_i heq
    cases heq
    rw [if_neg (Nat.not_lt.2 hprintable)]
    rfl

/-- What is written for a character is read back as its code units, whichever of the three ways
`escaped` writes it. -/
theorem stringUnits?_escaped (c : Char) (rest : List Char) :
    stringUnits? (escaped c ++ rest) = readUnits (codeUnits c) rest := by
  have hletter : ∀ {letter : Char}, escapedChar? letter = some c → c.toNat < 0x10000 →
      stringUnits? (['\\', letter] ++ rest) = readUnits (codeUnits c) rest := by
    intro letter hescaped hlt
    rw [codeUnits, if_pos hlt]
    exact stringUnits?_escapedChar hescaped rest
  rw [escaped]
  split_ifs with hquote hescape hfeed hreturn htab hback hform hprintable hbasic
  · subst hquote
    exact hletter rfl (by decide)
  · subst hescape
    exact hletter rfl (by decide)
  · subst hfeed
    exact hletter rfl (by decide)
  · subst hreturn
    exact hletter rfl (by decide)
  · subst htab
    exact hletter rfl (by decide)
  · subst hback
    exact hletter rfl (by decide)
  · subst hform
    exact hletter rfl (by decide)
  · rw [codeUnits, if_pos (by omega)]
    exact stringUnits?_plain hquote hescape hprintable.1 rest
  · rw [codeUnits, if_pos hbasic]
    exact stringUnits?_unitEscape hbasic rest
  · have hlt := toNat_lt c
    rw [codeUnits, if_neg hbasic, List.append_assoc, stringUnits?_unitEscape (by omega),
      readUnits, stringUnits?_unitEscape (by omega), readUnits, readUnits, Option.map_map]
    rfl

/-- **A string is read back up to its closing quote.** Induction along its characters with
`stringUnits?_escaped`. -/
theorem stringUnits?_quoted (cs rest : List Char) :
    stringUnits? (cs.flatMap escaped ++ '"' :: rest) = some (cs.flatMap codeUnits, rest) := by
  induction cs with
  | nil => rfl
  | cons c cs ih =>
    rw [List.flatMap_cons, List.append_assoc, stringUnits?_escaped, readUnits, ih]
    rfl

/-- No string goes on as another one: `stringUnits?` reads the text and what is left off the quoted
form (`stringUnits?_quoted`). -/
theorem quoted_append_inj {s t : String} {r r' : List Char}
    (h : quoted s ++ r = quoted t ++ r') : s = t ∧ r = r' := by
  simp only [quoted, List.cons_append, List.cons.injEq, true_and, List.append_assoc,
    List.nil_append] at h
  have hs := stringUnits?_quoted s.toList r
  rw [h, stringUnits?_quoted] at hs
  simp only [Option.some.injEq, Prod.mk.injEq] at hs
  obtain ⟨hunits, hrest⟩ := hs
  refine ⟨String.toList_injective ?_, hrest.symm⟩
  rw [← charsOfUnits_codeUnits s.toList, ← hunits, charsOfUnits_codeUnits]

end Json

end Templating
