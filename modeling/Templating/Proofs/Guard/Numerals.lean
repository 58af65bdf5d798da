import Templating.Guard.Parse
import Templating.Proofs.Number.Digits
import Templating.Proofs.Outcome

/-!
# The numerals of a guard

A numeral that is cut from a guard begins with at most one minus sign, has only digits and points
after it, and ends in a digit. One without a point can therefore be read as an integer, unless it
has more digits than are ever read.

## Main definitions

* `IsNumeral`: the shape of the numerals that are cut from guards.

## Main results

* `isNumeral_of_mem_lex`: the numerals of a guard have that shape.
* `isSome_integer?_iff_of_isNumeral`: a numeral without a point is an integer unless it is too long.
-/

namespace Templating

open Templating.Text

namespace Guard

/-! ### The shape of numerals -/

/-- Digits and points, the last character a digit. -/
def IsUnsigned (body : List Char) : Prop :=
  (∀ c ∈ body, isDigit c = true ∨ c = '.') ∧ ∃ c, body.getLast? = some c ∧ isDigit c = true

/-- A minus sign or none, then digits and points, the last character a digit. -/
def IsNumeral (digits : List Char) : Prop :=
  IsUnsigned digits ∨ ∃ body, digits = '-' :: body ∧ IsUnsigned body

/-- `longestUnsigned` takes digits and points only. -/
theorem longestUnsigned_chars (cs : List Char) :
    ∀ c ∈ (longestUnsigned cs).1, isDigit c = true ∨ c = '.' := by
  have run : ∀ ds : List Char, ∀ c ∈ ds.takeWhile isDigit, isDigit c = true :=
    fun _ => List.all_eq_true.1 List.all_takeWhile
  intro c hc
  rw [longestUnsigned] at hc
  split at hc
  · rename_i after _
    split at hc
    · exact .inl (run cs c hc)
    · simp only [List.mem_append, List.mem_cons] at hc
      rcases hc with hc | rfl | hc
      · exact .inl (run cs c hc)
      · exact .inr rfl
      · exact .inl (run after c hc)
  · exact .inl (run cs c hc)

/-- What is left of a number when characters are taken back is a first part of it that ends in a
digit. -/
theorem shortenNumeral?_prefix {taken rest digits after : List Char}
    (h : shortenNumeral? taken rest = some (digits, after)) :
    digits <+: taken.reverse ∧ ∃ c, digits.getLast? = some c ∧ isDigit c = true := by
  induction taken generalizing rest with
  | nil => simp [shortenNumeral?] at h
  | cons c taken ih =>
    rw [shortenNumeral?] at h
    split at h
    · rename_i hc
      obtain ⟨rfl, rfl⟩ := by simpa using h
      simp only [Bool.and_eq_true] at hc
      exact ⟨by simp, c, by simp, hc.1⟩
    · obtain ⟨hinitial, hlast⟩ := ih h
      refine ⟨?_, hlast⟩
      rw [List.reverse_cons]
      exact hinitial.trans (List.prefix_append _ _)

/-- What `numeral?` cuts from a text has the shape of a numeral. -/
theorem isNumeral_of_numeral? {cs digits rest : List Char}
    (h : numeral? cs = some (digits, rest)) : IsNumeral digits := by
  obtain ⟨hinitial, c, hlast, hc⟩ := shortenNumeral?_prefix h
  rw [List.reverse_reverse] at hinitial
  rw [longestNumeral.eq_def] at hinitial
  split at hinitial
  · rename_i cs
    cases digits with
    | nil => simp at hlast
    | cons d digits =>
      obtain ⟨rfl, htail⟩ := List.cons_prefix_cons.1 hinitial
      refine .inr ⟨digits, rfl, fun x hx => longestUnsigned_chars cs x (htail.subset hx), ?_⟩
      cases digits with
      | nil =>
        obtain rfl : '-' = c := by simpa using hlast
        exact absurd hc (by decide)
      | cons d' digits => exact ⟨c, by simpa using hlast, hc⟩
  · exact .inl ⟨fun x hx => longestUnsigned_chars _ x (hinitial.subset hx), c, hlast, hc⟩

/-- A numeral among the symbols that `symbol?` cuts from a text has that shape; the other kinds of
symbols are ruled out by their constructors. -/
theorem isNumeral_of_symbol? {cs digits rest : List Char}
    (h : symbol? cs = some (.numeral digits, rest)) : IsNumeral digits := by
  simp only [symbol?, Option.or_eq_some_iff] at h
  rcases h with h | ⟨-, h | ⟨-, h | ⟨-, h | ⟨-, h⟩⟩⟩⟩
  · fun_cases quoted? cs <;> simp_all [quoted?]
  · obtain ⟨⟨digits', rest'⟩, hdigits, heq⟩ := Option.map_eq_some_iff.1 h
    obtain ⟨rfl, rfl⟩ : digits' = digits ∧ rest' = rest := by simpa using heq
    exact isNumeral_of_numeral? hdigits
  · simp at h
  · fun_cases parenthesis? cs <;> simp_all [parenthesis?]
  · fun_cases word? cs with
    | case1 => simp [word?] at h
    | case2 c cs hc =>
      rw [word?, if_pos hc] at h
      simp only [Option.some.injEq, Prod.mk.injEq] at h
      have hword := h.1
      simp only [wordSymbol] at hword
      split at hword <;> simp at hword
    | case3 c cs hc => simp [word?, hc] at h

/-- The numerals among the lexemes from a position on have that shape, by induction along
`lexFrom`. -/
theorem isNumeral_of_mem_lexFrom {position : Nat} {cs : List Char} {lexemes : List Lexeme}
    (h : lexFrom position cs = .ok lexemes) :
    ∀ l ∈ lexemes, ∀ digits, l.symbol = .numeral digits → IsNumeral digits := by
  fun_induction lexFrom position cs generalizing lexemes with
  | case1 =>
    obtain rfl : [] = lexemes := by simpa using h
    simp
  | case2 position c cs hblank ih => exact ih h
  | case3 => simp at h
  | case4 position c cs hblank s rest hsymbol ih =>
    obtain ⟨more, hmore, ⟨⟩⟩ := bind_eq_ok_iff.1 h
    intro l hl digits hdigits
    rcases List.mem_cons.1 hl with rfl | hl
    · obtain rfl : s = .numeral digits := hdigits
      exact isNumeral_of_symbol? hsymbol
    · exact ih hmore l hl digits hdigits

/-- **The numerals of a guard have the shape of numerals.** -/
theorem isNumeral_of_mem_lex {source : String} {lexemes : List Lexeme}
    (h : lex source = .ok lexemes) :
    ∀ l ∈ lexemes, ∀ digits, l.symbol = .numeral digits → IsNumeral digits :=
  isNumeral_of_mem_lexFrom h

/-! ### Numerals as integers -/

/-- Digits without a point are read as the digits of an integer. -/
theorem digits_of_isUnsigned {body : List Char} (h : IsUnsigned body) (hpoint : '.' ∉ body) :
    (Numeral.digits body).1.length = body.length ∧ (Numeral.digits body).2 = []
      ∧ body.countP isDigit = body.length := by
  have hall : ∀ c ∈ body, isDigit c = true := fun c hc =>
    (h.1 c hc).resolve_right fun heq => hpoint (heq ▸ hc)
  obtain ⟨hlength, hrest⟩ := Numeral.moreDigits_of_all hall
  refine ⟨?_, ?_, List.countP_eq_length.2 hall⟩ <;>
    cases body with
    | nil => rfl
    | cons c body => simpa [Numeral.digits, hall c List.mem_cons_self]

theorem head?_isDigit_of_isUnsigned {body : List Char} (h : IsUnsigned body) (hpoint : '.' ∉ body)
    {c : Char} (hc : body.head? = some c) : isDigit c = true := by
  have hmem := List.mem_of_head? hc
  exact (h.1 c hmem).resolve_right fun heq => hpoint (heq ▸ hmem)

theorem length_pos_of_isUnsigned {body : List Char} (h : IsUnsigned body) : 0 < body.length := by
  obtain ⟨c, hlast, -⟩ := h.2
  exact List.length_pos_of_mem (List.mem_of_getLast? hlast)

/-- A numeral has no blank character, being made of a sign, digits and points. -/
theorem not_isBlank_of_isNumeral {digits : List Char} (h : IsNumeral digits) :
    ∀ c ∈ digits, isBlank c = false := by
  have hunsigned : ∀ body, IsUnsigned body → ∀ c ∈ body, isBlank c = false := by
    intro body hbody c hc
    rcases hbody.1 c hc with hdigit | rfl
    · exact not_isBlank_of_isDigit hdigit
    · decide
  rcases h with h | ⟨body, rfl, h⟩
  · exact hunsigned digits h
  · exact List.forall_mem_cons.2 ⟨by decide, hunsigned body h⟩

/-- A numeral has no padding, so `Numeral.unpadded` leaves it as it is. -/
theorem unpadded_of_isNumeral {digits : List Char} (h : IsNumeral digits) :
    Numeral.unpadded digits = digits := by
  have hpadding : ∀ c ∈ digits, Numeral.isPadding c = false :=
    fun c hc => Numeral.not_isPadding_of_not_isBlank (not_isBlank_of_isNumeral h c hc)
  exact Numeral.unpadded_eq_self (fun c hc => hpadding c (List.mem_of_head? hc))
    fun c hc => hpadding c (List.mem_of_getLast? hc)

/-- **A numeral without a point is an integer unless it is too long**: unless it has more digits
than `Numeral.maxIntegerDigits`. -/
theorem isSome_integer?_iff_of_isNumeral {digits : List Char} (h : IsNumeral digits)
    (hpoint : '.' ∉ digits) : (Numeral.integer? digits).isSome = true
      ↔ digits.countP isDigit ≤ Numeral.maxIntegerDigits := by
  have hends := unpadded_of_isNumeral h
  -- Of the three reasons not to read the digits, only their number is left.
  have hread : ∀ body : List Char, IsUnsigned body → '.' ∉ body → ∀ i : Int,
      (if (Numeral.digits body).1.isEmpty || !([] : List Char).isEmpty
          || decide (Numeral.maxIntegerDigits < (Numeral.digits body).1.length)
        then none else some i).isSome = true ↔ body.countP isDigit ≤ Numeral.maxIntegerDigits := by
    intro body hbody hpoint i
    obtain ⟨hlength, -, hcount⟩ := digits_of_isUnsigned hbody hpoint
    have hpos := length_pos_of_isUnsigned hbody
    rw [hcount]
    split
    · rename_i hlong
      simp [← List.length_eq_zero_iff, hlength] at hlong
      exact iff_of_false nofun (by omega)
    · rename_i hshort
      simp [← List.length_eq_zero_iff, hlength] at hshort
      exact iff_of_true rfl hshort.2
  rcases h with h | ⟨body, rfl, h⟩
  · have hsign : Numeral.sign digits = (false, digits) := by
      cases digits with
      | nil => rfl
      | cons c cs => exact Numeral.sign_of_isDigit (head?_isDigit_of_isUnsigned h hpoint rfl) cs
    obtain ⟨-, hrest, -⟩ := digits_of_isUnsigned h hpoint
    simp only [Numeral.integer?, hends, hsign, hrest]
    exact hread digits h hpoint _
  · have hpoint : '.' ∉ body := fun hc => hpoint (List.mem_cons_of_mem _ hc)
    obtain ⟨-, hrest, -⟩ := digits_of_isUnsigned h hpoint
    have hminus : isDigit '-' = false := by decide
    rw [List.countP_cons_of_neg (by simp [hminus])]
    simp only [Numeral.integer?, hends, Numeral.sign, hrest]
    exact hread body h hpoint _

end Guard

end Templating
