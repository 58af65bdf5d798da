import Templating.Proofs.Number.DecimalText
import Templating.Proofs.Value.JsonStrings

/-!
# Values from their JSON text

The compact text of a value tells the value. Its first character tells what kind of value it is;
the text of a number or a word ends at the first comma or closing bracket, a string ends with its
closing quote, and a list or a mapping with the bracket that closes it. So no text of a value goes
on as the text of another one.

## Main definitions

* `Json.IsEnd`: texts that may stand after a value.
* `Json.kind`: the kind of a value that its first character tells.

## Main results

* `Json.numberText_injective`: different numbers have different texts.
* `Json.compactChars_append_inj`: no text of a value goes on as another one.
* `Json.compactChars_injective`: different values have different texts.
-/

namespace Templating

open Templating.Text

/-! ### Integers -/

theorem repr_eq_cons (n : Nat) : ∃ c cs, n.repr.toList = c :: cs ∧ c.isDigit = true := by
  obtain ⟨c, cs, hcs⟩ := List.exists_cons_of_ne_nil (repr_ne_nil n)
  exact ⟨c, cs, hcs, isDigit_of_mem_repr (n := n) (by rw [hcs]; exact List.mem_cons_self)⟩

/-- Different natural numbers have different digits, since `natOfDigits_digitValues_repr` reads them
back. -/
theorem toList_repr_injective : Function.Injective fun n : Nat => n.repr.toList := by
  intro m n h
  have hm := natOfDigits_digitValues_repr m
  rw [show m.repr.toList = n.repr.toList from h, natOfDigits_digitValues_repr n] at hm
  exact hm.symm

/-- An integer is written with the digits of its magnitude, behind a minus sign if it is
negative. -/
theorem toList_integerText (i : Int) :
    (integerText i).toList
      = if i < 0 then '-' :: i.natAbs.repr.toList else i.natAbs.repr.toList := by
  rw [integerText]
  split
  · rw [String.toList_append]
    rfl
  · rfl

/-- Different integers have different texts: a minus sign is no digit, and the digits tell the
magnitude (`toList_integerText`). -/
theorem toList_integerText_injective {i j : Int}
    (h : (integerText i).toList = (integerText j).toList) : i = j := by
  obtain ⟨c, cs, hcs, hc⟩ := repr_eq_cons i.natAbs
  obtain ⟨d, ds, hds, hd⟩ := repr_eq_cons j.natAbs
  have hdash : ∀ {c : Char}, c.isDigit = true → c ≠ '-' := by
    rintro c hc rfl
    exact absurd hc (by decide)
  rw [toList_integerText, toList_integerText] at h
  split at h
  · split at h
    · have habs := toList_repr_injective (List.cons.inj h).2
      omega
    · rw [hds] at h
      exact absurd (List.cons.inj h).1.symm (hdash hd)
  · split at h
    · rw [hcs] at h
      exact absurd (List.cons.inj h).1 (hdash hc)
    · have habs := toList_repr_injective h
      omega

/-- An integer is written with digits and minus signs only. -/
theorem isDigit_of_mem_integerText {i : Int} :
    ∀ c ∈ (integerText i).toList, c.isDigit = true ∨ c = '-' := by
  have hdigits : ∀ c ∈ i.natAbs.repr.toList, c.isDigit = true ∨ c = '-' :=
    fun _ hc => .inl (isDigit_of_mem_repr hc)
  rw [toList_integerText]
  split
  · rw [List.forall_mem_cons]
    exact ⟨.inr rfl, hdigits⟩
  · exact hdigits

namespace Json

/-! ### Numbers -/

/-- Whether a character may stand in the text of a number. -/
def IsNumberChar (c : Char) : Prop :=
  Decimal.IsTextChar c ∨ c ∈ ['N', 'a', 'I', 'n', 'f', 'i', 't', 'y']

/-- The characters that may stand in the text of a number can be told. -/
instance (c : Char) : Decidable (IsNumberChar c) :=
  inferInstanceAs (Decidable (_ ∨ _))

/-- A finite floating point number is written with the characters of decimal texts. -/
theorem isTextChar_of_mem_text (negative : Bool) (m : Magnitude) :
    ∀ c ∈ (Binary64.text (.finite negative m)).toList, Decimal.IsTextChar c := by
  rw [Binary64.toList_text_finite]
  split
  · rw [List.forall_mem_cons]
    exact ⟨by decide, Binary64.isTextChar_of_mem_digitsOf m⟩
  · exact Binary64.isTextChar_of_mem_digitsOf m

/-- The text of a finite floating point number is its shortest decimal text (`Binary64.text`); only
the other ones have words. -/
theorem binaryText_finite (negative : Bool) (m : Magnitude) :
    binaryText (.finite negative m) = (Binary64.text (.finite negative m)).toList := by
  rw [binaryText]
  all_goals simp

/-- The text of a number other than an integer has a point, a power of ten or a capital, none of
which stands in the text of an integer. -/
theorem mark_mem_binaryText (x : Binary64) :
    ∃ c ∈ binaryText x, c.isDigit = false ∧ c ≠ '-' := by
  rcases x with - | negative | ⟨negative, m⟩
  · exact ⟨'N', by decide, by decide, by decide⟩
  · refine ⟨'I', ?_, by decide, by decide⟩
    cases negative <;> decide
  · have hmark : '.' ∈ Binary64.digitsOf m ∨ 'e' ∈ Binary64.digitsOf m := by
      rw [Binary64.digitsOf]
      split
      · exact .inl (by decide)
      · exact Decimal.point_mem_text _
    have htext : ∀ c ∈ Binary64.digitsOf m, c ∈ binaryText (.finite negative m) := by
      intro c hc
      rw [binaryText_finite, Binary64.toList_text_finite]
      split
      · exact List.mem_cons_of_mem _ hc
      · exact hc
    rcases hmark with hpoint | hpower
    · exact ⟨'.', htext _ hpoint, by decide, by decide⟩
    · exact ⟨'e', htext _ hpower, by decide, by decide⟩

/-- Different floating point numbers have different texts. The words are told apart by their
characters, and finite numbers by their shortest texts, which hold no other characters
(`isTextChar_of_mem_text`). -/
theorem binaryText_injective : Function.Injective binaryText := by
  have hword : ∀ {x : Binary64} {c : Char} (negative : Bool) (m : Magnitude), c ∈ binaryText x →
      ¬ Decimal.IsTextChar c → binaryText x ≠ binaryText (.finite negative m) := by
    intro x c negative m hc hno h
    rw [h, binaryText_finite] at hc
    exact hno (isTextChar_of_mem_text negative m c hc)
  have hinfinite : ∀ negative, 'I' ∈ binaryText (.infinite negative) := by decide
  rintro (- | a | ⟨a, m⟩) (- | b | ⟨b, n⟩) h
  · rfl
  · revert h
    cases b <;> decide
  · exact absurd h (hword (c := 'N') b n (by decide) (by decide))
  · revert h
    cases a <;> decide
  · revert h
    cases a <;> cases b <;> decide
  · exact absurd h (hword b n (hinfinite a) (by decide))
  · exact absurd h.symm (hword (c := 'N') a m (by decide) (by decide))
  · exact absurd h.symm (hword a m (hinfinite b) (by decide))
  · rw [binaryText_finite, binaryText_finite] at h
    exact Binary64.text_injective (String.toList_injective h)

/-- **Different numbers have different texts**, an integer and a floating point number of the same
value included, by `mark_mem_binaryText`. -/
theorem numberText_injective : Function.Injective numberText := by
  have hmixed : ∀ (i : Int) (x : Binary64), numberText (.int i) ≠ numberText (.binary x) := by
    intro i x h
    obtain ⟨c, hc, hdigit, hdash⟩ := mark_mem_binaryText x
    rw [show binaryText x = (integerText i).toList from h.symm] at hc
    rcases isDigit_of_mem_integerText c hc with hyes | rfl
    · rw [hdigit] at hyes
      cases hyes
    · exact hdash rfl
  rintro (i | x) (j | y) h
  · rw [toList_integerText_injective h]
  · exact absurd h (hmixed i y)
  · exact absurd h.symm (hmixed j x)
  · rw [binaryText_injective h]

/-- The text of a number is made of `IsNumberChar` characters. -/
theorem isNumberChar_of_mem_numberText (n : Number) : ∀ c ∈ numberText n, IsNumberChar c := by
  rcases n with i | x
  · intro c hc
    rcases isDigit_of_mem_integerText c hc with hdigit | rfl
    · exact .inl (.inl hdigit)
    · decide
  · rcases x with - | negative | ⟨negative, m⟩
    · exact List.all_iff_forall_prop.1 rfl
    · cases negative <;> exact List.all_iff_forall_prop.1 rfl
    · intro c hc
      rw [numberText, binaryText_finite] at hc
      exact .inl (isTextChar_of_mem_text negative m c hc)

/-- The first character of the text of a number is a digit, a minus sign or one of two capitals. -/
theorem numberText_eq_cons (n : Number) :
    ∃ c cs, numberText n = c :: cs ∧ (c.isDigit = true ∨ c ∈ ['-', 'N', 'I']) := by
  rcases n with i | x
  · obtain ⟨c, cs, hcs, hc⟩ := repr_eq_cons i.natAbs
    rw [numberText, toList_integerText, hcs]
    split
    · exact ⟨_, _, rfl, .inr (by decide)⟩
    · exact ⟨_, _, rfl, .inl hc⟩
  · rcases x with - | negative | ⟨negative, m⟩
    · exact ⟨_, _, rfl, .inr (by decide)⟩
    · cases negative with
      | true => exact ⟨_, _, rfl, .inr (by decide)⟩
      | false => exact ⟨'I', _, rfl, .inr (by decide)⟩
    · obtain ⟨c, cs, hcs, hc⟩ := Binary64.digitsOf_eq_cons m
      rw [numberText, binaryText_finite, Binary64.toList_text_finite, hcs]
      split
      · exact ⟨_, _, rfl, .inr (by decide)⟩
      · exact ⟨_, _, rfl, .inl hc⟩

/-! ### The ends of values -/

/-- Whether a text may stand after a value: a comma or a closing bracket comes first, if anything
does. None of these is an `IsNumberChar`, so a number before it is read to its end. -/
def IsEnd (rest : List Char) : Prop :=
  ∀ c, rest.head? = some c → c ∈ [',', ']', '\x7d']

theorem isEnd_nil : IsEnd [] := by
  rintro c ⟨⟩

/-- A comma or a closing bracket may stand after a value. -/
theorem isEnd_cons {c : Char} (h : c ∈ [',', ']', '\x7d']) (rest : List Char) :
    IsEnd (c :: rest) := by
  rintro c' ⟨⟩
  exact h

/-- What may stand after a value does not stand in the text of a number. -/
theorem not_isNumberChar_of_isEnd : ∀ c ∈ [',', ']', '\x7d'], ¬ IsNumberChar c :=
  List.all_iff_forall_prop.1 rfl

/-- The text of a number goes up to the end: two such texts that go on to the same characters agree,
because the longer one would have a character of `IsEnd` in it. -/
theorem numberChars_append_inj {cs ds r s : List Char} (hcs : ∀ c ∈ cs, IsNumberChar c)
    (hds : ∀ c ∈ ds, IsNumberChar c) (hr : IsEnd r) (hs : IsEnd s) (h : cs ++ r = ds ++ s) :
    cs = ds ∧ r = s := by
  have hstop : ∀ {c : Char} {cs r : List Char}, IsEnd r → (∀ c' ∈ c :: cs, IsNumberChar c') →
      r ≠ c :: cs ++ s := by
    rintro c cs r hr hcs rfl
    exact not_isNumberChar_of_isEnd c (hr c rfl) (hcs c List.mem_cons_self)
  induction cs generalizing ds with
  | nil =>
    cases ds with
    | nil => exact ⟨rfl, h⟩
    | cons d ds => exact absurd h (hstop hr hds)
  | cons c cs ih =>
    cases ds with
    | nil =>
      have hc := hs c (by rw [← List.nil_append s, ← h]; rfl)
      exact absurd (hcs c List.mem_cons_self) (not_isNumberChar_of_isEnd c hc)
    | cons d ds =>
      obtain ⟨rfl, htail⟩ := List.cons.inj h
      obtain ⟨rfl, hrest⟩ := ih (fun c hc => hcs c (List.mem_cons_of_mem _ hc))
        (fun d hd => hds d (List.mem_cons_of_mem _ hd)) htail
      exact ⟨rfl, hrest⟩

/-! ### The kinds of values -/

/-- The kinds of values that a first character tells apart. -/
inductive Kind where
  | null
  | bool (b : Bool)
  | number
  | text
  | list
  | mapping

/-- The kind of a value. -/
def kind : Value → Kind
  | .null => .null
  | .bool b => .bool b
  | .number _ => .number
  | .text _ => .text
  | .list _ => .list
  | .mapping _ => .mapping

/-- The kind of a value that begins with a character. -/
def kindOf? (c : Char) : Option Kind :=
  if c.isDigit = true ∨ c ∈ ['-', 'N', 'I'] then some .number
  else
    match c with
    | 'n' => some .null
    | 't' => some (.bool true)
    | 'f' => some (.bool false)
    | '"' => some .text
    | '[' => some .list
    | '\x7b' => some .mapping
    | _ => none

/-- The first character of `compactChars` tells the kind of the value, as `kindOf?` reads it. -/
theorem compactChars_eq_cons (v : Value) :
    ∃ c cs, compactChars v = c :: cs ∧ kindOf? c = some (kind v) := by
  rcases v with - | b | n | s | items | entries
  · exact ⟨_, _, rfl, rfl⟩
  · cases b with
    | true => exact ⟨_, _, rfl, rfl⟩
    | false => exact ⟨_, _, rfl, rfl⟩
  · obtain ⟨c, cs, hcs, hc⟩ := numberText_eq_cons n
    exact ⟨c, cs, hcs, if_pos hc⟩
  · exact ⟨_, _, rfl, rfl⟩
  · exact ⟨_, _, rfl, rfl⟩
  · exact ⟨_, _, rfl, rfl⟩

/-- Texts that begin in the same way are of values of the same kind, by `compactChars_eq_cons`. -/
theorem kind_eq {v w : Value} {r s : List Char}
    (h : compactChars v ++ r = compactChars w ++ s) : kind v = kind w := by
  obtain ⟨c, cs, hcs, hc⟩ := compactChars_eq_cons v
  obtain ⟨d, ds, hds, hd⟩ := compactChars_eq_cons w
  rw [hcs, hds] at h
  obtain ⟨rfl, -⟩ := List.cons.inj h
  rw [hc] at hd
  exact Option.some.inj hd

/-! ### Values -/

/-- What stands after an item of a list. -/
def afterItem : List Value → List Char
  | [] => []
  | items => ',' :: compactItems items

/-- A list is written as its first item and what stands after that one (`afterItem`). -/
theorem compactItems_cons (v : Value) (rest : List Value) :
    compactItems (v :: rest) = compactChars v ++ afterItem rest := by
  cases rest with
  | nil => rw [compactItems, afterItem, List.append_nil]
  | cons w rest => simp only [compactItems, afterItem]

/-- What stands after an entry of a mapping. -/
def afterEntry : List (String × Value) → List Char
  | [] => []
  | entries => ',' :: compactEntries entries

/-- A mapping is written as its first entry and what stands after that one (`afterEntry`). -/
theorem compactEntries_cons (key : String) (v : Value) (rest : List (String × Value)) :
    compactEntries ((key, v) :: rest)
      = quoted key ++ ':' :: (compactChars v ++ afterEntry rest) := by
  cases rest with
  | nil => rw [compactEntries, afterEntry, List.append_nil]
  | cons w rest => simp only [compactEntries, afterEntry]

/-- An item of a list may end where the next one or the closing bracket begins. -/
theorem isEnd_afterItem (items : List Value) (rest : List Char) :
    IsEnd (afterItem items ++ ']' :: rest) := by
  cases items with
  | nil => exact isEnd_cons (by decide) _
  | cons v items => exact isEnd_cons (by decide) _

/-- An entry of a mapping may end where the next one or the closing bracket begins. -/
theorem isEnd_afterEntry (entries : List (String × Value)) (rest : List Char) :
    IsEnd (afterEntry entries ++ '\x7d' :: rest) := by
  cases entries with
  | nil => exact isEnd_cons (by decide) _
  | cons entry entries => exact isEnd_cons (by decide) _

mutual

/-- **No text of a value goes on as another one.** The kinds agree by `kind_eq`; a number ends at
the first character of `IsEnd`, a string at its closing quote, and lists and mappings are taken
apart item by item. -/
theorem compactChars_append_inj : ∀ (v w : Value) {r s : List Char}, IsEnd r → IsEnd s →
    compactChars v ++ r = compactChars w ++ s → v = w ∧ r = s
  | .null, w, r, s, hr, hs, h => by
    have hkind := kind_eq h
    cases w <;> cases hkind
    exact ⟨rfl, List.append_cancel_left h⟩
  | .bool b, w, r, s, hr, hs, h => by
    have hkind := kind_eq h
    cases w <;> cases hkind
    exact ⟨rfl, List.append_cancel_left h⟩
  | .number n, w, r, s, hr, hs, h => by
    have hkind := kind_eq h
    cases w <;> cases hkind
    rename_i n'
    obtain ⟨htext, hrest⟩ := numberChars_append_inj (isNumberChar_of_mem_numberText n)
      (isNumberChar_of_mem_numberText n') hr hs h
    exact ⟨congrArg Value.number (numberText_injective htext), hrest⟩
  | .text t, w, r, s, hr, hs, h => by
    have hkind := kind_eq h
    cases w <;> cases hkind
    obtain ⟨rfl, hrest⟩ := quoted_append_inj h
    exact ⟨rfl, hrest⟩
  | .list items, w, r, s, hr, hs, h => by
    have hkind := kind_eq h
    cases w <;> cases hkind
    rename_i items'
    simp only [compactChars, List.cons_append, List.append_assoc, List.nil_append,
      List.cons.injEq, true_and] at h
    obtain ⟨rfl, hrest⟩ := compactItems_append_inj items items' h
    exact ⟨rfl, hrest⟩
  | .mapping entries, w, r, s, hr, hs, h => by
    have hkind := kind_eq h
    cases w <;> cases hkind
    rename_i entries'
    simp only [compactChars, List.cons_append, List.append_assoc, List.nil_append,
      List.cons.injEq, true_and] at h
    obtain ⟨rfl, hrest⟩ := compactEntries_append_inj entries entries' h
    exact ⟨rfl, hrest⟩

/-- The part of `compactChars_append_inj` for the items of a list: no list goes on as another one
after its items. -/
theorem compactItems_append_inj : ∀ (items items' : List Value) {r s : List Char},
    compactItems items ++ ']' :: r = compactItems items' ++ ']' :: s → items = items' ∧ r = s
  | [], [], r, s, h => ⟨rfl, (List.cons.inj h).2⟩
  | [], w :: items', r, s, h => by
    obtain ⟨c, cs, hcs, hc⟩ := compactChars_eq_cons w
    rw [compactItems_cons, hcs] at h
    obtain ⟨rfl, -⟩ := List.cons.inj h
    cases hc
  | v :: items, [], r, s, h => by
    obtain ⟨c, cs, hcs, hc⟩ := compactChars_eq_cons v
    rw [compactItems_cons, hcs] at h
    obtain ⟨rfl, -⟩ := List.cons.inj h
    cases hc
  | v :: items, w :: items', r, s, h => by
    rw [compactItems_cons, compactItems_cons, List.append_assoc, List.append_assoc] at h
    obtain ⟨rfl, hafter⟩ := compactChars_append_inj v w (isEnd_afterItem items r)
      (isEnd_afterItem items' s) h
    rcases items with - | ⟨v', items⟩ <;> rcases items' with - | ⟨w', items'⟩
    · exact ⟨rfl, (List.cons.inj hafter).2⟩
    · cases hafter
    · cases hafter
    · obtain ⟨hitems, hrest⟩ := compactItems_append_inj (v' :: items) (w' :: items')
        (List.cons.inj hafter).2
      rw [hitems]
      exact ⟨rfl, hrest⟩

/-- The part of `compactChars_append_inj` for the entries of a mapping. -/
theorem compactEntries_append_inj : ∀ (entries entries' : List (String × Value))
    {r s : List Char},
    compactEntries entries ++ '\x7d' :: r = compactEntries entries' ++ '\x7d' :: s →
    entries = entries' ∧ r = s
  | [], [], r, s, h => ⟨rfl, (List.cons.inj h).2⟩
  | [], (key, w) :: entries', r, s, h => by
    rw [compactEntries_cons] at h
    cases h
  | (key, v) :: entries, [], r, s, h => by
    rw [compactEntries_cons] at h
    cases h
  | (key, v) :: entries, (key', w) :: entries', r, s, h => by
    simp only [compactEntries_cons, List.append_assoc, List.cons_append] at h
    obtain ⟨rfl, hvalue⟩ := quoted_append_inj h
    obtain ⟨rfl, hafter⟩ := compactChars_append_inj v w (isEnd_afterEntry entries r)
      (isEnd_afterEntry entries' s) (List.cons.inj hvalue).2
    rcases entries with - | ⟨entry, entries⟩ <;> rcases entries' with - | ⟨entry', entries'⟩
    · exact ⟨rfl, (List.cons.inj hafter).2⟩
    · cases hafter
    · cases hafter
    · obtain ⟨hentries, hrest⟩ := compactEntries_append_inj (entry :: entries)
        (entry' :: entries') (List.cons.inj hafter).2
      rw [hentries]
      exact ⟨rfl, hrest⟩

end

/-- Different values have different texts: `compactChars_append_inj` with nothing behind either. -/
theorem compactChars_injective : Function.Injective compactChars := by
  intro v w h
  exact (compactChars_append_inj v w isEnd_nil isEnd_nil (congrArg (· ++ []) h)).1

end Json

end Templating
