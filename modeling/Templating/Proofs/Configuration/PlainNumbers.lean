import Mathlib.Data.List.TakeWhile
import Templating.Configuration.Pairs
import Templating.Proofs.Guard.Printing
import Templating.Proofs.Number.DecimalFractions
import Templating.Proofs.Number.DecimalText

/-!
# Plain numbers

A plain number, a minus sign or none before digits and a point with digits or none, is read in two
places: in guards, as a numeral, and among values given as texts. Both read it as the number that is
written, whatever the script of its digits. Only an integer with too many digits is read in neither
place.

Values given as texts may have blank characters around a number. The readers of numbers pass over
all of them but the four information separators.

## Main definitions

* `WrittenNumber`: plain numbers as they are written, with their characters and their value.
* `isSeparator`: the information separators.

## Main results

* `isPlain_iff`: the texts of the shape of a plain number are those of written numbers.
* `WrittenNumber.integer?_of_unpadded`, `WrittenNumber.decimal?_of_unpadded`: how a written number
  is read with blank characters behind it.
* `WrittenNumber.plainNumber_surrounded`: how a number between blank characters is read.
* `exists_number_of_matches`: both readers read a plain number, and agree on it.
* `inferred_of_matches`: the value that a plain number given as a text stands for.
-/

namespace Templating

open Templating.Text

/-! ### Written numbers -/

namespace Guard

variable {cs : List Char}

/-- Digits with a point or none have the shape of a numeral without its sign. -/
theorem isUnsigned_of_isDecimal {body : List Char} (h : IsDecimal body) : IsUnsigned body :=
  ⟨h.isDigit_or_eq_point, getLast?_of_isDecimal h⟩

theorem isNumeral_of_matches (h : (Symbol.numeral cs).Matches) : IsNumeral cs :=
  h.imp isUnsigned_of_isDecimal fun ⟨body, hcs, hbody⟩ => ⟨body, hcs, isUnsigned_of_isDecimal hbody⟩

/-- A plain number has the shape that `Numeral.isPlain` asks of values given as texts. -/
theorem isPlain_of_matches (h : (Symbol.numeral cs).Matches) : Numeral.isPlain cs = true := by
  have hsigned : ∀ body, IsDecimal body → Numeral.isPlain ('-' :: body) = true := by
    intro body hbody
    rw [Numeral.isPlain.eq_1]
    cases hbody with
    | whole hne hds =>
      have hdrop : body.dropWhile isDigit = [] := by
        rw [← List.append_nil body, dropWhile_isDigit hds, List.dropWhile_nil]
      rw [hdrop]
      simpa using hne
    | @point ds fs hne hds hne' hfs =>
      have hpoint : isDigit '.' = false := by decide
      have hdrop : (ds ++ '.' :: fs).dropWhile isDigit = '.' :: fs := by
        rw [dropWhile_isDigit hds, List.dropWhile_cons_of_neg (by simp [hpoint])]
      have htake : (ds ++ '.' :: fs).takeWhile isDigit = ds := by
        rw [takeWhile_isDigit hds, List.takeWhile_cons_of_neg (by simp [hpoint]), List.append_nil]
      rw [hdrop, htake]
      simp [hne, hne', List.all_eq_true.2 hfs]
  rcases h with hbody | ⟨body, rfl, hbody⟩
  · have hminus : ∀ rest, cs = '-' :: rest → False := by
      rintro rest rfl
      obtain ⟨c, hc, hdigit⟩ := head?_of_isDecimal hbody
      obtain rfl : '-' = c := Option.some.inj hc
      exact absurd hdigit (by decide)
    rw [Numeral.isPlain.eq_2 cs hminus]
    exact hsigned cs hbody
  · exact hsigned body hbody

end Guard

/-- A plain number as it is written, with digits of any script. Where there is no fraction, there is
no point. The texts that `Numeral.isPlain` accepts are those of such numbers (`isPlain_iff`). -/
structure WrittenNumber where
  negative : Bool
  whole : List Char
  fraction : List Char
  nonempty : whole ≠ []
  isDigit_whole : ∀ c ∈ whole, isDigit c = true
  isDigit_fraction : ∀ c ∈ fraction, isDigit c = true

namespace WrittenNumber

/-- The characters without the sign: the `whole` part, and the `fraction` behind a point if there is
one. -/
def body (w : WrittenNumber) : List Char :=
  if w.fraction = [] then w.whole else w.whole ++ '.' :: w.fraction

/-- The characters of a written number. -/
def chars (w : WrittenNumber) : List Char :=
  if w.negative then '-' :: w.body else w.body

/-- The natural number that all digits make up, those of the `fraction` behind those of the `whole`
part. -/
def significand (w : WrittenNumber) : Nat :=
  natOfDigits ((w.whole ++ w.fraction).filterMap digitValue?)

/-- The number that is written: an integer if there is no fraction, and else the floating point
number nearest to the fraction (`Binary64.ofRatio`). -/
def value (w : WrittenNumber) : Number :=
  if w.fraction = [] then .int (if w.negative then -(w.significand : Int) else w.significand)
  else .binary (Binary64.ofRatio w.negative (w.significand * unitsPerOne) (10 ^ w.fraction.length))

/-- Whether the number is an integer with more digits than are ever read
(`Numeral.maxIntegerDigits`). -/
def IsTooLong (w : WrittenNumber) : Prop :=
  w.fraction = [] ∧ Numeral.maxIntegerDigits < w.whole.length

/-- Whether a written number is too long is decided by counting its digits. -/
instance (w : WrittenNumber) : Decidable w.IsTooLong :=
  inferInstanceAs (Decidable (_ ∧ _))

variable (w : WrittenNumber)

/-- Without the sign, a written number is digits with a point or none. -/
theorem isDecimal_body : Guard.IsDecimal w.body := by
  rw [body]
  split
  · exact .whole w.nonempty w.isDigit_whole
  · next hfraction => exact .point w.nonempty w.isDigit_whole hfraction w.isDigit_fraction

/-- A written number is a plain number: its characters match the number symbol of guards. -/
theorem matches_chars : (Guard.Symbol.numeral w.chars).Matches := by
  rw [chars]
  split
  · exact .inr ⟨w.body, rfl, w.isDecimal_body⟩
  · exact .inl w.isDecimal_body

theorem not_isBlank_of_mem_chars : ∀ c ∈ w.chars, isBlank c = false :=
  Guard.not_isBlank_of_isNumeral (Guard.isNumeral_of_matches w.matches_chars)

/-- A written number has at least one character. -/
theorem chars_ne_nil : w.chars ≠ [] := by
  obtain ⟨c, tail, hcons, -⟩ := Guard.exists_cons_of_matches_numeral w.matches_chars
  rw [hcons]
  exact List.cons_ne_nil c tail

/-- A point stands in a number if it has a fraction. -/
theorem point_mem_chars_iff : '.' ∈ w.chars ↔ w.fraction ≠ [] := by
  have hpoint : isDigit '.' = false := by decide
  have hwhole : '.' ∉ w.whole := fun h => by
    rw [w.isDigit_whole _ h] at hpoint
    cases hpoint
  have hbody : '.' ∈ w.body ↔ w.fraction ≠ [] := by
    rw [body]
    split
    · next hfraction => exact iff_of_false hwhole (not_not_intro hfraction)
    · next hfraction => exact iff_of_true (by simp) hfraction
  rw [chars, ← hbody]
  split
  · exact ⟨fun h => (List.mem_cons.1 h).resolve_left (by decide), List.mem_cons_of_mem _⟩
  · rfl

end WrittenNumber

/-- **The texts that look like numbers are those of written numbers.** A text of that shape is cut
at its sign and at its point. -/
theorem isPlain_iff {cs : List Char} :
    Numeral.isPlain cs = true ↔ ∃ w : WrittenNumber, w.chars = cs := by
  have hunsigned (negative : Bool) : ∀ body, Numeral.isPlain ('-' :: body) = true →
      ∃ w : WrittenNumber, w.negative = negative ∧ w.body = body := by
    intro body h
    have hsplit := List.takeWhile_append_dropWhile (p := isDigit) (l := body)
    have hwhole : ∀ c ∈ body.takeWhile isDigit, isDigit c = true :=
      List.all_eq_true.1 List.all_takeWhile
    rw [Numeral.isPlain.eq_1] at h
    split at h
    · next hrest =>
      rw [hrest, List.append_nil] at hsplit
      rw [hsplit] at hwhole
      have hne : body ≠ [] := by simpa using h
      exact ⟨⟨negative, body, [], hne, hwhole, nofun⟩, rfl, rfl⟩
    · next fraction hrest =>
      simp only [Bool.and_eq_true, Bool.not_eq_true', List.isEmpty_eq_false_iff] at h
      obtain ⟨⟨hne, hne'⟩, hfraction⟩ := h
      refine ⟨⟨negative, _, fraction, hne, hwhole, List.all_eq_true.1 hfraction⟩, rfl, ?_⟩
      rw [WrittenNumber.body, if_neg hne', ← hrest, hsplit]
    · cases h
  constructor
  · intro h
    rcases cs with - | ⟨c, cs⟩
    · cases h
    by_cases hminus : c = '-'
    · subst hminus
      obtain ⟨w, hnegative, rfl⟩ := hunsigned true cs h
      exact ⟨w, if_pos hnegative⟩
    · rw [Numeral.isPlain.eq_2 _ (by rintro rest ⟨⟩; exact hminus rfl)] at h
      obtain ⟨w, hnegative, hbody⟩ := hunsigned false (c :: cs) h
      exact ⟨w, (if_neg (by simp [hnegative])).trans hbody⟩
  · rintro ⟨w, rfl⟩
    exact Guard.isPlain_of_matches w.matches_chars

/-! ### Blank space around a number -/

/-- An information separator: a blank character that may not stand around a number, since
`Numeral.isPadding` leaves it out. -/
def isSeparator (c : Char) : Bool :=
  0x1C ≤ c.toNat && c.toNat ≤ 0x1F

/-- The information separators are blank characters. -/
theorem isBlank_of_isSeparator {c : Char} (h : isSeparator c = true) : isBlank c = true := by
  simp only [isSeparator, Bool.and_eq_true, decide_eq_true_eq] at h
  simp only [isBlank, Bool.or_eq_true, Bool.and_eq_true, decide_eq_true_eq]
  omega

/-- Of the blank characters, `Numeral.isPadding` accepts all but the information separators. -/
theorem isPadding_of_isBlank {c : Char} (h : isBlank c = true) :
    Numeral.isPadding c = !isSeparator c := by
  rw [Numeral.isPadding, h, Bool.true_and, isSeparator]

/-- Blank characters are passed over as padding (`Numeral.isPadding`) if no separator is among
them. -/
theorem dropWhile_isPadding_eq_nil_iff {cs : List Char} (h : ∀ c ∈ cs, isBlank c = true) :
    cs.dropWhile Numeral.isPadding = [] ↔ ¬∃ c ∈ cs, isSeparator c = true := by
  rw [List.dropWhile_eq_nil_iff]
  push Not
  refine forall₂_congr fun c hc => ?_
  rw [isPadding_of_isBlank (h c hc), Bool.not_eq_true', Ne, Bool.not_eq_true]

/-- Lower case changes no blank character. -/
theorem toLower_of_isBlank {c : Char} (h : isBlank c = true) : c.toLower = c := by
  refine dif_neg fun hletter => ?_
  have hlower : 'A'.toNat ≤ c.toNat := UInt32.le_iff_toNat_le.1 hletter.1
  have hupper : c.toNat ≤ 'Z'.toNat := UInt32.le_iff_toNat_le.1 hletter.2
  have hA : 'A'.toNat = 65 := rfl
  have hZ : 'Z'.toNat = 90 := rfl
  simp only [isBlank, Bool.or_eq_true, Bool.and_eq_true, decide_eq_true_eq, beq_iff_eq] at h
  omega

namespace Numeral

variable {cs rest : List Char} {c : Char}

/-- A run of digits ends before blank characters. -/
theorem endsDigits_of_isBlank (h : ∀ c ∈ rest, isBlank c = true) : EndsDigits rest := by
  refine fun c hc => ?_
  have hblank := h c (List.mem_of_head? hc)
  constructor
  · by_contra hdigit
    rw [not_isBlank_of_isDigit (Option.isSome_iff_ne_none.2 hdigit)] at hblank
    cases hblank
  · rintro rfl
    exact absurd hblank (by decide)

/-- What padding around a text is passed over by `unpadded`, and what stays in front and behind. -/
theorem unpadded_append (before after : List Char) {core : List Char} (hne : core ≠ [])
    (hhead : ∀ c, core.head? = some c → isPadding c = false)
    (hlast : ∀ c, core.getLast? = some c → isPadding c = false) :
    unpadded (before ++ (core ++ after)) = before.dropWhile isPadding
      ++ (core ++ (after.reverse.dropWhile isPadding).reverse) := by
  have hdrop (front : List Char) {cs : List Char} {c : Char} (hc : cs.head? = some c)
      (hpadding : isPadding c = false) :
      (front ++ cs).dropWhile isPadding = front.dropWhile isPadding ++ cs := by
    obtain ⟨tail, rfl⟩ := List.head?_eq_some_iff.1 hc
    rw [List.dropWhile_append]
    split
    · next hempty =>
      rw [List.isEmpty_iff.1 hempty, List.dropWhile_cons_of_neg (by simp [hpadding])]
      rfl
    · rfl
  obtain ⟨c, hc⟩ : ∃ c, core.head? = some c := Option.ne_none_iff_exists'.1 (by simpa using hne)
  obtain ⟨d, hd⟩ : ∃ d, core.getLast? = some d := Option.ne_none_iff_exists'.1 (by simpa using hne)
  have hd' : core.reverse.head? = some d := by rwa [List.head?_reverse]
  rw [unpadded, hdrop before (c := c) (by rw [List.head?_append, hc]; rfl) (hhead c hc),
    ← List.append_assoc, List.reverse_append, hdrop _ (c := d) (by
      rw [List.reverse_append, List.head?_append, hd']; rfl) (hlast d hd),
    List.reverse_append, List.reverse_reverse, List.append_assoc]

/-- A text that begins with a blank character after its padding is no number to either reader,
`integer?` or `decimal?`. -/
theorem not_read_of_isBlank (h : unpadded cs = c :: rest) (hc : isBlank c = true) :
    integer? cs = none ∧ decimal? cs = none := by
  have hsign : sign (c :: rest) = (false, c :: rest) := by
    rw [sign.eq_3] <;> (rintro tail ⟨⟩; exact absurd hc (by decide))
  have hdigit : isDigit c = false := by
    by_contra hdigit
    rw [not_isBlank_of_isDigit (by simpa using hdigit)] at hc
    cases hc
  have hdigits : digits (c :: rest) = ([], c :: rest) := by simp [digits, hdigit]
  have hword (c' : Char) (cs' : List Char) (hc' : isBlank c' = false) :
      String.ofList ((c :: rest).map Char.toLower) ≠ String.ofList (c' :: cs') := fun heq => by
    have hhead := (List.cons.inj (String.ofList_injective heq)).1
    rw [toLower_of_isBlank hc] at hhead
    rw [← hhead, hc] at hc'
    cases hc'
  constructor
  · simp [integer?, h, hsign, hdigits]
  · have hinf := hword 'i' ['n', 'f'] (by decide)
    have hinfinity := hword 'i' ['n', 'f', 'i', 'n', 'i', 't', 'y'] (by decide)
    have hnan := hword 'n' ['a', 'n'] (by decide)
    have hpoint : c ≠ '.' := by
      rintro rfl
      exact absurd hc (by decide)
    simp only [decimal?, h, hsign]
    rw [if_neg (not_or.2 ⟨hinf, hinfinity⟩), if_neg hnan]
    simp [unsigned?, hdigits, hpoint]

/-- No power of ten begins with a blank character. -/
theorem power?_of_isBlank (h : ∀ c ∈ rest, isBlank c = true) :
    power? rest = if rest = [] then some 0 else none := by
  cases rest with
  | nil => rfl
  | cons c rest =>
    have hc := h c List.mem_cons_self
    have hpower : ¬(c = 'e' ∨ c = 'E') := by
      rintro (rfl | rfl) <;> exact absurd hc (by decide)
    rw [power?, if_neg hpower, if_neg (List.cons_ne_nil c rest)]

/-- Digits of any script are read to their end, by their values. Induction on the digits. -/
theorem moreDigits_append_filterMap (h : ∀ c ∈ cs, isDigit c = true) (hrest : EndsDigits rest) :
    moreDigits (cs ++ rest) = (cs.filterMap digitValue?, rest) := by
  induction cs with
  | nil => exact moreDigits_of_endsDigits hrest
  | cons c cs ih =>
    rw [List.forall_mem_cons] at h
    obtain ⟨d, hd⟩ := Option.isSome_iff_exists.1 h.1
    rw [List.cons_append, moreDigits_cons hd, ih h.2, List.filterMap_cons_some hd]

/-- The same for digits of which there is at least one, as the readers of numbers ask for. -/
theorem digits_append_filterMap (hne : cs ≠ []) (h : ∀ c ∈ cs, isDigit c = true)
    (hrest : EndsDigits rest) :
    digits (cs ++ rest) = (cs.filterMap digitValue?, rest)
      ∧ (cs.filterMap digitValue?).isEmpty = false := by
  rw [← moreDigits_append_filterMap h hrest]
  obtain ⟨c, cs, rfl⟩ := List.exists_cons_of_ne_nil hne
  rw [List.forall_mem_cons] at h
  obtain ⟨d, hd⟩ := Option.isSome_iff_exists.1 h.1
  refine ⟨?_, ?_⟩
  · rw [List.cons_append, digits, if_pos h.1]
  · rw [List.filterMap_cons_some hd]
    rfl

end Numeral

/-! ### Reading a number between blank characters -/

namespace WrittenNumber

variable (w : WrittenNumber) {cs rest before after : List Char}

/-- The sign of a written number is cut from its body, whatever follows. -/
theorem sign_chars_append (rest : List Char) :
    Numeral.sign (w.chars ++ rest) = (w.negative, w.body ++ rest) := by
  rw [chars]
  cases w.negative with
  | true => rfl
  | false =>
    obtain ⟨c, hc, hdigit⟩ := Guard.head?_of_isDecimal w.isDecimal_body
    obtain ⟨tail, hcons⟩ := List.head?_eq_some_iff.1 hc
    rw [if_neg Bool.false_ne_true, hcons, List.cons_append]
    exact Numeral.sign_of_isDigit hdigit (tail ++ rest)

/-- Every digit of the whole part has a value, so none is lost when the values are counted. -/
theorem length_filterMap_whole : (w.whole.filterMap digitValue?).length = w.whole.length :=
  List.filterMap_length_eq_length.2 w.isDigit_whole

/-- A number without a fraction is read as an integer if nothing is left behind it: `integer?` reads
its digits to their end, and they must not be too many. -/
theorem integer?_of_unpadded (hfraction : w.fraction = []) (hrest : ∀ c ∈ rest, isBlank c = true)
    (h : Numeral.unpadded cs = w.chars ++ rest) :
    Numeral.integer? cs = if w.IsTooLong ∨ rest ≠ [] then none
      else some (if w.negative then -(w.significand : Int) else w.significand) := by
  obtain ⟨hdigits, hnonempty⟩ := Numeral.digits_append_filterMap w.nonempty w.isDigit_whole
    (Numeral.endsDigits_of_isBlank hrest)
  have hbody : w.body = w.whole := if_pos hfraction
  have hsignificand : w.significand = natOfDigits (w.whole.filterMap digitValue?) := by
    rw [significand, hfraction, List.append_nil]
  simp only [Numeral.integer?, h, w.sign_chars_append, hbody, hdigits, hnonempty,
    w.length_filterMap_whole, hsignificand, Bool.false_or]
  refine if_congr ?_ rfl rfl
  simp [IsTooLong, hfraction, or_comm]

/-- A number with a fraction is read as a floating point number if nothing is left behind it, by
`Numeral.ofParts_eq_ofRatio` for its two runs of digits. -/
theorem decimal?_of_unpadded (hfraction : w.fraction ≠ []) (hrest : ∀ c ∈ rest, isBlank c = true)
    (h : Numeral.unpadded cs = w.chars ++ rest) :
    Numeral.decimal? cs = if rest ≠ [] then none
      else some (Binary64.ofRatio w.negative (w.significand * unitsPerOne)
        (10 ^ w.fraction.length)) := by
  have hbody : w.body ++ rest = w.whole ++ '.' :: (w.fraction ++ rest) := by
    rw [body, if_neg hfraction, List.append_assoc, List.cons_append]
  have hpoint : Numeral.EndsDigits ('.' :: (w.fraction ++ rest)) :=
    Numeral.endsDigits_of_head _ (by decide) (by decide)
  obtain ⟨hwhole, hnonempty⟩ :=
    Numeral.digits_append_filterMap w.nonempty w.isDigit_whole hpoint
  obtain ⟨hbehind, -⟩ := Numeral.digits_append_filterMap hfraction w.isDigit_fraction
    (Numeral.endsDigits_of_isBlank hrest)
  obtain ⟨c, tail, hcons⟩ := List.exists_cons_of_ne_nil w.nonempty
  have hword (c' : Char) (cs' : List Char) (hc' : isDigit c' = false) (hminus : c' ≠ '-') :
      String.ofList ((w.body ++ rest).map Char.toLower) ≠ String.ofList (c' :: cs') := by
    rw [hbody, hcons]
    exact ofList_map_toLower_ne (.inl (w.isDigit_whole c (hcons ▸ List.mem_cons_self))) hc' hminus
  have hinf := hword 'i' ['n', 'f'] (by decide) (by decide)
  have hinfinity := hword 'i' ['n', 'f', 'i', 'n', 'i', 't', 'y'] (by decide) (by decide)
  have hnan := hword 'n' ['a', 'n'] (by decide) (by decide)
  have hvalues : ∀ d ∈ w.whole.filterMap digitValue? ++ w.fraction.filterMap digitValue?,
      d < 10 := by
    intro d hd
    rw [← List.filterMap_append] at hd
    obtain ⟨c, -, hc⟩ := List.mem_filterMap.1 hd
    exact digitValue?_lt hc
  have hlength : (w.fraction.filterMap digitValue?).length = w.fraction.length :=
    List.filterMap_length_eq_length.2 w.isDigit_fraction
  simp only [Numeral.decimal?, h, w.sign_chars_append]
  rw [if_neg (not_or.2 ⟨hinf, hinfinity⟩), if_neg hnan, hbody]
  simp only [Numeral.unsigned?, hwhole, hbehind, hnonempty, Bool.false_and, Bool.false_eq_true,
    if_false, Numeral.power?_of_isBlank hrest]
  by_cases hnil : rest = []
  · rw [if_pos hnil, if_neg (not_not_intro hnil), Option.map_some,
      Numeral.ofParts_eq_ofRatio _ hvalues, hlength, ← List.filterMap_append, significand]
  · rw [if_neg hnil, if_pos hnil, Option.map_none]

/-- **A number between blank characters is read as its value** by `plainNumber`, unless there is a
separator among them or it is too long. A separator in front is left at the head of the text, where
no number begins, and one behind it is left over. -/
theorem plainNumber_surrounded (hbefore : ∀ c ∈ before, isBlank c = true)
    (hafter : ∀ c ∈ after, isBlank c = true) :
    plainNumber (before ++ (w.chars ++ after))
      = if w.IsTooLong ∨ (before ++ after).any isSeparator = true then .error .unreadableNumber
        else .ok w.value := by
  have hpadding {c : Char} (h : isBlank c = false) : Numeral.isPadding c = false :=
    Numeral.not_isPadding_of_not_isBlank h
  have hunpadded := Numeral.unpadded_append before after w.chars_ne_nil
    (fun c hc => hpadding (w.not_isBlank_of_mem_chars c (List.mem_of_head? hc)))
    fun c hc => hpadding (w.not_isBlank_of_mem_chars c (List.mem_of_getLast? hc))
  have hpoint : (before ++ (w.chars ++ after)).contains '.' = true ↔ w.fraction ≠ [] := by
    have hblank {cs : List Char} (h : ∀ c ∈ cs, isBlank c = true) : '.' ∉ cs := fun hmem =>
      absurd (h _ hmem) (by decide)
    rw [List.contains_iff_mem, List.mem_append, List.mem_append, or_iff_right (hblank hbefore),
      or_iff_left (hblank hafter), w.point_mem_chars_iff]
  -- In front there is a separator, which neither reader passes over, or only padding, and then what
  -- stands behind the number decides.
  cases hfront : before.dropWhile Numeral.isPadding with
  | cons c front =>
    have hc : c ∈ before :=
      (List.dropWhile_sublist Numeral.isPadding).subset (hfront ▸ List.mem_cons_self)
    rw [hfront] at hunpadded
    obtain ⟨hinteger, hdecimal⟩ := Numeral.not_read_of_isBlank hunpadded (hbefore c hc)
    have hseparator : ∃ c ∈ before, isSeparator c = true := by
      by_contra hnone
      rw [(dropWhile_isPadding_eq_nil_iff hbefore).2 hnone] at hfront
      cases hfront
    obtain ⟨d, hd, hsep⟩ := hseparator
    have hany := List.any_eq_true.2 ⟨d, List.mem_append_left after hd, hsep⟩
    rw [if_pos (.inr hany), plainNumber, hinteger, hdecimal, ite_self]
  | nil =>
    rw [hfront, List.nil_append] at hunpadded
    have hnone := (dropWhile_isPadding_eq_nil_iff hbefore).1 hfront
    have hreverse : ∀ c ∈ after.reverse, isBlank c = true :=
      fun c hc => hafter c (List.mem_reverse.1 hc)
    have hrest : ∀ c ∈ (after.reverse.dropWhile Numeral.isPadding).reverse, isBlank c = true :=
      fun c hc => hreverse c ((List.dropWhile_sublist _).subset (List.mem_reverse.1 hc))
    have hseparator : (before ++ after).any isSeparator = true
        ↔ (after.reverse.dropWhile Numeral.isPadding).reverse ≠ [] := by
      rw [List.any_eq_true, Ne, List.reverse_eq_nil_iff,
        dropWhile_isPadding_eq_nil_iff hreverse, not_not]
      simp only [List.mem_append, or_and_right, exists_or, or_iff_right hnone, List.mem_reverse]
    rw [plainNumber]
    -- The point tells which reader is asked.
    by_cases hfraction : w.fraction = []
    · rw [if_neg (mt hpoint.1 (not_not_intro hfraction)),
        w.integer?_of_unpadded hfraction hrest hunpadded]
      simp only [hseparator]
      by_cases hfails : w.IsTooLong ∨ (after.reverse.dropWhile Numeral.isPadding).reverse ≠ []
      · rw [if_pos hfails, if_pos hfails]
      · rw [if_neg hfails, if_neg hfails, value, if_pos hfraction]
    · have hshort : ¬w.IsTooLong := fun h => hfraction h.1
      rw [if_pos (hpoint.2 hfraction), w.decimal?_of_unpadded hfraction hrest hunpadded]
      simp only [hseparator, hshort, false_or]
      by_cases hfails : (after.reverse.dropWhile Numeral.isPadding).reverse ≠ []
      · rw [if_pos hfails, if_pos hfails]
      · rw [if_neg hfails, if_neg hfails, value, if_neg hfraction]

end WrittenNumber

/-! ### Both readers -/

theorem Binary64.ofRatio_ne_nan (negative : Bool) (n d : Nat) : ofRatio negative n d ≠ nan := by
  rw [ofRatio, ofUnits]
  split <;> simp

namespace WrittenNumber

variable (w : WrittenNumber)

theorem value_ne_nan : w.value ≠ .binary .nan := by
  rw [value]
  split
  · simp
  · exact fun heq => Binary64.ofRatio_ne_nan _ _ _ (Number.binary.inj heq)

/-- A number with few digits is not too long: the digits of its whole part are among its digits. -/
theorem not_isTooLong (h : w.chars.countP isDigit ≤ Numeral.maxIntegerDigits) : ¬w.IsTooLong := by
  rintro ⟨hfraction, hlong⟩
  have hsublist : w.whole.Sublist w.chars := by
    rw [chars, body, if_pos hfraction]
    split
    · exact List.sublist_cons_self _ _
    · exact List.Sublist.refl _
  have hcount : w.whole.countP isDigit ≤ w.chars.countP isDigit := hsublist.countP_le
  rw [List.countP_eq_length.2 w.isDigit_whole] at hcount
  omega

/-- In a guard a written number that is not too long stands for its value (`Guard.numeralLiteral`),
which is also what `plainNumber` reads. -/
theorem numeralLiteral_chars (h : ¬w.IsTooLong) :
    Guard.numeralLiteral w.chars = .ok (.number w.value) := by
  have hunpadded : Numeral.unpadded w.chars = w.chars ++ [] := by
    rw [List.append_nil]
    exact Guard.unpadded_of_isNumeral (Guard.isNumeral_of_matches w.matches_chars)
  have hpoint := List.contains_iff_mem.trans w.point_mem_chars_iff
  rw [Guard.numeralLiteral]
  by_cases hfraction : w.fraction = []
  · have hread : ¬(w.IsTooLong ∨ ([] : List Char) ≠ []) := by simpa using h
    rw [if_neg (mt hpoint.1 (not_not_intro hfraction)),
      w.integer?_of_unpadded hfraction (List.forall_mem_nil _) hunpadded, if_neg hread, value,
      if_pos hfraction]
  · rw [if_pos (hpoint.2 hfraction),
      w.decimal?_of_unpadded hfraction (List.forall_mem_nil _) hunpadded,
      if_neg (not_not_intro rfl), Option.getD_some, value, if_neg hfraction]

end WrittenNumber

namespace Guard

variable {cs : List Char}

/-- **Both readers read a plain number, unless it has too many digits, and agree on it**:
`numeralLiteral` in guards and `plainNumber` among values given as texts. -/
theorem exists_number_of_matches (h : (Symbol.numeral cs).Matches)
    (hshort : cs.countP isDigit ≤ Numeral.maxIntegerDigits) :
    ∃ n : Number, numeralLiteral cs = .ok (.number n) ∧ plainNumber cs = .ok n
      ∧ n ≠ .binary .nan := by
  obtain ⟨w, rfl⟩ := isPlain_iff.1 (isPlain_of_matches h)
  have hlong := w.not_isTooLong hshort
  have hplain := w.plainNumber_surrounded (List.forall_mem_nil _) (List.forall_mem_nil _)
  rw [List.nil_append, List.append_nil, if_neg (by simpa using hlong)] at hplain
  exact ⟨w.value, w.numeralLiteral_chars hlong, hplain, w.value_ne_nan⟩

/-! ### Values given as texts -/

/-- A plain number has no blank characters to lose at its ends. -/
theorem trim_of_matches (h : (Symbol.numeral cs).Matches) : trim cs = cs := by
  have hblank := not_isBlank_of_isNumeral (isNumeral_of_matches h)
  exact trim_eq_self (fun c hc => hblank c (List.mem_of_head? hc))
    fun c hc => hblank c (List.mem_of_getLast? hc)

/-- A text that is a plain number between blank characters is read as a number by `inferred`,
because it is none of the words that stand for other values (`ofList_map_toLower_ne`). -/
theorem inferred_of_trim_matches {s : String} (h : (Symbol.numeral (trim s.toList)).Matches) :
    inferred s = (plainNumber s.toList).map .number := by
  obtain ⟨c, tail, hcons, hc⟩ := exists_cons_of_matches_numeral h
  have hword : ∀ c' cs', isDigit c' = false → c' ≠ '-' →
      String.ofList ((trim s.toList).map Char.toLower) ≠ String.ofList (c' :: cs') := by
    intro c' cs' hc' hminus
    rw [hcons]
    exact ofList_map_toLower_ne hc hc' hminus
  have htrue := hword 't' ['r', 'u', 'e'] (by decide) (by decide)
  have hfalse := hword 'f' ['a', 'l', 's', 'e'] (by decide) (by decide)
  simp only [inferred]
  rw [if_neg htrue, if_neg hfalse, if_pos (isPlain_of_matches h)]

/-- A plain number given as a text stands for that number: `inferred_of_trim_matches` for a text
without blank characters. -/
theorem inferred_of_matches {s : String} (h : (Symbol.numeral s.toList).Matches) :
    inferred s = (plainNumber s.toList).map .number := by
  refine inferred_of_trim_matches ?_
  rwa [trim_of_matches h]

end Guard

end Templating
