/-!
# Blank characters

Which characters count as blank space, and how a run of characters is trimmed of it. Texts are
scanned as lists of characters everywhere in this library, so the functions here take and
return such lists; the `String` forms stand beside them.

The blank characters are the Unicode space separators, the line and paragraph separators, and
the control characters that act as white space (tab to carriage return, the four information
separators and next line). The zero width space and the byte order mark are not blank.
-/

namespace Templating.Text

/-- Whether a character is blank: the white space of Unicode and the four information separators. -/
def isBlank (c : Char) : Bool :=
  let n := c.toNat
  (0x09 ≤ n && n ≤ 0x0D) || (0x1C ≤ n && n ≤ 0x20) || n == 0x85 || n == 0xA0 || n == 0x1680
    || (0x2000 ≤ n && n ≤ 0x200A) || n == 0x2028 || n == 0x2029 || n == 0x202F || n == 0x205F
    || n == 0x3000

/-- The characters without the blank ones at the front. -/
def trimStart (cs : List Char) : List Char :=
  cs.dropWhile isBlank

/-- The characters without the blank ones at the back. -/
def trimEnd (cs : List Char) : List Char :=
  (cs.reverse.dropWhile isBlank).reverse

/-- The characters without the blank ones at either end (`trimStart`, `trimEnd`). -/
def trim (cs : List Char) : List Char :=
  trimEnd (trimStart cs)

/-- A text without the blank characters at either end: `trim` for texts. -/
def trimmed (s : String) : String :=
  String.ofList (trim s.toList)

/-- Whether a text is empty or blank throughout. -/
def isBlankText (s : String) : Bool :=
  s.toList.all isBlank

/-- The characters up to the first blank one; `afterFirstWord` has the others. -/
def firstWord (cs : List Char) : List Char :=
  cs.takeWhile fun c => !isBlank c

/-- The characters from the first blank one on. -/
def afterFirstWord (cs : List Char) : List Char :=
  cs.dropWhile fun c => !isBlank c

/-- The characters without one line feed at the very end, before which a pattern may end as well. -/
def withoutFinalNewline (cs : List Char) : List Char :=
  if cs.getLast? = some '\n' then cs.dropLast else cs

/-- The first word and what follows it make up the whole. -/
theorem firstWord_append_afterFirstWord (cs : List Char) :
    firstWord cs ++ afterFirstWord cs = cs :=
  List.takeWhile_append_dropWhile

/-- Blank characters in front are dropped up to the first other one. -/
theorem dropWhile_isBlank_append {before rest : List Char}
    (hbefore : ∀ c ∈ before, isBlank c = true)
    (hrest : ∀ c, rest.head? = some c → isBlank c = false) :
    (before ++ rest).dropWhile isBlank = rest := by
  rw [List.dropWhile_append_of_pos hbefore]
  cases rest with
  | nil => rfl
  | cons c rest => exact List.dropWhile_cons_of_neg (by simp [hrest c rfl])

/-- Trimming takes away the blank characters around a text that begins and ends with others. -/
theorem trim_append_append {before cs after : List Char} (hne : cs ≠ [])
    (hbefore : ∀ c ∈ before, isBlank c = true) (hafter : ∀ c ∈ after, isBlank c = true)
    (hhead : ∀ c, cs.head? = some c → isBlank c = false)
    (hlast : ∀ c, cs.getLast? = some c → isBlank c = false) :
    trim (before ++ (cs ++ after)) = cs := by
  rw [trim, trimStart, dropWhile_isBlank_append hbefore, trimEnd, List.reverse_append,
    dropWhile_isBlank_append, List.reverse_reverse]
  · exact fun c hc => hafter c (List.mem_reverse.1 hc)
  · rwa [List.head?_reverse]
  · cases cs with
    | nil => exact absurd rfl hne
    | cons c cs => exact hhead

/-- A text that begins and ends with other characters is left as it is by `trim`. -/
theorem trim_eq_self {cs : List Char} (hhead : ∀ c, cs.head? = some c → isBlank c = false)
    (hlast : ∀ c, cs.getLast? = some c → isBlank c = false) : trim cs = cs := by
  cases cs with
  | nil => rfl
  | cons c cs =>
    have h : trim ([] ++ (c :: cs ++ [])) = c :: cs :=
      trim_append_append nofun nofun nofun hhead hlast
    rwa [List.nil_append, List.append_nil] at h

/-- A text is what is left of it and the blank characters taken from its end. -/
theorem trimEnd_append (cs : List Char) :
    trimEnd cs ++ (cs.reverse.takeWhile isBlank).reverse = cs := by
  rw [trimEnd, ← List.reverse_append, List.takeWhile_append_dropWhile, List.reverse_reverse]

/-- What `trim` leaves of a text stands in it between blank characters. -/
theorem exists_surrounded_trim (cs : List Char) : ∃ before after, cs = before ++ (trim cs ++ after)
    ∧ (∀ c ∈ before, isBlank c = true) ∧ ∀ c ∈ after, isBlank c = true := by
  have hblank : ∀ ds : List Char, ∀ c ∈ ds.takeWhile isBlank, isBlank c = true :=
    fun _ => List.all_eq_true.1 List.all_takeWhile
  refine ⟨cs.takeWhile isBlank, ((trimStart cs).reverse.takeWhile isBlank).reverse, ?_, hblank cs,
    fun c hc => hblank _ c (List.mem_reverse.1 hc)⟩
  rw [trim, trimEnd_append, trimStart, List.takeWhile_append_dropWhile]

/-- What is left begins with a character that is not blank. -/
theorem not_isBlank_of_head?_dropWhile {cs : List Char} {c : Char}
    (h : (cs.dropWhile isBlank).head? = some c) : isBlank c = false := by
  have hnot := List.head?_dropWhile_not isBlank cs
  rwa [h] at hnot

/-- A text is blank space around a part that neither begins nor ends with a blank character. -/
theorem exists_surrounded (cs : List Char) : ∃ before core after, cs = before ++ (core ++ after)
    ∧ (∀ c ∈ before, isBlank c = true) ∧ (∀ c ∈ after, isBlank c = true)
    ∧ (∀ c, core.head? = some c → isBlank c = false)
    ∧ ∀ c, core.getLast? = some c → isBlank c = false := by
  obtain ⟨before, after, hcs, hbefore, hafter⟩ := exists_surrounded_trim cs
  refine ⟨before, trim cs, after, hcs, hbefore, hafter, fun c hc => ?_, fun c hc => ?_⟩
  · have hhead : (trimStart cs).head? = some c := by
      rw [← trimEnd_append (trimStart cs), List.head?_append, ← trim, hc]
      rfl
    exact not_isBlank_of_head?_dropWhile hhead
  · rw [trim, trimEnd, List.getLast?_reverse] at hc
    exact not_isBlank_of_head?_dropWhile hc

end Templating.Text
