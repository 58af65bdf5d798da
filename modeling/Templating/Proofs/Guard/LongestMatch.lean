import Templating.Proofs.Guard.Numerals

/-!
# Lexemes by longest match

Every symbol of a guard follows a pattern, and of all symbols that may stand at the head of a text
the longest is read. Here the patterns are written down by themselves, without the scan that looks
for them, and the symbol that is read is shown to be the longest one that follows its pattern. A
guard therefore splits into lexemes in one way at most.

## Main definitions

* `Symbol.Matches`: the patterns.
* `Symbol.Begins`, `Symbol.IsNext`: symbols that may stand at the head of a text, and the longest.
* `Splits`: the symbols of a text, with blank space skipped between them.

## Main results

* `symbol?_eq_some_iff`: the symbol that is read is the longest one.
* `splits_of_lexFrom`, `exists_lexFrom_of_splits`: the lexemes of a guard are what it splits into.
-/

namespace Templating.Guard

open Templating.Text

/-! ### Patterns -/

/-- Digits, and perhaps a point and more digits. There is no sign here; `Symbol.Matches` adds it. -/
inductive IsDecimal : List Char → Prop
  | whole {ds : List Char} (hne : ds ≠ []) (hds : ∀ c ∈ ds, isDigit c = true) : IsDecimal ds
  | point {ds fs : List Char} (hne : ds ≠ []) (hds : ∀ c ∈ ds, isDigit c = true)
      (hne' : fs ≠ []) (hfs : ∀ c ∈ fs, isDigit c = true) : IsDecimal (ds ++ '.' :: fs)

/-- Letters, digits and underscores, and points each of which stands before one of those. -/
inductive IsNameRest : List Char → Prop
  | nil : IsNameRest []
  | inside {c : Char} {cs : List Char} (hc : inName c = true) (h : IsNameRest cs) :
      IsNameRest (c :: cs)
  | point {c : Char} {cs : List Char} (hc : inName c = true) (h : IsNameRest cs) :
      IsNameRest ('.' :: c :: cs)

/-- A letter or underscore and the rest of a name. -/
def IsWord (cs : List Char) : Prop :=
  ∃ c rest, cs = c :: rest ∧ startsName c = true ∧ IsNameRest rest

namespace Symbol

/-- The pattern of a symbol. A quoted text holds no quote of its kind, and a name is spelled like no
keyword. The patterns say nothing of how a symbol is looked for; that is what `symbol?` does. -/
def Matches : Symbol → Prop
  | quoted quote content => (quote = '"' ∨ quote = '\x27') ∧ quote ∉ content
  | numeral digits => IsDecimal digits ∨ ∃ body, digits = '-' :: body ∧ IsDecimal body
  | relation _ => True
  | opening => True
  | closing => True
  | keyword _ => True
  | name path => IsWord path ∧ ∀ k : Keyword, k.spelling ≠ path

/-- Whether a text may follow a symbol: a number is not followed by what could continue it or a
name. For all other symbols anything may follow. -/
def MayPrecede : Symbol → List Char → Prop
  | numeral _, rest => mayFollowNumber rest = true
  | _, _ => True

/-- The symbol may stand at the head of a text and leave a given rest: it follows its pattern
(`Symbol.Matches`), and the rest may follow it (`Symbol.MayPrecede`). -/
structure Begins (s : Symbol) (cs rest : List Char) : Prop where
  source : s.source ++ rest = cs
  pattern : s.Matches
  follow : s.MayPrecede rest

/-- The symbol may stand at the head of a text, and no longer one may. `symbol?_eq_some_iff` says
that it is the one that is read. -/
structure IsNext (s : Symbol) (cs rest : List Char) : Prop where
  begins : s.Begins cs rest
  longest : ∀ t rest', Begins t cs rest' → rest.length ≤ rest'.length

end Symbol

/-- The symbols of a text. Blank space is skipped, and elsewhere the longest symbol is taken
(`Symbol.IsNext`). -/
inductive Splits : List Char → List Symbol → Prop
  | nil : Splits [] []
  | blank {c : Char} {cs : List Char} {symbols : List Symbol} (hc : isBlank c = true)
      (h : Splits cs symbols) : Splits (c :: cs) symbols
  | symbol {cs rest : List Char} {s : Symbol} {symbols : List Symbol} (hs : s.IsNext cs rest)
      (h : Splits rest symbols) : Splits cs (s :: symbols)

/-! ### Where a symbol of a kind cannot begin -/

section Heads

variable {c : Char} {cs : List Char}

/-- No quoted text begins with another character than a quote. -/
theorem quoted?_eq_none (h : c ≠ '"') (h' : c ≠ '\x27') : quoted? (c :: cs) = none := by
  rw [quoted?, if_neg (not_or.2 ⟨h, h'⟩)]

/-- No digits are taken where none stands. -/
theorem longestUnsigned_of_not_isDigit (h : isDigit c = false) :
    longestUnsigned (c :: cs) = ([], c :: cs) := by
  have htake : (c :: cs).takeWhile isDigit = [] := List.takeWhile_cons_of_neg (by simp [h])
  have hdrop : (c :: cs).dropWhile isDigit = c :: cs := List.dropWhile_cons_of_neg (by simp [h])
  rw [longestUnsigned, htake, hdrop]
  split
  · rw [if_pos (by simp)]
  · rfl

/-- No number begins with another character than a digit or a minus sign. -/
theorem numeral?_eq_none (h : isDigit c = false) (h' : c ≠ '-') : numeral? (c :: cs) = none := by
  have hnone : (longestNumeral (c :: cs)).1 = [] := by
    rw [longestNumeral.eq_def]
    split
    · rename_i heq
      exact absurd (List.cons.inj heq).1 h'
    · rw [longestUnsigned_of_not_isDigit h]
  rw [numeral?, hnone]
  rfl

/-- No relation begins with a character that no sign of a relation begins with. -/
theorem relation?_eq_none (h : ∀ r : Relation, r.sign.head? ≠ some c) :
    relation? (c :: cs) = none := by
  have hequal : c ≠ '=' := fun heq => h .equal (by rw [heq]; rfl)
  have hunequal : c ≠ '!' := fun heq => h .unequal (by rw [heq]; rfl)
  have hless : c ≠ '<' := fun heq => h .less (by rw [heq]; rfl)
  have hgreater : c ≠ '>' := fun heq => h .greater (by rw [heq]; rfl)
  rw [relation?.eq_def]
  split <;> simp_all

/-- No parenthesis begins with another character than the two. -/
theorem parenthesis?_eq_none (h : c ≠ '(') (h' : c ≠ ')') : parenthesis? (c :: cs) = none := by
  rw [parenthesis?.eq_def]
  split <;> simp_all

end Heads

/-! ### Numbers -/

/-- Digits are taken from the front over a first part that is all digits. -/
theorem takeWhile_isDigit {ds rest : List Char} (hds : ∀ c ∈ ds, isDigit c = true) :
    (ds ++ rest).takeWhile isDigit = ds ++ rest.takeWhile isDigit :=
  List.takeWhile_append_of_pos hds

/-- Digits are dropped from the front over a first part that is all digits. -/
theorem dropWhile_isDigit {ds rest : List Char} (hds : ∀ c ∈ ds, isDigit c = true) :
    (ds ++ rest).dropWhile isDigit = rest.dropWhile isDigit :=
  List.dropWhile_append_of_pos hds

/-- A decimal at the head of a text is a first part of the longest one that `longestUnsigned` takes,
whatever follows it. -/
theorem prefix_longestUnsigned {body rest : List Char} (h : IsDecimal body) :
    body <+: (longestUnsigned (body ++ rest)).1 := by
  cases h with
  | whole hne hds =>
    have hwhole : body <+: (body ++ rest).takeWhile isDigit := by
      rw [takeWhile_isDigit hds]
      exact List.prefix_append _ _
    rw [longestUnsigned]
    split
    · split
      · exact hwhole
      · exact hwhole.trans (List.prefix_append _ _)
    · exact hwhole
  | @point ds fs hne hds hne' hfs =>
    have hpoint : isDigit '.' = false := by decide
    have htake : (ds ++ '.' :: fs ++ rest).takeWhile isDigit = ds := by
      rw [List.append_assoc, takeWhile_isDigit hds, List.cons_append,
        List.takeWhile_cons_of_neg (by simp [hpoint]), List.append_nil]
    have hdrop : (ds ++ '.' :: fs ++ rest).dropWhile isDigit = '.' :: (fs ++ rest) := by
      rw [List.append_assoc, dropWhile_isDigit hds, List.cons_append,
        List.dropWhile_cons_of_neg (by simp [hpoint])]
    have hfraction : (fs ++ rest).takeWhile isDigit = fs ++ rest.takeWhile isDigit :=
      takeWhile_isDigit hfs
    simp only [longestUnsigned, hdrop, htake, hfraction]
    rw [if_neg (by simp [hne, hne'])]
    refine (List.prefix_append_right_inj _).2 (List.cons_prefix_cons.2 ⟨rfl, ?_⟩)
    exact List.prefix_append _ _

/-- A first part of the longest decimal that ends in a digit is a decimal: it ends among the digits
before the point or among those behind it. -/
theorem isDecimal_of_initial {cs body : List Char} (h : body <+: (longestUnsigned cs).1)
    (hlast : ∃ c, body.getLast? = some c ∧ isDigit c = true) : IsDecimal body := by
  have hne : body ≠ [] := by
    rintro rfl
    obtain ⟨c, hc, -⟩ := hlast
    cases hc
  have run : ∀ ds : List Char, ∀ c ∈ ds.takeWhile isDigit, isDigit c = true :=
    fun _ => List.all_eq_true.1 List.all_takeWhile
  have whole : body <+: cs.takeWhile isDigit → IsDecimal body := fun hwhole =>
    .whole hne fun c hc => run cs c (hwhole.subset hc)
  rw [longestUnsigned] at h
  split at h
  · rename_i after hdrop
    split at h
    · exact whole h
    · rename_i hparts
      simp only [Bool.or_eq_true, List.isEmpty_iff, not_or] at hparts
      rcases List.prefix_or_prefix_of_prefix h (List.prefix_append _ _) with hwhole | ⟨tail, rfl⟩
      · exact whole hwhole
      · cases tail with
        | nil => exact whole (by simp)
        | cons c fs =>
          obtain ⟨rfl, hfs⟩ := List.cons_prefix_cons.1 ((List.prefix_append_right_inj _).1 h)
          refine .point hparts.1 (run cs) ?_ fun c hc => run after c (hfs.subset hc)
          rintro rfl
          obtain ⟨c, hc, hdigit⟩ := hlast
          obtain rfl : '.' = c := by simpa using hc
          exact absurd hdigit (by decide)
  · exact whole h

/-- What `shortenNumeral?` leaves behind a number may follow it. Induction on the characters that
are taken back. -/
theorem mayFollowNumber_of_shortenNumeral? {taken after digits rest : List Char}
    (h : shortenNumeral? taken after = some (digits, rest)) : mayFollowNumber rest = true := by
  induction taken generalizing after with
  | nil => simp [shortenNumeral?] at h
  | cons c taken ih =>
    rw [shortenNumeral?] at h
    split at h
    · rename_i hc
      obtain ⟨-, rfl⟩ := by simpa using h
      exact (Bool.and_eq_true_iff.1 hc).2
    · exact ih h

/-- Characters are taken back no further than to a digit that may be followed by the rest. Induction
on the characters behind that digit, which stand in reverse. -/
theorem exists_shortenNumeral? {skipped after : List Char} {c : Char} (taken : List Char)
    (hc : isDigit c = true) (hfollow : mayFollowNumber (skipped.reverse ++ after) = true) :
    ∃ digits rest, shortenNumeral? (skipped ++ c :: taken) after = some (digits, rest)
      ∧ rest.length ≤ skipped.length + after.length := by
  induction skipped generalizing after with
  | nil =>
    have hends : (isDigit c && mayFollowNumber after) = true :=
      Bool.and_eq_true_iff.2 ⟨hc, hfollow⟩
    exact ⟨(c :: taken).reverse, after, by rw [List.nil_append, shortenNumeral?, if_pos hends],
      by simp⟩
  | cons x skipped ih =>
    rw [List.cons_append, shortenNumeral?]
    split
    · exact ⟨_, after, rfl, by simp⟩
    · rw [List.reverse_cons, List.append_assoc] at hfollow
      obtain ⟨digits, rest, hsome, hlength⟩ := ih hfollow
      refine ⟨digits, rest, hsome, ?_⟩
      simp only [List.singleton_append, List.length_cons] at hlength ⊢
      omega

/-- Digits and a point are all that a decimal has. -/
theorem IsDecimal.isDigit_or_eq_point {body : List Char} (h : IsDecimal body) :
    ∀ c ∈ body, isDigit c = true ∨ c = '.' := by
  cases h with
  | whole _ hds => exact fun c hc => .inl (hds c hc)
  | point _ hds _ hfs =>
    refine List.forall_mem_append.2 ⟨fun c hc => .inl (hds c hc), ?_⟩
    exact List.forall_mem_cons.2 ⟨.inr rfl, fun c hc => .inl (hfs c hc)⟩

/-- A decimal begins with a digit. -/
theorem head?_of_isDecimal {body : List Char} (h : IsDecimal body) :
    ∃ c, body.head? = some c ∧ isDigit c = true := by
  have run : ∀ ds more : List Char, ds ≠ [] → (∀ c ∈ ds, isDigit c = true) →
      ∃ c, (ds ++ more).head? = some c ∧ isDigit c = true := by
    intro ds more hne hds
    obtain ⟨c, cs, rfl⟩ := List.exists_cons_of_ne_nil hne
    exact ⟨c, rfl, hds c List.mem_cons_self⟩
  cases h with
  | whole hne hds => simpa using run body [] hne hds
  | point hne hds _ _ => exact run _ _ hne hds

/-- A decimal ends in a digit, whether or not it has a point. -/
theorem getLast?_of_isDecimal {body : List Char} (h : IsDecimal body) :
    ∃ c, body.getLast? = some c ∧ isDigit c = true := by
  have run : ∀ before ds : List Char, ds ≠ [] → (∀ c ∈ ds, isDigit c = true) →
      ∃ c, (before ++ ds).getLast? = some c ∧ isDigit c = true := by
    intro before ds hne hds
    rw [List.getLast?_append_of_ne_nil _ hne, List.getLast?_eq_getLast_of_ne_nil hne]
    exact ⟨_, rfl, hds _ (List.getLast_mem hne)⟩
  cases h with
  | whole hne hds => exact run [] body hne hds
  | @point ds fs _ _ hne hfs =>
    rw [← List.singleton_append, ← List.append_assoc]
    exact run _ fs hne hfs

/-- A number at the head of a text is a first part of the longest one, sign or no sign. -/
theorem prefix_longestNumeral {digits : List Char} (h : (Symbol.numeral digits).Matches)
    (rest : List Char) : digits <+: (longestNumeral (digits ++ rest)).1 := by
  rcases h with h | ⟨body, rfl, h⟩
  · obtain ⟨c, hc, hdigit⟩ := head?_of_isDecimal h
    rw [longestNumeral.eq_def]
    split
    · rename_i heq
      cases digits with
      | nil => cases hc
      | cons d digits =>
        obtain ⟨rfl, -⟩ := List.cons.inj heq
        obtain rfl : '-' = c := by simpa using hc
        exact absurd hdigit (by decide)
    · exact prefix_longestUnsigned h
  · exact List.cons_prefix_cons.2 ⟨rfl, prefix_longestUnsigned h⟩

/-- A number ends in a digit, so it is not cut where it ends. -/
theorem getLast?_of_matches_numeral {digits : List Char} (h : (Symbol.numeral digits).Matches) :
    ∃ c, digits.getLast? = some c ∧ isDigit c = true := by
  rcases h with h | ⟨body, rfl, h⟩
  · exact getLast?_of_isDecimal h
  · obtain ⟨c, hc, hdigit⟩ := getLast?_of_isDecimal h
    exact ⟨c, by rw [List.getLast?_cons, hc]; rfl, hdigit⟩

/-- A number begins with a digit or a minus sign. -/
theorem exists_cons_of_matches_numeral {digits : List Char}
    (h : (Symbol.numeral digits).Matches) :
    ∃ c tail, digits = c :: tail ∧ (isDigit c = true ∨ c = '-') := by
  rcases h with h | ⟨body, rfl, -⟩
  · obtain ⟨c, hc, hdigit⟩ := head?_of_isDecimal h
    exact ⟨c, _, (List.cons_head?_tail hc).symm, .inl hdigit⟩
  · exact ⟨'-', body, rfl, .inr rfl⟩

/-- **The number that is read is at least as long as any that may stand there.** Any such number is
a first part of the longest one (`prefix_longestNumeral`), and no more is taken back than down to
its last digit (`exists_shortenNumeral?`). -/
theorem exists_numeral?_of_begins {digits cs rest : List Char}
    (h : (Symbol.numeral digits).Begins cs rest) :
    ∃ digits' rest', numeral? cs = some (digits', rest') ∧ rest'.length ≤ rest.length := by
  obtain ⟨rfl, hpattern, hfollow⟩ := h
  obtain ⟨c, hlast, hc⟩ := getLast?_of_matches_numeral hpattern
  obtain ⟨tail, htail⟩ := prefix_longestNumeral hpattern rest
  have hsource : (Symbol.numeral digits).source = digits := rfl
  have hrest : tail ++ (longestNumeral (digits ++ rest)).2 = rest := by
    have happ := longestNumeral_append (digits ++ rest)
    rw [← htail, List.append_assoc] at happ
    exact List.append_cancel_left happ
  obtain ⟨taken, htaken⟩ : ∃ taken, digits.reverse = c :: taken := by
    rw [← List.head?_reverse] at hlast
    exact ⟨_, (List.cons_head?_tail hlast).symm⟩
  have hskipped : mayFollowNumber (tail.reverse.reverse ++ (longestNumeral (digits ++ rest)).2)
      = true := by
    rw [List.reverse_reverse, hrest]
    exact hfollow
  obtain ⟨digits', rest', hsome, hlength⟩ := exists_shortenNumeral? taken hc hskipped
  refine ⟨digits', rest', ?_, ?_⟩
  · rw [hsource, numeral?, ← htail, List.reverse_append, htaken]
    exact hsome
  · rw [← hrest, List.length_append]
    simpa using hlength

/-- A first part of the longest number that ends in a digit follows the pattern of numbers
(`isDecimal_of_initial`). -/
theorem matches_numeral_of_initial {cs digits : List Char}
    (hinitial : digits <+: (longestNumeral cs).1)
    (hlast : ∃ c, digits.getLast? = some c ∧ isDigit c = true) :
    (Symbol.numeral digits).Matches := by
  rw [longestNumeral.eq_def] at hinitial
  split at hinitial
  · obtain ⟨c, hc, hdigit⟩ := hlast
    rcases digits with - | ⟨d, body⟩
    · cases hc
    · obtain ⟨rfl, hbody⟩ := List.cons_prefix_cons.1 hinitial
      refine .inr ⟨body, rfl, isDecimal_of_initial hbody ⟨c, ?_, hdigit⟩⟩
      cases body with
      | nil =>
        obtain rfl : '-' = c := by simpa using hc
        exact absurd hdigit (by decide)
      | cons d body => simpa using hc
  · exact .inl (isDecimal_of_initial hinitial hlast)

/-- The number that is read follows the pattern of numbers. -/
theorem matches_of_numeral? {cs digits rest : List Char} (h : numeral? cs = some (digits, rest)) :
    (Symbol.numeral digits).Matches := by
  obtain ⟨hinitial, hlast⟩ := shortenNumeral?_prefix h
  rw [List.reverse_reverse] at hinitial
  exact matches_numeral_of_initial hinitial hlast

/-! ### Names -/

/-- A letter or underscore in terms of code points, so that `omega` can tell it from other
characters. -/
theorem bounds_of_startsName {c : Char} (h : startsName c = true) :
    (65 ≤ c.toNat ∧ c.toNat ≤ 90) ∨ (97 ≤ c.toNat ∧ c.toNat ≤ 122) ∨ c.toNat = 95 := by
  change ((decide (c.val ≥ 65 ∧ c.val ≤ 90) || decide (c.val ≥ 97) && decide (c.val ≤ 122))
    || c == '_') = true at h
  simp only [Bool.or_eq_true, Bool.and_eq_true, decide_eq_true_eq, beq_iff_eq, ge_iff_le,
    UInt32.le_iff_toNat_le] at h
  rcases h with (⟨hlower, hupper⟩ | ⟨hlower, hupper⟩) | rfl
  · exact .inl ⟨hlower, hupper⟩
  · exact .inr (.inl ⟨hlower, hupper⟩)
  · exact .inr (.inr rfl)

theorem not_isDigit_of_startsName {c : Char} (h : startsName c = true) : isDigit c = false := by
  refine Bool.eq_false_iff.2 fun hdigit => ?_
  have hletter := bounds_of_startsName h
  have hrange := bounds_of_isDigit hdigit
  omega

/-- `nameRest` takes a letter, digit or underscore and goes on behind it. -/
theorem nameRest_cons_of_inName {c : Char} (hc : inName c = true) (cs : List Char) :
    nameRest (c :: cs) = (c :: (nameRest cs).1, (nameRest cs).2) := by
  cases cs with
  | nil => simp [nameRest, hc]
  | cons c' cs => rw [nameRest, if_pos (by simp [hc])]

/-- `nameRest` takes a point with the letter, digit or underscore behind it. -/
theorem nameRest_point {c : Char} (hc : inName c = true) (cs : List Char) :
    nameRest ('.' :: c :: cs) = ('.' :: c :: (nameRest cs).1, (nameRest cs).2) := by
  rw [nameRest, if_pos (by simp [hc]), nameRest_cons_of_inName hc]

/-- What `nameRest` takes follows the pattern of the rest of a name. Induction along `nameRest`. -/
theorem isNameRest_nameRest (cs : List Char) : IsNameRest (nameRest cs).1 := by
  induction cs using nameRest.induct with
  | case1 => exact .nil
  | case2 c hc => exact nameRest_cons_of_inName hc [] ▸ .inside hc .nil
  | case3 c hc =>
    rw [nameRest, if_neg hc]
    exact .nil
  | case4 c c' cs hc ih =>
    by_cases hinside : inName c = true
    · exact nameRest_cons_of_inName hinside _ ▸ .inside hinside ih
    · obtain ⟨rfl, hc'⟩ : c = '.' ∧ inName c' = true := by simpa [hinside] using hc
      rw [nameRest_point hc']
      rw [nameRest_cons_of_inName hc'] at ih
      generalize (nameRest cs).1 = word at ih ⊢
      cases ih with
      | inside _ h => exact .point hc' h
      | point => exact absurd hc' (by decide)
  | case5 c c' cs hc =>
    rw [nameRest, if_neg hc]
    exact .nil

/-- The rest of a name that is read is at least as long as any that may stand there. Induction on
the pattern. -/
theorem length_le_nameRest {word : List Char} (h : IsNameRest word) (rest : List Char) :
    word.length ≤ (nameRest (word ++ rest)).1.length := by
  induction h with
  | nil => exact Nat.zero_le _
  | inside hc _ ih =>
    rw [List.cons_append, nameRest_cons_of_inName hc]
    exact Nat.succ_le_succ ih
  | point hc _ ih =>
    rw [List.cons_append, List.cons_append, nameRest_point hc]
    exact Nat.succ_le_succ (Nat.succ_le_succ ih)

/-- Every keyword is spelled as a word. -/
theorem isWord_spelling (k : Keyword) : IsWord k.spelling := by
  have letters : ∀ cs : List Char, cs.all inName = true → IsNameRest cs := by
    intro cs h
    induction cs with
    | nil => exact .nil
    | cons c cs ih =>
      rw [List.all_cons, Bool.and_eq_true] at h
      exact .inside h.1 (ih h.2)
  cases k <;> exact ⟨_, _, rfl, by decide, letters _ (by decide)⟩

/-- The symbol of a word follows the pattern of keywords or names: `wordSymbol` makes a name only of
what is no keyword. -/
theorem matches_wordSymbol {word : List Char} (h : IsWord word) : (wordSymbol word).Matches := by
  rw [wordSymbol]
  split
  · exact trivial
  · rename_i hnone
    refine ⟨h, fun k hk => ?_⟩
    rw [Keyword.ofSpelling?, List.find?_eq_none] at hnone
    exact hnone k (by cases k <;> simp) (by simpa using hk)

/-- The spelling of a keyword is read as that keyword. -/
theorem wordSymbol_spelling (k : Keyword) : wordSymbol k.spelling = .keyword k := by
  cases k <;> rfl

/-- A word that is spelled like no keyword is read as a name. -/
theorem wordSymbol_of_forall_ne {word : List Char} (h : ∀ k : Keyword, k.spelling ≠ word) :
    wordSymbol word = .name word := by
  rw [wordSymbol]
  split
  · rename_i k hk
    exact absurd (by simpa using List.find?_some hk) (h k)
  · rfl

/-! ### Quoted texts and signs -/

/-- A quoted text is read up to the first quote of its kind, and there is no other way to split it
off. Induction on the characters. -/
theorem quotedBody?_eq_some_iff {quote : Char} {cs content rest : List Char} :
    quotedBody? quote cs = some (content, rest)
      ↔ content ++ quote :: rest = cs ∧ quote ∉ content := by
  induction cs generalizing content with
  | nil => simp [quotedBody?]
  | cons c cs ih =>
    rw [quotedBody?]
    by_cases hc : c = quote
    · subst hc
      rw [if_pos rfl]
      constructor
      · rintro ⟨⟩
        exact ⟨rfl, List.not_mem_nil⟩
      · rintro ⟨happ, hnot⟩
        cases content with
        | nil => simpa using happ.symm
        | cons d content =>
          obtain ⟨rfl, -⟩ := List.cons.inj happ
          exact absurd List.mem_cons_self hnot
    · rw [if_neg hc]
      constructor
      · intro h
        obtain ⟨⟨content', rest'⟩, hbody, ⟨⟩⟩ := Option.map_eq_some_iff.1 h
        obtain ⟨rfl, hnot⟩ := ih.1 hbody
        exact ⟨rfl, by simpa [hnot] using Ne.symm hc⟩
      · rintro ⟨happ, hnot⟩
        cases content with
        | nil => exact absurd (List.cons.inj happ).1.symm hc
        | cons d content =>
          obtain ⟨rfl, rfl⟩ := List.cons.inj happ
          rw [ih.2 ⟨rfl, fun h => hnot (List.mem_cons_of_mem _ h)⟩]
          rfl

/-- The sign of a relation that is read is at least as long as any that may stand there: of two
signs where one begins the other, the longer is tried first. -/
theorem exists_relation? (r : Relation) (rest : List Char) :
    ∃ r' rest', relation? (r.sign ++ rest) = some (r', rest') ∧ rest'.length ≤ rest.length := by
  cases r with
  | less =>
    rcases rest with - | ⟨c, rest⟩
    · exact ⟨.less, [], rfl, Nat.le_refl _⟩
    · by_cases hc : c = '='
      · exact ⟨.atMost, rest, by rw [hc]; rfl, by simp⟩
      · exact ⟨.less, c :: rest, by simp [Relation.sign, relation?, hc], Nat.le_refl _⟩
  | greater =>
    rcases rest with - | ⟨c, rest⟩
    · exact ⟨.greater, [], rfl, Nat.le_refl _⟩
    · by_cases hc : c = '='
      · exact ⟨.atLeast, rest, by rw [hc]; rfl, by simp⟩
      · exact ⟨.greater, c :: rest, by simp [Relation.sign, relation?, hc], Nat.le_refl _⟩
  | _ => exact ⟨_, rest, rfl, Nat.le_refl _⟩

theorem sign_injective : Function.Injective Relation.sign := by
  rintro (_ | _ | _ | _ | _ | _) (_ | _ | _ | _ | _ | _) h <;>
    first | rfl | (exact absurd h (by decide))

/-! ### The longest symbol -/

namespace Symbol

/-- The symbol that is read may stand at the head of the text: `symbol?` tries the kinds one after
the other, and each of them follows its pattern. -/
theorem begins_of_symbol? {cs rest : List Char} {s : Symbol} (h : symbol? cs = some (s, rest)) :
    s.Begins cs rest := by
  have hsource := source_symbol? h
  simp only [symbol?, Option.or_eq_some_iff] at h
  -- The kinds of symbols in the order in which they are tried.
  rcases h with h | ⟨-, h | ⟨-, h | ⟨-, h | ⟨-, h⟩⟩⟩⟩
  · fun_cases quoted? cs with
    | case1 => simp [quoted?] at h
    | case2 c cs hc =>
      rw [quoted?, if_pos hc] at h
      obtain ⟨⟨content, rest'⟩, hbody, heq⟩ := Option.map_eq_some_iff.1 h
      obtain ⟨rfl, rfl⟩ : Symbol.quoted c content = s ∧ rest' = rest := by simpa using heq
      exact ⟨hsource, ⟨hc, (quotedBody?_eq_some_iff.1 hbody).2⟩, trivial⟩
    | case3 c cs hc => simp [quoted?, hc] at h
  · obtain ⟨⟨digits, rest'⟩, hdigits, heq⟩ := Option.map_eq_some_iff.1 h
    obtain ⟨rfl, rfl⟩ : Symbol.numeral digits = s ∧ rest' = rest := by simpa using heq
    exact ⟨hsource, matches_of_numeral? hdigits, mayFollowNumber_of_shortenNumeral? hdigits⟩
  · obtain ⟨⟨r, rest'⟩, hr, heq⟩ := Option.map_eq_some_iff.1 h
    obtain ⟨rfl, rfl⟩ : Symbol.relation r = s ∧ rest' = rest := by simpa using heq
    exact ⟨hsource, trivial, trivial⟩
  · fun_cases parenthesis? cs with
    | case1 cs =>
      obtain ⟨rfl, -⟩ : Symbol.opening = s ∧ cs = rest := by simpa [parenthesis?] using h
      exact ⟨hsource, trivial, trivial⟩
    | case2 cs =>
      obtain ⟨rfl, -⟩ : Symbol.closing = s ∧ cs = rest := by simpa [parenthesis?] using h
      exact ⟨hsource, trivial, trivial⟩
    | case3 => simp [parenthesis?] at h
  · fun_cases word? cs with
    | case1 => simp [word?] at h
    | case2 c cs hc =>
      rw [word?, if_pos hc] at h
      obtain ⟨rfl, rfl⟩ := by simpa using h
      have hword : IsWord (c :: (nameRest cs).1) := ⟨c, _, rfl, hc, isNameRest_nameRest cs⟩
      refine ⟨hsource, matches_wordSymbol hword, ?_⟩
      rw [wordSymbol]
      split <;> trivial
    | case3 c cs hc => simp [word?, hc] at h

/-- Where a word stands, a word at least as long is read: no other kind of symbol begins with a
letter or underscore. -/
theorem exists_symbol?_of_isWord {word : List Char} (h : IsWord word) (rest : List Char) :
    ∃ word' rest', symbol? (word ++ rest) = some (wordSymbol word', rest')
      ∧ rest'.length ≤ rest.length := by
  obtain ⟨c, tail, rfl, hc, htail⟩ := h
  have hquoted : quoted? (c :: (tail ++ rest)) = none := by
    apply quoted?_eq_none <;> (rintro rfl; exact absurd hc (by decide))
  have hnumeral : numeral? (c :: (tail ++ rest)) = none := by
    refine numeral?_eq_none (not_isDigit_of_startsName hc) ?_
    rintro rfl
    exact absurd hc (by decide)
  have hrelation : relation? (c :: (tail ++ rest)) = none := by
    refine relation?_eq_none fun r hr => ?_
    cases r <;> (obtain rfl := Option.some.inj hr; exact absurd hc (by decide))
  have hparenthesis : parenthesis? (c :: (tail ++ rest)) = none := by
    apply parenthesis?_eq_none <;> (rintro rfl; exact absurd hc (by decide))
  refine ⟨c :: (nameRest (tail ++ rest)).1, (nameRest (tail ++ rest)).2, ?_, ?_⟩
  · simp only [List.cons_append, symbol?, hquoted, hnumeral, hrelation, hparenthesis, word?, hc,
      Option.map_none, Option.none_or, if_true]
  · have hlength := congrArg List.length (nameRest_append (tail ++ rest))
    have hle := length_le_nameRest htail rest
    simp only [List.length_append] at hlength
    omega

/-- **Where a symbol may stand, one at least as long is read**; if it is as long, it is the same.
One case for each kind of symbol, in which the kinds that are tried before are ruled out by the
first character. -/
theorem exists_symbol?_of_begins {cs rest : List Char} {s : Symbol} (h : s.Begins cs rest) :
    ∃ t rest', symbol? cs = some (t, rest') ∧ rest'.length ≤ rest.length
      ∧ (t.source = s.source → t = s) := by
  have hcs := h.source
  have hpattern := h.pattern
  cases s with
  | quoted quote content =>
    have hbody : quotedBody? quote (content ++ quote :: rest) = some (content, rest) :=
      quotedBody?_eq_some_iff.2 ⟨rfl, hpattern.2⟩
    refine ⟨_, rest, ?_, Nat.le_refl _, fun _ => rfl⟩
    simp [← hcs, source, symbol?, quoted?, hpattern.1, hbody]
  | numeral digits =>
    obtain ⟨digits', rest', hsome, hlength⟩ := exists_numeral?_of_begins h
    have hquoted : quoted? cs = none := by
      obtain ⟨c, tail, rfl, hc⟩ := exists_cons_of_matches_numeral hpattern
      rw [← hcs]
      apply quoted?_eq_none <;> (rintro rfl; exact absurd hc (by decide))
    refine ⟨.numeral digits', rest', ?_, hlength, fun heq => congrArg Symbol.numeral heq⟩
    simp [symbol?, hquoted, hsome]
  | relation r =>
    obtain ⟨r', rest', hsome, hlength⟩ := exists_relation? r rest
    refine ⟨.relation r', rest', ?_, hlength, fun heq => congrArg _ (sign_injective heq)⟩
    -- The kinds that are tried before relations begin with other characters.
    obtain ⟨c, tail, hsign, hquote, hquote', hdigit, hminus⟩ : ∃ c tail, r.sign = c :: tail
        ∧ c ≠ '"' ∧ c ≠ '\x27' ∧ isDigit c = false ∧ c ≠ '-' := by
      cases r <;> exact ⟨_, _, rfl, by decide, by decide, by decide, by decide⟩
    rw [hsign, List.cons_append] at hsome
    simp [← hcs, source, hsign, symbol?, quoted?_eq_none hquote hquote',
      numeral?_eq_none hdigit hminus, hsome]
  | opening => exact ⟨.opening, rest, hcs ▸ rfl, Nat.le_refl _, fun _ => rfl⟩
  | closing => exact ⟨.closing, rest, hcs ▸ rfl, Nat.le_refl _, fun _ => rfl⟩
  | keyword k =>
    -- The word that is read may go on behind the keyword; with its characters it is the keyword.
    obtain ⟨word, rest', hsome, hlength⟩ := exists_symbol?_of_isWord (isWord_spelling k) rest
    refine ⟨_, rest', hcs ▸ hsome, hlength, fun heq => ?_⟩
    rw [source_wordSymbol] at heq
    rw [heq]
    exact wordSymbol_spelling k
  | name path =>
    obtain ⟨word, rest', hsome, hlength⟩ := exists_symbol?_of_isWord hpattern.1 rest
    refine ⟨_, rest', hcs ▸ hsome, hlength, fun heq => ?_⟩
    rw [source_wordSymbol] at heq
    rw [heq]
    exact wordSymbol_of_forall_ne hpattern.2

end Symbol

/-- **The symbol that is read is the longest one that may stand at the head of the text.** Of two
symbols with one text, one is read only if both are the same. -/
theorem symbol?_eq_some_iff {cs rest : List Char} {s : Symbol} :
    symbol? cs = some (s, rest) ↔ s.IsNext cs rest := by
  constructor
  · intro h
    refine ⟨Symbol.begins_of_symbol? h, fun t rest' ht => ?_⟩
    obtain ⟨t', after, hsome, hlength, -⟩ := Symbol.exists_symbol?_of_begins ht
    obtain ⟨rfl, rfl⟩ : s = t' ∧ rest = after := by simpa using h.symm.trans hsome
    exact hlength
  · rintro ⟨hbegins, hlongest⟩
    obtain ⟨t, after, hsome, hlength, hsame⟩ := Symbol.exists_symbol?_of_begins hbegins
    have ht := Symbol.begins_of_symbol? hsome
    have hle := hlongest t after ht
    obtain ⟨hsource, rfl⟩ := List.append_inj' (ht.source.trans hbegins.source.symm)
      (Nat.le_antisymm hlength hle)
    rw [hsome, hsame hsource]

/-! ### The lexemes of a guard -/

/-- No symbol begins with a blank character, so skipping blank space never cuts one. -/
theorem Symbol.Begins.not_isBlank {s : Symbol} {c : Char} {cs rest : List Char}
    (h : s.Begins (c :: cs) rest) : isBlank c = false := by
  have hcs := h.source
  have hpattern := h.pattern
  cases s with
  | quoted quote content =>
    obtain ⟨rfl, -⟩ := List.cons.inj hcs
    rcases hpattern.1 with rfl | rfl <;> decide
  | numeral digits =>
    obtain ⟨d, tail, rfl, hd | rfl⟩ := exists_cons_of_matches_numeral hpattern
    · obtain ⟨rfl, -⟩ := List.cons.inj hcs
      exact not_isBlank_of_isDigit hd
    · obtain ⟨rfl, -⟩ := List.cons.inj hcs
      decide
  | relation r => cases r <;> (obtain ⟨rfl, -⟩ := List.cons.inj hcs; decide)
  | opening => obtain ⟨rfl, -⟩ := List.cons.inj hcs; decide
  | closing => obtain ⟨rfl, -⟩ := List.cons.inj hcs; decide
  | keyword k => cases k <;> (obtain ⟨rfl, -⟩ := List.cons.inj hcs; decide)
  | name path =>
    obtain ⟨d, tail, rfl, hd, -⟩ := hpattern.1
    obtain ⟨rfl, -⟩ := List.cons.inj hcs
    have hletter := bounds_of_startsName hd
    simp only [isBlank, Bool.or_eq_false_iff, Bool.and_eq_false_iff, decide_eq_false_iff_not,
      beq_eq_false_iff_ne]
    omega

/-- **A text splits into the symbols of its lexemes.** Induction along `lexFrom`, by
`symbol?_eq_some_iff` where a symbol is read. -/
theorem splits_of_lexFrom {position : Nat} {cs : List Char} {lexemes : List Lexeme}
    (h : lexFrom position cs = .ok lexemes) : Splits cs (lexemes.map (·.symbol)) := by
  fun_induction lexFrom position cs generalizing lexemes with
  | case1 =>
    cases h
    exact .nil
  | case2 position c cs hblank ih => exact .blank hblank (ih h)
  | case3 => cases h
  | case4 position c cs hblank s rest hsymbol ih =>
    obtain ⟨more, hmore, ⟨⟩⟩ := bind_eq_ok_iff.1 h
    exact .symbol (symbol?_eq_some_iff.1 hsymbol) (ih hmore)

/-- Where a symbol is next, its lexeme is read and then those of the text after it. -/
theorem lexFrom_of_isNext {cs rest : List Char} {s : Symbol} (hs : s.IsNext cs rest)
    (position : Nat) : lexFrom position cs
      = (lexFrom (position + s.source.length) rest).map (⟨s, position⟩ :: ·) := by
  have hsome := symbol?_eq_some_iff.2 hs
  cases cs with
  | nil => cases hsome
  | cons c cs =>
    rw [lexFrom, if_neg (by simp [hs.begins.not_isBlank])]
    split
    · rename_i hnone
      cases hnone.symm.trans hsome
    · rename_i heq
      obtain ⟨rfl, rfl⟩ := Prod.mk.inj (Option.some.inj (hsome.symm.trans heq))
      cases lexFrom (position + s.source.length) rest <;> rfl

/-- **The symbols that a text splits into are those of its lexemes**, so a text that splits is read.
Induction on the splitting; `lexFrom_of_isNext` is the step. -/
theorem exists_lexFrom_of_splits {cs : List Char} {symbols : List Symbol} (h : Splits cs symbols)
    (position : Nat) :
    ∃ lexemes, lexFrom position cs = .ok lexemes ∧ lexemes.map (·.symbol) = symbols := by
  induction h generalizing position with
  | nil => exact ⟨[], by rw [lexFrom], rfl⟩
  | blank hc _ ih =>
    obtain ⟨lexemes, hlex, hsymbols⟩ := ih (position + 1)
    exact ⟨lexemes, by rw [lexFrom, if_pos hc, hlex], hsymbols⟩
  | @symbol cs rest s symbols hs _ ih =>
    obtain ⟨lexemes, hlex, hsymbols⟩ := ih (position + s.source.length)
    refine ⟨⟨s, position⟩ :: lexemes, ?_, by rw [List.map_cons, hsymbols]⟩
    rw [lexFrom_of_isNext hs, hlex]
    rfl

/-- A text splits in one way at most, since its lexemes are a function of it. -/
theorem Splits.unique {cs : List Char} {symbols symbols' : List Symbol} (h : Splits cs symbols)
    (h' : Splits cs symbols') : symbols = symbols' := by
  obtain ⟨lexemes, hlex, rfl⟩ := exists_lexFrom_of_splits h 0
  obtain ⟨lexemes', hlex', rfl⟩ := exists_lexFrom_of_splits h' 0
  obtain rfl : lexemes = lexemes' := Except.ok.inj (hlex.symm.trans hlex')
  rfl

end Templating.Guard
