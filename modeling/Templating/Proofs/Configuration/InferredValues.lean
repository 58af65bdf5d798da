import Templating.Proofs.Configuration.NumberTexts
import Templating.Proofs.Value.Places

/-!
# The mapping that texts give

Texts `KEY=VALUE` give a mapping, unless one of them is misspelt. A key is written once, and what
stands under it is what the last text with that key gives: earlier values under the key are never
looked at. So the mapping is refused besides only if a last value looks like a number and cannot be
read as one.

## Main definitions

* `IsMisspelt`, `Gives`: what is wrong with a text `KEY=VALUE`, and what it gives.
* `LastGives`: what the last text with a key gives.
* `ComesTo`: the three things that texts come to.

## Main results

* `keyValue_eq_ok_iff`, `exists_keyValue_eq_error_iff`: the key and the value of a text.
* `lastGives_concat`, `get?_of_keyValues`: one more text, and all of them.
* `get?_of_inferEntries`: the values that stand in the mapping.
* `comesTo`, `inferredValues_spec`: what texts give, and when they are refused.
-/

namespace Templating

open Templating.Text

/-! ### One text -/

/-- A text without an equality sign, or with nothing but blank characters before the first one. -/
def IsMisspelt (pair : String) : Prop :=
  '=' ∉ pair.toList ∨ ∃ front value, pair.toList = front ++ '=' :: value ∧ '=' ∉ front
    ∧ ∀ c ∈ front, isBlank c = true

/-- A text gives under a key, which is what stands before its first equality sign without the blank
characters around it (`Text.trim`), all that stands behind that sign, blank characters included. -/
def Gives (pair key value : String) : Prop :=
  ∃ front, pair.toList = front ++ '=' :: value.toList ∧ '=' ∉ front ∧ trim front = key.toList
    ∧ key ≠ ""

/-- The fault of a misspelt text. -/
def IsSpellingFault (fault : Fault) : Prop :=
  fault = .blankKey ∨ ∃ pair, fault = .notKeyValue pair

variable {pair key value : String} {fault : Fault}

/-- A text is empty without the blank characters around it if it has no others. -/
theorem trim_eq_nil_iff {cs : List Char} : trim cs = [] ↔ ∀ c ∈ cs, isBlank c = true := by
  constructor
  · intro h
    obtain ⟨before, after, hcs, hbefore, hafter⟩ := exists_surrounded_trim cs
    rw [h, List.nil_append] at hcs
    rw [hcs]
    exact fun c hc => (List.mem_append.1 hc).elim (hbefore c) (hafter c)
  · intro h
    rw [trim, trimStart, List.dropWhile_eq_nil_iff.2 h]
    rfl

/-- A text without an equality sign is refused. -/
theorem keyValue_of_not_mem (h : '=' ∉ pair.toList) :
    keyValue pair = .error (.notKeyValue pair) := by
  have hdrop : pair.toList.dropWhile (· ≠ '=') = [] := by
    rw [List.dropWhile_eq_nil_iff]
    rintro c hc
    exact decide_eq_true fun heq => h (heq ▸ hc)
  simp only [keyValue, hdrop]

/-- A text is cut by `keyValue` at its first equality sign, and the blank characters around the key
are taken off. -/
theorem keyValue_of_append {front cs : List Char} (h : pair.toList = front ++ '=' :: cs)
    (hfront : '=' ∉ front) :
    keyValue pair = if trim front = [] then .error .blankKey
      else .ok (String.ofList (trim front), String.ofList cs) := by
  have hmem : ∀ c ∈ front, decide (c ≠ '=') = true :=
    fun c hc => decide_eq_true fun heq => hfront (heq ▸ hc)
  have hdrop : pair.toList.dropWhile (· ≠ '=') = '=' :: cs := by
    rw [h, List.dropWhile_append_of_pos hmem]
    rfl
  have htake : pair.toList.takeWhile (· ≠ '=') = front := by
    rw [h, List.takeWhile_append_of_pos hmem]
    exact List.append_nil _
  simp only [keyValue, hdrop, htake, List.isEmpty_iff]

/-- A text gives a value under a key if both can be cut from it, as `Gives` says. The first equality
sign is the only one with none before it. -/
theorem keyValue_eq_ok_iff : keyValue pair = .ok (key, value) ↔ Gives pair key value := by
  constructor
  · intro h
    by_cases hsign : '=' ∈ pair.toList
    · obtain ⟨front, cs, hpair, hfront⟩ := List.eq_append_cons_of_mem hsign
      rw [keyValue_of_append hpair hfront] at h
      split at h
      · cases h
      · next hne =>
        cases h
        refine ⟨front, by rw [hpair, String.toList_ofList], hfront, by rw [String.toList_ofList],
          fun hempty => hne ?_⟩
        rw [← String.toList_ofList (l := trim front), hempty]
        rfl
    · rw [keyValue_of_not_mem hsign] at h
      cases h
  · rintro ⟨front, hpair, hfront, htrim, hne⟩
    rw [keyValue_of_append hpair hfront, htrim, if_neg, String.ofList_toList, String.ofList_toList]
    exact fun hnil => hne (String.toList_injective hnil)

/-- A text is refused if it is misspelt, as `IsMisspelt` says. -/
theorem exists_keyValue_eq_error_iff :
    (∃ fault, keyValue pair = .error fault) ↔ IsMisspelt pair := by
  constructor
  · rintro ⟨fault, h⟩
    by_cases hsign : '=' ∈ pair.toList
    · obtain ⟨front, cs, hpair, hfront⟩ := List.eq_append_cons_of_mem hsign
      rw [keyValue_of_append hpair hfront] at h
      split at h
      · next hblank => exact .inr ⟨front, cs, hpair, hfront, trim_eq_nil_iff.1 hblank⟩
      · cases h
    · exact .inl hsign
  · rintro (hsign | ⟨front, cs, hpair, hfront, hblank⟩)
    · exact ⟨_, keyValue_of_not_mem hsign⟩
    · exact ⟨_, (keyValue_of_append hpair hfront).trans (if_pos (trim_eq_nil_iff.2 hblank))⟩

/-- The faults of `keyValue` are the two of misspelt texts. -/
theorem failsOnly_keyValue (pair : String) : FailsOnly IsSpellingFault (keyValue pair) := by
  rw [keyValue]
  split
  · exact failsOnly_error (.inr ⟨pair, rfl⟩)
  · dsimp only
    split
    · exact failsOnly_error (.inl rfl)
    · exact failsOnly_ok _

/-! ### All texts -/

/-- The last of the texts with a key gives a value under it. -/
def LastGives (pairs : List String) (key value : String) : Prop :=
  ∃ earlier pair later, pairs = earlier ++ pair :: later ∧ Gives pair key value
    ∧ ∀ other ∈ later, ∀ value', ¬Gives other key value'

variable {pairs : List String} {entries values : Entries} {v : Value}

/-- Texts are refused by `keyValues` if one of them is misspelt: each is cut before anything is
written. -/
theorem exists_keyValues_eq_error_iff :
    (∃ fault, keyValues pairs = .error fault) ↔ ∃ pair ∈ pairs, IsMisspelt pair := by
  constructor
  · rintro ⟨fault, h⟩
    by_contra hspelt
    have hcut : ∀ pair ∈ pairs, ∃ cut, keyValue pair = .ok cut := fun pair hpair => by
      cases hout : keyValue pair with
      | ok cut => exact ⟨cut, rfl⟩
      | error fault =>
        exact absurd ⟨pair, hpair, exists_keyValue_eq_error_iff.1 ⟨fault, hout⟩⟩ hspelt
    obtain ⟨given, hgiven⟩ := exists_mapM_eq_ok hcut
    rw [keyValues, hgiven] at h
    cases h
  · rintro ⟨pair, hpair, hmisspelt⟩
    cases hout : keyValues pairs with
    | error fault => exact ⟨fault, rfl⟩
    | ok entries =>
      obtain ⟨given, hgiven, -⟩ := bind_eq_ok_iff.1 hout
      obtain ⟨cut, -, hcut⟩ := exists_mem_of_mapM_eq_ok hgiven pair hpair
      obtain ⟨fault, hfault⟩ := exists_keyValue_eq_error_iff.2 hmisspelt
      cases hcut.symm.trans hfault

theorem failsOnly_keyValues (pairs : List String) : FailsOnly IsSpellingFault (keyValues pairs) :=
  (FailsOnly.mapM failsOnly_keyValue pairs).bind fun _ => failsOnly_ok _

/-- A text behind all others gives the last value under its key, and under no other key. With this
`LastGives` is told by induction from the end. -/
theorem lastGives_concat : LastGives (pairs ++ [pair]) key value
    ↔ Gives pair key value ∨ LastGives pairs key value ∧ ∀ value', ¬Gives pair key value' := by
  constructor
  · rintro ⟨earlier, last, later, heq, hgives, hlater⟩
    rcases List.eq_nil_or_concat later with rfl | ⟨later, other, rfl⟩
    · obtain ⟨-, hlast⟩ := List.append_inj' heq rfl
      rw [List.singleton_inj.1 hlast]
      exact .inl hgives
    · rw [List.concat_eq_append, ← List.cons_append, ← List.append_assoc] at heq
      obtain ⟨rfl, hlast⟩ := List.append_inj' heq rfl
      rw [List.singleton_inj.1 hlast]
      refine .inr ⟨⟨earlier, last, later, rfl, hgives, fun o ho => ?_⟩, ?_⟩
      · exact hlater o (by simp [ho])
      · exact hlater other (by simp)
  · rintro (hgives | ⟨⟨earlier, last, later, rfl, hgives, hlater⟩, hnot⟩)
    · exact ⟨pairs, pair, [], rfl, hgives, fun _ ho => absurd ho List.not_mem_nil⟩
    · refine ⟨earlier, last, later ++ [pair], by simp, hgives, fun o ho => ?_⟩
      rcases List.mem_append.1 ho with ho | ho
      · exact hlater o ho
      · rw [List.mem_singleton.1 ho]
        exact hnot

/-- What stands under a key after more values were written, one after the other, by
`Entries.get?_set` for the last of them. -/
theorem Entries.get?_ofList_concat (written : Entries) (entry : String × Value) (key : String) :
    (ofList (written ++ [entry])).get? key
      = if entry.1 = key then some entry.2 else (ofList written).get? key := by
  rw [ofList, List.foldl_append]
  exact get?_set _ _ _ _

/-- Values written one after the other stand under different keys, by `Entries.nodup_set` for each
of them. -/
theorem Entries.nodup_ofList (written : Entries) : ((ofList written).map Prod.fst).Nodup := by
  induction written using List.reverseRecOn with
  | nil => exact .nil
  | append_singleton written entry ih =>
    rw [ofList, List.foldl_append]
    exact nodup_set ih _ _

/-- **Under a key stands the value that the last text with that key gives.** Induction on the texts
from the end, with `lastGives_concat` and `Entries.get?_ofList_concat` for the last one. -/
theorem get?_of_keyValues (h : keyValues pairs = .ok entries) :
    entries.get? key = some v ↔ ∃ value, LastGives pairs key value ∧ v = .text value := by
  obtain ⟨given, hgiven, ⟨⟩⟩ := bind_eq_ok_iff.1 h
  clear h
  induction pairs using List.reverseRecOn generalizing given with
  | nil =>
    cases hgiven
    refine iff_of_false (by rintro ⟨⟩) ?_
    rintro ⟨value, ⟨earlier, pair, later, heq, -⟩, -⟩
    simp at heq
  | append_singleton pairs pair ih =>
    obtain ⟨cuts, ⟨key', value'⟩, hcuts, hpair, rfl⟩ := mapM_concat_eq_ok_iff.1 hgiven
    rw [List.map_append, List.map_singleton, Entries.get?_ofList_concat]
    simp only [lastGives_concat, ← keyValue_eq_ok_iff, hpair, Except.ok.injEq, Prod.mk.injEq]
    by_cases hkey : key' = key
    · rw [if_pos hkey]
      constructor
      · rintro ⟨⟩
        exact ⟨value', .inl ⟨hkey, rfl⟩, rfl⟩
      · rintro ⟨value, ⟨-, rfl⟩ | ⟨-, hnot⟩, rfl⟩
        · rfl
        · exact absurd ⟨hkey, rfl⟩ (hnot value')
    · rw [if_neg hkey, ih cuts hcuts]
      simp [hkey]

/-- No key is entered twice by `keyValues`, however often it is given. -/
theorem nodup_of_keyValues (h : keyValues pairs = .ok entries) :
    (entries.map Prod.fst).Nodup := by
  obtain ⟨given, -, ⟨⟩⟩ := bind_eq_ok_iff.1 h
  exact Entries.nodup_ofList _

/-! ### The values -/

/-- An entry with the value that its text stands for. -/
def inferEntry : String × Value → Except Fault (String × Value)
  | (key, .text value) => (inferred value).map (key, ·)
  | entry => .ok entry

/-- The values are inferred entry by entry: `inferEntries` is `mapM` of `inferEntry`. -/
theorem inferEntries_eq_mapM (entries : Entries) :
    inferEntries entries = entries.mapM inferEntry := by
  fun_induction inferEntries entries with
  | case1 => rfl
  | case2 key value rest ih =>
    rw [List.mapM_cons, ih, inferEntry]
    cases inferred value <;> rfl
  | case3 entry rest hentry ih =>
    rw [List.mapM_cons, ih, inferEntry.eq_2 entry hentry]
    rfl

/-- The only fault of inferring values is a number that cannot be read. -/
theorem failsOnly_inferEntries (entries : Entries) :
    FailsOnly (· = .unreadableNumber) (inferEntries entries) := by
  rw [inferEntries_eq_mapM]
  refine .mapM (fun entry => ?_) entries
  fun_cases inferEntry entry with
  | case1 key value =>
    intro fault hfault
    exact (inferred_eq_error_iff.1 (map_eq_error_iff.1 hfault)).1
  | case2 entry _ => exact failsOnly_ok entry

/-- Inferring a value leaves its key alone. -/
theorem fst_of_inferEntry {entry entry' : String × Value} (h : inferEntry entry = .ok entry') :
    entry'.1 = entry.1 := by
  rw [inferEntry.eq_def] at h
  split at h
  · obtain ⟨v, -, rfl⟩ := map_eq_ok_iff.1 h
    rfl
  · cases h
    rfl

/-- Keys stay, and under each key stands what the value there stands for (`StandsFor`). -/
theorem get?_of_inferEntries (h : inferEntries entries = .ok values) :
    values.map Prod.fst = entries.map Prod.fst
      ∧ ∀ key v, values.get? key = some v
        ↔ ∃ w, entries.get? key = some w ∧ inferEntry (key, w) = .ok (key, v) := by
  rw [inferEntries_eq_mapM, mapM_eq_ok_iff] at h
  induction h with
  | nil => exact ⟨rfl, fun key v => iff_of_false (by rintro ⟨⟩) (by rintro ⟨w, ⟨⟩, -⟩)⟩
  | @cons entry entry' rest rest' hentry _ ih =>
    obtain ⟨key', w'⟩ := entry
    obtain ⟨key'', v'⟩ := entry'
    obtain rfl : key'' = key' := fst_of_inferEntry hentry
    refine ⟨by rw [List.map_cons, List.map_cons, ih.1], fun key v => ?_⟩
    rw [Entries.get?_cons, Entries.get?_cons]
    by_cases hkey : key'' = key
    · subst hkey
      simp [hentry]
    · rw [if_neg hkey, if_neg hkey, ih.2]

/-! ### What the texts give -/

/-- What well spelt texts come to is what becomes of their entries. -/
theorem inferredValues_of_keyValues (h : keyValues pairs = .ok entries) :
    inferredValues pairs = (inferEntries entries).map .mapping := by
  rw [inferredValues, h]
  rfl

/-- The values can all be inferred if the last text with each key gives one that can be read. A
value that another one has replaced is not looked at. -/
theorem exists_inferEntries_iff (h : keyValues pairs = .ok entries) :
    (∃ values, inferEntries entries = .ok values)
      ↔ ∀ key text, LastGives pairs key text → ¬IsUnreadable text := by
  rw [inferEntries_eq_mapM]
  constructor
  · rintro ⟨values, hvalues⟩ key text hlast hunreadable
    have hmem := Entries.mem_of_get? ((get?_of_keyValues h).2 ⟨text, hlast, rfl⟩)
    obtain ⟨entry, -, hentry⟩ := exists_mem_of_mapM_eq_ok hvalues _ hmem
    rw [inferEntry, inferred_of_isUnreadable hunreadable] at hentry
    cases hentry
  · refine fun hreadable => exists_mapM_eq_ok fun entry hentry => ?_
    obtain ⟨key, v⟩ := entry
    obtain ⟨text, hlast, rfl⟩ := (get?_of_keyValues h).1
      ((Entries.get?_eq_some_iff (nodup_of_keyValues h)).2 hentry)
    obtain ⟨v, hv⟩ := exists_standsFor text
    refine ⟨(key, v), ?_⟩
    rw [inferEntry, inferred_eq_ok_iff.2 ⟨hv, hreadable key text hlast⟩]
    rfl

/-- Under each key stands what the last text with that key stands for, by `get?_of_keyValues` and
`get?_of_inferEntries`. -/
theorem get?_of_inferred (h : keyValues pairs = .ok entries)
    (hvalues : inferEntries entries = .ok values) (key : String) (v : Value) :
    values.get? key = some v ↔ ∃ text, LastGives pairs key text ∧ StandsFor text v := by
  have hreadable := (exists_inferEntries_iff h).1 ⟨values, hvalues⟩
  rw [(get?_of_inferEntries hvalues).2]
  constructor
  · rintro ⟨w, hw, hv⟩
    obtain ⟨text, hlast, rfl⟩ := (get?_of_keyValues h).1 hw
    obtain ⟨v', hinferred, heq⟩ := map_eq_ok_iff.1 hv
    cases heq
    exact ⟨text, hlast, (inferred_eq_ok_iff.1 hinferred).1⟩
  · rintro ⟨text, hlast, hstands⟩
    refine ⟨.text text, (get?_of_keyValues h).2 ⟨text, hlast, rfl⟩, ?_⟩
    rw [inferEntry, inferred_eq_ok_iff.2 ⟨hstands, hreadable key text hlast⟩]
    rfl

/-- What texts come to: one of them is misspelt, or the last value under some key cannot be read, or
they give a mapping. -/
inductive ComesTo (pairs : List String) : Prop where
  | misspelt {pair : String} {fault : Fault} (hpair : pair ∈ pairs) (hmisspelt : IsMisspelt pair)
    (hfault : IsSpellingFault fault) (h : inferredValues pairs = .error fault)
  | unreadable {key text : String} (hspelt : ∀ pair ∈ pairs, ¬IsMisspelt pair)
    (hlast : LastGives pairs key text) (hunreadable : IsUnreadable text)
    (h : inferredValues pairs = .error .unreadableNumber)
  | mapping {values : Entries} (hspelt : ∀ pair ∈ pairs, ¬IsMisspelt pair)
    (hreadable : ∀ key text, LastGives pairs key text → ¬IsUnreadable text)
    (h : inferredValues pairs = .ok (.mapping values)) (hnodup : (values.map Prod.fst).Nodup)
    (hget : ∀ key v, values.get? key = some v
      ↔ ∃ text, LastGives pairs key text ∧ StandsFor text v)

/-- **Texts come to one of three things.** First all of them are cut (`keyValues`), and then all
last values are inferred (`inferEntries`). -/
theorem comesTo (pairs : List String) : ComesTo pairs := by
  cases hkeys : keyValues pairs with
  | error fault =>
    obtain ⟨pair, hpair, hmisspelt⟩ := exists_keyValues_eq_error_iff.1 ⟨fault, hkeys⟩
    refine .misspelt hpair hmisspelt (failsOnly_keyValues pairs fault hkeys) ?_
    rw [inferredValues, hkeys]
    rfl
  | ok entries =>
    have hspelt : ∀ pair ∈ pairs, ¬IsMisspelt pair := fun pair hpair hmisspelt => by
      obtain ⟨fault, hfault⟩ := exists_keyValues_eq_error_iff.2 ⟨pair, hpair, hmisspelt⟩
      cases hkeys.symm.trans hfault
    have hreadable := exists_inferEntries_iff hkeys
    have hout := inferredValues_of_keyValues hkeys
    cases hvalues : inferEntries entries with
    | error fault =>
      obtain rfl : fault = .unreadableNumber := failsOnly_inferEntries entries fault hvalues
      rw [hvalues] at hout hreadable
      obtain ⟨key, text, hlast, hunreadable⟩ :
          ∃ key text, LastGives pairs key text ∧ IsUnreadable text := by
        by_contra hnone
        push Not at hnone
        obtain ⟨values, ⟨⟩⟩ := hreadable.2 hnone
      exact .unreadable hspelt hlast hunreadable hout
    | ok values =>
      rw [hvalues] at hout
      refine .mapping hspelt (hreadable.1 ⟨values, hvalues⟩) hout ?_
        (get?_of_inferred hkeys hvalues)
      rw [(get?_of_inferEntries hvalues).1]
      exact nodup_of_keyValues hkeys

/-- The fault of a misspelt text is not that of a number that cannot be read. -/
theorem IsSpellingFault.ne_unreadableNumber (h : IsSpellingFault fault) :
    fault ≠ .unreadableNumber := by
  rintro rfl
  obtain ⟨⟨⟩⟩ | ⟨pair, ⟨⟩⟩ := h

/-- **What texts come to.** They are refused as misspelt exactly if one of them is. If none is, they
give the mapping in which each key stands once, with what the last text with that key stands for
(`StandsFor`); unless the last text with some key looks like a number and cannot be read, and then
they are refused as unreadable. -/
theorem inferredValues_spec (pairs : List String) :
    ((∃ fault, inferredValues pairs = .error fault ∧ IsSpellingFault fault)
        ↔ ∃ pair ∈ pairs, IsMisspelt pair)
      ∧ ((∃ values : Entries, inferredValues pairs = .ok (.mapping values)
          ∧ (values.map Prod.fst).Nodup
          ∧ ∀ key v, values.get? key = some v ↔ ∃ text, LastGives pairs key text ∧ StandsFor text v)
        ↔ (∀ pair ∈ pairs, ¬IsMisspelt pair)
          ∧ ∀ key text, LastGives pairs key text → ¬IsUnreadable text)
      ∧ (inferredValues pairs = .error .unreadableNumber
        ↔ (∀ pair ∈ pairs, ¬IsMisspelt pair)
          ∧ ∃ key text, LastGives pairs key text ∧ IsUnreadable text) := by
  cases comesTo pairs with
  | misspelt hpair hmisspelt hfault h =>
    refine ⟨iff_of_true ⟨_, h, hfault⟩ ⟨_, hpair, hmisspelt⟩,
      iff_of_false ?_ fun hall => hall.1 _ hpair hmisspelt,
      iff_of_false ?_ fun hall => hall.1 _ hpair hmisspelt⟩
    · rintro ⟨values, hvalues, -⟩
      cases h.symm.trans hvalues
    · intro hunreadable
      cases h.symm.trans hunreadable
      exact hfault.ne_unreadableNumber rfl
  | unreadable hspelt hlast hunreadable h =>
    refine ⟨iff_of_false ?_ fun ⟨pair, hpair, hmisspelt⟩ => hspelt pair hpair hmisspelt,
      iff_of_false ?_ fun hall => hall.2 _ _ hlast hunreadable,
      iff_of_true h ⟨hspelt, _, _, hlast, hunreadable⟩⟩
    · rintro ⟨fault, hfault, hspelling⟩
      cases h.symm.trans hfault
      exact hspelling.ne_unreadableNumber rfl
    · rintro ⟨values, hvalues, -⟩
      cases h.symm.trans hvalues
  | mapping hspelt hreadable h hnodup hget =>
    refine ⟨iff_of_false ?_ fun ⟨pair, hpair, hmisspelt⟩ => hspelt pair hpair hmisspelt,
      iff_of_true ⟨_, h, hnodup, hget⟩ ⟨hspelt, hreadable⟩,
      iff_of_false ?_ fun ⟨_, _, _, hlast, hunreadable⟩ => hreadable _ _ hlast hunreadable⟩
    · rintro ⟨fault, hfault, -⟩
      cases h.symm.trans hfault
    · intro hunreadable
      cases h.symm.trans hunreadable

/-- A key that is given twice, the second time an integer with a digit of another script between
blanks. -/
theorem inferredValues_spec_repeated_key :
    ∃ values : Entries, inferredValues [" k =x", "k=\u2003٣ "] = .ok (.mapping values)
      ∧ values.get? "k" = some (.number (.int 3)) := by
  have hkeys : keyValues [" k =x", "k=\u2003٣ "] = .ok [("k", .text "\u2003٣ ")] := rfl
  have hspelt : ∀ pair ∈ [" k =x", "k=\u2003٣ "], ¬IsMisspelt pair := fun pair hpair hwrong => by
    obtain ⟨fault, hfault⟩ := exists_keyValues_eq_error_iff.2 ⟨pair, hpair, hwrong⟩
    cases hkeys.symm.trans hfault
  have hreadable := (exists_inferEntries_iff hkeys).1 ⟨_, rfl⟩
  obtain ⟨values, hvalues, -, hget⟩ := (inferredValues_spec _).2.1.2 ⟨hspelt, hreadable⟩
  have hgiven : Entries.get? "k" [("k", .text "\u2003٣ ")] = some (.text "\u2003٣ ") := rfl
  obtain ⟨text, hlast, ⟨⟩⟩ := (get?_of_keyValues hkeys).1 hgiven
  have hstands : StandsFor "\u2003٣ " (.number (.int 3)) :=
    .number ⟨false, ['٣'], [], List.cons_ne_nil _ _, List.forall_mem_singleton.2 rfl, nofun⟩ rfl
  exact ⟨values, hvalues, (hget "k" _).2 ⟨_, hlast, hstands⟩⟩

/-- A digit with an information separator behind it: the text is not misspelt, and what it gives
looks like a number, but it is refused. -/
theorem refused_separator :
    (∀ pair ∈ ["k=5\x1c"], ¬IsMisspelt pair) ∧ LastGives ["k=5\x1c"] "k" "5\x1c"
      ∧ StandsFor "5\x1c" (.number (.int 5))
      ∧ inferredValues ["k=5\x1c"] = .error .unreadableNumber := by
  have hcut : keyValue "k=5\x1c" = .ok ("k", "5\x1c") := by decide +kernel
  have hspelt : ¬IsMisspelt "k=5\x1c" := fun hmisspelt => by
    obtain ⟨fault, hfault⟩ := exists_keyValue_eq_error_iff.2 hmisspelt
    cases hcut.symm.trans hfault
  have hstands : StandsFor "5\x1c" (.number (.int 5)) :=
    .number ⟨false, ['5'], [], List.cons_ne_nil _ _, List.forall_mem_singleton.2 rfl, nofun⟩ rfl
  exact ⟨List.forall_mem_singleton.2 hspelt,
    ⟨[], _, [], rfl, keyValue_eq_ok_iff.1 hcut, nofun⟩, hstands, rfl⟩

end Templating
