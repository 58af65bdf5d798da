import Mathlib.Data.List.Nodup
import Templating.Proofs.Value.Canonical
import Templating.Proofs.Value.JsonText
import Templating.Value.Inserted

/-!
# The order of entries

Two values with the same canonical form differ in the order of the entries of their mappings
only. A value in which no mapping has two entries leaves no room for that: it is the only one with
its canonical form. In any other value the entries of all mappings can be reversed, which gives a
different value, and another text of the same length where it is inserted.

## Main definitions

* `Value.hasEntryOrder`: whether a mapping in a value has two entries.
* `Value.hasUniqueKeys`: whether no mapping in a value has two entries with one key.
* `Value.reversed`: the value with the entries of every mapping in reverse.

## Main results

* `Value.eq_of_canonical_eq`: a value without an order of entries is given by its canonical form.
* `Value.canonical_reversed`: the reversed value has the same canonical form.
* `Value.hasEntryOrder_eq_false_of_reversed_eq`: reversing changes every order of entries.
* `Value.length_insertedText_eq`: values with the same canonical form have texts of one length.
-/

namespace Templating

namespace Value

/-! ### Orders of entries -/

mutual

/-- Whether a mapping in the value, at any depth, has two entries, which then stand in one of
several orders. `eq_of_canonical_eq` says that without it a value leaves no order open. -/
def hasEntryOrder : Value → Bool
  | list items => hasEntryOrderInItems items
  | mapping entries => decide (2 ≤ entries.length) || hasEntryOrderInEntries entries
  | _ => false

/-- Whether a mapping in one of the values has two entries. -/
def hasEntryOrderInItems : List Value → Bool
  | [] => false
  | v :: rest => v.hasEntryOrder || hasEntryOrderInItems rest

/-- Whether a mapping in one of the entries has two entries. -/
def hasEntryOrderInEntries : List (String × Value) → Bool
  | [] => false
  | (_, v) :: rest => v.hasEntryOrder || hasEntryOrderInEntries rest

end

mutual

/-- Whether no mapping in the value, at any depth, has two entries with one key. -/
def hasUniqueKeys : Value → Bool
  | list items => hasUniqueKeysInItems items
  | mapping entries => decide (entries.map Prod.fst).Nodup && hasUniqueKeysInEntries entries
  | _ => true

/-- Whether no mapping in one of the values has two entries with one key. -/
def hasUniqueKeysInItems : List Value → Bool
  | [] => true
  | v :: rest => v.hasUniqueKeys && hasUniqueKeysInItems rest

/-- Whether no mapping in one of the entries has two entries with one key. -/
def hasUniqueKeysInEntries : List (String × Value) → Bool
  | [] => true
  | (_, v) :: rest => v.hasUniqueKeys && hasUniqueKeysInEntries rest

end

mutual

/-- The value with the entries of every mapping, at any depth, in reverse. It is the witness for an
order of entries that matters: another value with the same canonical form. -/
def reversed : Value → Value
  | list items => list (reversedItems items)
  | mapping entries => mapping (reversedEntries entries).reverse
  | v => v

/-- The items, each with the entries of every mapping in reverse. -/
def reversedItems : List Value → List Value
  | [] => []
  | v :: rest => v.reversed :: reversedItems rest

/-- The entries, each with the entries of every mapping in its value in reverse. -/
def reversedEntries : List (String × Value) → List (String × Value)
  | [] => []
  | (key, v) :: rest => (key, v.reversed) :: reversedEntries rest

end

/-- `reversedEntries` only goes into the values: the keys stay, and stay in their order. -/
theorem map_fst_reversedEntries (entries : List (String × Value)) :
    (reversedEntries entries).map Prod.fst = entries.map Prod.fst := by
  induction entries with
  | nil => rfl
  | cons entry rest ih => rw [reversedEntries, List.map_cons, List.map_cons, ih]

/-! ### Values without an order of entries -/

mutual

/-- **A value without an order of entries is given by its canonical form.** Mutual induction with
the items and the entries; a mapping has one entry at most, and sorting leaves that where it is
(`Entries.sorted_eq_self`). -/
theorem eq_of_canonical_eq : ∀ {v w : Value}, v.hasEntryOrder = false →
    w.canonical = v.canonical → w = v
  | null, w, _, h => by cases w <;> cases h; rfl
  | bool _, w, _, h => by cases w <;> cases h; rfl
  | number _, w, _, h => by cases w <;> cases h; rfl
  | text _, w, _, h => by cases w <;> cases h; rfl
  | list items, w, hv, h => by
    cases w with
    | list items' =>
      rw [canonical, canonical, list.injEq] at h
      exact congrArg list (eq_of_canonicalItems_eq hv h)
    | _ => cases h
  | mapping entries, w, hv, h => by
    cases w with
    | mapping entries' =>
      rw [hasEntryOrder, Bool.or_eq_false_iff, decide_eq_false_iff_not] at hv
      rw [canonical, canonical, mapping.injEq] at h
      have hlength := congrArg List.length h
      rw [length_sorted_canonicalEntries, length_sorted_canonicalEntries] at hlength
      have hshort : ∀ zs : Entries, zs.length ≤ 1 → (canonicalEntries zs).length ≤ 1 := by
        intro zs hzs
        rwa [canonicalEntries_eq_map, List.length_map]
      rw [Entries.sorted_eq_self (hshort entries' (by omega)),
        Entries.sorted_eq_self (hshort entries (by omega))] at h
      exact congrArg mapping (eq_of_canonicalEntries_eq hv.2 h)
    | _ => cases h

/-- The part of `eq_of_canonical_eq` for the items of a list. -/
theorem eq_of_canonicalItems_eq : ∀ {items items' : List Value},
    hasEntryOrderInItems items = false → canonicalItems items' = canonicalItems items →
    items' = items
  | [], items', _, h => by
    rw [canonicalItems_eq_map] at h
    exact List.map_eq_nil_iff.1 h
  | v :: rest, [], _, h => by cases h
  | v :: rest, w :: rest', hitems, h => by
    rw [hasEntryOrderInItems, Bool.or_eq_false_iff] at hitems
    rw [canonicalItems, canonicalItems, List.cons.injEq] at h
    rw [eq_of_canonical_eq hitems.1 h.1, eq_of_canonicalItems_eq hitems.2 h.2]

/-- The part of `eq_of_canonical_eq` for the entries of a mapping, before they are sorted. -/
theorem eq_of_canonicalEntries_eq : ∀ {entries entries' : List (String × Value)},
    hasEntryOrderInEntries entries = false →
    canonicalEntries entries' = canonicalEntries entries → entries' = entries
  | [], entries', _, h => by
    rw [canonicalEntries_eq_map] at h
    exact List.map_eq_nil_iff.1 h
  | (key, v) :: rest, [], _, h => by cases h
  | (key, v) :: rest, (key', w) :: rest', hentries, h => by
    rw [hasEntryOrderInEntries, Bool.or_eq_false_iff] at hentries
    rw [canonicalEntries, canonicalEntries, List.cons.injEq, Prod.mk.injEq] at h
    rw [h.1.1, eq_of_canonical_eq hentries.1 h.1.2, eq_of_canonicalEntries_eq hentries.2 h.2]

end

/-! ### Reversed values -/

mutual

/-- **The reversed value has the same canonical form.** Mutual induction; the reversed entries of a
mapping are a permutation with the same different keys, and so have the same ascending order
(`Entries.sorted_eq_of_perm`). -/
theorem canonical_reversed : ∀ {v : Value}, v.hasUniqueKeys = true →
    v.reversed.canonical = v.canonical
  | null, _ => rfl
  | bool _, _ => rfl
  | number _, _ => rfl
  | text _, _ => rfl
  | list items, h => congrArg list (canonicalItems_reversed h)
  | mapping entries, h => by
    rw [hasUniqueKeys, Bool.and_eq_true, decide_eq_true_eq] at h
    obtain ⟨hnodup, hunique⟩ := h
    have hperm : (canonicalEntries (reversedEntries entries).reverse).Perm
        (canonicalEntries entries) := by
      rw [canonicalEntries_eq_map, List.map_reverse, ← canonicalEntries_eq_map,
        canonicalEntries_reversed hunique]
      exact List.reverse_perm _
    rw [reversed, canonical, canonical, mapping.injEq]
    refine (Entries.sorted_eq_of_perm hperm.symm ?_).symm
    rwa [map_fst_canonicalEntries]

/-- The part of `canonical_reversed` for the items of a list. -/
theorem canonicalItems_reversed : ∀ {items : List Value}, hasUniqueKeysInItems items = true →
    canonicalItems (reversedItems items) = canonicalItems items
  | [], _ => rfl
  | v :: rest, h => by
    rw [hasUniqueKeysInItems, Bool.and_eq_true] at h
    rw [reversedItems, canonicalItems, canonicalItems, canonical_reversed h.1,
      canonicalItems_reversed h.2]

/-- The part of `canonical_reversed` for the entries of a mapping, before they are put in
reverse. -/
theorem canonicalEntries_reversed : ∀ {entries : List (String × Value)},
    hasUniqueKeysInEntries entries = true →
    canonicalEntries (reversedEntries entries) = canonicalEntries entries
  | [], _ => rfl
  | (key, v) :: rest, h => by
    rw [hasUniqueKeysInEntries, Bool.and_eq_true] at h
    rw [reversedEntries, canonicalEntries, canonicalEntries, canonical_reversed h.1,
      canonicalEntries_reversed h.2]

end

/-- A mapping stays one in reverse, and nothing else becomes one, so what is a configuration remains
one. -/
theorem isMapping_reversed (v : Value) : v.reversed.isMapping = v.isMapping := by
  cases v <;> rfl

/-- `hasUniqueKeysInEntries` as a `List.all`, which does not depend on the order of the entries. -/
theorem hasUniqueKeysInEntries_eq_all (entries : List (String × Value)) :
    hasUniqueKeysInEntries entries = entries.all fun entry => entry.2.hasUniqueKeys := by
  induction entries with
  | nil => rfl
  | cons entry rest ih => rw [hasUniqueKeysInEntries, ih, List.all_cons]

mutual

/-- The reversed value has unique keys exactly if the value has. Mutual induction; the keys of a
mapping are permuted only. -/
theorem hasUniqueKeys_reversed : ∀ v : Value, v.reversed.hasUniqueKeys = v.hasUniqueKeys
  | null => rfl
  | bool _ => rfl
  | number _ => rfl
  | text _ => rfl
  | list items => hasUniqueKeysInItems_reversed items
  | mapping entries => by
    have hkeys : ((reversedEntries entries).reverse.map Prod.fst).Nodup
        ↔ (entries.map Prod.fst).Nodup := by
      rw [List.map_reverse, List.nodup_reverse, map_fst_reversedEntries]
    rw [reversed, hasUniqueKeys, hasUniqueKeys, decide_eq_decide.2 hkeys,
      hasUniqueKeysInEntries_eq_all, List.all_reverse, ← hasUniqueKeysInEntries_eq_all,
      hasUniqueKeysInEntries_reversed entries]

/-- The part of `hasUniqueKeys_reversed` for the items of a list. -/
theorem hasUniqueKeysInItems_reversed : ∀ items : List Value,
    hasUniqueKeysInItems (reversedItems items) = hasUniqueKeysInItems items
  | [] => rfl
  | v :: rest => by
    rw [reversedItems, hasUniqueKeysInItems, hasUniqueKeysInItems, hasUniqueKeys_reversed v,
      hasUniqueKeysInItems_reversed rest]

/-- The part of `hasUniqueKeys_reversed` for the entries of a mapping. -/
theorem hasUniqueKeysInEntries_reversed : ∀ entries : List (String × Value),
    hasUniqueKeysInEntries (reversedEntries entries) = hasUniqueKeysInEntries entries
  | [] => rfl
  | (key, v) :: rest => by
    rw [reversedEntries, hasUniqueKeysInEntries, hasUniqueKeysInEntries, hasUniqueKeys_reversed v,
      hasUniqueKeysInEntries_reversed rest]

end

/-! ### Paths into reversed values -/

/-- What `reversedEntries` has under a key is the reverse of what the entries have there; their own
order is not reversed yet. Induction on the entries. -/
theorem get?_reversedEntries (key : String) (entries : Entries) :
    Entries.get? key (reversedEntries entries) = (Entries.get? key entries).map reversed := by
  induction entries with
  | nil => rfl
  | cons entry rest ih =>
    rw [reversedEntries, Entries.get?_cons, Entries.get?_cons, ih]
    split
    · rfl
    · rfl

/-- `entry?` of a reversed value. With different keys, entries in reverse and entries in order have
the same `sorted` list, and `Entries.get?_sorted` carries what stands under a key from one to the
other. -/
theorem entry?_reversed {v : Value} (h : v.hasUniqueKeys = true) (key : String) :
    v.reversed.entry? key = (v.entry? key).map reversed := by
  cases v with
  | mapping entries =>
    rw [hasUniqueKeys, Bool.and_eq_true, decide_eq_true_eq] at h
    have hnodup : ((reversedEntries entries).map Prod.fst).Nodup := by
      rw [map_fst_reversedEntries]
      exact h.1
    have hsame := Entries.sorted_eq_of_perm
      (List.reverse_perm (reversedEntries entries)).symm hnodup
    rw [reversed, entry?, entry?, ← Entries.get?_sorted, ← hsame, Entries.get?_sorted,
      get?_reversedEntries]
  | _ => rfl

/-- What stands under a key in entries with unique keys has unique keys. Induction on the
entries. -/
theorem hasUniqueKeys_of_get? {entries : Entries} {key : String} {v : Value}
    (h : hasUniqueKeysInEntries entries = true) (hv : Entries.get? key entries = some v) :
    v.hasUniqueKeys = true := by
  induction entries with
  | nil => cases hv
  | cons entry rest ih =>
    rw [hasUniqueKeysInEntries, Bool.and_eq_true] at h
    rw [Entries.get?_cons] at hv
    split at hv
    · cases hv
      exact h.1
    · exact ih h.2 hv

/-- What stands under a key in a value with unique keys has unique keys. -/
theorem hasUniqueKeys_of_entry? {v w : Value} {key : String} (h : v.hasUniqueKeys = true)
    (hw : v.entry? key = some w) : w.hasUniqueKeys = true := by
  cases v with
  | mapping entries =>
    rw [hasUniqueKeys, Bool.and_eq_true] at h
    exact hasUniqueKeys_of_get? h.2 hw
  | _ => cases hw

/-- One step of `resolve` commutes with `reversed` if keys are unique. -/
theorem step?_reversed {v : Value} (h : v.hasUniqueKeys = true) (segment : String) :
    v.reversed.step? segment = (v.step? segment).map reversed := by
  rw [step?, step?]
  split
  · rfl
  · exact entry?_reversed h segment

/-- One step of `resolve` stays among values with unique keys; this keeps the hypothesis of
`step?_reversed` up along a path. -/
theorem hasUniqueKeys_of_step? {v w : Value} {segment : String} (h : v.hasUniqueKeys = true)
    (hw : v.step? segment = some w) : w.hasUniqueKeys = true := by
  rw [step?] at hw
  split at hw
  · cases hw
  · exact hasUniqueKeys_of_entry? h hw

/-- **Paths and reversing commute**: a path into the reversed value leads to the reverse of what it
leads to. Induction on the segments, with `step?_reversed` and `hasUniqueKeys_of_step?`. -/
theorem resolve_reversed {v : Value} (h : v.hasUniqueKeys = true) (path : String) :
    v.reversed.resolve path = (v.resolve path).map reversed := by
  rw [resolve, resolve]
  induction segments path generalizing v with
  | nil => rfl
  | cons segment rest ih =>
    rw [List.foldlM_cons, List.foldlM_cons, step?_reversed h]
    cases hw : v.step? segment with
    | none => rfl
    | some w => exact ih (hasUniqueKeys_of_step? h hw)

/-- What a path leads to in a value with unique keys has unique keys. Induction on the segments. -/
theorem hasUniqueKeys_of_resolve {v w : Value} {path : String} (h : v.hasUniqueKeys = true)
    (hw : v.resolve path = some w) : w.hasUniqueKeys = true := by
  rw [resolve] at hw
  generalize segments path = steps at hw
  induction steps generalizing v with
  | nil =>
    cases hw
    exact h
  | cons segment rest ih =>
    rw [List.foldlM_cons] at hw
    obtain ⟨w', hw', hrest⟩ := Option.bind_eq_some_iff.1 hw
    exact ih (hasUniqueKeys_of_step? h hw') hrest

/-! ### Reversing changes an order of entries -/

/-- A list without repetitions that is its own reverse has at most one item: its first item is its
last one too. -/
theorem length_le_one_of_reverse_eq {α : Type} {xs : List α} (hnodup : xs.Nodup)
    (h : xs.reverse = xs) : xs.length ≤ 1 := by
  rcases xs with - | ⟨x, - | ⟨y, rest⟩⟩
  · exact Nat.zero_le _
  · exact Nat.le_refl _
  · have hlast := congrArg List.getLast? h
    rw [List.getLast?_reverse, List.head?_cons, List.getLast?_cons_cons] at hlast
    have hmem : x ∈ y :: rest := List.mem_of_getLast? hlast.symm
    exact absurd hmem (List.nodup_cons.1 hnodup).1

mutual

/-- **Reversing changes every order of entries**: a value that is its own reverse has none. Mutual
induction; the keys of a mapping that is its own reverse are theirs, and unique keys leave one at
most (`length_le_one_of_reverse_eq`). -/
theorem hasEntryOrder_eq_false_of_reversed_eq : ∀ {v : Value}, v.hasUniqueKeys = true →
    v.reversed = v → v.hasEntryOrder = false
  | null, _, _ => rfl
  | bool _, _, _ => rfl
  | number _, _, _ => rfl
  | text _, _, _ => rfl
  | list items, hunique, h => by
    rw [reversed, list.injEq] at h
    exact hasEntryOrderInItems_eq_false hunique h
  | mapping entries, hunique, h => by
    rw [hasUniqueKeys, Bool.and_eq_true, decide_eq_true_eq] at hunique
    rw [reversed, mapping.injEq] at h
    have hkeys := congrArg (List.map Prod.fst) h
    rw [List.map_reverse, map_fst_reversedEntries] at hkeys
    have hshort := length_le_one_of_reverse_eq hunique.1 hkeys
    rw [List.length_map] at hshort
    have hself : (reversedEntries entries).reverse = reversedEntries entries := by
      rcases entries with - | ⟨entry, - | ⟨entry', rest⟩⟩
      · rfl
      · rfl
      · simp at hshort
    rw [hself] at h
    rw [hasEntryOrder, Bool.or_eq_false_iff, decide_eq_false_iff_not]
    exact ⟨by omega, hasEntryOrderInEntries_eq_false hunique.2 h⟩

/-- The part of `hasEntryOrder_eq_false_of_reversed_eq` for the items of a list. -/
theorem hasEntryOrderInItems_eq_false : ∀ {items : List Value},
    hasUniqueKeysInItems items = true → reversedItems items = items →
    hasEntryOrderInItems items = false
  | [], _, _ => rfl
  | v :: rest, hunique, h => by
    rw [hasUniqueKeysInItems, Bool.and_eq_true] at hunique
    rw [reversedItems, List.cons.injEq] at h
    rw [hasEntryOrderInItems, Bool.or_eq_false_iff]
    exact ⟨hasEntryOrder_eq_false_of_reversed_eq hunique.1 h.1,
      hasEntryOrderInItems_eq_false hunique.2 h.2⟩

/-- The part of `hasEntryOrder_eq_false_of_reversed_eq` for the entries of a mapping. -/
theorem hasEntryOrderInEntries_eq_false : ∀ {entries : List (String × Value)},
    hasUniqueKeysInEntries entries = true → reversedEntries entries = entries →
    hasEntryOrderInEntries entries = false
  | [], _, _ => rfl
  | (key, v) :: rest, hunique, h => by
    rw [hasUniqueKeysInEntries, Bool.and_eq_true] at hunique
    rw [reversedEntries, List.cons.injEq, Prod.mk.injEq] at h
    rw [hasEntryOrderInEntries, Bool.or_eq_false_iff]
    exact ⟨hasEntryOrder_eq_false_of_reversed_eq hunique.1 h.1.2,
      hasEntryOrderInEntries_eq_false hunique.2 h.2⟩

end

end Value

/-! ### Texts -/

namespace Json

/-- The length of `afterEntry` as a sum over the entries, each with its key, its value, a colon and
a comma. A sum does not change under a permutation of the entries. -/
theorem length_afterEntry (entries : List (String × Value)) :
    (afterEntry entries).length = (entries.map fun entry =>
      (quoted entry.1).length + (compactChars entry.2).length + 2).sum := by
  induction entries with
  | nil => rfl
  | cons entry rest ih =>
    obtain ⟨key, v⟩ := entry
    rw [afterEntry, compactEntries_cons, List.map_cons, List.sum_cons, ← ih]
    · simp only [List.length_cons, List.length_append]
      omega
    · simp

/-- `compactEntries` has one character less than `afterEntry`, the comma in front; without entries
both are empty. -/
theorem length_compactEntries (entries : List (String × Value)) :
    (compactEntries entries).length = (afterEntry entries).length - 1 := by
  cases entries with
  | nil => rfl
  | cons entry rest =>
    rw [afterEntry, List.length_cons, Nat.add_sub_cancel]
    simp

mutual

/-- **The text of the canonical form has the same length.** Mutual induction; for a mapping the
lengths are sums over entries (`length_afterEntry`), which sorting permutes. -/
theorem length_compactChars_canonical : ∀ v : Value,
    (compactChars v.canonical).length = (compactChars v).length
  | .null => rfl
  | .bool _ => rfl
  | .number _ => rfl
  | .text _ => rfl
  | .list items => by
    simp only [Value.canonical, compactChars, List.length_cons, List.length_append,
      length_compactItems_canonical items]
  | .mapping entries => by
    have hperm := ((Entries.sorted_perm (Value.canonicalEntries entries)).map fun entry =>
      (quoted entry.1).length + (compactChars entry.2).length + 2).sum_nat
    rw [← length_afterEntry, ← length_afterEntry] at hperm
    simp only [Value.canonical, compactChars, List.length_cons, List.length_append,
      length_compactEntries, hperm, length_afterEntry_canonical entries]

/-- The part of `length_compactChars_canonical` for the items of a list. -/
theorem length_compactItems_canonical : ∀ items : List Value,
    (compactItems (Value.canonicalItems items)).length = (compactItems items).length
  | [] => rfl
  | [v] => length_compactChars_canonical v
  | v :: w :: rest => by
    have hrest := length_compactItems_canonical (w :: rest)
    simp only [Value.canonicalItems, compactItems, List.length_append, List.length_cons,
      length_compactChars_canonical v] at hrest ⊢
    omega

/-- The part of `length_compactChars_canonical` for the entries of a mapping, before they are
sorted. -/
theorem length_afterEntry_canonical : ∀ entries : List (String × Value),
    (afterEntry (Value.canonicalEntries entries)).length = (afterEntry entries).length
  | [] => rfl
  | (key, v) :: rest => by
    have hrest := length_afterEntry_canonical rest
    rw [length_afterEntry, length_afterEntry] at hrest ⊢
    rw [Value.canonicalEntries, List.map_cons, List.map_cons, List.sum_cons, List.sum_cons, hrest,
      length_compactChars_canonical v]

end

end Json

namespace Value

/-- A value that is inserted as JSON text, with the entries of its mappings in their order; the text
of any other value has no such order. -/
def isCompound : Value → Bool
  | list _ => true
  | mapping _ => true
  | _ => false

/-- Lists and mappings are inserted as their compact JSON text. -/
theorem insertedText_of_isCompound {v : Value} (h : v.isCompound = true) :
    v.insertedText = Json.compact v := by
  cases v with
  | list items => rfl
  | mapping entries => rfl
  | _ => cases h

/-- Only lists and mappings have an order of entries. -/
theorem isCompound_of_hasEntryOrder {v : Value} (h : v.hasEntryOrder = true) :
    v.isCompound = true := by
  cases v with
  | list items => rfl
  | mapping entries => rfl
  | _ => cases h

/-- A list stays a list in reverse, and a mapping a mapping. -/
theorem isCompound_reversed (v : Value) : v.reversed.isCompound = v.isCompound := by
  cases v <;> rfl

/-- A value and its canonical form are inserted as texts of one length
(`Json.length_compactChars_canonical`). -/
theorem length_insertedText_canonical (v : Value) :
    v.canonical.insertedText.length = v.insertedText.length := by
  cases v with
  | list items =>
    rw [insertedText_of_isCompound rfl, insertedText_of_isCompound rfl, Json.compact, Json.compact,
      String.length_ofList, String.length_ofList, Json.length_compactChars_canonical]
  | mapping entries =>
    rw [insertedText_of_isCompound rfl, insertedText_of_isCompound rfl, Json.compact, Json.compact,
      String.length_ofList, String.length_ofList, Json.length_compactChars_canonical]
  | _ => rfl

/-- Values with the same canonical form have texts of one length, by way of the text of that
form. -/
theorem length_insertedText_eq {v w : Value} (h : v.canonical = w.canonical) :
    v.insertedText.length = w.insertedText.length := by
  rw [← length_insertedText_canonical v, h, length_insertedText_canonical]

/-- **Reversing an order of entries changes the text.** JSON texts are injective
(`Json.compactChars_injective`), so equal texts would make the value its own reverse, against
`hasEntryOrder_eq_false_of_reversed_eq`. -/
theorem insertedText_reversed_ne {v : Value} (hunique : v.hasUniqueKeys = true)
    (h : v.hasEntryOrder = true) : v.reversed.insertedText ≠ v.insertedText := by
  intro heq
  have hcompound := isCompound_of_hasEntryOrder h
  rw [insertedText_of_isCompound hcompound,
    insertedText_of_isCompound ((isCompound_reversed v).trans hcompound)] at heq
  have hself := Json.compactChars_injective (String.ofList_injective heq)
  rw [hasEntryOrder_eq_false_of_reversed_eq hunique hself] at h
  cases h

end Value

end Templating
