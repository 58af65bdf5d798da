import Mathlib.Data.List.Nodup
import Mathlib.Data.String.Basic
import Templating.Value.Equality
import Templating.Value.Json
import Templating.Value.Path

/-!
# What the canonical form keeps

The canonical form of a value only puts the entries of its mappings in another order, and of
several entries with one key it keeps the first one first. So a path leads to the canonical form
of what it leads to, and equality, truth and the length of integers do not change.

## Main results

* `Entries.get?_sorted`: sorting entries does not change what stands under a key.
* `Entries.sorted_eq_of_perm`: entries with different keys have one ascending order.
* `Value.resolve_canonical`: a path into the canonical form.
* `Value.equal_canonical`: equality of canonical forms.
* `Value.hasOverlongInteger_canonical`: integers of canonical forms.
-/

namespace Templating

namespace Entries

/-! ### Sorted entries -/

/-- `sorted` only reorders: the entries it returns are a permutation of those it is given. -/
theorem sorted_perm (entries : Entries) : (sorted entries).Perm entries :=
  List.mergeSort_perm _ _

/-- The order that `sorted` merges by, less or equal on keys, is transitive; `List.mergeSort` asks
for it. -/
theorem key_le_trans (a b c : String × Value) (hab : decide (a.1 ≤ b.1) = true)
    (hbc : decide (b.1 ≤ c.1) = true) : decide (a.1 ≤ c.1) = true :=
  decide_eq_true (le_trans (of_decide_eq_true hab) (of_decide_eq_true hbc))

/-- The order that `sorted` merges by is total, so that any two entries can be put in it. -/
theorem key_le_total (a b : String × Value) :
    (decide (a.1 ≤ b.1) || decide (b.1 ≤ a.1)) = true := by
  rw [Bool.or_eq_true, decide_eq_true_eq, decide_eq_true_eq]
  exact le_total a.1 b.1

/-- The keys of `sorted` entries ascend, by `List.pairwise_mergeSort` from `key_le_trans` and
`key_le_total`. -/
theorem pairwise_sorted (entries : Entries) :
    (sorted entries).Pairwise fun a b => decide (a.1 ≤ b.1) = true :=
  List.pairwise_mergeSort key_le_trans key_le_total entries

/-- `sorted` leaves a single entry, or none, as it is. -/
theorem sorted_eq_self {entries : Entries} (h : entries.length ≤ 1) : sorted entries = entries := by
  refine List.mergeSort_of_pairwise ?_
  rcases entries with - | ⟨entry, - | ⟨entry', rest⟩⟩
  · exact List.Pairwise.nil
  · exact List.pairwise_singleton _ _
  · simp at h

/-- The entries under one key keep their order in `sorted`. The sort is stable, and entries with one
key are in ascending order already, so the sublist of them is a sublist of the sorted entries
too. -/
theorem filter_sorted (key : String) (entries : Entries) :
    (sorted entries).filter (fun entry => entry.1 == key)
      = entries.filter fun entry => entry.1 == key := by
  have hequal : (entries.filter fun entry => entry.1 == key).Pairwise
      fun a b => decide (a.1 ≤ b.1) = true := by
    refine List.pairwise_of_forall_mem_list fun a ha b hb => ?_
    have ha' := eq_of_beq (List.mem_filter.1 ha).2
    have hb' := eq_of_beq (List.mem_filter.1 hb).2
    exact decide_eq_true (by rw [ha', hb'])
  have hsublist := (List.sublist_mergeSort key_le_trans key_le_total hequal
    List.filter_sublist).filter (fun entry => entry.1 == key)
  simp only [List.filter_filter, Bool.and_self] at hsublist
  exact (hsublist.eq_of_length ((sorted_perm entries).filter _).length_eq.symm).symm

/-- `get?` of entries with a first one: its value if the key is the one asked for, else what the
rest has. The other lemmas on `get?` go by this equation and not by `List.lookup`. -/
theorem get?_cons (key key' : String) (v : Value) (rest : Entries) :
    get? key ((key', v) :: rest) = if key' = key then some v else get? key rest := by
  by_cases h : key' = key
  · rw [if_pos h, h]
    exact List.lookup_cons_self
  · have hne : (key == key') = false := beq_false_of_ne (Ne.symm h)
    rw [if_neg h, get?, List.lookup_cons, hne]
    rfl

/-- `get?` finds the first of the entries under a key, so two lists of entries with equal sublists
under it agree on `get?`. Induction on the entries. -/
theorem get?_eq_head?_filter (key : String) (entries : Entries) :
    get? key entries = (entries.filter fun entry => entry.1 == key).head?.map Prod.snd := by
  induction entries with
  | nil => rfl
  | cons entry rest ih =>
    obtain ⟨key', v⟩ := entry
    rw [get?_cons]
    by_cases h : key' = key
    · rw [if_pos h, List.filter_cons_of_pos (by exact beq_iff_eq.2 h)]
      rfl
    · rw [if_neg h, List.filter_cons_of_neg (by exact mt beq_iff_eq.1 h)]
      exact ih

/-- **Sorting does not change what stands under a key**, since the entries under it, and so the
first of them, are the same (`filter_sorted`, `get?_eq_head?_filter`). -/
theorem get?_sorted (key : String) (entries : Entries) :
    get? key (sorted entries) = get? key entries := by
  rw [get?_eq_head?_filter, filter_sorted, ← get?_eq_head?_filter]

/-- **Entries with different keys have one ascending order**: two permutations of each other have
equal `sorted` lists. Two entries that are each not greater than the other have one key, and without
a duplicate key they are the same entry. -/
theorem sorted_eq_of_perm {entries entries' : Entries} (h : entries.Perm entries')
    (hnodup : (entries.map Prod.fst).Nodup) : sorted entries = sorted entries' := by
  refine List.Perm.eq_of_pairwise ?_ (pairwise_sorted entries) (pairwise_sorted entries')
    ((sorted_perm entries).trans (h.trans (sorted_perm entries').symm))
  intro a b ha hb hab hba
  have hkey : a.1 = b.1 := le_antisymm (of_decide_eq_true hab) (of_decide_eq_true hba)
  exact List.inj_on_of_nodup_map hnodup ((sorted_perm entries).mem_iff.1 ha)
    (h.mem_iff.2 ((sorted_perm entries').mem_iff.1 hb)) hkey

end Entries

namespace Value

/-! ### Canonical forms by parts -/

/-- `canonicalItems` as a `List.map`, which makes the lemmas on lists apply to it. -/
theorem canonicalItems_eq_map (items : List Value) :
    canonicalItems items = items.map canonical := by
  induction items with
  | nil => rfl
  | cons v rest ih => rw [canonicalItems, ih, List.map_cons]

/-- `canonicalEntries` as a `List.map` that leaves the keys alone. -/
theorem canonicalEntries_eq_map (entries : Entries) :
    canonicalEntries entries = entries.map fun entry => (entry.1, entry.2.canonical) := by
  induction entries with
  | nil => rfl
  | cons entry rest ih => rw [canonicalEntries, ih, List.map_cons]

/-- `canonicalEntries` has the keys of the entries, in their order. -/
theorem map_fst_canonicalEntries (entries : Entries) :
    (canonicalEntries entries).map Prod.fst = entries.map Prod.fst := by
  rw [canonicalEntries_eq_map, List.map_map]
  rfl

/-- The entries of a canonical mapping are as many as those of the mapping, so no entry is lost in
it. -/
theorem length_sorted_canonicalEntries (entries : Entries) :
    (Entries.sorted (canonicalEntries entries)).length = entries.length := by
  rw [(Entries.sorted_perm _).length_eq, canonicalEntries_eq_map, List.length_map]

/-- What `canonicalEntries` has under a key is the canonical form of what the entries have there.
Induction on the entries, with `Entries.get?_cons` on both sides. -/
theorem get?_canonicalEntries (key : String) (entries : Entries) :
    Entries.get? key (canonicalEntries entries) = (Entries.get? key entries).map canonical := by
  induction entries with
  | nil => rfl
  | cons entry rest ih =>
    rw [canonicalEntries, Entries.get?_cons, Entries.get?_cons, ih]
    split
    · rfl
    · rfl

/-! ### Paths -/

/-- `entry?` of a canonical form: sorting does not change the entry (`Entries.get?_sorted`), and the
entry itself is in canonical form (`get?_canonicalEntries`). -/
theorem entry?_canonical (key : String) (v : Value) :
    v.canonical.entry? key = (v.entry? key).map canonical := by
  cases v with
  | mapping entries =>
    rw [canonical, entry?, entry?, Entries.get?_sorted, get?_canonicalEntries]
  | _ => rfl

/-- One step of `resolve` commutes with `canonical`, whether the segment is empty or a key. -/
theorem step?_canonical (v : Value) (segment : String) :
    v.canonical.step? segment = (v.step? segment).map canonical := by
  rw [step?, step?]
  split
  · rfl
  · exact entry?_canonical segment v

/-- **Paths and canonical forms commute**: `resolve` in a canonical form leads to the canonical form
of what the path leads to. Induction on the segments of the path; `step?_canonical` is the step. -/
theorem resolve_canonical (path : String) (v : Value) :
    v.canonical.resolve path = (v.resolve path).map canonical := by
  rw [resolve, resolve]
  induction segments path generalizing v with
  | nil => rfl
  | cons segment rest ih =>
    rw [List.foldlM_cons, List.foldlM_cons, step?_canonical]
    cases v.step? segment with
    | none => rfl
    | some w => exact ih w

/-- `isNull` does not see the difference between a value and its canonical form. -/
theorem isNull_canonical (v : Value) : v.canonical.isNull = v.isNull := by
  cases v <;> rfl

/-- `isTruthy` does not see it either: a mapping counts as true whatever entries it has, and
`canonical` leaves numbers and texts alone. -/
theorem isTruthy_canonical (v : Option Value) : isTruthy (v.map canonical) = isTruthy v := by
  rcases v with - | v
  · rfl
  · cases v <;> rfl

/-! ### Numbers -/

section Numbers

variable (test : Number → Bool)

/-- `anyNumberOfEntries` as a `List.any`, which no permutation of the entries changes. -/
theorem anyNumberOfEntries_eq_any (entries : Entries) :
    anyNumberOfEntries test entries = entries.any fun entry => entry.2.anyNumber test := by
  induction entries with
  | nil => rfl
  | cons entry rest ih => rw [anyNumberOfEntries, ih, List.any_cons]

mutual

/-- The numbers of a canonical form are those of the value. Mutual induction with the items and the
entries; for a mapping the order of the entries does not matter (`anyNumberOfEntries_eq_any`). -/
theorem anyNumber_canonical : ∀ v : Value, v.canonical.anyNumber test = v.anyNumber test
  | null => rfl
  | bool _ => rfl
  | number _ => rfl
  | text _ => rfl
  | list items => anyNumberOfItems_canonical items
  | mapping entries => by
    rw [canonical, anyNumber, anyNumber, anyNumberOfEntries_eq_any,
      (Entries.sorted_perm _).any_eq, ← anyNumberOfEntries_eq_any]
    exact anyNumberOfEntries_canonical entries

/-- The part of `anyNumber_canonical` for the items of a list. -/
theorem anyNumberOfItems_canonical : ∀ items : List Value,
    anyNumberOfItems test (canonicalItems items) = anyNumberOfItems test items
  | [] => rfl
  | v :: rest => by
    rw [canonicalItems, anyNumberOfItems, anyNumberOfItems, anyNumber_canonical v,
      anyNumberOfItems_canonical rest]

/-- The part of `anyNumber_canonical` for the entries of a mapping, before they are sorted. -/
theorem anyNumberOfEntries_canonical : ∀ entries : List (String × Value),
    anyNumberOfEntries test (canonicalEntries entries) = anyNumberOfEntries test entries
  | [] => rfl
  | (_, v) :: rest => by
    rw [canonicalEntries, anyNumberOfEntries, anyNumberOfEntries, anyNumber_canonical v,
      anyNumberOfEntries_canonical rest]

end

end Numbers

/-- A canonical form has an integer that is too long to be written exactly if the value has:
`anyNumber_canonical` at the test `isOverlong`. -/
theorem hasOverlongInteger_canonical (v : Value) :
    v.canonical.hasOverlongInteger = v.hasOverlongInteger :=
  anyNumber_canonical isOverlong v

/-! ### Equality -/

/-- `equalEntries` as a `List.all`: the entries on the left are looked up on the right one by one,
so their order on either side does not matter. -/
theorem equalEntries_eq_all (xs : List (String × Value)) (ys : Entries) :
    equalEntries xs ys
      = xs.all fun entry => (ys.get? entry.1).any fun y => entry.2.equal y := by
  induction xs with
  | nil => rfl
  | cons entry xs ih =>
    rw [equalEntries, ih, List.all_cons]
    cases ys.get? entry.1 with
    | none => rfl
    | some y => rfl

mutual

/-- **Canonical forms are equal exactly if the values are.** Mutual induction with the items and the
entries; for mappings both lists of entries are sorted, which `equalEntries` does not see by
`equalEntries_eq_all` and `Entries.get?_sorted`. -/
theorem equal_canonical : ∀ v w : Value, v.canonical.equal w.canonical = v.equal w
  | null, w => by cases w <;> rfl
  | bool _, w => by cases w <;> rfl
  | number _, w => by cases w <;> rfl
  | text _, w => by cases w <;> rfl
  | list xs, w => by
    cases w with
    | list ys => exact equalItems_canonical xs ys
    | _ => rfl
  | mapping xs, w => by
    cases w with
    | mapping ys =>
      rw [canonical, canonical, equal, equal, length_sorted_canonicalEntries,
        length_sorted_canonicalEntries, equalEntries_eq_all, (Entries.sorted_perm _).all_eq]
      simp only [Entries.get?_sorted]
      rw [← equalEntries_eq_all, equalEntries_canonical]
    | _ => rfl

/-- The part of `equal_canonical` for the items of two lists, which stay in their order. -/
theorem equalItems_canonical : ∀ xs ys : List Value,
    equalItems (canonicalItems xs) (canonicalItems ys) = equalItems xs ys
  | [], [] => rfl
  | [], _ :: _ => rfl
  | _ :: _, [] => rfl
  | x :: xs, y :: ys => by
    rw [canonicalItems, canonicalItems, equalItems, equalItems, equal_canonical x y,
      equalItems_canonical xs ys]

/-- The part of `equal_canonical` for the entries of two mappings, before they are sorted. -/
theorem equalEntries_canonical : ∀ (xs : List (String × Value)) (ys : Entries),
    equalEntries (canonicalEntries xs) (canonicalEntries ys) = equalEntries xs ys
  | [], _ => rfl
  | (key, x) :: xs, ys => by
    rw [canonicalEntries, equalEntries, equalEntries, get?_canonicalEntries,
      equalEntries_canonical xs ys]
    cases ys.get? key with
    | none => rfl
    | some y => exact congrArg (· && equalEntries xs ys) (equal_canonical x y)

end

end Value

end Templating
