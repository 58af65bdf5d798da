import Mathlib.Data.List.Forall2
import Templating.Proofs.Number.ExactValue
import Templating.Proofs.Value.Places

/-!
# Equality of values as an equivalence

Equality of values is recursive and uneven: lists are compared place by place, mappings key by
key in any order, truth values and numbers by their place on the line of numbers. It is symmetric
and transitive all the same, and a value equals itself unless it holds a not-a-number somewhere.
Transitivity needs nothing at all. Symmetry needs that no mapping has two entries with one key,
for a mapping is searched for the keys of the other and not the other way round.

## Main definitions

* `Value.induction`: a property of values that passes from what a value holds to the value.
* `Value.place?`: the place of a truth value or a number on the line.
* `Value.IsComparable`: no not-a-number and no key entered twice, at any depth.

## Main results

* `Value.equal_list_iff`, `Value.equal_mapping_iff`: equality of lists and mappings by their parts.
* `Value.equal_trans`, `Value.equal_symm`, `Value.equal_refl`: equality is an equivalence.
-/

namespace Templating

namespace Value

/-! ### Induction -/

/-- What holds of the values that hold no others, and passes from the values in a list or a mapping
to the list or the mapping, holds of all values. -/
@[elab_as_elim]
theorem induction {P : Value → Prop} (null : P null) (bool : ∀ b, P (bool b))
    (number : ∀ n, P (number n)) (text : ∀ s, P (text s))
    (list : ∀ items, (∀ v ∈ items, P v) → P (list items))
    (mapping : ∀ entries, (∀ entry ∈ entries, P entry.2) → P (mapping entries)) (v : Value) :
    P v := by
  induction hsize : sizeOf v using Nat.strong_induction_on generalizing v with
  | _ n ih =>
    subst hsize
    cases v with
    | null => exact null
    | bool b => exact bool b
    | number n => exact number n
    | text s => exact text s
    | list items =>
      refine list items fun v hv => ih _ ?_ v rfl
      have hmem := List.sizeOf_lt_of_mem hv
      rw [Value.list.sizeOf_spec]
      omega
    | mapping entries =>
      refine mapping entries fun entry hentry => ih _ ?_ entry.2 rfl
      have hmem := List.sizeOf_lt_of_mem hentry
      have hpair : sizeOf entry = 1 + sizeOf entry.1 + sizeOf entry.2 := rfl
      rw [Value.mapping.sizeOf_spec]
      omega

/-! ### Values that equality treats alike -/

/-- The place on the line of a truth value or a number. -/
def place? : Value → Option Place
  | bool b => (numberOfBool b).place
  | number n => n.place
  | _ => none

/-- Whether a number is not-a-number. -/
def isNaN (n : Number) : Bool :=
  n == .binary .nan

/-- There is no not-a-number in the value and no mapping in it has two entries with one key, at
any depth. -/
structure IsComparable (v : Value) : Prop where
  unique : v.hasUniqueKeys = true
  numeric : v.anyNumber isNaN = false

variable {u v w : Value}

/-- The items of a list have unique keys (`Value.hasUniqueKeys`) if each of them has. -/
theorem hasUniqueKeysInItems_iff {items : List Value} :
    hasUniqueKeysInItems items = true ↔ ∀ v ∈ items, v.hasUniqueKeys = true := by
  induction items with
  | nil => exact iff_of_true rfl (by simp)
  | cons v rest ih => rw [hasUniqueKeysInItems, Bool.and_eq_true, ih, List.forall_mem_cons]

/-- No number in a list passes a test (`Value.anyNumber`) if none does in any item. -/
theorem anyNumberOfItems_eq_false_iff {test : Number → Bool} {items : List Value} :
    anyNumberOfItems test items = false ↔ ∀ v ∈ items, v.anyNumber test = false := by
  induction items with
  | nil => exact iff_of_true rfl (by simp)
  | cons v rest ih => rw [anyNumberOfItems, Bool.or_eq_false_iff, ih, List.forall_mem_cons]

/-- No number in a mapping passes a test if none does in any entry. -/
theorem anyNumberOfEntries_eq_false_iff {test : Number → Bool} {entries : Entries} :
    anyNumberOfEntries test entries = false
      ↔ ∀ entry ∈ entries, entry.2.anyNumber test = false := by
  induction entries with
  | nil => exact iff_of_true rfl (by simp)
  | cons entry rest ih => rw [anyNumberOfEntries, Bool.or_eq_false_iff, ih, List.forall_mem_cons]

/-- A mapping has unique keys if no key is entered twice and what is entered has unique keys. -/
theorem hasUniqueKeys_mapping_iff {entries : Entries} :
    (mapping entries).hasUniqueKeys = true ↔ (entries.map Prod.fst).Nodup
      ∧ ∀ entry ∈ entries, entry.2.hasUniqueKeys = true := by
  rw [hasUniqueKeys, Bool.and_eq_true, decide_eq_true_iff, hasUniqueKeysInEntries_eq_all,
    List.all_eq_true]

theorem IsComparable.of_mem_items {items : List Value} (h : (list items).IsComparable)
    (hv : v ∈ items) : v.IsComparable :=
  ⟨hasUniqueKeysInItems_iff.1 h.unique v hv, anyNumberOfItems_eq_false_iff.1 h.numeric v hv⟩

/-- The values in a comparable mapping are comparable. -/
theorem IsComparable.of_mem_entries {entries : Entries} (h : (mapping entries).IsComparable)
    {entry : String × Value} (hentry : entry ∈ entries) : entry.2.IsComparable :=
  ⟨(hasUniqueKeys_mapping_iff.1 h.unique).2 entry hentry,
    anyNumberOfEntries_eq_false_iff.1 h.numeric entry hentry⟩

/-- A comparable number has an exact value (`Number.exactValue?`), as it is not a not-a-number. -/
theorem IsComparable.exists_exactValue? {n : Number} (h : (number n).IsComparable) :
    ∃ a, n.exactValue? = some a := by
  have hne : n ≠ .binary .nan := by simpa [anyNumber, isNaN] using h.numeric
  rw [← Option.isSome_iff_exists, Number.exactValue?_eq, Option.isSome_map]
  exact Number.isSome_place_iff.2 hne

/-! ### Equality by parts -/

/-- Truth values are compared as the numbers one and zero. -/
theorem equal_bool_bool (a b : Bool) :
    (bool a).equal (bool b) = (numberOfBool a).same (numberOfBool b) := by
  cases a <;> cases b <;> decide +kernel

/-- Equality with a truth value or a number is equality of places (`Value.place?`). -/
theorem equal_iff_of_place? {p : Place} (hu : u.place? = some p) :
    u.equal v = true ↔ v.place? = some p := by
  cases u with
  | bool a =>
    rw [place?] at hu
    cases v with
    | bool b => rw [equal_bool_bool, Number.same_iff_of_place hu, place?]
    | number n => rw [equal, Number.same_iff_of_place hu, place?]
    | _ => simp [equal, place?]
  | number m =>
    cases v with
    | bool b => rw [equal, Number.same_iff_of_place hu, place?]
    | number n => rw [equal, Number.same_iff_of_place hu, place?]
    | _ => simp [equal, place?]
  | _ => cases hu

theorem equal_null_iff : null.equal v = true ↔ v = null := by
  cases v <;> simp [equal]

/-- Only the same text is equal to a text. -/
theorem equal_text_iff {s : String} : (text s).equal v = true ↔ v = text s := by
  cases v with
  | text t =>
    rw [equal, beq_iff_eq, text.injEq]
    exact eq_comm
  | _ => simp [equal]

/-- Lists are equal if their items are, one by one. Induction along the first list, the other one
general. -/
theorem equalItems_iff {xs ys : List Value} :
    equalItems xs ys = true ↔ List.Forall₂ (fun x y => x.equal y = true) xs ys := by
  induction xs generalizing ys with
  | nil => cases ys <;> simp [equalItems]
  | cons x xs ih => cases ys <;> simp [equalItems, ih]

/-- Lists are equal if their items are, place by place. -/
theorem equal_list_iff {xs : List Value} : (list xs).equal v = true
    ↔ ∃ ys, v = list ys ∧ List.Forall₂ (fun x y => x.equal y = true) xs ys := by
  cases v <;> simp [equal, equalItems_iff]

/-- Mappings are equal if they have as many entries, and every entry of the first has an equal value
under its key in the second. -/
theorem equal_mapping_iff {xs : Entries} : (mapping xs).equal v = true
    ↔ ∃ ys : Entries, v = mapping ys ∧ xs.length = ys.length
      ∧ ∀ entry ∈ xs, ∃ y, ys.get? entry.1 = some y ∧ entry.2.equal y = true := by
  cases v <;> simp [equal, equalEntries_eq_all, Option.any_eq_true]

/-! ### The laws of equality -/

/-- A number that equals something has a place, because only not-a-number has none and it equals
nothing. -/
theorem exists_place?_of_equal {n : Number} (h : (number n).equal v = true) :
    ∃ p, (number n).place? = some p := by
  rw [place?]
  by_contra hnone
  have hplace : n.place = none := Option.eq_none_iff_forall_ne_some.2 fun p hp => hnone ⟨p, hp⟩
  cases v <;> simp [equal, Number.same, hplace] at h

/-- Equality is transitive from a truth value or a number on, because it compares places on the line
of numbers. -/
theorem equal_trans_of_place? {p : Place} (hu : u.place? = some p) (huv : u.equal v = true)
    (hvw : v.equal w = true) : u.equal w = true := by
  have hv := (equal_iff_of_place? hu).1 huv
  have hw := (equal_iff_of_place? hv).1 hvw
  exact (equal_iff_of_place? hu).2 hw

/-- Equality is symmetric from a truth value or a number on, for the same reason as in
`equal_trans_of_place?`. -/
theorem equal_symm_of_place? {p : Place} (hu : u.place? = some p) (huv : u.equal v = true) :
    v.equal u = true := by
  have hv := (equal_iff_of_place? hu).1 huv
  exact (equal_iff_of_place? hv).2 hu

/-- Lists are related transitively, place by place, if the items of the first are. This is the step
for lists of `Value.equal_trans`. -/
theorem forall₂_trans_of_mem {α : Type} {R : α → α → Prop} {xs ys zs : List α}
    (hxy : List.Forall₂ R xs ys) (hyz : List.Forall₂ R ys zs)
    (htrans : ∀ x ∈ xs, ∀ y z, R x y → R y z → R x z) : List.Forall₂ R xs zs := by
  induction hxy generalizing zs with
  | nil => exact hyz
  | cons hhead _ ih =>
    cases hyz with
    | cons hhead' htail =>
      rw [List.forall_mem_cons] at htrans
      exact .cons (htrans.1 _ _ hhead hhead') (ih htail htrans.2)

/-- A relation of lists, place by place, is turned around if it can be for the items. This is the
step for lists of `Value.equal_symm`. -/
theorem forall₂_symm_of_mem {α : Type} {R : α → α → Prop} {xs ys : List α}
    (hxy : List.Forall₂ R xs ys) (hsymm : ∀ x ∈ xs, ∀ y ∈ ys, R x y → R y x) :
    List.Forall₂ R ys xs := by
  induction hxy with
  | nil => exact .nil
  | cons hhead _ ih =>
    refine .cons (hsymm _ List.mem_cons_self _ List.mem_cons_self hhead) (ih fun x hx y hy => ?_)
    exact hsymm x (List.mem_cons_of_mem _ hx) y (List.mem_cons_of_mem _ hy)

/-- **Values that are equal to one value are equal.** Induction on the first of them with
`Value.induction`; an entry of it leads to the entry of the second under its key, and from there to
that of the third. -/
theorem equal_trans (huv : u.equal v = true) (hvw : v.equal w = true) : u.equal w = true := by
  induction u using induction generalizing v w with
  | null =>
    obtain rfl := equal_null_iff.1 huv
    exact hvw
  | bool b => exact equal_trans_of_place? rfl huv hvw
  | number n =>
    obtain ⟨p, hp⟩ := exists_place?_of_equal huv
    exact equal_trans_of_place? hp huv hvw
  | text s =>
    obtain rfl := equal_text_iff.1 huv
    exact hvw
  | list xs ih =>
    obtain ⟨ys, rfl, hxy⟩ := equal_list_iff.1 huv
    obtain ⟨zs, rfl, hyz⟩ := equal_list_iff.1 hvw
    exact equal_list_iff.2 ⟨zs, rfl, forall₂_trans_of_mem hxy hyz fun x hx _ _ => ih x hx⟩
  | mapping xs ih =>
    obtain ⟨ys, rfl, hlength, hxy⟩ := equal_mapping_iff.1 huv
    obtain ⟨zs, rfl, hlength', hyz⟩ := equal_mapping_iff.1 hvw
    refine equal_mapping_iff.2 ⟨zs, rfl, hlength.trans hlength', fun entry hentry => ?_⟩
    obtain ⟨y, hy, hequal⟩ := hxy entry hentry
    obtain ⟨z, hz, hequal'⟩ := hyz (entry.1, y) (Entries.mem_of_get? hy)
    exact ⟨z, hz, ih entry hentry hequal hequal'⟩

/-- Where no two entries of one mapping have one key, a mapping with as many entries that has all
its keys has no others. So a search for the keys of one is as good as a search for those of the
other. -/
theorem exists_get?_of_length_eq {xs ys : Entries} (hnodup : (xs.map Prod.fst).Nodup)
    (hlength : xs.length = ys.length)
    (hkeys : ∀ entry ∈ xs, ∃ y, ys.get? entry.1 = some y) {entry : String × Value}
    (hentry : entry ∈ ys) : ∃ x, xs.get? entry.1 = some x := by
  have hsubset : xs.map Prod.fst ⊆ ys.map Prod.fst := by
    intro key hkey
    obtain ⟨e, he, rfl⟩ := List.mem_map.1 hkey
    obtain ⟨y, hy⟩ := hkeys e he
    exact List.mem_map.2 ⟨_, Entries.mem_of_get? hy, rfl⟩
  have hperm : (xs.map Prod.fst).Perm (ys.map Prod.fst) :=
    (hnodup.subperm hsubset).perm_of_length_le (by simp [hlength])
  have hmem : entry.1 ∈ xs.map Prod.fst := hperm.mem_iff.2 (List.mem_map_of_mem hentry)
  rw [← Option.isSome_iff_exists, ← Option.ne_none_iff_isSome]
  exact fun hnone => Entries.get?_eq_none_iff.1 hnone hmem

/-- **Equality is symmetric where no two entries of one mapping have one key.** Induction on the
first value; for mappings `exists_get?_of_length_eq` turns the search for keys around. -/
theorem equal_symm (hu : u.hasUniqueKeys = true) (hv : v.hasUniqueKeys = true)
    (huv : u.equal v = true) : v.equal u = true := by
  induction u using induction generalizing v with
  | null =>
    obtain rfl := equal_null_iff.1 huv
    exact huv
  | bool b => exact equal_symm_of_place? rfl huv
  | number n =>
    obtain ⟨p, hp⟩ := exists_place?_of_equal huv
    exact equal_symm_of_place? hp huv
  | text s =>
    obtain rfl := equal_text_iff.1 huv
    exact huv
  | list xs ih =>
    obtain ⟨ys, rfl, hxy⟩ := equal_list_iff.1 huv
    refine equal_list_iff.2 ⟨xs, rfl, forall₂_symm_of_mem hxy fun x hx y hy hequal => ?_⟩
    exact ih x hx (hasUniqueKeysInItems_iff.1 hu x hx) (hasUniqueKeysInItems_iff.1 hv y hy) hequal
  | mapping xs ih =>
    obtain ⟨ys, rfl, hlength, hxy⟩ := equal_mapping_iff.1 huv
    obtain ⟨hnodup, hunique⟩ := hasUniqueKeys_mapping_iff.1 hu
    obtain ⟨hnodup', hunique'⟩ := hasUniqueKeys_mapping_iff.1 hv
    refine equal_mapping_iff.2 ⟨xs, rfl, hlength.symm, fun entry hentry => ?_⟩
    obtain ⟨x, hx⟩ := exists_get?_of_length_eq hnodup hlength
      (fun e he => (hxy e he).imp fun _ h => h.1) hentry
    have hmem := Entries.mem_of_get? hx
    obtain ⟨y, hy, hequal⟩ := hxy _ hmem
    obtain rfl : entry.2 = y :=
      Option.some.inj (((Entries.get?_eq_some_iff hnodup').2 hentry).symm.trans hy)
    exact ⟨x, hx, ih _ hmem (hunique _ hmem) (hunique' _ hentry) hequal⟩

/-- **A comparable value equals itself.** Induction on the value; a number has a place, since it is
not a not-a-number. -/
theorem equal_refl (h : u.IsComparable) : u.equal u = true := by
  induction u using induction with
  | null => rfl
  | bool b => exact (equal_iff_of_place? rfl).2 rfl
  | number n =>
    obtain ⟨a, ha⟩ := h.exists_exactValue?
    obtain ⟨p, hp, -⟩ := Number.exists_place_of_exactValue? ha
    have hplace : (number n).place? = some p := hp
    exact (equal_iff_of_place? hplace).2 hplace
  | text s => exact equal_text_iff.2 rfl
  | list xs ih =>
    exact equal_list_iff.2 ⟨xs, rfl, List.forall₂_same.2 fun v hv => ih v hv (h.of_mem_items hv)⟩
  | mapping xs ih =>
    refine equal_mapping_iff.2 ⟨xs, rfl, rfl, fun entry hentry => ?_⟩
    have hnodup := (hasUniqueKeys_mapping_iff.1 h.unique).1
    exact ⟨entry.2, (Entries.get?_eq_some_iff hnodup).2 hentry,
      ih entry hentry (h.of_mem_entries hentry)⟩

end Value

end Templating
