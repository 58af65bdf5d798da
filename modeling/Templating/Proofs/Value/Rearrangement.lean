import Mathlib.Data.List.Forall2
import Templating.Proofs.Value.EntryOrder

/-!
# Rearranged values

A value is rearranged by putting the entries of its mappings, at any depth, in another order. All
else stays: the kinds of values, so that a truth value is no number and an integer no floating
point number, the sign of a zero, and the order of the items of lists. A canonical form tells a
value up to this.

## Main definitions

* `Value.Rearranges`: two values differ at most in the order of entries.

## Main results

* `Value.rearranges_of_canonical_eq`: values with the same canonical form are rearranged.
* `Value.canonical_eq_of_rearranges`: rearranged values have the same canonical form.
-/

namespace Templating.Value

mutual

/-- Two values differ at most in the order of the entries of mappings, at any depth. -/
inductive Rearranges : Value → Value → Prop
  | null : Rearranges null null
  | bool (b : Bool) : Rearranges (bool b) (bool b)
  | number (n : Number) : Rearranges (number n) (number n)
  | text (s : String) : Rearranges (text s) (text s)
  | list {items items' : List Value} (h : RearrangesItems items items') :
    Rearranges (list items) (list items')
  | mapping {entries entries' rearranged : List (String × Value)}
      (h : RearrangesEntries entries rearranged) (hperm : rearranged.Perm entries') :
    Rearranges (mapping entries) (mapping entries')

/-- The items in equal places differ at most in the order of entries. -/
inductive RearrangesItems : List Value → List Value → Prop
  | nil : RearrangesItems [] []
  | cons {v w : Value} {items items' : List Value} (h : Rearranges v w)
      (hrest : RearrangesItems items items') : RearrangesItems (v :: items) (w :: items')

/-- The entries in equal places have the same key and values that differ at most in the order of
entries. -/
inductive RearrangesEntries : List (String × Value) → List (String × Value) → Prop
  | nil : RearrangesEntries [] []
  | cons (key : String) {v w : Value} {entries entries' : List (String × Value)}
      (h : Rearranges v w) (hrest : RearrangesEntries entries entries') :
    RearrangesEntries ((key, v) :: entries) ((key, w) :: entries')

end

/-- Where entries are the same after a function, in another order, the first ones are the second
ones in this order. -/
theorem exists_perm_of_map_perm_map {α β : Type} {f : α → β} {xs ys : List α}
    (h : (xs.map f).Perm (ys.map f)) : ∃ zs : List α, zs.Perm ys ∧ xs.map f = zs.map f := by
  have hsame : List.Forall₂ (fun b a => b = f a) (ys.map f) ys :=
    List.forall₂_map_left_iff.2 (List.forall₂_same.2 fun _ _ => rfl)
  obtain ⟨zs, hzs, hperm⟩ := List.perm_comp_forall₂ h hsame
  refine ⟨zs, hperm, ?_⟩
  rwa [← List.forall₂_map_right_iff, List.forall₂_eq_eq_eq] at hzs

mutual

/-- **Values with the same canonical form differ at most in the order of entries.** Mutual induction
with items and entries; sorting the entries is undone by `exists_perm_of_map_perm_map`. -/
theorem rearranges_of_canonical_eq : ∀ {v w : Value}, v.canonical = w.canonical → Rearranges v w
  | null, w, h => by cases w <;> cases h; exact .null
  | bool b, w, h => by cases w <;> cases h; exact .bool b
  | number n, w, h => by cases w <;> cases h; exact .number n
  | text s, w, h => by cases w <;> cases h; exact .text s
  | list items, w, h => by
    cases w with
    | list items' =>
      rw [canonical, canonical, list.injEq] at h
      exact .list (rearrangesItems_of_canonicalItems_eq h)
    | _ => cases h
  | mapping entries, w, h => by
    cases w with
    | mapping entries' =>
      rw [canonical, canonical, mapping.injEq] at h
      have hperm : (canonicalEntries entries).Perm (canonicalEntries entries') := by
        have hsorted := Entries.sorted_perm (canonicalEntries entries)
        rw [h] at hsorted
        exact hsorted.symm.trans (Entries.sorted_perm _)
      rw [canonicalEntries_eq_map, canonicalEntries_eq_map] at hperm
      obtain ⟨rearranged, hrearranged, hsame⟩ := exists_perm_of_map_perm_map hperm
      rw [← canonicalEntries_eq_map, ← canonicalEntries_eq_map] at hsame
      exact .mapping (rearrangesEntries_of_canonicalEntries_eq hsame) hrearranged
    | _ => cases h

/-- The part of `rearranges_of_canonical_eq` for the items of a list. -/
theorem rearrangesItems_of_canonicalItems_eq : ∀ {items items' : List Value},
    canonicalItems items = canonicalItems items' → RearrangesItems items items'
  | [], [], _ => .nil
  | [], _ :: _, h => by cases h
  | _ :: _, [], h => by cases h
  | v :: items, w :: items', h => by
    rw [canonicalItems, canonicalItems, List.cons.injEq] at h
    exact .cons (rearranges_of_canonical_eq h.1) (rearrangesItems_of_canonicalItems_eq h.2)

/-- The part of `rearranges_of_canonical_eq` for the entries of a mapping. -/
theorem rearrangesEntries_of_canonicalEntries_eq : ∀ {entries entries' : List (String × Value)},
    canonicalEntries entries = canonicalEntries entries' → RearrangesEntries entries entries'
  | [], [], _ => .nil
  | [], _ :: _, h => by cases h
  | _ :: _, [], h => by cases h
  | (key, v) :: entries, (key', w) :: entries', h => by
    rw [canonicalEntries, canonicalEntries, List.cons.injEq, Prod.mk.injEq] at h
    obtain ⟨⟨rfl, hvalue⟩, hrest⟩ := h
    exact .cons key (rearranges_of_canonical_eq hvalue)
      (rearrangesEntries_of_canonicalEntries_eq hrest)

end

mutual

/-- **Rearranged values have the same canonical form.** Where no key is entered twice,
`Value.canonical` sorts entries in any order to the same list. -/
theorem canonical_eq_of_rearranges : ∀ {v w : Value}, v.hasUniqueKeys = true → Rearranges v w →
    v.canonical = w.canonical
  | null, _, _, .null => rfl
  | bool _, _, _, .bool _ => rfl
  | number _, _, _, .number _ => rfl
  | text _, _, _, .text _ => rfl
  | list items, _, hunique, .list h => congrArg list (canonicalItems_eq_of_rearranges hunique h)
  | mapping entries, _, hunique, @Rearranges.mapping _ _ rearranged h hperm => by
    rw [hasUniqueKeys, Bool.and_eq_true, decide_eq_true_eq] at hunique
    have hsame := canonicalEntries_eq_of_rearranges hunique.2 h
    have hnodup : ((canonicalEntries rearranged).map Prod.fst).Nodup := by
      rw [← hsame, map_fst_canonicalEntries]
      exact hunique.1
    rw [canonical, canonical, hsame, mapping.injEq]
    refine Entries.sorted_eq_of_perm ?_ hnodup
    rw [canonicalEntries_eq_map, canonicalEntries_eq_map]
    exact hperm.map _

/-- The part of `canonical_eq_of_rearranges` for the items of a list. -/
theorem canonicalItems_eq_of_rearranges : ∀ {items items' : List Value},
    hasUniqueKeysInItems items = true → RearrangesItems items items' →
    canonicalItems items = canonicalItems items'
  | [], _, _, .nil => rfl
  | v :: items, _, hunique, .cons h hrest => by
    rw [hasUniqueKeysInItems, Bool.and_eq_true] at hunique
    rw [canonicalItems, canonicalItems, canonical_eq_of_rearranges hunique.1 h,
      canonicalItems_eq_of_rearranges hunique.2 hrest]

/-- The part of `canonical_eq_of_rearranges` for the entries of a mapping. -/
theorem canonicalEntries_eq_of_rearranges : ∀ {entries entries' : List (String × Value)},
    hasUniqueKeysInEntries entries = true → RearrangesEntries entries entries' →
    canonicalEntries entries = canonicalEntries entries'
  | [], _, _, .nil => rfl
  | (key, v) :: entries, _, hunique, .cons _ h hrest => by
    rw [hasUniqueKeysInEntries, Bool.and_eq_true] at hunique
    rw [canonicalEntries, canonicalEntries, canonical_eq_of_rearranges hunique.1 h,
      canonicalEntries_eq_of_rearranges hunique.2 hrest]

end

end Templating.Value
