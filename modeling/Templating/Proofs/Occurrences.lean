import Mathlib.Data.List.Perm.Basic

/-!
# Lists of what occurs

What occurs in a text can be listed: each thing once, in the order of the places where the things
occur first. There is one such list at most. Everything that occurs, taken in the order of the
places and without repetitions, is that list.

## Main definitions

* `ListsFirst`: a list has what occurs, each once, in the order of first occurrences.
* `placed`: what items name, with the places of the items.

## Main results

* `ListsFirst.unique`: there is one such list at most.
* `ListsFirst.filter`: the list of some of what occurs.
* `ListsFirst.cons`, `ListsFirst.concat`: the list with what occurs before or behind all else.
* `listsFirst_eraseDups`: everything that occurs, without repetitions.
* `listsFirst_filterMap`: the same for what items name.
-/

namespace Templating

variable {α : Type} {OccursAt : α → Nat → Prop} {listed listed' : List α}

/-- The list has what occurs at some place, each thing once; and what stands earlier in the list
occurs at a place before all places of what stands later. -/
structure ListsFirst (OccursAt : α → Nat → Prop) (listed : List α) : Prop where
  nodup : listed.Nodup
  mem_iff : ∀ x, x ∈ listed ↔ ∃ p, OccursAt x p
  order : listed.Pairwise fun x y => ∃ p, OccursAt x p ∧ ∀ q, OccursAt y q → p < q

namespace ListsFirst

/-- **There is one list of what occurs at most.** Two such lists have the same items, and `order`
puts these in one order only. -/
theorem unique (h : ListsFirst OccursAt listed) (h' : ListsFirst OccursAt listed') :
    listed = listed' := by
  have hperm : listed.Perm listed' := by
    rw [List.perm_ext_iff_of_nodup h.nodup h'.nodup]
    exact fun x => (h.mem_iff x).trans (h'.mem_iff x).symm
  refine hperm.eq_of_pairwise ?_ h.order h'.order
  rintro x y - - ⟨p, hp, hbefore⟩ ⟨q, hq, hbefore'⟩
  exact absurd (hbefore q hq) (Nat.lt_asymm (hbefore' p hp))

/-- A list is the list of what occurs if and only if it is a given one. -/
theorem iff_eq (h : ListsFirst OccursAt listed) (listed' : List α) :
    ListsFirst OccursAt listed' ↔ listed' = listed :=
  ⟨fun h' => h'.unique h, fun heq => heq ▸ h⟩

/-- Only where things occur matters, not how it is put. -/
theorem congr {OccursAt' : α → Nat → Prop} (h : ListsFirst OccursAt listed)
    (hsame : ∀ x p, OccursAt x p ↔ OccursAt' x p) : ListsFirst OccursAt' listed := by
  obtain rfl : OccursAt = OccursAt' := funext₂ fun x p => propext (hsame x p)
  exact h

/-- Some of what occurs stands in the same order. -/
theorem filter (h : ListsFirst OccursAt listed) (keep : α → Bool) :
    ListsFirst (fun x p => OccursAt x p ∧ keep x = true) (listed.filter keep) := by
  refine ⟨h.nodup.filter keep, fun x => ?_, List.pairwise_filter.2 (h.order.imp ?_)⟩
  · rw [List.mem_filter, h.mem_iff, exists_and_right]
  · rintro x y ⟨p, hp, hbefore⟩ hx -
    exact ⟨p, ⟨hp, hx⟩, fun q hq => hbefore q hq.1⟩

/-- What occurs first of all stands in front of what occurs besides. -/
theorem cons {x : α} {p : Nat} (hx : OccursAt x p)
    (hfirst : ∀ y q, OccursAt y q → y ≠ x → p < q)
    (h : ListsFirst (fun y q => OccursAt y q ∧ y ≠ x) listed) :
    ListsFirst OccursAt (x :: listed) := by
  have hother : ∀ y ∈ listed, y ≠ x := fun y hy => ((h.mem_iff y).1 hy).choose_spec.2
  refine ⟨List.nodup_cons.2 ⟨fun hmem => hother x hmem rfl, h.nodup⟩, fun y => ?_,
    List.pairwise_cons.2 ⟨fun y hy => ⟨p, hx, fun q hq => hfirst y q hq (hother y hy)⟩, ?_⟩⟩
  · rw [List.mem_cons, h.mem_iff, exists_and_right]
    by_cases hy : y = x
    · exact iff_of_true (.inl hy) ⟨p, hy ▸ hx⟩
    · rw [or_iff_right hy, and_iff_left hy]
  · refine h.order.imp_of_mem ?_
    rintro y z - hz ⟨r, hr, hbefore⟩
    exact ⟨r, hr.1, fun q hq => hbefore q ⟨hq, hother z hz⟩⟩

/-- What occurs behind everything else stands at the end of the list, if it is new; otherwise the
list stays as it is. -/
theorem concat [DecidableEq α] (h : ListsFirst OccursAt listed) {a : α} {n : Nat}
    (hbehind : ∀ x p, OccursAt x p → p < n) :
    ListsFirst (fun x p => OccursAt x p ∨ x = a ∧ p = n)
      (if a ∈ listed then listed else listed ++ [a]) := by
  have hsame {x y : α} (hxy : ∃ p, OccursAt x p ∧ ∀ q, OccursAt y q → p < q) :
      ∃ p, (OccursAt x p ∨ x = a ∧ p = n) ∧ ∀ q, OccursAt y q ∨ y = a ∧ q = n → p < q := by
    obtain ⟨p, hp, hbefore⟩ := hxy
    refine ⟨p, .inl hp, fun q hq => ?_⟩
    rcases hq with hq | ⟨-, rfl⟩
    · exact hbefore q hq
    · exact hbehind x p hp
  have hoccurs (x : α) : (∃ p, OccursAt x p ∨ x = a ∧ p = n) ↔ x ∈ listed ∨ x = a := by
    rw [exists_or, ← h.mem_iff, exists_and_left, and_iff_left ⟨n, rfl⟩]
  split
  · next hmem =>
    refine ⟨h.nodup, fun x => ?_, h.order.imp hsame⟩
    rw [hoccurs, or_iff_left_of_imp]
    rintro rfl
    exact hmem
  · next hnew =>
    have hother : ∀ x ∈ listed, ∀ y ∈ [a], x ≠ y := by
      rintro x hx y hy rfl
      exact hnew (List.mem_singleton.1 hy ▸ hx)
    refine ⟨List.nodup_append.2 ⟨h.nodup, List.pairwise_singleton _ a, hother⟩, fun x => ?_,
      List.pairwise_append.2 ⟨h.order.imp hsame, List.pairwise_singleton _ a, ?_⟩⟩
    · rw [hoccurs, List.mem_append, List.mem_singleton]
    · intro x hx y hy
      obtain rfl := List.mem_singleton.1 hy
      obtain ⟨p, hp⟩ := (h.mem_iff x).1 hx
      refine ⟨p, .inl hp, fun q hq => ?_⟩
      rcases hq with hq | ⟨-, rfl⟩
      · exact absurd ((h.mem_iff y).2 ⟨q, hq⟩) hnew
      · exact hbehind x p hp

end ListsFirst

/-- **Everything that occurs, in the order of the places and without repetitions**, is the list of
what occurs. Induction on the number of occurrences, since `List.eraseDups` drops the repetitions of
the first one from the rest. -/
theorem listsFirst_eraseDups [BEq α] [LawfulBEq α] {occurrences : List (α × Nat)}
    (h : occurrences.Pairwise fun o o' => o.2 < o'.2) :
    ListsFirst (fun x p => (x, p) ∈ occurrences) (occurrences.map Prod.fst).eraseDups := by
  match occurrences with
  | [] => exact ⟨.nil, fun x => by simp, .nil⟩
  | (x, p) :: rest =>
    obtain ⟨hfirst, hrest⟩ := List.pairwise_cons.1 h
    have hothers := listsFirst_eraseDups (hrest.filter fun o => !o.1 == x)
    rw [List.map_cons, List.eraseDups_cons, List.filter_map]
    refine .cons List.mem_cons_self (fun y q hq hy => ?_) (hothers.congr fun y q => ?_)
    · exact hfirst (y, q) ((List.mem_cons.1 hq).resolve_left fun heq => hy (Prod.mk.inj heq).1)
    · rw [List.mem_filter, List.mem_cons, Bool.not_eq_true', beq_eq_false_iff_ne]
      refine and_congr_left fun hy => (or_iff_right fun heq => hy (Prod.mk.inj heq).1).symm
termination_by occurrences.length
decreasing_by exact Nat.lt_succ_of_le (List.length_filter_le _ _)

/-! ### Things that have a place -/

section Placed

variable {ι : Type} (name? : ι → Option α) (place : ι → Nat)

/-- What some of the items name, with the places of the items. -/
def placed (items : List ι) : List (α × Nat) :=
  items.filterMap fun i => (name? i).map fun x => (x, place i)

variable {name? place} {items : List ι}

/-- `placed` names what the items name, in their order. -/
theorem map_fst_placed : (placed name? place items).map Prod.fst = items.filterMap name? := by
  rw [placed, List.map_filterMap]
  refine List.filterMap_congr fun i _ => ?_
  cases name? i <;> rfl

/-- What stands in `placed` is named by some item, at the place of that item. -/
theorem mem_placed_iff {x : α} {p : Nat} :
    (x, p) ∈ placed name? place items ↔ ∃ i ∈ items, name? i = some x ∧ place i = p := by
  rw [placed, List.mem_filterMap]
  refine exists_congr fun i => and_congr_right fun _ => ?_
  rw [Option.map_eq_some_iff]
  constructor
  · rintro ⟨_, hname, ⟨⟩⟩
    exact ⟨hname, rfl⟩
  · rintro ⟨hname, rfl⟩
    exact ⟨x, hname, rfl⟩

/-- Items that stand one behind the other name things at places that do. -/
theorem pairwise_placed (h : items.Pairwise fun i j => place i < place j) :
    (placed name? place items).Pairwise fun o o' => o.2 < o'.2 := by
  refine List.pairwise_filterMap.2 (h.imp ?_)
  intro i j hlt o ho o' ho'
  obtain ⟨_, -, rfl⟩ := Option.map_eq_some_iff.1 ho
  obtain ⟨_, -, rfl⟩ := Option.map_eq_some_iff.1 ho'
  exact hlt

/-- What items name that stand one behind the other, without repetitions, is the list of what they
name: `listsFirst_eraseDups` for `placed`. -/
theorem listsFirst_filterMap [BEq α] [LawfulBEq α]
    (h : items.Pairwise fun i j => place i < place j) :
    ListsFirst (fun x p => ∃ i ∈ items, name? i = some x ∧ place i = p)
      (items.filterMap name?).eraseDups := by
  have hplaced : (placed name? place items).Pairwise fun o o' => o.2 < o'.2 := pairwise_placed h
  have hlists := listsFirst_eraseDups hplaced
  rw [map_fst_placed] at hlists
  exact hlists.congr fun x p => mem_placed_iff

end Placed

end Templating
