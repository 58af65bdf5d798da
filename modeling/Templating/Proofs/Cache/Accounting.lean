import Templating.Proofs.Cache.History

/-!
# The accounts of a cache

A cache counts the searches that found a text, those that found none, and the entries that gave
way to new ones. What single operations contribute is added up along a history, read off the
operations and their answers and not off the counters. The counters agree with these sums, and the
entries balance: an entry that was added is still there, or it gave way, or it was dropped on
demand, as too old, or with all others. A text that is stored makes at most one entry give way,
since the entries were within the bound before.

## Main definitions

* `Cache.total`: what a measure of operations adds up to over a history.
* `Cache.searches`, `Cache.finds`, `Cache.additions`, `Cache.invalidations`, `Cache.expiries`,
  `Cache.clearings`: what an operation contributes.
* `Cache.IsBalanced`: the counters and the entries agree with a history.
* `Cache.DisplacesAtMostOne`: what storing a text does to the other entries.

## Main results

* `Cache.size_perform`: what one operation does to the number of entries.
* `Cache.isBalanced_after`: the accounts balance after every history.
* `Cache.displacesAtMostOne`: storing a text into a cache that is within its bound.
* `Cache.accounts_after_history`: both, with the bound on the number of entries.
-/

namespace Templating.Cache

variable {Time Span : Type}

/-! ### The number of entries -/

/-- The entries are no more than the cache may hold. A cache without `maxSize` may hold any
number. -/
def IsWithinBound (c : Cache Time Span) : Prop :=
  ∀ bound ∈ c.maxSize, c.size ≤ bound

/-- Storing a text makes at most one of the other entries give way, the least recently used one,
which stands first in `entries`, and counts it as an eviction. -/
def DisplacesAtMostOne (c : Cache Time Span) (now : Time) (key content : String) : Prop :=
  ∃ displaced : List (CacheEntry Time), displaced.length ≤ 1 ∧ (∀ e ∈ displaced, e.key ≠ key)
    ∧ displaced ++ (c.set now key content).entries = c.others key ++ [⟨key, content, now⟩]
    ∧ (c.set now key content).evictions = c.evictions + displaced.length

/-- Where keys are different, only the entry under a key is missing from `others`. -/
theorem length_others {c : Cache Time Span} (hnodup : c.keys.Nodup) (key : String) :
    (c.others key).length + (c.entry? key).isSome.toNat = c.size := by
  have hcount : (c.entries.filter fun e => e.key == key).length = c.keys.count key := by
    rw [← List.countP_eq_length_filter, keys, List.count, List.countP_map]
    rfl
  have hunder : c.keys.count key = (c.entry? key).isSome.toNat := by
    rw [hnodup.count]
    cases hfound : c.entry? key with
    | none =>
      have habsent : key ∉ c.keys := by
        intro hmem
        obtain ⟨e, he, rfl⟩ := List.mem_map.1 hmem
        exact List.find?_eq_none.1 hfound e he (beq_self_eq_true e.key)
      exact if_neg habsent
    | some e => exact if_pos (List.mem_map.2 ⟨e, entry?_mem hfound, entry?_key hfound⟩)
  have hsplit := List.length_eq_length_filter_add (l := c.entries) fun e => e.key == key
  rw [hcount, hunder] at hsplit
  rw [size, hsplit, Nat.add_comm]
  rfl

/-- `excess` never drops more entries than there are. -/
theorem excess_le (c : Cache Time Span) (count : Nat) : c.excess count ≤ count := by
  rw [excess]
  split
  · exact Nat.zero_le _
  · exact Nat.sub_le _ _

/-- After a text is written there are the entries under other keys and the new one, less those that
`excess` drops. -/
theorem size_set (c : Cache Time Span) (now : Time) (key content : String) :
    (c.set now key content).size
      = (c.others key).length + 1 - c.excess ((c.others key).length + 1) := by
  rw [size, set, List.length_drop, List.length_append, List.length_singleton]

theorem evictions_set (c : Cache Time Span) (now : Time) (key content : String) :
    (c.set now key content).evictions
      = c.evictions + c.excess ((c.others key).length + 1) := by
  rw [set, List.length_append, List.length_singleton]

/-- **Storing a text into a cache that is within its bound makes at most one entry give way.** The
others are at most as many as the bound, so with the new entry there is at most one too many. -/
theorem displacesAtMostOne {c : Cache Time Span} (hwithin : c.IsWithinBound)
    (hpos : ∀ bound ∈ c.maxSize, 1 ≤ bound) (now : Time) (key content : String) :
    c.DisplacesAtMostOne now key content := by
  have hfilter : (c.others key).length ≤ c.size := List.length_filter_le _ _
  have hexcess : c.excess ((c.others key).length + 1) ≤ 1
      ∧ c.excess ((c.others key).length + 1) ≤ (c.others key).length := by
    rw [excess]
    cases hsize : c.maxSize with
    | none => exact ⟨Nat.zero_le _, Nat.zero_le _⟩
    | some bound =>
      have := hwithin bound hsize
      have := hpos bound hsize
      dsimp only
      omega
  have htake : ((c.others key).take (c.excess ((c.others key).length + 1))).length
      = c.excess ((c.others key).length + 1) := List.length_take_of_le hexcess.2
  refine ⟨(c.others key).take (c.excess ((c.others key).length + 1)), ?_, fun e he => ?_, ?_, ?_⟩
  · rw [htake]
    exact hexcess.1
  · exact (mem_others_iff.1 (List.mem_of_mem_take he)).2
  · rw [set, List.length_append, List.length_singleton,
      ← List.take_append_of_le_length hexcess.2]
    exact List.take_append_drop _ _
  · rw [evictions_set, htake]

section Histories

variable [Timeline Time Span]

theorem nodup_keys_after (maxSize : Option Nat) (lifetime : Option Span) (history : History Time) :
    ((empty maxSize lifetime : Cache Time Span).after history).keys.Nodup :=
  (inOrderOfUse_after maxSize lifetime history).nodup_keys

/-! ### What operations contribute -/

/-- What a measure of operations adds up to over a history, each operation measured on the cache as
it is then. -/
def total (measure : Cache Time Span → Time → Operation → Nat) (c : Cache Time Span) :
    History Time → Nat
  | [] => 0
  | (now, op) :: rest => measure c now op + total measure (c.perform now op) rest

/-- How many texts an operation asks for. Asking with `contains` is no search, since it counts
nothing. -/
def searches (_ : Cache Time Span) (_ : Time) : Operation → Nat
  | .get _ => 1
  | _ => 0

/-- How many texts an operation asks for and finds. -/
def finds (c : Cache Time Span) (now : Time) : Operation → Nat
  | .get key => (c.get now key).1.isSome.toNat
  | _ => 0

/-- How many entries an operation adds: one, if it stores a text under a key that has no entry,
however old. -/
def additions (c : Cache Time Span) (_ : Time) : Operation → Nat
  | .set key _ => (c.entry? key).isNone.toNat
  | _ => 0

/-- How many entries an operation drops on demand. -/
def invalidations (c : Cache Time Span) (_ : Time) : Operation → Nat
  | .invalidate key => (c.invalidate key).1.toNat
  | _ => 0

/-- How many entries an operation drops because they are too old. -/
def expiries (c : Cache Time Span) (now : Time) : Operation → Nat
  | .get key => ((c.entry? key).any (c.isExpired now)).toNat
  | _ => 0

/-- How many entries an operation drops by clearing the cache. -/
def clearings (c : Cache Time Span) (_ : Time) : Operation → Nat
  | .clear => c.size
  | _ => 0

/-- One more operation adds what it contributes from the state before it. -/
theorem total_append_singleton (measure : Cache Time Span → Time → Operation → Nat)
    (c : Cache Time Span) (history : History Time) (now : Time) (op : Operation) :
    c.total measure (history ++ [(now, op)])
      = c.total measure history + measure (c.after history) now op := by
  induction history generalizing c with
  | nil => exact Nat.add_comm _ _
  | cons event history ih =>
    obtain ⟨now', op'⟩ := event
    rw [List.cons_append, total, total, ih, Nat.add_assoc]
    rfl

/-! ### What one operation does to the accounts -/

/-- The searches that find a text are counted as hits, and nothing else is. The cases are the
operations. -/
theorem hits_perform (c : Cache Time Span) (now : Time) (op : Operation) :
    (c.perform now op).hits = c.hits + c.finds now op := by
  cases op with
  | get key =>
    rw [perform, finds, get]
    cases c.entry? key with
    | none => rfl
    | some e =>
      dsimp only
      split
      · rfl
      · rfl
  | _ => rfl

/-- Every search is counted as a hit or as a miss, and `contains` as neither. -/
theorem hits_add_misses_perform (c : Cache Time Span) (now : Time) (op : Operation) :
    (c.perform now op).hits + (c.perform now op).misses
      = c.hits + c.misses + c.searches now op := by
  cases op with
  | get key =>
    rw [perform, searches, get]
    cases c.entry? key with
    | none => rfl
    | some e =>
      dsimp only
      split
      · rfl
      · exact Nat.add_right_comm _ _ _
  | _ => rfl

/-- **What one operation does to the number of entries.** The entries that an operation adds are
there after it, unless they or others gave way or were dropped. -/
theorem size_perform {c : Cache Time Span} (hnodup : c.keys.Nodup) (now : Time) (op : Operation) :
    (c.perform now op).size + (c.perform now op).evictions
        + (c.invalidations now op + c.expiries now op + c.clearings now op)
      = c.size + c.evictions + c.additions now op := by
  cases op with
  | set key content =>
    -- Keys are unique, so leaving a key out takes one entry off if it is there (`length_others`).
    have hothers := length_others hnodup key
    have hexcess := c.excess_le ((c.others key).length + 1)
    have hnone : (c.entry? key).isSome.toNat + (c.entry? key).isNone.toNat = 1 := by
      cases c.entry? key <;> rfl
    change (c.set now key content).size + (c.set now key content).evictions + 0
      = c.size + c.evictions + (c.entry? key).isNone.toNat
    rw [size_set, evictions_set]
    omega
  | get key =>
    have hothers := length_others hnodup key
    change (c.get now key).2.size + (c.get now key).2.evictions
        + (0 + ((c.entry? key).any (c.isExpired now)).toNat + 0) = c.size + c.evictions + 0
    rw [get]
    cases he : c.entry? key with
    | none => rfl
    | some e =>
      rw [he, Option.isSome_some, Bool.toNat_true] at hothers
      rw [Option.any_some]
      dsimp only
      split
      · rename_i hage
        rw [hage, Bool.toNat_true]
        change (c.others key).length + c.evictions + _ = _
        omega
      · rename_i hage
        rw [Bool.eq_false_iff.2 hage, Bool.toNat_false]
        change (c.others key ++ [e]).length + c.evictions + _ = _
        rw [List.length_append, List.length_singleton]
        omega
  | contains key => rfl
  | invalidate key =>
    have hothers := length_others hnodup key
    change (c.others key).length + c.evictions + ((c.entry? key).isSome.toNat + 0 + 0)
      = c.size + c.evictions + 0
    omega
  | clear =>
    change 0 + c.evictions + (0 + 0 + c.size) = c.size + c.evictions + 0
    omega

/-! ### The bound -/

/-- An operation leaves no more entries than the cache may hold. The cases are the effects of
`Effect`, of which only storing adds an entry. -/
theorem Effect.length_le {c : Cache Time Span} {now : Time} {op : Operation}
    {entries : List (CacheEntry Time)} {key? : Option String} (h : Effect c now op entries key?)
    (hnodup : c.keys.Nodup) {bound : Nat} (hbound : c.maxSize = some bound)
    (hsize : c.size ≤ bound) : entries.length ≤ bound := by
  have hfilter (key : String) : (c.others key).length ≤ bound :=
    (List.length_filter_le _ _).trans hsize
  cases h with
  | stored key content =>
    rw [storedEntries, List.length_drop, List.length_append, List.length_singleton, excess, hbound]
    dsimp only
    omega
  | @found key e he _ =>
    have hothers := length_others hnodup key
    rw [he, Option.isSome_some, Bool.toNat_true] at hothers
    rw [List.length_append, List.length_singleton]
    omega
  | @expired key _ _ _ => exact hfilter key
  | missing _ => exact hsize
  | asked _ => exact hsize
  | dropped key => exact hfilter key
  | cleared => exact Nat.zero_le _

/-- The bound on the number of entries holds after any history. Induction from its end, with
`Effect.length_le` for the last operation. -/
theorem isWithinBound_after (maxSize : Option Nat) (lifetime : Option Span)
    (history : History Time) :
    ((empty maxSize lifetime : Cache Time Span).after history).IsWithinBound := by
  induction history using List.reverseRecOn with
  | nil => exact fun bound _ => Nat.zero_le bound
  | append_singleton history event ih =>
    obtain ⟨now, op⟩ := event
    rw [after_append_singleton]
    intro bound hbound
    rw [(bounds_perform _ now op).1] at hbound
    exact (effect_perform _ now op).length_le (nodup_keys_after maxSize lifetime history) hbound
      (ih bound hbound)

/-! ### Balances -/

/-- The counters and the entries of a cache agree with a history: every search is a hit or a miss,
those that found a text are hits, and every entry that was added is still there, gave way, or was
dropped. -/
structure IsBalanced (c : Cache Time Span) (history : History Time) : Prop where
  hits_add_misses : (c.after history).hits + (c.after history).misses = c.total searches history
  hits : (c.after history).hits = c.total finds history
  entries : c.total additions history
    = (c.after history).size + (c.after history).evictions + c.total invalidations history
      + c.total expiries history + c.total clearings history

/-- One more operation keeps the balance: each field by the lemma on one operation (`hits_perform`,
`hits_add_misses_perform`, `size_perform`). -/
theorem IsBalanced.append_singleton {c : Cache Time Span} {history : History Time}
    (h : c.IsBalanced history) (hnodup : (c.after history).keys.Nodup) (now : Time)
    (op : Operation) : c.IsBalanced (history ++ [(now, op)]) := by
  have hsize := size_perform hnodup now op
  constructor
  · rw [after_append_singleton, total_append_singleton, hits_add_misses_perform,
      h.hits_add_misses]
  · rw [after_append_singleton, total_append_singleton, hits_perform, h.hits]
  · rw [after_append_singleton, total_append_singleton, total_append_singleton,
      total_append_singleton, total_append_singleton, h.entries]
    omega

/-- **The accounts of a cache that was empty balance after every history.** Induction from its end
with `IsBalanced.append_singleton`. -/
theorem isBalanced_after (maxSize : Option Nat) (lifetime : Option Span) (history : History Time) :
    (empty maxSize lifetime : Cache Time Span).IsBalanced history := by
  induction history using List.reverseRecOn with
  | nil => exact ⟨rfl, rfl, rfl⟩
  | append_singleton history event ih =>
    exact ih.append_singleton (nodup_keys_after maxSize lifetime history) event.1 event.2

end Histories

/-- A cache is opened if its bounds are positive, and is `empty` then. -/
theorem open?_eq_ok_iff {maxSize : Option Int} {lifetime : Option Number} {c : Cache Time Number} :
    open? maxSize lifetime = .ok c ↔ (∀ bound ∈ maxSize, 1 ≤ bound)
      ∧ (lifetime.any fun t => t.atMost (.int 0)) = false
      ∧ c = empty (maxSize.map Int.toNat) lifetime := by
  have hsize : (maxSize.any fun bound => decide (bound < 1)) = false
      ↔ ∀ bound ∈ maxSize, 1 ≤ bound := by
    rw [Option.any_eq_false]
    exact forall₂_congr fun bound _ => by rw [decide_eq_false_iff_not, not_lt]
  rw [open?, ← hsize]
  cases maxSize.any fun bound => decide (bound < 1) with
  | true => exact iff_of_false (by rintro ⟨⟩) (by rintro ⟨⟨⟩, -⟩)
  | false =>
    cases lifetime.any fun t => t.atMost (.int 0) with
    | true => exact iff_of_false (by rintro ⟨⟩) (by rintro ⟨-, ⟨⟩, -⟩)
    | false =>
      constructor
      · rintro ⟨⟩
        exact ⟨rfl, rfl, rfl⟩
      · rintro ⟨-, -, rfl⟩
        rfl

/-- **A cache keeps its accounts.** After every history the hits and the misses are the searches,
and the hits those that found a text; the entries are no more than the cache may hold; a text that
is stored makes at most one entry give way, and not its own; and the entries that were added are
those that are there, gave way, were dropped on demand, were dropped as too old or were cleared
away. -/
theorem accounts_after_history [Timeline Time Number] {maxSize : Option Int}
    {lifetime : Option Number} {fresh : Cache Time Number}
    (hopen : open? maxSize lifetime = .ok fresh) (history : History Time) :
    fresh.IsBalanced history
      ∧ (∀ bound ∈ maxSize, ((fresh.after history).size : Int) ≤ bound)
      ∧ ∀ now key content, (fresh.after history).DisplacesAtMostOne now key content := by
  obtain ⟨hpos, -, rfl⟩ := open?_eq_ok_iff.1 hopen
  have hwithin := isWithinBound_after (maxSize.map Int.toNat) lifetime history
  refine ⟨isBalanced_after _ lifetime history, fun bound hbound => ?_, fun now key content => ?_⟩
  · have hsize := hwithin bound.toNat <| by
      rw [(bounds_after _ history).1]
      exact Option.mem_map_of_mem Int.toNat hbound
    have := hpos bound hbound
    omega
  · refine displacesAtMostOne hwithin (fun size hsize => ?_) now key content
    rw [(bounds_after _ history).1] at hsize
    obtain ⟨bound, hbound, rfl⟩ := Option.map_eq_some_iff.1 hsize
    have := hpos bound hbound
    omega

/-- A history in which a text is overwritten, one gives way, one is too old when it is asked for and
another when it is overwritten, one is dropped on demand and one is cleared away. -/
theorem accounts_after_history_every_loss :
    let history : History ℤ := [(0, .set "a" "first"), (1, .set "b" "second"),
      (2, .set "a" "third"), (3, .set "c" "fourth"), (4, .get "a"), (20, .get "c"),
      (21, .set "a" "fifth"), (22, .invalidate "a"), (23, .invalidate "a"), (24, .set "d" "sixth"),
      (25, .clear), (26, .get "d"), (27, .set "e" "seventh")]
    ∃ fresh : Cache ℤ Number, open? (some 2) (some (.int 10)) = .ok fresh
      ∧ fresh.IsBalanced history
      ∧ fresh.total additions history = 5 ∧ (fresh.after history).size = 1
      ∧ (fresh.after history).evictions = 1 ∧ fresh.total invalidations history = 1
      ∧ fresh.total expiries history = 1 ∧ fresh.total clearings history = 1
      ∧ (fresh.after history).DisplacesAtMostOne 28 "f" "eighth" := by
  intro history
  have hopen : open? (some 2) (some (.int 10))
      = .ok (empty (some 2) (some (.int 10)) : Cache ℤ Number) :=
    open?_eq_ok_iff.2 ⟨by rintro bound ⟨⟩; decide, by decide +kernel, rfl⟩
  obtain ⟨hbalanced, -, hdisplaces⟩ := accounts_after_history hopen history
  exact ⟨_, hopen, hbalanced, by decide +kernel, by decide +kernel, by decide +kernel,
    by decide +kernel, by decide +kernel, by decide +kernel, hdisplaces 28 "f" "eighth"⟩

end Templating.Cache
