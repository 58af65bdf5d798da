import Templating.Proofs.Cache.Accounting

/-!
# Larger and smaller caches

Two caches with the same lifetime, of which one may hold more entries, are put through the same
operations. They come apart, since the smaller one loses entries that the larger one keeps, and
what is found in the larger one alone is moved, or dropped as too old, there alone. Still
everything that the smaller one has stands in the larger one, in the same order. That alone is not
kept by storing a text: the larger one would lose an entry before the smaller one does if it had
less room left. So the room that is left is compared as well, and no operation turns this
comparison around: a larger cache that is full meets a smaller one that is full, and then both lose
their first entry.

## Main definitions

* `Cache.Includes`: entries stand among others, with no less room left for these.
* `Cache.Covers`: two caches have one lifetime, included entries, and no fewer hits in the larger
  one.
* `Cache.Outdoes`: a cache has and finds whatever another one has and finds.

## Main results

* `Cache.Covers.perform`: one operation on both caches.
* `Cache.covers_after`: a history of operations on both.
* `Cache.outdoes_after_history`: the larger cache outdoes the smaller one after every history.
-/

namespace Templating.Cache

variable {Time Span : Type}

/-! ### Included entries -/

/-- Entries stand, in the same order, among other ones (`sublist`), and no less room is left for
these under their bound (`room`). The room is what makes the larger cache never drop an entry that
the smaller one keeps. -/
structure Includes (bound bound' : Option Nat) (entries entries' : List (CacheEntry Time)) :
    Prop where
  sublist : entries'.Sublist entries
  room : ∀ n ∈ bound, ∃ n' ∈ bound', entries.length + n' ≤ entries'.length + n

section Includes

variable {bound bound' : Option Nat} {entries entries' : List (CacheEntry Time)}
  {large small : Cache Time Span}

/-- Leaving out a key with `others` leaves no less room: if it has an entry here, it has one
there. -/
theorem Includes.others (h : Includes bound bound' large.entries small.entries) (key : String) :
    Includes bound bound' (large.others key) (small.others key) := by
  refine ⟨h.sublist.filter _, fun n hn => ?_⟩
  obtain ⟨n', hn', hroom⟩ := h.room n hn
  refine ⟨n', hn', ?_⟩
  have hlarge := List.length_eq_length_filter_add (l := large.entries) fun e => e.key != key
  have hsmall := List.length_eq_length_filter_add (l := small.entries) fun e => e.key != key
  have hless := (h.sublist.filter fun e => !(e.key != key)).length_le
  rw [Cache.others, Cache.others]
  omega

/-- The same entry may be added to both at the end. -/
theorem Includes.concat (h : Includes bound bound' entries entries') (e : CacheEntry Time) :
    Includes bound bound' (entries ++ [e]) (entries' ++ [e]) := by
  refine ⟨h.sublist.append (List.Sublist.refl _), fun n hn => ?_⟩
  obtain ⟨n', hn', hroom⟩ := h.room n hn
  refine ⟨n', hn', ?_⟩
  rw [List.length_append, List.length_append, List.length_singleton]
  omega

/-- Where entries of the larger cache give way (`excess`), no fewer of the smaller one do, and the
first ones in both. -/
theorem Includes.drop_excess (h : Includes large.maxSize small.maxSize entries entries') :
    Includes large.maxSize small.maxSize (entries.drop (large.excess entries.length))
      (entries'.drop (small.excess entries'.length)) := by
  cases hlarge : large.maxSize with
  | none =>
    rw [excess, hlarge]
    exact ⟨(List.drop_sublist _ _).trans h.sublist, fun n hn => by cases hn⟩
  | some n =>
    obtain ⟨n', hsmall, hroom⟩ := h.room n hlarge
    rw [hsmall, excess, excess, hlarge, hsmall]
    dsimp only
    refine ⟨?_, ?_⟩
    · exact (List.drop_sublist_drop_left entries' (by omega)).trans (h.sublist.drop _)
    · rintro m ⟨⟩
      refine ⟨n', rfl, ?_⟩
      rw [List.length_drop, List.length_drop]
      omega

/-- Without an entry under a key all entries are under others, so `others` leaves out nothing. -/
theorem others_eq_entries {c : Cache Time Span} {key : String} (h : c.entry? key = none) :
    c.others key = c.entries :=
  List.filter_eq_self.2 fun e he => bne_iff_ne.2 (mt beq_iff_eq.2 (List.find?_eq_none.1 h e he))

/-- The entry under a key is the same in both caches, since no other one in the larger cache has
that key (`hnodup`). -/
theorem entry?_of_sublist (h : small.entries.Sublist large.entries) (hnodup : large.keys.Nodup)
    {key : String} {e : CacheEntry Time} (he : small.entry? key = some e) :
    large.entry? key = some e := by
  have hmem := h.subset (entry?_mem he)
  obtain ⟨e', he'⟩ := exists_entry?_of_mem hmem
  have hsame := List.inj_on_of_nodup_map hnodup (entry?_mem he') hmem (entry?_key he')
  rw [← entry?_key he, he', hsame]

end Includes

/-! ### One operation on both caches -/

section Operations

variable [Timeline Time Span] {large small : Cache Time Span}

/-- The larger cache may hold no fewer entries than the smaller one, for the same time, and has its
entries, as `Includes` says, and no fewer hits. This is what every operation keeps. -/
structure Covers (large small : Cache Time Span) : Prop where
  bounds : ∀ n ∈ large.maxSize, ∃ n' ∈ small.maxSize, n' ≤ n
  lifetime : large.lifetime = small.lifetime
  entries : Includes large.maxSize small.maxSize large.entries small.entries
  hits : small.hits ≤ large.hits

theorem Covers.isExpired_eq (h : large.Covers small) (now : Time) (e : CacheEntry Time) :
    large.isExpired now e = small.isExpired now e := by
  rw [isExpired, isExpired, h.lifetime]

/-- **What is found in the smaller cache is found in the larger one**, with the same text: the entry
is the same by `entry?_of_sublist`, and so is its age. -/
theorem Covers.get (h : large.Covers small) (hnodup : large.keys.Nodup) {now : Time}
    {key content : String} (hfound : (small.get now key).1 = some content) :
    (large.get now key).1 = some content := by
  obtain ⟨e, he, hage, hcontent⟩ := get_eq_some_iff.1 hfound
  refine get_eq_some_iff.2 ⟨e, entry?_of_sublist h.entries.sublist hnodup he, ?_, hcontent⟩
  rw [h.isExpired_eq, hage]

/-- What the smaller cache finds the larger one finds: `Covers.get`, counted by `finds`. -/
theorem Covers.finds_le (h : large.Covers small) (hnodup : large.keys.Nodup) (now : Time)
    (op : Operation) : small.finds now op ≤ large.finds now op := by
  cases op with
  | get key =>
    rw [finds, finds]
    cases hfound : (small.get now key).1 with
    | none => exact Nat.zero_le _
    | some content => rw [h.get hnodup hfound]
  | _ => exact Nat.le_refl _

/-- Asking for a text keeps the entries included. What only the larger cache finds it moves to the
end, where it stands behind all entries of the smaller one. -/
theorem Covers.includes_get (h : large.Covers small) (hnodup : large.keys.Nodup) (now : Time)
    (key : String) : Includes large.maxSize small.maxSize (large.get now key).2.entries
      (small.get now key).2.entries := by
  have hothers := h.entries.others key
  rw [Cache.get, Cache.get]
  cases hsmall : small.entry? key with
  | some e =>
    rw [entry?_of_sublist h.entries.sublist hnodup hsmall]
    dsimp only
    rw [h.isExpired_eq]
    split
    · exact hothers
    · exact hothers.concat e
  | none =>
    rw [others_eq_entries hsmall] at hothers
    have hcount := length_others hnodup key
    cases hlarge : large.entry? key with
    | none => exact h.entries
    | some e =>
      rw [hlarge, Option.isSome_some, Bool.toNat_true] at hcount
      dsimp only
      split
      · exact hothers
      · refine ⟨hothers.sublist.trans (List.sublist_append_left _ _), fun n hn => ?_⟩
        rw [List.length_append, List.length_singleton, hcount]
        exact h.entries.room n hn

/-- An operation keeps the entries included. The cases are the operations, with
`Covers.includes_get` for asking. -/
theorem Covers.includes_perform (h : large.Covers small) (hnodup : large.keys.Nodup) (now : Time)
    (op : Operation) : Includes large.maxSize small.maxSize (large.perform now op).entries
      (small.perform now op).entries := by
  cases op with
  | set key content => exact ((h.entries.others key).concat ⟨key, content, now⟩).drop_excess
  | get key => exact h.includes_get hnodup now key
  | contains key => exact h.entries
  | invalidate key => exact h.entries.others key
  | clear =>
    refine ⟨List.Sublist.refl _, fun n hn => ?_⟩
    obtain ⟨n', hn', hle⟩ := h.bounds n hn
    exact ⟨n', hn', Nat.add_le_add_left hle _⟩

/-- One operation on both caches keeps the one covering the other, in its entries by
`Covers.includes_perform` and in its hits by `Covers.finds_le`. -/
theorem Covers.perform (h : large.Covers small) (hnodup : large.keys.Nodup) (now : Time)
    (op : Operation) : (large.perform now op).Covers (small.perform now op) := by
  obtain ⟨hlarge, hlifetime⟩ := large.bounds_perform now op
  obtain ⟨hsmall, hlifetime'⟩ := small.bounds_perform now op
  constructor
  · rw [hlarge, hsmall]
    exact h.bounds
  · rw [hlifetime, hlifetime', h.lifetime]
  · rw [hlarge, hsmall]
    exact h.includes_perform hnodup now op
  · rw [hits_perform, hits_perform]
    exact Nat.add_le_add h.hits (h.finds_le hnodup now op)

/-! ### Histories -/

/-- **After any history the cache with the looser bound covers the other one.** Induction on the
history from its end with `Covers.perform`. -/
theorem covers_after {maxSize maxSize' : Option Nat}
    (hle : ∀ n ∈ maxSize, ∃ n' ∈ maxSize', n' ≤ n) (lifetime : Option Span)
    (history : History Time) :
    Covers ((empty maxSize lifetime : Cache Time Span).after history)
      ((empty maxSize' lifetime : Cache Time Span).after history) := by
  induction history using List.reverseRecOn with
  | nil =>
    refine ⟨hle, rfl, ⟨List.Sublist.refl _, fun n hn => ?_⟩, Nat.le_refl _⟩
    obtain ⟨n', hn', hn⟩ := hle n hn
    exact ⟨n', hn', Nat.add_le_add_left hn _⟩
  | append_singleton history event ih =>
    obtain ⟨now, op⟩ := event
    rw [after_append_singleton, after_append_singleton]
    exact ih.perform (nodup_keys_after maxSize lifetime history) now op

/-- A cache has and finds whatever another one has and finds: each of its entries, with the text and
the time of storing, and the keys of both in the same order; whatever is asked for and found there,
with the same text; and it has found no fewer texts. -/
structure Outdoes (large small : Cache Time Span) : Prop where
  mem : ∀ e ∈ small.entries, e ∈ large.entries
  order : (large.keys.filter fun key => key ∈ small.keys) = small.keys
  get : ∀ now key content,
    (small.get now key).1 = some content → (large.get now key).1 = some content
  hits : small.hits ≤ large.hits

/-- A cache that covers another one outdoes it: it has at least the texts of the other one, and what
both have stands in the same order. -/
theorem Covers.outdoes (h : large.Covers small) (hnodup : large.keys.Nodup) :
    large.Outdoes small := by
  refine ⟨h.entries.sublist.subset, ?_, fun now key content => h.get hnodup, h.hits⟩
  have hsublist : small.keys.Sublist large.keys := h.entries.sublist.map _
  have hcommon : (large.keys.filter fun key => key ∈ small.keys).Perm small.keys := by
    refine (List.perm_ext_iff_of_nodup (hnodup.filter _) (hnodup.sublist hsublist)).2 fun key => ?_
    rw [List.mem_filter, decide_eq_true_iff]
    exact ⟨And.right, fun hmem => ⟨hsublist.subset hmem, hmem⟩⟩
  have hsame : small.keys.filter (fun key => key ∈ small.keys) = small.keys :=
    List.filter_eq_self.2 fun key hmem => decide_eq_true hmem
  have hboth := hsublist.filter fun key => decide (key ∈ small.keys)
  rw [hsame] at hboth
  exact (hboth.eq_of_length hcommon.length_eq.symm).symm

end Operations

/-- **A larger cache never does worse.** Of two caches that were empty, with one lifetime and put
through the same operations at the same times, the one that may hold no fewer entries, or any number
of them, outdoes the other one. -/
theorem outdoes_after_history [Timeline Time Number] {maxSize maxSize' : Option Int}
    {lifetime : Option Number} {large small : Cache Time Number}
    (hlarge : open? maxSize lifetime = .ok large) (hsmall : open? maxSize' lifetime = .ok small)
    (hle : ∀ bound ∈ maxSize, ∃ bound' ∈ maxSize', bound' ≤ bound) (history : History Time) :
    (large.after history).Outdoes (small.after history) := by
  obtain rfl := open?_eq_ok hlarge
  obtain rfl := open?_eq_ok hsmall
  refine (covers_after ?_ lifetime history).outdoes (nodup_keys_after _ lifetime history)
  intro n hn
  obtain ⟨bound, hbound, rfl⟩ := Option.map_eq_some_iff.1 hn
  obtain ⟨bound', hbound', hless⟩ := hle bound hbound
  exact ⟨bound'.toNat, Option.mem_map_of_mem Int.toNat hbound', Int.toNat_le_toNat hless⟩

/-- A cache for two texts finds one that a cache for a single text has lost, and still has it after
another one was dropped on demand and a new one stored. -/
theorem outdoes_after_history_two_and_one :
    let history : History ℤ := [(0, .set "a" "first"), (1, .set "b" "second"), (2, .get "a"),
      (3, .set "c" "third"), (4, .invalidate "c"), (5, .set "d" "fourth")]
    ∃ large small : Cache ℤ Number, open? (some 2) (some (.int 10)) = .ok large
      ∧ open? (some 1) (some (.int 10)) = .ok small
      ∧ (large.after history).Outdoes (small.after history)
      ∧ (large.after history).keys = ["a", "d"] ∧ (small.after history).keys = ["d"]
      ∧ (large.after history).hits = 1 ∧ (small.after history).hits = 0 := by
  intro history
  have hlarge : open? (some 2) (some (.int 10))
      = .ok (empty (some 2) (some (.int 10)) : Cache ℤ Number) :=
    open?_eq_ok_iff.2 ⟨by rintro bound ⟨⟩; decide, by decide +kernel, rfl⟩
  have hsmall : open? (some 1) (some (.int 10))
      = .ok (empty (some 1) (some (.int 10)) : Cache ℤ Number) :=
    open?_eq_ok_iff.2 ⟨by rintro bound ⟨⟩; decide, by decide +kernel, rfl⟩
  refine ⟨_, _, hlarge, hsmall, ?_, by decide +kernel, by decide +kernel, by decide +kernel,
    by decide +kernel⟩
  refine outdoes_after_history hlarge hsmall ?_ history
  rintro bound ⟨⟩
  exact ⟨1, rfl, by decide⟩

end Templating.Cache
