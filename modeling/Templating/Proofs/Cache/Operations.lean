import Templating.Proofs.Cache.Contents

/-!
# Operations on a cache

Texts are stored in a cache and asked for, it is asked whether there is one, texts are dropped, and
the cache is cleared, each at some time. An operation uses a key if it stores a text under it, or
if it asks for the text under it and finds one. What an operation does to the entries is told once,
by `Effect`, with one case for each of its outcomes; what holds along a sequence of operations
follows from these cases.

## Main definitions

* `Cache.Operation`, `Cache.History`: the operations, and sequences of them with their times.
* `Cache.perform`, `Cache.after`: the cache after an operation and after a sequence of them.
* `Cache.used?`, `Cache.usedKeys`: the key that an operation uses, and those that a sequence uses.
* `Cache.Effect`: what an operation does to the entries.

## Main results

* `Cache.effect_perform`: every operation has one of the effects.
* `Cache.contains_iff`: a key is contained exactly if asking for it finds a text.
-/

namespace Templating.Cache

variable {Time Span : Type}

/-! ### Entries -/

/-- `others` has the entries that are not under a key. -/
theorem mem_others_iff {c : Cache Time Span} {key : String} {e : CacheEntry Time} :
    e ∈ c.others key ↔ e ∈ c.entries ∧ e.key ≠ key := by
  rw [others, List.mem_filter, bne_iff_ne]

theorem entry?_mem {c : Cache Time Span} {key : String} {e : CacheEntry Time}
    (h : c.entry? key = some e) : e ∈ c.entries :=
  List.mem_of_find?_eq_some h

/-- If there is an entry with a key, `entry?` finds one under the key. -/
theorem exists_entry?_of_mem {c : Cache Time Span} {e : CacheEntry Time} (h : e ∈ c.entries) :
    ∃ e', c.entry? e.key = some e' := by
  cases hfound : c.entry? e.key with
  | some e' => exact ⟨e', rfl⟩
  | none => exact absurd (beq_self_eq_true e.key) (List.find?_eq_none.1 hfound e h)

/-- A cache with given bounds is the empty one with these. -/
theorem open?_eq_ok {Time : Type} {maxSize : Option Int} {lifetime : Option Number}
    {c : Cache Time Number} (h : open? maxSize lifetime = .ok c) :
    c = empty (maxSize.map Int.toNat) lifetime := by
  rw [open?] at h
  split at h
  · cases h
  · split at h
    · cases h
    · exact (Except.ok.inj h).symm

/-! ### Operations and their sequences -/

/-- What is done to a cache. -/
inductive Operation where
  | set (key content : String)
  | get (key : String)
  | contains (key : String)
  | invalidate (key : String)
  | clear
  deriving DecidableEq

/-- A sequence of operations, each with its time, the earliest first. -/
abbrev History (Time : Type) := List (Time × Operation)

variable [Timeline Time Span]

/-- The cache after an operation. What an operation returns is left out; `contains` changes
nothing. -/
def perform (c : Cache Time Span) (now : Time) : Operation → Cache Time Span
  | .set key content => c.set now key content
  | .get key => (c.get now key).2
  | .contains _ => c
  | .invalidate key => (c.invalidate key).2
  | .clear => c.clear

/-- The cache after a sequence of operations. -/
def after (c : Cache Time Span) (history : History Time) : Cache Time Span :=
  history.foldl (fun c event => c.perform event.1 event.2) c

/-- The key that an operation uses: the one under which it stores a text, or under which it finds
one. -/
def used? (c : Cache Time Span) (now : Time) : Operation → Option String
  | .set key _ => some key
  | .get key => (c.get now key).1.map fun _ => key
  | _ => none

/-- The keys that a sequence of operations uses, in their order. -/
def usedKeys (c : Cache Time Span) : History Time → List String
  | [] => []
  | (now, op) :: rest => (c.used? now op).toList ++ usedKeys (c.perform now op) rest

/-- One more operation at the end is performed on the cache that the others leave. -/
theorem after_append_singleton (c : Cache Time Span) (history : History Time) (now : Time)
    (op : Operation) :
    c.after (history ++ [(now, op)]) = (c.after history).perform now op := by
  rw [after, after, List.foldl_append]
  rfl

/-- One more operation at the end adds the key that it uses (`used?`), if it uses one. Induction on
the operations before it. -/
theorem usedKeys_append_singleton (c : Cache Time Span) (history : History Time) (now : Time)
    (op : Operation) : c.usedKeys (history ++ [(now, op)])
      = c.usedKeys history ++ ((c.after history).used? now op).toList := by
  induction history generalizing c with
  | nil => exact List.append_nil _
  | cons event history ih =>
    obtain ⟨now', op'⟩ := event
    rw [List.cons_append, usedKeys, usedKeys, ih, List.append_assoc]
    rfl

/-- An operation leaves the bounds of a cache alone. -/
theorem bounds_perform (c : Cache Time Span) (now : Time) (op : Operation) :
    (c.perform now op).maxSize = c.maxSize ∧ (c.perform now op).lifetime = c.lifetime := by
  cases op with
  | get key =>
    rw [perform, get]
    split
    · exact ⟨rfl, rfl⟩
    · split
      · exact ⟨rfl, rfl⟩
      · exact ⟨rfl, rfl⟩
  | _ => exact ⟨rfl, rfl⟩

/-- The bounds of a cache never change, by `bounds_perform` along the history. -/
theorem bounds_after (c : Cache Time Span) (history : History Time) :
    (c.after history).maxSize = c.maxSize ∧ (c.after history).lifetime = c.lifetime := by
  induction history generalizing c with
  | nil => exact ⟨rfl, rfl⟩
  | cons event history ih =>
    obtain ⟨hsize, hlifetime⟩ := ih (c.perform event.1 event.2)
    obtain ⟨hsize', hlifetime'⟩ := c.bounds_perform event.1 event.2
    exact ⟨hsize.trans hsize', hlifetime.trans hlifetime'⟩

/-! ### Effects -/

/-- The entries after a text was stored under a key: it stands behind the others, and so many of the
first ones as `excess` says are dropped. -/
def storedEntries (c : Cache Time Span) (now : Time) (key content : String) :
    List (CacheEntry Time) :=
  let entries := c.others key ++ [⟨key, content, now⟩]
  entries.drop (c.excess entries.length)

/-- What an operation does to the entries of a cache, and the key that it uses. An invariant of the
entries is proved case by case along these effects, without looking into the operations again. -/
inductive Effect (c : Cache Time Span) (now : Time) :
    Operation → List (CacheEntry Time) → Option String → Prop where
  | stored (key content : String) :
    Effect c now (.set key content) (c.storedEntries now key content) (some key)
  | found {key : String} {e : CacheEntry Time} (he : c.entry? key = some e)
      (hage : c.isExpired now e = false) :
    Effect c now (.get key) (c.others key ++ [e]) (some key)
  | expired {key : String} {e : CacheEntry Time} (he : c.entry? key = some e)
      (hage : c.isExpired now e = true) :
    Effect c now (.get key) (c.others key) none
  | missing {key : String} (he : c.entry? key = none) : Effect c now (.get key) c.entries none
  | asked (key : String) : Effect c now (.contains key) c.entries none
  | dropped (key : String) : Effect c now (.invalidate key) (c.others key) none
  | cleared : Effect c now .clear [] none

/-- **Every operation has one of the effects.** The cases are the operations, and for asking whether
an entry is found and how old it is. -/
theorem effect_perform (c : Cache Time Span) (now : Time) (op : Operation) :
    Effect c now op (c.perform now op).entries (c.used? now op) := by
  cases op with
  | set key content => exact .stored key content
  | get key =>
    rw [perform, used?, get]
    cases he : c.entry? key with
    | none => exact .missing he
    | some e =>
      dsimp only
      split
      · exact .expired he ‹_›
      · exact .found he (Bool.eq_false_iff.2 ‹_›)
  | contains key => exact .asked key
  | invalidate key => exact .dropped key
  | clear => exact .cleared

/-- Asking for a text finds the entry under its key if `isExpired` does not find it too old. -/
theorem get_eq_some_iff {c : Cache Time Span} {now : Time} {key content : String} :
    (c.get now key).1 = some content
      ↔ ∃ e, c.entry? key = some e ∧ c.isExpired now e = false ∧ e.content = content := by
  rw [get]
  cases c.entry? key with
  | none => exact iff_of_false (by rintro ⟨⟩) (by rintro ⟨e, ⟨⟩, -⟩)
  | some e =>
    dsimp only
    split
    · rename_i hage
      refine iff_of_false (by rintro ⟨⟩) ?_
      rintro ⟨e', ⟨⟩, hfresh, -⟩
      cases hage.symm.trans hfresh
    · rename_i hage
      constructor
      · rintro ⟨⟩
        exact ⟨e, rfl, Bool.eq_false_iff.2 hage, rfl⟩
      · rintro ⟨e', ⟨⟩, -, rfl⟩
        rfl

/-- A key is contained exactly if asking for it finds a text. -/
theorem contains_iff {c : Cache Time Span} {now : Time} {key : String} :
    c.contains now key = true ↔ ∃ content, (c.get now key).1 = some content := by
  rw [contains, Option.any_eq_true]
  constructor
  · rintro ⟨e, he, hage⟩
    exact ⟨e.content, get_eq_some_iff.2 ⟨e, he, Bool.eq_false_iff.2 (by simpa using hage), rfl⟩⟩
  · rintro ⟨content, hget⟩
    obtain ⟨e, he, hage, -⟩ := get_eq_some_iff.1 hget
    exact ⟨e, he, by rw [hage]; rfl⟩

end Templating.Cache
