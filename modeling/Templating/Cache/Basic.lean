import Templating.Fault
import Templating.Number.Order

/-!
# The cache of rendered texts

A cache stores texts under keys together with the time of storing. It may bound the number of
entries, in which case the entry that was not used for the longest time gives way to a new one,
and it may bound the age of an entry, in which case an older one is dropped when it is asked
for. The entries stand in the order of their last use, the most recently used one last, where
storing and finding an entry are uses of it.

Times are of any type that can tell whether more than a given span lies between two of them.

## Main definitions

* `Timeline`: types of times.
* `Cache`: the caches.
* `Cache.get`, `Cache.set`, `Cache.contains`, `Cache.invalidate`, `Cache.clear`: the operations.
* `Cache.open?`: an empty cache with given bounds, if they are positive.
-/

namespace Templating

/-- Times that can tell whether more than a span lies between two of them. -/
class Timeline (Time : Type) (Span : outParam Type) where
  /-- Whether more than `span` lies between `stored` and `now`. -/
  exceeds : (stored now : Time) → (span : Span) → Bool

/-- Times read off a floating point clock, with any number as a span of seconds. The time between
two readings is their rounded difference. -/
instance : Timeline Binary64 Number where
  exceeds stored now span := span.less (.binary (now.sub stored))

/-- A stored text. -/
structure CacheEntry (Time : Type) where
  key : String
  content : String
  stored : Time

/-- A cache of texts. -/
structure Cache (Time Span : Type) where
  /-- How many entries it may hold; any number if there is no bound. -/
  maxSize : Option Nat
  /-- How old an entry may become; any age if there is no bound. -/
  lifetime : Option Span
  /-- The entries, the least recently used first. -/
  entries : List (CacheEntry Time)
  /-- How often a text was asked for and found. -/
  hits : Nat
  /-- How often a text was asked for and not found. -/
  misses : Nat
  /-- How often an entry gave way to a new one. -/
  evictions : Nat

namespace Cache

variable {Time Span : Type}

/-- An empty cache with given bounds. -/
def empty (maxSize : Option Nat) (lifetime : Option Span) : Cache Time Span :=
  ⟨maxSize, lifetime, [], 0, 0, 0⟩

/-- An empty cache with given bounds on the number of entries and on their age in seconds, which
have to be positive. -/
def open? (maxSize : Option Int) (lifetime : Option Number) : Except Fault (Cache Time Number) :=
  if maxSize.any (· < 1) then .error .cacheSizeNotPositive
  else if lifetime.any fun t => t.atMost (.int 0) then .error .cacheLifetimeNotPositive
  else .ok (empty (maxSize.map Int.toNat) lifetime)

/-- How many entries are stored. -/
def size (c : Cache Time Span) : Nat :=
  c.entries.length

/-- The keys of the entries, the least recently used first. -/
def keys (c : Cache Time Span) : List String :=
  c.entries.map (·.key)

/-- The entry under a key, however old. `Cache.get` looks at its age. -/
def entry? (c : Cache Time Span) (key : String) : Option (CacheEntry Time) :=
  c.entries.find? fun e => e.key == key

/-- The entries without those under a key, in their order. An entry that is used moves behind
them. -/
def others (c : Cache Time Span) (key : String) : List (CacheEntry Time) :=
  c.entries.filter fun e => e.key != key

/-- Whether an entry is too old at a time: more than the lifetime lies between it and the time at
which it was stored (`Timeline.exceeds`). -/
def isExpired [Timeline Time Span] (c : Cache Time Span) (now : Time) (e : CacheEntry Time) :
    Bool :=
  c.lifetime.any fun span => Timeline.exceeds e.stored now span

/-- The text under a key, and the cache after the search. A text found becomes the most recently
used; one that is too old is dropped and counts as not found. -/
def get [Timeline Time Span] (c : Cache Time Span) (now : Time) (key : String) :
    Option String × Cache Time Span :=
  match c.entry? key with
  | none => (none, { c with misses := c.misses + 1 })
  | some e =>
    if c.isExpired now e then
      (none, { c with entries := c.others key, misses := c.misses + 1 })
    else (some e.content, { c with entries := c.others key ++ [e], hits := c.hits + 1 })

/-- How many entries are beyond the bound of the cache (`maxSize`) when it holds `count`. -/
def excess (c : Cache Time Span) (count : Nat) : Nat :=
  match c.maxSize with
  | none => 0
  | some bound => count - bound

/-- Stores a text under a key as the most recently used one. Entries beyond the bound (`excess`)
give way, the least recently used first, and count as evicted. -/
def set (c : Cache Time Span) (now : Time) (key content : String) : Cache Time Span :=
  let entries := c.others key ++ [⟨key, content, now⟩]
  let excess := c.excess entries.length
  { c with entries := entries.drop excess, evictions := c.evictions + excess }

/-- Whether there is a text under a key that is not too old. Unlike `Cache.get` it counts nothing
and leaves the order. -/
def contains [Timeline Time Span] (c : Cache Time Span) (now : Time) (key : String) : Bool :=
  (c.entry? key).any fun e => !c.isExpired now e

/-- Drops the text under a key, however old, and tells whether there was one. -/
def invalidate (c : Cache Time Span) (key : String) : Bool × Cache Time Span :=
  ((c.entry? key).isSome, { c with entries := c.others key })

/-- Drops every text. The counts stay; `resetCounts` is for them. -/
def clear (c : Cache Time Span) : Cache Time Span :=
  { c with entries := [] }

/-- Starts counting anew. -/
def resetCounts (c : Cache Time Span) : Cache Time Span :=
  { c with hits := 0, misses := 0, evictions := 0 }

/-- The share of searches that found a text; zero if there was none. -/
def hitRate (c : Cache Time Span) : Binary64 :=
  if c.hits + c.misses = 0 then .zero else .ofQuotient c.hits (c.hits + c.misses)

end Cache

end Templating
