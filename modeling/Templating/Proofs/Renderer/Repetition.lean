import Mathlib.Data.List.Dedup
import Mathlib.Data.List.Induction
import Templating.Proofs.Cache.Operations
import Templating.Renderer

/-!
# Repeated calls

Calls are made one after the other, at any times, and those that ask a cache all ask the same one,
which is empty at first and bounds neither the number of entries nor their age. Such a cache never
loses a text, so it has a text under exactly those keys that a call asked for and returned
normally, each time the text of the first such call. This is read off the calls and what they
returned, and so is what the cache counts.

A call asks no cache if it is refused, if caching is off for it, or if its configuration has no
key. Such a call leaves all caches alone. A call that asks the cache and fails has been counted
before its template was rendered.

## Main definitions

* `TimedCall`, `Reply`: calls with their times, and with what they returned.
* `RenderCall.askedKey?`: the key that a call asks a cache for.
* `Renderer.answer`, `Renderer.afterCalls`, `Renderer.replies`: one call, and a sequence of them.
* `firstContent?`, `returnedKeys`: what the replies tell of the texts stored.
* `Cache.Accounts`: a cache agrees with the replies.
* `Renderer.Selects`: a call asks no cache but the one of a given name.
* `Renderer.AnswersFrom`: what a call returns, and what it does to the caches.

## Main results

* `Cache.Accounts.renderThrough`, `Renderer.accounts_answer`: one call keeps the accounts.
* `Renderer.accounts_afterCalls`: a sequence of calls keeps them.
* `Renderer.answersFrom_of_unasked`, `Renderer.answersFrom_of_asked`: what one call returns.
* `Renderer.answersFrom_replies`: every call of a sequence, and the accounts at its end.
-/

namespace Templating

variable {Time Span : Type}

/-! ### Calls and replies -/

/-- A call made at some time, on a renderer itself or apart from it, with a fresh cache in the
place of the renderer's own. -/
structure TimedCall (Time : Type) where
  now : Time
  isApart : Bool
  call : RenderCall

/-- A call with what it returned, or with the fault by which it failed. -/
structure Reply where
  call : RenderCall
  outcome : Except Fault Rendered

/-- The key that a call asks a cache for (`cacheKey`); none if it asks no cache, because it is
refused, because caching is off for it, or because its configuration has no key. -/
def RenderCall.askedKey? (call : RenderCall) : Option String :=
  match Renderer.subject call with
  | .error _ => none
  | .ok (template, configuration) =>
    if call.usesCache then (cacheKey template configuration).toOption else none

namespace Reply

/-- Whether the text came from a cache. -/
def isHit (reply : Reply) : Bool :=
  reply.outcome.toOption.any (·.cacheHit)

/-- Whether a cache was asked in vain: the call asked for a key, and its text did not come from a
cache. -/
def isMiss (reply : Reply) : Bool :=
  reply.call.askedKey?.isSome && !reply.isHit

/-- The key that was asked for by a call that returned normally. -/
def returnedKey? (reply : Reply) : Option String :=
  reply.outcome.toOption.bind fun _ => reply.call.askedKey?

/-- The text that a call returned normally which asked for the key. -/
def contentFor? (key : String) (reply : Reply) : Option String :=
  if reply.call.askedKey? = some key then reply.outcome.toOption.map (·.content) else none

end Reply

/-- The text that was returned by the first call that asked for the key and returned normally, the
one that a cache without bounds keeps. -/
def firstContent? (key : String) (replies : List Reply) : Option String :=
  replies.findSome? (Reply.contentFor? key)

/-- The keys that were asked for by calls that returned normally, each once. -/
def returnedKeys (replies : List Reply) : List String :=
  (replies.filterMap Reply.returnedKey?).dedup

namespace Renderer

variable [Timeline Time Span]

/-- Answers a call at its time. -/
def answer (r : Renderer Time Span) (t : TimedCall Time) :
    Except Fault Rendered × Renderer Time Span :=
  if t.isApart then renderApart { r with now := t.now } t.call
  else render { r with now := t.now } t.call

/-- The renderer after a sequence of calls, each of them made by `answer` on what the ones before it
leave. -/
def afterCalls (r : Renderer Time Span) (calls : List (TimedCall Time)) : Renderer Time Span :=
  calls.foldl (fun r t => (r.answer t).2) r

/-- The replies to a sequence of calls, in the order of the calls. -/
def replies (r : Renderer Time Span) : List (TimedCall Time) → List Reply
  | [] => []
  | t :: rest => ⟨t.call, (r.answer t).1⟩ :: replies (r.answer t).2 rest

/-- One more call at the end is answered from the state that the others leave. -/
theorem afterCalls_append_singleton (r : Renderer Time Span) (calls : List (TimedCall Time))
    (t : TimedCall Time) : r.afterCalls (calls ++ [t]) = ((r.afterCalls calls).answer t).2 := by
  rw [afterCalls, List.foldl_append]
  rfl

/-- One more call at the end adds its reply to those before it. Induction on the calls before it. -/
theorem replies_append_singleton (r : Renderer Time Span) (calls : List (TimedCall Time))
    (t : TimedCall Time) : r.replies (calls ++ [t])
      = r.replies calls ++ [⟨t.call, ((r.afterCalls calls).answer t).1⟩] := by
  induction calls generalizing r with
  | nil => rfl
  | cons first calls ih =>
    rw [List.cons_append, replies, replies, ih]
    rfl

end Renderer

/-! ### What replies tell -/

variable {replies : List Reply} {reply : Reply} {call : RenderCall} {key template : String}
  {configuration : Value}

/-- An outcome seen as an option has a result if it returned normally, and the same one. -/
theorem toOption_eq_some_iff {α : Type} {outcome : Except Fault α} {a : α} :
    outcome.toOption = some a ↔ outcome = .ok a := by
  cases outcome with
  | error fault => exact iff_of_false (by rintro ⟨⟩) (by rintro ⟨⟩)
  | ok b => rw [Except.toOption, Option.some_inj, Except.ok.injEq]

/-- A call asks for a key if caching is on for it (`usesCache`), it is not refused
(`Renderer.subject`), and its configuration has that key. -/
theorem RenderCall.askedKey?_eq_some_iff : call.askedKey? = some key
    ↔ call.usesCache = true ∧ ∃ template configuration,
      Renderer.subject call = .ok (template, configuration)
        ∧ cacheKey template configuration = .ok key := by
  rw [askedKey?]
  rcases Renderer.subject call with fault | ⟨template, configuration⟩
  · exact iff_of_false (by rintro ⟨⟩) (by rintro ⟨-, _, _, ⟨⟩, -⟩)
  · dsimp only
    split
    · rename_i huses
      rw [toOption_eq_some_iff]
      refine ⟨fun hkey => ⟨huses, template, configuration, rfl, hkey⟩, ?_⟩
      rintro ⟨-, _, _, ⟨⟩, hkey⟩
      exact hkey
    · rename_i huses
      exact iff_of_false (by rintro ⟨⟩) fun h => huses h.1

/-- A call for which caching is off asks no cache, nor does one that is refused. -/
theorem RenderCall.askedKey?_eq_none
    (h : call.usesCache = false ∨ ∃ fault, Renderer.subject call = .error fault) :
    call.askedKey? = none := by
  rw [Option.eq_none_iff_forall_ne_some]
  intro key hkey
  obtain ⟨huses, template, configuration, hsubject, -⟩ := askedKey?_eq_some_iff.1 hkey
  rcases h with hoff | ⟨fault, hrefused⟩
  · cases huses.symm.trans hoff
  · cases hsubject.symm.trans hrefused

/-- A reply is a hit if the call returned a text that came from a cache. -/
theorem Reply.isHit_iff : reply.isHit = true
    ↔ ∃ rendered, reply.outcome = .ok rendered ∧ rendered.cacheHit = true := by
  rw [isHit, Option.any_eq_true]
  simp only [toOption_eq_some_iff]

/-- A key was returned if the call asked for it and returned normally. -/
theorem Reply.returnedKey?_eq_some_iff : reply.returnedKey? = some key
    ↔ reply.call.askedKey? = some key ∧ ∃ rendered, reply.outcome = .ok rendered := by
  rw [returnedKey?, Option.bind_eq_some_iff, and_comm, exists_and_right]
  simp only [toOption_eq_some_iff]

/-- A reply has a text for a key if the call asked for that key and returned the text. -/
theorem Reply.contentFor?_eq_some_iff {content : String} : reply.contentFor? key = some content
    ↔ reply.call.askedKey? = some key
      ∧ ∃ rendered, reply.outcome = .ok rendered ∧ rendered.content = content := by
  rw [contentFor?]
  split
  · rename_i hkey
    simp only [Option.map_eq_some_iff, toOption_eq_some_iff, hkey, true_and]
  · rename_i hkey
    exact iff_of_false (by rintro ⟨⟩) fun h => hkey h.1

/-- One more reply at the end has the first text for a key only if no reply before it has one. So
what `firstContent?` finds stays as it is. -/
theorem firstContent?_append_singleton (key : String) (replies : List Reply) (reply : Reply) :
    firstContent? key (replies ++ [reply])
      = (firstContent? key replies).or (reply.contentFor? key) := by
  rw [firstContent?, List.findSome?_append, List.findSome?_singleton]
  rfl

/-- There is a first text for exactly the keys that were returned (`Reply.returnedKey?`). -/
theorem firstContent?_isSome_iff : (firstContent? key replies).isSome = true
    ↔ ∃ reply ∈ replies, reply.returnedKey? = some key := by
  rw [firstContent?, List.findSome?_isSome_iff]
  refine exists_congr fun reply => and_congr_right fun _ => ?_
  simp only [Option.isSome_iff_exists, Reply.contentFor?_eq_some_iff,
    Reply.returnedKey?_eq_some_iff]
  constructor
  · rintro ⟨_, hkey, rendered, hok, -⟩
    exact ⟨hkey, rendered, hok⟩
  · rintro ⟨hkey, rendered, hok⟩
    exact ⟨_, hkey, rendered, hok, rfl⟩

theorem nodup_returnedKeys : (returnedKeys replies).Nodup :=
  List.nodup_dedup _

/-- The keys listed are those for which there is a first text, by `firstContent?_isSome_iff`. -/
theorem mem_returnedKeys_iff :
    key ∈ returnedKeys replies ↔ (firstContent? key replies).isSome = true := by
  rw [returnedKeys, List.mem_dedup, List.mem_filterMap, firstContent?_isSome_iff]

/-! ### Entries of a cache -/

namespace Cache

variable {c c' : Cache Time Span} {e : CacheEntry Time}

/-- An entry that is written as the most recently used one is found under its key, and under other
keys is found what was found there before. `Cache.get` and `Cache.set` leave the entries in this
way. -/
theorem entry?_append_others (h : c'.entries = c.others e.key ++ [e]) (key : String) :
    c'.entry? key = if e.key = key then some e else c.entry? key := by
  unfold entry?
  rw [h, List.find?_append, others, List.find?_filter]
  by_cases hkey : e.key = key
  · have hlast : [e].find? (fun other => other.key == key) = some e :=
      List.find?_cons_of_pos (beq_iff_eq.2 hkey)
    rw [if_pos hkey, List.find?_eq_none.2, hlast]
    · rfl
    · intro other _
      rw [decide_eq_true_iff, bne_iff_ne, beq_iff_eq, hkey]
      exact fun h => h.1 h.2
  · have hsame : (fun other : CacheEntry Time =>
        decide ((other.key != e.key) = true ∧ (other.key == key) = true))
          = fun other => other.key == key := by
      funext other
      rw [Bool.eq_iff_iff, decide_eq_true_iff, and_iff_right_iff_imp, beq_iff_eq, bne_iff_ne]
      rintro rfl
      exact Ne.symm hkey
    have hlast : [e].find? (fun other => other.key == key) = none :=
      List.find?_cons_of_neg fun h => hkey (eq_of_beq h)
    rw [if_neg hkey, hsame, hlast, Option.or_none]

/-- No two entries have one key after an entry is written as the most recently used one. -/
theorem nodup_keys_append_others (hnodup : c.keys.Nodup)
    (h : c'.entries = c.others e.key ++ [e]) : c'.keys.Nodup := by
  rw [keys, h, List.map_append, List.nodup_append]
  refine ⟨(List.filter_sublist.map _).nodup hnodup, List.pairwise_singleton _ _, ?_⟩
  rintro key hother _ hlast rfl
  obtain ⟨other, hmem, rfl⟩ := List.mem_map.1 hother
  exact (mem_others_iff.1 hmem).2 (List.mem_singleton.1 hlast)

/-- A cache has a key if it finds an entry under it. -/
theorem mem_keys_iff {key : String} : key ∈ c.keys ↔ (c.entry? key).isSome = true := by
  rw [keys, List.mem_map, Option.isSome_iff_exists]
  constructor
  · rintro ⟨e, he, rfl⟩
    exact exists_entry?_of_mem he
  · rintro ⟨e, he⟩
    exact ⟨e, entry?_mem he, entry?_key he⟩

/-! ### The accounts of a cache -/

/-- A cache without bounds has, under every key that was returned, the text of the first such reply
(`firstContent?`), and counts the hits and the misses among the replies. This is the invariant of a
sequence of calls. -/
structure Accounts (c : Cache Time Span) (replies : List Reply) : Prop where
  maxSize : c.maxSize = none
  lifetime : c.lifetime = none
  nodup : c.keys.Nodup
  found : ∀ key, (c.entry? key).map (·.content) = firstContent? key replies
  hits : c.hits = replies.countP Reply.isHit
  misses : c.misses = replies.countP Reply.isMiss

/-- An empty cache without bounds agrees with no replies at all. -/
theorem accounts_empty : (empty none none : Cache Time Span).Accounts [] :=
  ⟨rfl, rfl, List.nodup_nil, fun _ => rfl, rfl, rfl⟩

/-- There are as many entries as keys that were returned: the two lists have the same members, each
of them once. -/
theorem Accounts.size (h : c.Accounts replies) : c.size = (returnedKeys replies).length := by
  have hperm : c.keys.Perm (returnedKeys replies) := by
    refine (List.perm_ext_iff_of_nodup h.nodup nodup_returnedKeys).2 fun key => ?_
    rw [mem_keys_iff, mem_returnedKeys_iff, ← h.found, Option.isSome_map]
  rw [Cache.size, ← hperm.length_eq, keys, List.length_map]

/-- What one more reply contributes to the accounts, put together for the cases of
`Accounts.append_unasked` and `Accounts.renderThrough`. -/
theorem Accounts.append (h : c.Accounts replies) (hsize : c'.maxSize = c.maxSize)
    (hlifetime : c'.lifetime = c.lifetime) (hnodup : c'.keys.Nodup)
    (hfound : ∀ key, (c'.entry? key).map (·.content)
      = ((c.entry? key).map (·.content)).or (reply.contentFor? key))
    (hhits : c'.hits = c.hits + if reply.isHit then 1 else 0)
    (hmisses : c'.misses = c.misses + if reply.isMiss then 1 else 0) :
    c'.Accounts (replies ++ [reply]) where
  maxSize := hsize.trans h.maxSize
  lifetime := hlifetime.trans h.lifetime
  nodup := hnodup
  found key := by rw [hfound, h.found, firstContent?_append_singleton]
  hits := by rw [hhits, h.hits, List.countP_append, List.countP_singleton]
  misses := by rw [hmisses, h.misses, List.countP_append, List.countP_singleton]

/-- A call that asks no cache and is no hit does not concern the accounts: it has no text for any
key, and it is no miss. -/
theorem Accounts.append_unasked (h : c.Accounts replies) (hasked : reply.call.askedKey? = none)
    (hhit : reply.isHit = false) : c.Accounts (replies ++ [reply]) := by
  refine h.append rfl rfl h.nodup (fun key => ?_) ?_ ?_
  · rw [Reply.contentFor?, hasked, if_neg (by rintro ⟨⟩), Option.or_none]
  · rw [hhit]
    rfl
  · rw [Reply.isMiss, hasked]
    rfl

variable [Timeline Time Span]

/-- Rendering through a cache without bounds finds an entry under the key, or finds none and fails,
or finds none and stores what is rendered. Without bounds `Cache.get` never drops an entry, and
`Cache.set` drops none. -/
theorem renderThrough_cases (hsize : c.maxSize = none) (hlifetime : c.lifetime = none) (now : Time)
    (hkey : cacheKey template configuration = .ok key) :
    (∃ e, c.entry? key = some e ∧ renderThrough now template configuration c
        = (.ok ⟨e.content, true⟩, { c with entries := c.others key ++ [e], hits := c.hits + 1 }))
      ∨ c.entry? key = none
        ∧ ((∃ fault, renderThrough now template configuration c
            = (.error fault, { c with misses := c.misses + 1 }))
          ∨ ∃ content, renderThrough now template configuration c
            = (.ok ⟨content, false⟩, { c with
              entries := c.others key ++ [⟨key, content, now⟩], misses := c.misses + 1 })) := by
  rw [renderThrough_apply, hkey]
  dsimp only
  rw [Cache.get]
  cases hfound : c.entry? key with
  | some e =>
    refine .inl ⟨e, rfl, ?_⟩
    have hfresh : c.isExpired now e = false := by
      rw [isExpired, hlifetime]
      rfl
    dsimp only
    rw [hfresh]
    rfl
  | none =>
    refine .inr ⟨rfl, ?_⟩
    cases Template.renderText template configuration with
    | error fault => exact .inl ⟨fault, rfl⟩
    | ok content =>
      refine .inr ⟨content, ?_⟩
      simp [Cache.set, excess, hsize, others]

/-- **One more call that asks the cache keeps the accounts.** The three cases of
`renderThrough_cases` are a hit, a miss that fails and a miss that stores a text. -/
theorem Accounts.renderThrough (h : c.Accounts replies) (hasked : call.askedKey? = some key)
    (hkey : cacheKey template configuration = .ok key) (now : Time) :
    (renderThrough now template configuration c).2.Accounts
      (replies ++ [⟨call, (renderThrough now template configuration c).1⟩]) := by
  -- A reply has a text for its own key only.
  have hother (outcome : Except Fault Rendered) {key' : String} (hne : key ≠ key') :
      Reply.contentFor? key' ⟨call, outcome⟩ = none :=
    if_neg fun hsame => hne (Option.some.inj (hasked.symm.trans hsame))
  rcases renderThrough_cases h.maxSize h.lifetime now hkey with
    ⟨e, he, hok⟩ | ⟨hnone, ⟨fault, herror⟩ | ⟨content, hok⟩⟩
  · -- A hit: the entry moves behind the others, and its text was the first one already.
    obtain rfl := entry?_key he
    rw [hok]
    refine h.append rfl rfl (nodup_keys_append_others h.nodup rfl) (fun key' => ?_) rfl ?_
    · rw [entry?_append_others rfl]
      split
      · rename_i hsame
        rw [← hsame, he]
        rfl
      · rename_i hne
        rw [hother _ hne, Option.or_none]
    · rw [Reply.isMiss, hasked]
      rfl
  · -- A miss that fails: no entry changes, and the reply has no text.
    rw [herror]
    refine h.append rfl rfl h.nodup (fun key' => ?_) rfl ?_
    · rw [show Reply.contentFor? key' ⟨call, .error fault⟩ = none from ite_self _, Option.or_none]
      rfl
    · rw [Reply.isMiss, hasked]
      rfl
  · -- A miss that stores: there was no text for the key, so this one is the first.
    rw [hok]
    refine h.append rfl rfl
      (nodup_keys_append_others (e := ⟨key, content, now⟩) h.nodup rfl) (fun key' => ?_) rfl ?_
    · rw [entry?_append_others (e := ⟨key, content, now⟩) rfl]
      split
      · rename_i hsame
        obtain rfl : key = key' := hsame
        rw [hnone, Reply.contentFor?, hasked, if_pos rfl]
        rfl
      · rename_i hne
        rw [hother _ hne, Option.or_none]
    · rw [Reply.isMiss, hasked]
      rfl

end Cache

/-! ### One call -/

namespace Renderer

variable {r : Renderer Time Span} {name : Option Nat} {t : TimedCall Time}

/-- The cache of the given name is at hand: the renderer's own always is, and a shared one if it is
among the shared ones. -/
def Offers (r : Renderer Time Span) (name : Option Nat) : Prop :=
  ∀ i, name = some i → i < r.shared.length

/-- If a call asks a cache, it asks the one of the given name. A call apart from the renderer gets a
fresh cache in the place of the renderer's own, so it does not ask that one (`renderApart`). -/
def Selects (name : Option Nat) (t : TimedCall Time) : Prop :=
  t.call.askedKey? ≠ none → t.call.namedCache = name ∧ (t.isApart = true → name ≠ none)

/-- A cache that `setCache` puts under a name is found there, if there is a cache of that name. -/
theorem cacheAt_setCache (h : r.Offers name) (c : Cache Time Span) :
    (r.setCache c name).cacheAt name = c := by
  cases name with
  | none => rfl
  | some i =>
    rw [setCache, cacheAt, List.getD_eq_getElem?_getD, List.getElem?_set_self (h i rfl)]
    rfl

/-- Putting back the cache that is there changes nothing. -/
theorem setCache_cacheAt (r : Renderer Time Span) (name : Option Nat) :
    r.setCache (r.cacheAt name) name = r := by
  cases name with
  | none => rfl
  | some i =>
    rw [setCache, cacheAt, List.getD_eq_getElem?_getD]
    by_cases hi : i < r.shared.length
    · rw [List.getElem?_eq_getElem hi, Option.getD_some, List.set_getElem_self]
    · rw [List.set_eq_of_length_le (Nat.le_of_not_lt hi)]

/-- The same caches are at hand after one of them is replaced. -/
theorem Offers.setCache (h : r.Offers name) (c : Cache Time Span) :
    (r.setCache c name).Offers name := by
  cases name with
  | none => exact h
  | some i =>
    intro j hj
    rw [Renderer.setCache, List.length_set]
    exact h j hj

/-- A shared cache does not depend on the renderer's own. -/
theorem cacheAt_of_shared {r' : Renderer Time Span} (h : r.Offers name) (hname : name ≠ none)
    (hshared : r'.shared = r.shared) : r'.cacheAt name = r.cacheAt name := by
  cases name with
  | none => exact absurd rfl hname
  | some i =>
    rw [cacheAt, cacheAt, hshared, List.getD_eq_getElem?_getD, List.getD_eq_getElem?_getD,
      List.getElem?_eq_getElem (h i rfl)]
    rfl

/-- Running a computation on the cache of a name (`runOn`) returns its result and puts the changed
cache back. -/
theorem runOn_eq (name : Option Nat) {α : Type} (m : CacheM Time Span α) : r.runOn name m
    = ((m (r.cacheAt name)).1, r.setCache (m (r.cacheAt name)).2 name) :=
  rfl

variable [Timeline Time Span]

/-- A call apart from the renderer is rendered with a fresh cache of its own, and the renderer's own
is put back. -/
theorem renderApart_eq (call : RenderCall) : r.renderApart call
    = ((render { r with own := Cache.empty none none } call).1,
      { (render { r with own := Cache.empty none none } call).2 with own := r.own }) :=
  rfl

/-- A call that asks no cache changes nothing of the renderer, and what it returns is no hit. It is
refused, or `render` passes the cache by, or there is no key to ask for. -/
theorem render_of_unasked (h : call.askedKey? = none) :
    (r.render call).2 = r ∧ Reply.isHit ⟨call, (r.render call).1⟩ = false := by
  rw [RenderCall.askedKey?] at h
  rw [render]
  rcases hsubject : subject call with fault | ⟨template, configuration⟩
  · exact ⟨rfl, rfl⟩
  · rw [hsubject] at h
    dsimp only at h ⊢
    split
    · rename_i huses
      rw [if_pos huses] at h
      cases hkey : cacheKey template configuration with
      | ok key =>
        rw [hkey] at h
        cases h
      | error fault =>
        rw [runOn, renderThrough_apply, hkey]
        exact ⟨setCache_cacheAt r call.namedCache, rfl⟩
    · refine ⟨rfl, ?_⟩
      rw [renderPlainly]
      cases Template.renderText template configuration with
      | error fault => rfl
      | ok content => rfl

/-- A call that asks no cache leaves all caches alone, and what it returns is no hit, whether it is
made on the renderer or apart from it (`render_of_unasked`). -/
theorem answer_of_unasked (h : t.call.askedKey? = none) :
    (r.answer t).2.own = r.own ∧ (r.answer t).2.shared = r.shared
      ∧ Reply.isHit ⟨t.call, (r.answer t).1⟩ = false := by
  rw [answer]
  split
  · obtain ⟨hsame, hhit⟩ := render_of_unasked
      (r := { r with now := t.now, own := Cache.empty none none }) h
    rw [renderApart_eq, hsame]
    exact ⟨rfl, rfl, hhit⟩
  · obtain ⟨hsame, hhit⟩ := render_of_unasked (r := { r with now := t.now }) h
    rw [hsame]
    exact ⟨rfl, rfl, hhit⟩

/-- A call that asks for a key runs `renderThrough` on the cache that it names. -/
theorem render_of_asked (hname : call.namedCache = name) (h : call.askedKey? = some key) :
    ∃ template configuration, cacheKey template configuration = .ok key
      ∧ r.render call = r.runOn name (renderThrough r.now template configuration) := by
  obtain ⟨huses, template, configuration, hsubject, hkey⟩ := RenderCall.askedKey?_eq_some_iff.1 h
  refine ⟨template, configuration, hkey, ?_⟩
  rw [render, hsubject, hname]
  exact if_pos huses

/-- A call that asks a cache is rendered through that cache, also if it is made apart from the
renderer, since the cache it names is a shared one then (`Selects`). -/
theorem answer_of_asked (hoffers : r.Offers name) (hselects : Selects name t)
    (h : t.call.askedKey? = some key) : ∃ template configuration,
    cacheKey template configuration = .ok key
      ∧ (r.answer t).1 = (renderThrough t.now template configuration (r.cacheAt name)).1
      ∧ (r.answer t).2.cacheAt name
        = (renderThrough t.now template configuration (r.cacheAt name)).2
      ∧ (r.answer t).2.Offers name := by
  obtain ⟨hname, hapart⟩ := hselects (by rw [h]; rintro ⟨⟩)
  rw [answer]
  split
  · rename_i hisApart
    obtain ⟨template, configuration, hkey, hrender⟩ := render_of_asked
      (r := { r with now := t.now, own := Cache.empty none none }) hname h
    have hcache : cacheAt { r with now := t.now, own := Cache.empty none none } name
        = r.cacheAt name := cacheAt_of_shared hoffers (hapart hisApart) rfl
    have hoffers' : Offers { r with now := t.now, own := Cache.empty none none } name := hoffers
    refine ⟨template, configuration, hkey, ?_⟩
    rw [renderApart_eq, hrender, runOn_eq, hcache]
    refine ⟨rfl, ?_, hoffers'.setCache _⟩
    refine (cacheAt_of_shared (hoffers'.setCache _) (hapart hisApart) ?_).trans
      (cacheAt_setCache hoffers' _)
    rfl
  · obtain ⟨template, configuration, hkey, hrender⟩ :=
      render_of_asked (r := { r with now := t.now }) hname h
    have hoffers' : Offers { r with now := t.now } name := hoffers
    refine ⟨template, configuration, hkey, ?_⟩
    rw [hrender, runOn_eq]
    exact ⟨rfl, cacheAt_setCache hoffers' _, hoffers'.setCache _⟩

/-! ### A sequence of calls -/

/-- What a call returns after others, the replies to which are given, and what it does to the caches
of the renderer, where the calls that ask a cache ask the one of the given name. -/
structure AnswersFrom (name : Option Nat) (earlier : List Reply) (r : Renderer Time Span)
    (t : TimedCall Time) : Prop where
  /-- The call is a hit if it asks for a key that an earlier call asked for and returned. -/
  hit : (∃ rendered, (r.answer t).1 = .ok rendered ∧ rendered.cacheHit = true)
    ↔ ∃ key, t.call.askedKey? = some key ∧ ∃ reply ∈ earlier, reply.returnedKey? = some key
  /-- The text of a hit is that of the first of these calls. -/
  content : ∀ rendered, (r.answer t).1 = .ok rendered → rendered.cacheHit = true →
    t.call.askedKey?.bind (firstContent? · earlier) = some rendered.content
  /-- Every cache stays as it is if caching is off for the call, if the call is refused, and if it
  asks no cache for another reason. -/
  unasked : (t.call.usesCache = false ∨ ∃ fault, subject t.call = .error fault)
      ∨ t.call.askedKey? = none →
    (r.answer t).2.own = r.own ∧ (r.answer t).2.shared = r.shared
  /-- A call that fails after it has asked the cache adds a miss and nothing else. -/
  failed : ∀ fault, t.call.askedKey? ≠ none → (r.answer t).1 = .error fault →
    (r.answer t).2.cacheAt name
      = { r.cacheAt name with misses := (r.cacheAt name).misses + 1 }

/-- What a call returns that asks no cache: it is no hit, and all caches stay as they are, by
`answer_of_unasked`. -/
theorem answersFrom_of_unasked (hasked : t.call.askedKey? = none) (earlier : List Reply) :
    AnswersFrom name earlier r t := by
  obtain ⟨hown, hshared, hhit⟩ := answer_of_unasked (r := r) hasked
  have hnohit : ¬∃ rendered, (r.answer t).1 = .ok rendered ∧ rendered.cacheHit = true := by
    intro hsome
    have htrue : Reply.isHit ⟨t.call, (r.answer t).1⟩ = true := Reply.isHit_iff.2 hsome
    cases hhit.symm.trans htrue
  refine ⟨iff_of_false hnohit ?_, fun rendered hok hhit => absurd ⟨rendered, hok, hhit⟩ hnohit,
    fun _ => ⟨hown, hshared⟩, fun _ hsome => absurd hasked hsome⟩
  rintro ⟨key, hkey, -⟩
  cases hasked.symm.trans hkey

/-- What a call returns that asks the cache: it is a hit if the accounts have a text for its key,
and the text is that one. The three cases are those of `renderThrough_cases`. -/
theorem answersFrom_of_asked {earlier : List Reply} (hoffers : r.Offers name)
    (hselects : Selects name t) (haccounts : (r.cacheAt name).Accounts earlier)
    (hasked : t.call.askedKey? = some key) : AnswersFrom name earlier r t := by
  obtain ⟨template, configuration, hkey, houtcome, hcache, -⟩ :=
    answer_of_asked hoffers hselects hasked
  have hearlier : (∃ key, t.call.askedKey? = some key
      ∧ ∃ reply ∈ earlier, reply.returnedKey? = some key)
        ↔ (Cache.entry? (r.cacheAt name) key).isSome = true := by
    rw [hasked, ← Option.isSome_map, haccounts.found, firstContent?_isSome_iff]
    simp only [Option.some_inj, exists_eq_left']
  have hunasked : (t.call.usesCache = false ∨ ∃ fault, subject t.call = .error fault)
      ∨ t.call.askedKey? = none →
        (r.answer t).2.own = r.own ∧ (r.answer t).2.shared = r.shared := by
    rintro (hnone | hnone)
    · cases hasked.symm.trans (RenderCall.askedKey?_eq_none hnone)
    · cases hasked.symm.trans hnone
  rcases Cache.renderThrough_cases haccounts.maxSize haccounts.lifetime t.now hkey with
    ⟨e, he, hok⟩ | ⟨hnone, ⟨fault, herror⟩ | ⟨content, hok⟩⟩
  · -- A hit, with the text of the accounts.
    rw [hok] at houtcome hcache
    refine ⟨?_, fun rendered hrendered _ => ?_, hunasked, fun fault _ hfault => ?_⟩
    · rw [hearlier, he]
      exact iff_of_true ⟨_, houtcome, rfl⟩ rfl
    · cases houtcome.symm.trans hrendered
      rw [hasked, Option.bind_some, ← haccounts.found, he]
      rfl
    · cases houtcome.symm.trans hfault
  · -- A miss that fails.
    rw [herror] at houtcome hcache
    refine ⟨?_, fun rendered hrendered _ => ?_, hunasked, fun _ _ _ => hcache⟩
    · rw [hearlier, hnone, houtcome]
      exact iff_of_false (by rintro ⟨_, ⟨⟩, -⟩) (by rintro ⟨⟩)
    · cases houtcome.symm.trans hrendered
  · -- A miss that stores a text; what is returned is no hit.
    rw [hok] at houtcome hcache
    refine ⟨?_, fun rendered hrendered hhit => ?_, hunasked, fun fault _ hfault => ?_⟩
    · rw [hearlier, hnone, houtcome]
      exact iff_of_false (by rintro ⟨_, ⟨⟩, ⟨⟩⟩) (by rintro ⟨⟩)
    · cases houtcome.symm.trans hrendered
      cases hhit
    · cases houtcome.symm.trans hfault

/-- **One more call keeps the accounts**, whether it asks the cache (`Accounts.renderThrough`) or
not (`Accounts.append_unasked`). -/
theorem accounts_answer {earlier : List Reply} (hoffers : r.Offers name)
    (hselects : Selects name t) (haccounts : (r.cacheAt name).Accounts earlier) :
    (r.answer t).2.Offers name
      ∧ ((r.answer t).2.cacheAt name).Accounts (earlier ++ [⟨t.call, (r.answer t).1⟩]) := by
  cases hasked : t.call.askedKey? with
  | none =>
    obtain ⟨hown, hshared, hhit⟩ := answer_of_unasked (r := r) hasked
    have hcache : (r.answer t).2.cacheAt name = r.cacheAt name := by
      cases name with
      | none => exact hown
      | some i => rw [cacheAt, cacheAt, hown, hshared]
    rw [Offers, hshared, hcache]
    exact ⟨hoffers, haccounts.append_unasked hasked hhit⟩
  | some key =>
    obtain ⟨template, configuration, hkey, houtcome, hcache, hoffers'⟩ :=
      answer_of_asked hoffers hselects hasked
    rw [houtcome, hcache]
    exact ⟨hoffers', haccounts.renderThrough hasked hkey t.now⟩

/-- A sequence of calls keeps the accounts. Induction on the calls from the end, with
`accounts_answer` for the last one. -/
theorem accounts_afterCalls {calls : List (TimedCall Time)} (hoffers : r.Offers name)
    (hfresh : r.cacheAt name = Cache.empty none none) (hselects : ∀ t ∈ calls, Selects name t) :
    (r.afterCalls calls).Offers name
      ∧ ((r.afterCalls calls).cacheAt name).Accounts (r.replies calls) := by
  induction calls using List.reverseRecOn with
  | nil =>
    refine ⟨hoffers, ?_⟩
    rw [afterCalls, List.foldl_nil, hfresh]
    exact Cache.accounts_empty
  | append_singleton calls t ih =>
    rw [List.forall_mem_append, List.forall_mem_singleton] at hselects
    obtain ⟨hoffers', haccounts⟩ := ih hselects.1
    rw [afterCalls_append_singleton, replies_append_singleton]
    exact accounts_answer hoffers' hselects.2 haccounts

/-- **A sequence of calls.** Calls are made one after the other, and those that ask a cache all ask
the same one, which is empty at first and has no bounds. Then each call is a hit exactly if it asks
for a key that an earlier call asked for and returned, with the text of the first such call, calls
that ask no cache change none, and a call that fails after it has asked the cache adds a miss. In
the end the hits of the cache are the calls that were hits, its misses the others that asked it, and
it has as many entries as keys were returned. -/
theorem answersFrom_replies {calls : List (TimedCall Time)} (hoffers : r.Offers name)
    (hfresh : r.cacheAt name = Cache.empty none none) (hselects : ∀ t ∈ calls, Selects name t) :
    (∀ before t later, calls = before ++ t :: later →
        AnswersFrom name (r.replies before) (r.afterCalls before) t)
      ∧ ((r.afterCalls calls).cacheAt name).hits = (r.replies calls).countP Reply.isHit
      ∧ ((r.afterCalls calls).cacheAt name).misses = (r.replies calls).countP Reply.isMiss
      ∧ ((r.afterCalls calls).cacheAt name).size = (returnedKeys (r.replies calls)).length := by
  refine ⟨fun before t later hcalls => ?_, ?_⟩
  · rw [hcalls, List.forall_mem_append, List.forall_mem_cons] at hselects
    obtain ⟨hoffers', haccounts⟩ := accounts_afterCalls hoffers hfresh hselects.1
    cases hasked : t.call.askedKey? with
    | none => exact answersFrom_of_unasked hasked _
    | some key => exact answersFrom_of_asked hoffers' hselects.2.1 haccounts hasked
  · obtain ⟨-, haccounts⟩ := accounts_afterCalls hoffers hfresh hselects
    exact ⟨haccounts.hits, haccounts.misses, haccounts.size⟩

/-- Calls that greet: one through the first shared cache, the same one apart from the renderer, one
with caching off, and one that is refused. -/
def greetings : List (TimedCall Binary64) :=
  [⟨.zero, false, ⟨.text greeting, .mapping [("n", .text "Bob")], some ⟨true, some 0⟩, none, none⟩⟩,
    ⟨.zero, true, ⟨.text greeting, .mapping [("n", .text "Bob")], none, some true, some 0⟩⟩,
    ⟨.zero, false, ⟨.text greeting, .mapping [("n", .text "Bob")], none, none, none⟩⟩,
    ⟨.zero, false, ⟨.null, .mapping [], none, some true, some 0⟩⟩]
where
  /-- A greeting with a placeholder. -/
  greeting : String := "Hi \x7b\x7bn\x7d\x7d"

/-- Of the greetings one is a hit, and one asks the cache in vain for a text that is stored then. -/
theorem answersFrom_replies_greetings :
    let r : Renderer Binary64 Number := ⟨.empty none none, [.empty none none], .zero⟩
    let c := (r.afterCalls greetings).cacheAt (some 0)
    c.hits = 1 ∧ c.misses = 1 ∧ c.size = 1 := by
  intro r c
  have hthere (t : TimedCall Binary64) (hname : t.call.namedCache = some 0) :
      Selects (some 0) t := fun _ => ⟨hname, fun _ => Option.some_ne_none 0⟩
  have hselects : ∀ t ∈ greetings, Selects (some 0) t := by
    simp only [greetings, List.forall_mem_cons]
    exact ⟨hthere _ rfl, hthere _ rfl, fun hasked => absurd rfl hasked, hthere _ rfl,
      fun _ h => absurd h List.not_mem_nil⟩
  have hoffers : r.Offers (some 0) := by
    rintro i ⟨⟩
    exact Nat.zero_lt_one
  obtain ⟨-, hhits, hmisses, hsize⟩ := answersFrom_replies hoffers rfl hselects
  rw [hhits, hmisses, hsize]
  decide +kernel

end Renderer

end Templating
