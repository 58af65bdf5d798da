import Mathlib.Algebra.Order.Ring.Cast
import Mathlib.Data.Finset.Card
import Mathlib.Data.Finset.Dedup
import Mathlib.Data.List.Induction
import Mathlib.Data.List.TakeWhile
import Templating.Proofs.Cache.Operations

/-!
# The history of a cache

What a cache answers is decided by what was done to it. The last operation that stored a text under
a key, dropped the key or cleared the cache decides what may be found under the key, and the keys
used since the key was last used itself decide whether it has given way to others. Three facts hold
after every sequence of operations on an empty cache, and each is carried by what one operation
does: every entry was stored by the last operation that decided its key; the entries stand in the
order in which their keys were last used; and what was stored last under a key is still there,
unless it is too old or as many other keys as the cache may hold were used since.

## Main definitions

* `Cache.LastSet`: the last operation that decided a key stored a text under it.
* `Cache.usedSince`: the keys used since a key was last used.
* `Cache.AgreesWith`, `Cache.InOrderOfUse`: what holds of the entries after a history.
* `Cache.exactTimeline`: times that are exact numbers.

## Main results

* `Cache.agreesWith_after`, `Cache.inOrderOfUse_after`: these hold after every history.
* `Cache.isRetained_after`: what was stored last is still there, or was displaced.
* `Cache.less_binary_eq`: exact ages are compared with spans as the numbers that hold them.
* `Cache.get_after_history`: what is found, and when.
-/

namespace Templating.Cache

/-! ### What a history tells -/

/-- Whether an operation decides what may be found under a key: storing under it, invalidating it,
or clearing the cache. Asking for a text decides nothing. -/
def Operation.decides (key : String) : Operation → Bool
  | .set key' _ => key' == key
  | .invalidate key' => key' == key
  | .clear => true
  | .get _ => false
  | .contains _ => false

section Decided

variable {Time : Type} {history : History Time} {key content : String} {now stored : Time}
  {op : Operation}

/-- The last operation that decided a key stored a text under it. -/
def LastSet (history : History Time) (key content : String) (stored : Time) : Prop :=
  ∃ before after, history = before ++ (stored, .set key content) :: after
    ∧ ∀ event ∈ after, event.2.decides key = false

theorem not_lastSet_nil : ¬LastSet ([] : History Time) key content stored := by
  rintro ⟨before, after, h, -⟩
  exact absurd h.symm (List.append_ne_nil_of_right_ne_nil _ (List.cons_ne_nil _ _))

/-- One more operation either stores the text itself, or leaves the decision alone. This is what the
inductions on a history from its end go by. -/
theorem lastSet_append_singleton :
    LastSet (history ++ [(now, op)]) key content stored
      ↔ (op = .set key content ∧ now = stored)
        ∨ (op.decides key = false ∧ LastSet history key content stored) := by
  constructor
  · rintro ⟨before, after, h, hafter⟩
    rcases List.eq_nil_or_concat after with rfl | ⟨after, event, rfl⟩
    · obtain ⟨-, hlast⟩ := List.append_inj' h rfl
      obtain ⟨hnow, hop⟩ := Prod.ext_iff.1 (List.cons_eq_cons.1 hlast).1
      exact .inl ⟨hop, hnow⟩
    · rw [List.concat_eq_append] at h hafter
      rw [← List.cons_append, ← List.append_assoc] at h
      obtain ⟨rfl, hlast⟩ := List.append_inj' h rfl
      obtain ⟨rfl, -⟩ := List.cons_eq_cons.1 hlast
      have hop : op.decides key = false :=
        hafter (now, op) (List.mem_append_right _ (List.mem_singleton_self _))
      refine .inr ⟨hop, before, after, rfl, fun event hevent => ?_⟩
      exact hafter event (List.mem_append_left _ hevent)
  · rintro (⟨rfl, rfl⟩ | ⟨hop, before, after, rfl, hafter⟩)
    · exact ⟨history, [], rfl, fun event hevent => absurd hevent List.not_mem_nil⟩
    · refine ⟨before, after ++ [(now, op)], by rw [List.append_assoc, List.cons_append], ?_⟩
      intro event hevent
      rcases List.mem_append.1 hevent with hevent | hevent
      · exact hafter event hevent
      · obtain rfl := List.mem_singleton.1 hevent
        exact hop

/-- A history tells one text and one time at most. Induction from its end by
`lastSet_append_singleton`. -/
theorem LastSet.unique {content' : String} {stored' : Time}
    (h : LastSet history key content stored) (h' : LastSet history key content' stored') :
    content = content' ∧ stored = stored' := by
  induction history using List.reverseRecOn with
  | nil => exact absurd h not_lastSet_nil
  | append_singleton history event ih =>
    obtain ⟨now, op⟩ := event
    rcases lastSet_append_singleton.1 h with ⟨rfl, rfl⟩ | ⟨hop, hbefore⟩
    · rcases lastSet_append_singleton.1 h' with ⟨heq, rfl⟩ | ⟨hop', -⟩
      · cases heq
        exact ⟨rfl, rfl⟩
      · rw [Operation.decides, beq_self_eq_true] at hop'
        cases hop'
    · rcases lastSet_append_singleton.1 h' with ⟨rfl, rfl⟩ | ⟨-, hbefore'⟩
      · rw [Operation.decides, beq_self_eq_true] at hop
        cases hop
      · exact ih hbefore hbefore'

end Decided

/-! ### The order of use -/

/-- Of keys in the order of their use, those used since a key was last used, with repetitions and
the latest first. -/
def usedSince (key : String) (used : List String) : List String :=
  used.reverse.takeWhile (· != key)

/-- A key is not among those used since it was used itself. -/
theorem ne_of_mem_usedSince {key other : String} {used : List String}
    (h : other ∈ usedSince key used) : other ≠ key :=
  bne_iff_ne.1 (List.mem_takeWhile_imp (p := (· != key)) h)

/-- Using another key adds it to `usedSince`. -/
theorem usedSince_append_singleton {key other : String} (h : other ≠ key) (used : List String) :
    usedSince key (used ++ [other]) = other :: usedSince key used := by
  rw [usedSince, List.reverse_append, List.reverse_singleton, List.singleton_append,
    List.takeWhile_cons, if_pos (bne_iff_ne.2 h)]
  rfl

variable {Time Span : Type}

/-- The entries stand in the order in which their keys were last used: a key was used since any of
those before it. -/
def InOrderOfUse (used : List String) (entries : List (CacheEntry Time)) : Prop :=
  entries.Pairwise fun e e' => e'.key ∈ usedSince e.key used

section InOrderOfUse

variable {used : List String} {entries : List (CacheEntry Time)} {c : Cache Time Span}

theorem InOrderOfUse.sublist {entries' : List (CacheEntry Time)} (h : InOrderOfUse used entries)
    (hsub : entries'.Sublist entries) : InOrderOfUse used entries' :=
  List.Pairwise.sublist hsub h

/-- The key of no two entries is the same, because a key is never among those used since itself
(`ne_of_mem_usedSince`). -/
theorem InOrderOfUse.nodup_keys (h : InOrderOfUse used entries) :
    (entries.map (·.key)).Nodup :=
  List.pairwise_map.2 (h.imp fun hmem => (ne_of_mem_usedSince hmem).symm)

/-- **An entry whose key is used comes last.** The entries under other keys keep their order, and
their keys were used before this one. -/
theorem InOrderOfUse.append_singleton (h : InOrderOfUse used c.entries) (e : CacheEntry Time) :
    InOrderOfUse (used ++ [e.key]) (c.others e.key ++ [e]) := by
  refine List.pairwise_append.2 ⟨?_, List.pairwise_singleton _ e, fun first hfirst last hlast => ?_⟩
  · refine List.Pairwise.imp_of_mem ?_ (List.Pairwise.sublist List.filter_sublist h)
    intro first second hfirst _ hmem
    rw [usedSince_append_singleton (mem_others_iff.1 hfirst).2.symm]
    exact List.mem_cons_of_mem _ hmem
  · obtain rfl := List.mem_singleton.1 hlast
    rw [usedSince_append_singleton (mem_others_iff.1 hfirst).2.symm]
    exact List.mem_cons_self

/-- If an entry is not among the last ones, the keys of these were all used since its own; being
different, they are as many keys as entries. -/
theorem InOrderOfUse.length_drop_le (h : InOrderOfUse used entries) {e : CacheEntry Time}
    (he : e ∈ entries) {n : Nat} (hdropped : e ∉ entries.drop n) :
    entries.length - n ≤ (usedSince e.key used).toFinset.card := by
  have hsplit := List.take_append_drop n entries
  have htaken : e ∈ entries.take n := by
    rw [← hsplit] at he
    exact (List.mem_append.1 he).resolve_right hdropped
  rw [InOrderOfUse, ← hsplit, List.pairwise_append] at h
  obtain ⟨-, hkept, hsince⟩ := h
  have hsubset : ((entries.drop n).map (·.key)).toFinset ⊆ (usedSince e.key used).toFinset := by
    intro key hkey
    obtain ⟨e', he', rfl⟩ := List.mem_map.1 (List.mem_toFinset.1 hkey)
    exact List.mem_toFinset.2 (hsince e htaken e' he')
  calc entries.length - n = ((entries.drop n).map (·.key)).length := by
        rw [List.length_map, List.length_drop]
    _ = ((entries.drop n).map (·.key)).toFinset.card :=
        (List.toFinset_card_of_nodup (InOrderOfUse.nodup_keys hkept)).symm
    _ ≤ (usedSince e.key used).toFinset.card := Finset.card_le_card hsubset

end InOrderOfUse

/-! ### Invariants -/

section Invariants

variable [Timeline Time Span] {history : History Time} {c : Cache Time Span} {now : Time}
  {op : Operation} {entries : List (CacheEntry Time)} {used : List String}

/-- Every entry was stored by the last operation that decided its key, as `LastSet` says. -/
def AgreesWith (history : History Time) (entries : List (CacheEntry Time)) : Prop :=
  ∀ e ∈ entries, LastSet history e.key e.content e.stored

/-- An operation keeps the entries in order. The cases are the effects of `Effect`: what is stored
or found goes to the end by `InOrderOfUse.append_singleton`, and all others only drop entries. -/
theorem Effect.inOrderOfUse {key? : Option String} (h : Effect c now op entries key?)
    (horder : InOrderOfUse used c.entries) : InOrderOfUse (used ++ key?.toList) entries := by
  cases h with
  | stored key content =>
    exact (horder.append_singleton ⟨key, content, now⟩).sublist (List.drop_sublist _ _)
  | found he _ =>
    obtain rfl := entry?_key he
    exact horder.append_singleton _
  | expired _ _ => exact (List.append_nil used).symm ▸ horder.sublist List.filter_sublist
  | missing _ => exact (List.append_nil used).symm ▸ horder
  | asked _ => exact (List.append_nil used).symm ▸ horder
  | dropped _ => exact (List.append_nil used).symm ▸ horder.sublist List.filter_sublist
  | cleared => exact List.Pairwise.nil

/-- After an operation an entry is one that the operation does not decide, or the one it stored. The
cases are those of `Effect`. -/
theorem Effect.mem {key? : Option String} (h : Effect c now op entries key?) {e : CacheEntry Time}
    (he : e ∈ entries) : (op.decides e.key = false ∧ e ∈ c.entries)
      ∨ (op = .set e.key e.content ∧ now = e.stored) := by
  cases h with
  | stored key content =>
    rcases List.mem_append.1 (List.mem_of_mem_drop he) with hother | hlast
    · obtain ⟨hmem, hne⟩ := mem_others_iff.1 hother
      exact .inl ⟨beq_false_of_ne hne.symm, hmem⟩
    · obtain rfl := List.mem_singleton.1 hlast
      exact .inr ⟨rfl, rfl⟩
  | found hfound _ =>
    rcases List.mem_append.1 he with hother | hlast
    · exact .inl ⟨rfl, (mem_others_iff.1 hother).1⟩
    · obtain rfl := List.mem_singleton.1 hlast
      exact .inl ⟨rfl, entry?_mem hfound⟩
  | expired _ _ => exact .inl ⟨rfl, (mem_others_iff.1 he).1⟩
  | missing _ => exact .inl ⟨rfl, he⟩
  | asked _ => exact .inl ⟨rfl, he⟩
  | dropped key =>
    obtain ⟨hmem, hne⟩ := mem_others_iff.1 he
    exact .inl ⟨beq_false_of_ne hne.symm, hmem⟩
  | cleared => exact absurd he List.not_mem_nil

/-- An operation keeps the entries in agreement with the history, by `Effect.mem` and
`lastSet_append_singleton`. -/
theorem Effect.agreesWith {key? : Option String} (h : Effect c now op entries key?)
    (hagrees : AgreesWith history c.entries) : AgreesWith (history ++ [(now, op)]) entries := by
  intro e he
  rcases h.mem he with ⟨hop, hbefore⟩ | hset
  · exact lastSet_append_singleton.2 (.inr ⟨hop, hagrees e hbefore⟩)
  · exact lastSet_append_singleton.2 (.inl hset)

variable (maxSize : Option Nat) (lifetime : Option Span)

/-- **After every history the entries stand in the order of use.** Induction from its end with
`Effect.inOrderOfUse`. -/
theorem inOrderOfUse_after (history : History Time) :
    InOrderOfUse ((empty maxSize lifetime).usedKeys history)
      ((empty maxSize lifetime : Cache Time Span).after history).entries := by
  induction history using List.reverseRecOn with
  | nil => exact List.Pairwise.nil
  | append_singleton history event ih =>
    rw [after_append_singleton, usedKeys_append_singleton]
    exact (effect_perform _ _ _).inOrderOfUse ih

/-- **After every history the entries agree with it.** Induction from its end with
`Effect.agreesWith`. -/
theorem agreesWith_after (history : History Time) :
    AgreesWith history ((empty maxSize lifetime : Cache Time Span).after history).entries := by
  induction history using List.reverseRecOn with
  | nil => exact fun e he => absurd he List.not_mem_nil
  | append_singleton history event ih =>
    rw [after_append_singleton]
    exact (effect_perform _ _ _).agreesWith ih

end Invariants

/-! ### What is still there -/

section Retained

variable {used : List String} {c : Cache Time Span}

/-- An entry is still there, or as many other keys as the cache may hold were used since its own.
This is what is kept from the time a text is stored on. -/
def IsRetained (maxSize : Option Nat) (used : List String) (e : CacheEntry Time)
    (entries : List (CacheEntry Time)) : Prop :=
  e ∈ entries ∨ ∃ bound, maxSize = some bound ∧ bound ≤ (usedSince e.key used).toFinset.card

/-- The use of another key does not bring an entry back. -/
theorem card_usedSince_le {key other : String} (h : other ≠ key) (used : List String) :
    (usedSince key used).toFinset.card ≤ (usedSince key (used ++ [other])).toFinset.card := by
  rw [usedSince_append_singleton h, List.toFinset_cons]
  exact Finset.card_le_card (Finset.subset_insert _ _)

/-- A text that is stored is there, unless the cache may hold nothing; then no keys need to have
been used. -/
theorem isRetained_stored (c : Cache Time Span) (now : Time) (key content : String)
    (used : List String) :
    IsRetained c.maxSize used ⟨key, content, now⟩ (c.storedEntries now key content) := by
  have hlast : (⟨key, content, now⟩ : CacheEntry Time) ∈ c.others key ++ [⟨key, content, now⟩] :=
    List.mem_append_right _ (List.mem_singleton_self _)
  rw [storedEntries, List.length_append, List.length_singleton, excess]
  cases c.maxSize with
  | none => exact .inl hlast
  | some bound =>
    rcases Nat.eq_zero_or_pos bound with rfl | hpos
    · exact .inr ⟨0, rfl, Nat.zero_le _⟩
    · dsimp only
      rw [List.drop_append_of_le_length (by omega)]
      exact .inl (List.mem_append_right _ (List.mem_singleton_self _))

/-- Storing a text displaces an entry only if as many other keys as the cache may hold were used
since its own, by `InOrderOfUse.length_drop_le`. -/
theorem isRetained_of_mem (horder : InOrderOfUse used c.entries) {e : CacheEntry Time}
    (he : e ∈ c.entries) {key : String} (hne : key ≠ e.key) (now : Time) (content : String) :
    IsRetained c.maxSize (used ++ [key]) e (c.storedEntries now key content) := by
  have hstored : InOrderOfUse (used ++ [key]) (c.others key ++ [⟨key, content, now⟩]) :=
    horder.append_singleton ⟨key, content, now⟩
  have hmem : e ∈ c.others key ++ [⟨key, content, now⟩] :=
    List.mem_append_left _ (mem_others_iff.2 ⟨he, hne.symm⟩)
  by_cases hkept : e ∈ c.storedEntries now key content
  · exact .inl hkept
  · have hmany := hstored.length_drop_le hmem hkept
    rw [storedEntries, excess] at hkept
    rw [excess] at hmany
    cases hsize : c.maxSize with
    | none =>
      rw [hsize] at hkept
      exact absurd hmem hkept
    | some bound =>
      rw [hsize] at hkept hmany
      dsimp only at hkept hmany
      -- If the bound were not exceeded, nothing would have been displaced.
      have hexceeded :
          bound < (c.others key ++ [(⟨key, content, now⟩ : CacheEntry Time)]).length := by
        by_contra hle
        rw [Nat.sub_eq_zero_of_le (not_lt.1 hle)] at hkept
        exact hkept hmem
      exact .inr ⟨bound, rfl, by omega⟩

variable [Timeline Time Span] {now : Time} {op : Operation} {entries : List (CacheEntry Time)}
  {history : History Time}

/-- An operation that does not decide the key of an entry, at a time when the entry is not too old,
leaves it there, or displaces it. Once it is displaced, the use of other keys does not bring it back
(`card_usedSince_le`). -/
theorem Effect.isRetained {key? : Option String} (h : Effect c now op entries key?)
    (horder : InOrderOfUse used c.entries) {e : CacheEntry Time}
    (hfixed : ∀ e' ∈ c.entries, e'.key = e.key → e' = e) (hop : op.decides e.key = false)
    (hage : c.isExpired now e = false) (hretained : IsRetained c.maxSize used e c.entries) :
    IsRetained c.maxSize (used ++ key?.toList) e entries := by
  -- Once enough other keys were used, more uses of other keys keep it so.
  have hdisplaced {key : String} (hne : key ≠ e.key)
      (hmany : ∃ bound, c.maxSize = some bound ∧ bound ≤ (usedSince e.key used).toFinset.card) :
      IsRetained c.maxSize (used ++ [key]) e entries := by
    obtain ⟨bound, hsize, hle⟩ := hmany
    exact .inr ⟨bound, hsize, hle.trans (card_usedSince_le hne used)⟩
  cases h with
  | stored key content =>
    have hne : key ≠ e.key := ne_of_beq_false hop
    rcases hretained with hmem | hmany
    · exact isRetained_of_mem horder hmem hne now content
    · exact hdisplaced hne hmany
  | @found key e' hfound _ =>
    have hkey := entry?_key hfound
    by_cases heq : key = e.key
    · obtain rfl := hfixed e' (entry?_mem hfound) (hkey.trans heq)
      exact .inl (List.mem_append_right _ (List.mem_singleton_self _))
    · rcases hretained with hmem | hmany
      · exact .inl (List.mem_append_left _ (mem_others_iff.2 ⟨hmem, Ne.symm heq⟩))
      · exact hdisplaced heq hmany
  | @expired key e' hfound hold =>
    rw [Option.toList_none, List.append_nil]
    have hne : e.key ≠ key := by
      rintro heq
      -- The entry in question is not expired, so it is another one that is dropped.
      obtain rfl := hfixed e' (entry?_mem hfound) ((entry?_key hfound).trans heq.symm)
      cases hage.symm.trans hold
    exact hretained.imp_left fun hmem => mem_others_iff.2 ⟨hmem, hne⟩
  | missing _ => exact (List.append_nil used).symm ▸ hretained
  | asked _ => exact (List.append_nil used).symm ▸ hretained
  | dropped key =>
    rw [Option.toList_none, List.append_nil]
    have hne : key ≠ e.key := ne_of_beq_false hop
    exact hretained.imp_left fun hmem => mem_others_iff.2 ⟨hmem, hne.symm⟩
  | cleared => cases hop

variable (maxSize : Option Nat) (lifetime : Option Span)

/-- **What was stored last under a key is still there, if it was never too old, or it was
displaced.** Induction on the history from its end with `Effect.isRetained`. -/
theorem isRetained_after {key content : String} {stored : Time}
    (hset : LastSet history key content stored)
    (hage : ∀ event ∈ history,
      (lifetime.any fun span => Timeline.exceeds stored event.1 span) = false) :
    IsRetained maxSize ((empty maxSize lifetime).usedKeys history) ⟨key, content, stored⟩
      ((empty maxSize lifetime : Cache Time Span).after history).entries := by
  induction history using List.reverseRecOn with
  | nil => exact absurd hset not_lastSet_nil
  | append_singleton history event ih =>
    obtain ⟨now, op⟩ := event
    rw [after_append_singleton, usedKeys_append_singleton]
    obtain ⟨hsize, hlifetime⟩ := (empty maxSize lifetime : Cache Time Span).bounds_after history
    have hagrees := agreesWith_after maxSize lifetime history
    have horder : InOrderOfUse ((empty maxSize lifetime).usedKeys history)
        ((empty maxSize lifetime : Cache Time Span).after history).entries :=
      inOrderOfUse_after maxSize lifetime history
    rcases lastSet_append_singleton.1 hset with ⟨rfl, rfl⟩ | ⟨hop, hbefore⟩
    · -- The last event stores the text itself.
      have hretained := isRetained_stored ((empty maxSize lifetime : Cache Time Span).after history)
        now key content ((empty maxSize lifetime).usedKeys history ++ [key])
      rw [hsize] at hretained
      exact hretained
    · -- The last event is another one, and the text was retained before it.
      have hfixed : ∀ e' ∈ ((empty maxSize lifetime : Cache Time Span).after history).entries,
          e'.key = key → e' = ⟨key, content, stored⟩ := by
        rintro ⟨key', content', stored'⟩ he' (rfl : key' = key)
        obtain ⟨rfl, rfl⟩ := (hagrees _ he').unique hbefore
        rfl
      have hfresh : ((empty maxSize lifetime : Cache Time Span).after history).isExpired now
          ⟨key, content, stored⟩ = false := by
        rw [isExpired, hlifetime]
        exact hage (now, op) (List.mem_append_right _ (List.mem_singleton_self _))
      have hretained := (effect_perform _ now op).isRetained horder
        (e := ⟨key, content, stored⟩) hfixed hop hfresh <| by
          rw [hsize]
          exact ih hbefore fun event hevent => hage event (List.mem_append_left _ hevent)
      rw [hsize] at hretained
      exact hretained

/-- **A text that is found was stored by the last operation that decided its key, and is not too
old**, because its entry agrees with the history (`agreesWith_after`). -/
theorem lastSet_of_get {key content : String}
    (h : (((empty maxSize lifetime : Cache Time Span).after history).get now key).1
      = some content) :
    ∃ stored, LastSet history key content stored
      ∧ (lifetime.any fun span => Timeline.exceeds stored now span) = false := by
  obtain ⟨e, he, hage, rfl⟩ := get_eq_some_iff.1 h
  obtain rfl := entry?_key he
  rw [isExpired, (bounds_after _ history).2] at hage
  exact ⟨e.stored, agreesWith_after maxSize lifetime history e (entry?_mem he), hage⟩

/-- **A text that was stored last under its key is found**, if it was never too old and is not, and
if fewer other keys than the cache may hold were used since its own: `isRetained_after` leaves no
other way. -/
theorem get_of_lastSet {key content : String} {stored : Time}
    (hset : LastSet history key content stored)
    (hage : ∀ event ∈ history,
      (lifetime.any fun span => Timeline.exceeds stored event.1 span) = false)
    (hnow : (lifetime.any fun span => Timeline.exceeds stored now span) = false)
    (hfew : ∀ bound ∈ maxSize,
      (usedSince key ((empty maxSize lifetime).usedKeys history)).toFinset.card < bound) :
    (((empty maxSize lifetime : Cache Time Span).after history).get now key).1
      = some content := by
  rcases isRetained_after maxSize lifetime hset hage with hmem | ⟨bound, hbound, hmany⟩
  · obtain ⟨e, he⟩ := exists_entry?_of_mem hmem
    have hagrees := agreesWith_after maxSize lifetime history e (entry?_mem he)
    rw [entry?_key he] at hagrees
    obtain ⟨hcontent, hstored⟩ := hagrees.unique hset
    refine get_eq_some_iff.2 ⟨e, he, ?_, hcontent⟩
    rw [isExpired, (bounds_after _ history).2, hstored]
    exact hnow
  · exact absurd (hfew bound hbound) (not_lt.2 hmany)

end Retained

/-! ### Exact times -/

section Exact

variable {K : Type} [CommRing K] [LinearOrder K]

/-- An exact number of seconds lies at a place on the line of numbers or below it. -/
def IsBelow (age : K) : Place → Prop
  | .bottom => False
  | .units u => age * unitsPerOne ≤ u
  | .top => True

/-- How old an entry is can be compared with a number. -/
instance (age : K) (place : Place) : Decidable (IsBelow age place) :=
  match place with
  | .bottom => inferInstanceAs (Decidable False)
  | .units u => inferInstanceAs (Decidable (age * unitsPerOne ≤ u))
  | .top => inferInstanceAs (Decidable True)

/-- An exact number of seconds is at most a span. No age is more than not-a-number. -/
def IsAtMost (age : K) (span : Number) : Prop :=
  ∀ place ∈ span.place, IsBelow age place

/-- How old an entry is can be compared with a number. -/
instance (age : K) (span : Number) : Decidable (IsAtMost age span) :=
  inferInstanceAs (Decidable (∀ place ∈ span.place, IsBelow age place))

/-- Times that are exact numbers of seconds, of which differences are exact as well. -/
instance (priority := low) exactTimeline : Timeline K Number where
  exceeds stored now span := !decide (IsAtMost (now - stored) span)

/-- An age is at most a number if it is at most its place on the line of numbers. -/
theorem isAtMost_iff {age : K} {span : Number} {place : Place} (h : span.place = some place) :
    IsAtMost age span ↔ IsBelow age place := by
  constructor
  · exact fun hall => hall place h
  · intro hbelow place' hplace'
    cases h.symm.trans hplace'
    exact hbelow

/-- A time lies at most a lifetime back, if there is one, exactly if `Timeline.exceeds` says so. -/
theorem any_exceeds_eq_false {lifetime : Option Number} {stored now : K} :
    (lifetime.any fun span => Timeline.exceeds stored now span) = false
      ↔ ∀ span ∈ lifetime, IsAtMost (now - stored) span := by
  rw [Option.any_eq_false]
  refine forall_congr' fun span => forall_congr' fun _ => ?_
  rw [Timeline.exceeds, exactTimeline, Bool.not_eq_false', decide_eq_true_iff]

variable [IsStrictOrderedRing K]

/-- An age is compared with a whole number of seconds as it is. -/
theorem isAtMost_int {age : K} {i : Int} : IsAtMost age (.int i) ↔ age ≤ i := by
  have hpos : (0 : K) < unitsPerOne := Nat.cast_pos.2 (by decide +kernel)
  rw [isAtMost_iff rfl, IsBelow, Int.cast_mul, Int.cast_natCast, mul_le_mul_iff_left₀ hpos]

/-- An age that is less is at most a span as well. -/
theorem IsAtMost.mono {age age' : K} {span : Number} (h : IsAtMost age span) (hle : age' ≤ age) :
    IsAtMost age' span := by
  intro place hplace
  have hbelow := h place hplace
  cases place with
  | bottom => exact hbelow
  | units u => exact (mul_le_mul_of_nonneg_right hle (Nat.cast_nonneg _)).trans hbelow
  | top => trivial

/-- An exact age that a floating point number holds is compared with a span as `Number.less`
compares the number, so the exact timeline agrees with the one of floating point times wherever no
difference is rounded. -/
theorem less_binary_eq {x : Binary64} {u : Int} (hplace : (Number.binary x).place = some (.units u))
    {age : K} (hage : age * unitsPerOne = u) (span : Number) :
    span.less (.binary x) = !decide (IsAtMost age span) := by
  rw [Number.less, hplace]
  cases hspan : span.place with
  | none =>
    have hall : IsAtMost age span := fun place h => by cases hspan.symm.trans h
    rw [decide_eq_true hall]
    rfl
  | some place =>
    have hbelow : decide (IsAtMost age span) = decide (IsBelow age place) :=
      decide_eq_decide.2 (isAtMost_iff hspan)
    rw [hbelow]
    cases place with
    | bottom => rfl
    | units v =>
      dsimp only [Place.before]
      rw [← decide_not, decide_eq_decide, IsBelow, hage, Int.cast_le, not_le]
    | top => rfl

/-- **A cache with exact times that never go back agrees with its history.** A text that is found
was stored by the last operation that decided its key, at most the lifetime ago. If that operation
stored a text, at most the lifetime ago, and fewer other keys than the cache may hold were used
since the key was, the text is found. A key is contained exactly if its text would be found, and
asking whether it is contained changes nothing. -/
theorem get_after_history {maxSize : Option Int} {lifetime : Option Number} {fresh : Cache K Number}
    (hopen : open? maxSize lifetime = .ok fresh) {history : History K} {now : K}
    (hclock : ∀ event ∈ history, event.1 ≤ now) (key : String) :
    (∀ content, ((fresh.after history).get now key).1 = some content →
        ∃ stored, LastSet history key content stored
          ∧ ∀ span ∈ lifetime, IsAtMost (now - stored) span)
      ∧ (∀ content stored, LastSet history key content stored →
        (∀ span ∈ lifetime, IsAtMost (now - stored) span) →
        (∀ bound ∈ maxSize,
          ((usedSince key (fresh.usedKeys history)).toFinset.card : Int) < bound) →
        ((fresh.after history).get now key).1 = some content)
      ∧ ((fresh.after history).contains now key = true
        ↔ ∃ content, ((fresh.after history).get now key).1 = some content)
      ∧ (fresh.after history).perform now (.contains key) = fresh.after history := by
  obtain rfl := open?_eq_ok hopen
  refine ⟨fun content h => ?_, fun content stored hset hage hfew => ?_, contains_iff, rfl⟩
  · obtain ⟨stored, hset, hage⟩ := lastSet_of_get _ _ h
    exact ⟨stored, hset, any_exceeds_eq_false.1 hage⟩
  · refine get_of_lastSet _ _ hset (fun event hevent => ?_) (any_exceeds_eq_false.2 hage) ?_
    · exact any_exceeds_eq_false.2 fun span hspan =>
        (hage span hspan).mono (sub_le_sub_right (hclock event hevent) stored)
    · rintro bound hbound
      obtain ⟨size, hsize, rfl⟩ := Option.map_eq_some_iff.1 hbound
      have := hfew size hsize
      omega

/-- Of three texts in a cache for two, the one that was used again is found and not the other. -/
theorem get_after_history_three_texts :
    let history : History ℤ := [(0, .set "a" "first"), (1, .set "b" "second"), (2, .get "a"),
      (3, .set "c" "third")]
    ∃ fresh : Cache ℤ Number, open? (some 2) (some (.int 10)) = .ok fresh
      ∧ ((fresh.after history).get 10 "a").1 = some "first"
      ∧ ((fresh.after history).get 11 "a").1 = none
      ∧ ((fresh.after history).get 10 "b").1 = none := by
  intro history
  have hopen : open? (some 2) (some (.int 10))
      = .ok (empty (some 2) (some (.int 10)) : Cache ℤ Number) := by
    rw [open?, if_neg (by decide), if_neg (by decide +kernel)]
    rfl
  have hclock : ∀ event ∈ history, event.1 ≤ 10 := by decide
  have hagrees := get_after_history hopen hclock "a"
  refine ⟨_, hopen, hagrees.2.1 "first" 0 ?_ ?_ ?_, by decide +kernel, by decide +kernel⟩
  · exact ⟨[], _, rfl, by decide⟩
  · rintro span ⟨⟩
    exact isAtMost_int.2 (by decide)
  · decide +kernel

end Exact

end Templating.Cache
