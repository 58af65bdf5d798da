import Templating.Proofs.Value.Rearrangement
import Templating.Value.Path

/-!
# Places in a value

A list of keys leads from a value to what stands under the first key, from there to what stands
under the second, and so on. Unlike a path, such a list may hold empty keys; where it holds none,
the two lead to the same. Only a mapping has anything below it. What stands at all the places of a
value tells the value up to the order of the entries of its mappings.

## Main definitions

* `Value.at?`: what stands at a list of keys.
* `Value.IsKeyed`: no mapping at any place has two entries with one key.
* `Value.AlikeAt`: what may stand at one place of two values that are alike.

## Main results

* `segments_injective`: a path is given by its segments.
* `Value.at?_append`: one list of keys after another.
* `Value.resolve_eq_at?`: a path without an empty segment leads where its segments lead.
* `Value.rearranges_of_alikeAt`: values that are alike at all places are rearranged.
-/

namespace Templating

open Templating.Text

/-! ### Segments -/

theorem splitOn_ne_nil (separator : Char) (cs : List Char) : splitOn separator cs ≠ [] := by
  fun_cases splitOn separator cs <;> exact List.cons_ne_nil _ _

/-- The parts of a text with the separator between them make up the text. Induction along
`splitOn`. -/
theorem intercalate_splitOn (separator : Char) (cs : List Char) :
    [separator].intercalate (splitOn separator cs) = cs := by
  fun_induction splitOn separator cs with
  | case1 => rfl
  | case2 cs ih =>
    rw [List.intercalate_cons_of_ne_nil (splitOn_ne_nil separator cs), ih]
    rfl
  | case3 c cs _ hnil => exact absurd hnil (splitOn_ne_nil separator cs)
  | case4 c cs _ part parts hparts ih =>
    rw [hparts] at ih
    rw [← ih]
    cases parts with
    | nil => rw [List.intercalate_singleton, List.intercalate_singleton]
    | cons next rest =>
      rw [List.intercalate_cons_cons, List.intercalate_cons_cons, List.append_assoc,
        List.append_assoc]
      rfl

/-- A path is given by its `segments`: with dots between them they make up the path
(`intercalate_splitOn`). -/
theorem segments_injective : Function.Injective segments := by
  intro p q h
  have hsplit := (List.map_injective_iff.2 fun _ _ => String.ofList_injective) h
  have hjoin := congrArg (List.intercalate ['.']) hsplit
  rw [intercalate_splitOn, intercalate_splitOn] at hjoin
  exact String.toList_injective hjoin

theorem segments_ne_nil (path : String) : segments path ≠ [] :=
  mt List.map_eq_nil_iff.1 (splitOn_ne_nil '.' path.toList)

/-- A text without the separator is the only part of it. -/
theorem splitOn_eq_singleton_iff {separator : Char} {cs part : List Char} :
    splitOn separator cs = [part] ↔ cs = part ∧ separator ∉ cs := by
  constructor
  · intro h
    have hjoined := intercalate_splitOn separator cs
    rw [h, List.intercalate_singleton] at hjoined
    refine ⟨hjoined.symm, ?_⟩
    clear hjoined
    fun_induction splitOn separator cs generalizing part with
    | case1 => exact List.not_mem_nil
    | case2 cs => exact absurd (List.cons.inj h).2 (splitOn_ne_nil _ _)
    | case3 c cs _ hnil => exact absurd hnil (splitOn_ne_nil _ _)
    | case4 c cs hc first parts hparts ih =>
      obtain ⟨-, rfl⟩ := List.cons.inj h
      rw [List.mem_cons, not_or]
      exact ⟨Ne.symm hc, ih hparts⟩
  · rintro ⟨rfl, hnot⟩
    induction cs with
    | nil => rfl
    | cons c cs ih =>
      rw [List.mem_cons, not_or] at hnot
      rw [splitOn, if_neg (Ne.symm hnot.1), ih hnot.2]

/-- A path without a dot is the only one of its `segments`. -/
theorem segments_eq_singleton_iff {path name : String} :
    segments path = [name] ↔ path = name ∧ '.' ∉ path.toList := by
  constructor
  · intro h
    obtain ⟨part, hsplit, rfl⟩ := List.map_eq_singleton_iff.1 h
    obtain ⟨rfl, hpoint⟩ := splitOn_eq_singleton_iff.1 hsplit
    exact ⟨String.ofList_toList.symm, hpoint⟩
  · rintro ⟨rfl, hpoint⟩
    rw [segments, splitOn_eq_singleton_iff.2 ⟨rfl, hpoint⟩, List.map_singleton,
      String.ofList_toList]

/-! ### Entries under keys -/

namespace Entries

variable {entries : Entries} {key : String} {v : Value}

/-- What stands under a key after `Entries.set`: the value that was written if it is that key, and
what stood there before if not. -/
theorem get?_set (key key' : String) (v : Value) (entries : Entries) :
    get? key' (set key v entries) = if key = key' then some v else get? key' entries := by
  induction entries with
  | nil => exact get?_cons key' key v []
  | cons entry rest ih =>
    obtain ⟨other, w⟩ := entry
    rw [set]
    split
    · rename_i hkey
      obtain rfl : other = key := hkey
      rw [get?_cons, get?_cons]
      split
      · rfl
      · rfl
    · rename_i hkey
      rw [get?_cons, get?_cons, ih]
      split
      · rename_i hother
        rw [if_neg fun h => hkey (hother.trans h.symm)]
      · rfl

/-- Writing what stands there already changes nothing, not even the order of the entries. -/
theorem set_eq_self (h : get? key entries = some v) : set key v entries = entries := by
  induction entries with
  | nil => cases h
  | cons entry rest ih =>
    obtain ⟨other, w⟩ := entry
    rw [get?_cons] at h
    rw [set]
    split at h
    · rename_i hkey
      cases h
      rw [if_pos hkey, hkey]
    · rename_i hkey
      rw [if_neg hkey, ih h]

/-- What stands under a key is entered there. -/
theorem mem_of_get? (h : get? key entries = some v) : (key, v) ∈ entries := by
  induction entries with
  | nil => cases h
  | cons entry rest ih =>
    obtain ⟨other, w⟩ := entry
    rw [get?_cons] at h
    split at h
    · rename_i hkey
      cases h
      rw [hkey]
      exact List.mem_cons_self
    · exact List.mem_cons_of_mem _ (ih h)

/-- Where no two entries have one key, what stands under a key is what is entered there; otherwise
only the first of them is found. -/
theorem get?_eq_some_iff (hnodup : (entries.map Prod.fst).Nodup) :
    get? key entries = some v ↔ (key, v) ∈ entries := by
  refine ⟨mem_of_get?, fun h => ?_⟩
  induction entries with
  | nil => cases h
  | cons entry rest ih =>
    obtain ⟨other, w⟩ := entry
    rw [List.map_cons, List.nodup_cons] at hnodup
    rw [get?_cons]
    rcases List.mem_cons.1 h with hfirst | hrest
    · cases hfirst
      exact if_pos rfl
    · rw [if_neg, ih hnodup.2 hrest]
      rintro rfl
      exact hnodup.1 (List.mem_map.2 ⟨_, hrest, rfl⟩)

/-- Nothing stands under a key that is not entered. -/
theorem get?_eq_none_iff : get? key entries = none ↔ key ∉ entries.map Prod.fst := by
  induction entries with
  | nil => exact iff_of_true rfl List.not_mem_nil
  | cons entry rest ih =>
    obtain ⟨other, w⟩ := entry
    rw [get?_cons, List.map_cons, List.mem_cons, not_or]
    split
    · rename_i hkey
      exact iff_of_false (by rintro ⟨⟩) fun h => h.1 hkey.symm
    · rename_i hkey
      rw [ih]
      exact (and_iff_right fun h => hkey h.symm).symm

/-- Writing a value adds its key, if it is new, and no other. -/
theorem nodup_set (hnodup : (entries.map Prod.fst).Nodup) (key : String) (v : Value) :
    ((set key v entries).map Prod.fst).Nodup := by
  induction entries with
  | nil => exact List.nodup_singleton key
  | cons entry rest ih =>
    rw [List.map_cons, List.nodup_cons] at hnodup
    rw [set]
    split
    · rename_i hkey
      rw [List.map_cons, List.nodup_cons, ← hkey]
      exact hnodup
    · rename_i hkey
      rw [List.map_cons, List.nodup_cons]
      refine ⟨?_, ih hnodup.2⟩
      rw [← get?_eq_none_iff, get?_set, if_neg fun h => hkey h.symm, get?_eq_none_iff]
      exact hnodup.1

end Entries

/-! ### What stands at a place -/

namespace Value

/-- What stands at a list of keys, the outermost first; nothing if a key is missing on the way.
Unlike `Value.resolve` it goes along any keys, also an empty one. -/
def at? : List String → Value → Option Value
  | [], v => some v
  | key :: rest, v => (v.entry? key).bind (at? rest)

variable {v v' w : Value} {entries : Entries} {path front rest : List String}

/-- One list of keys after another leads on from where the first leads. Induction along the first
list. -/
theorem at?_append (front rest : List String) (v : Value) :
    v.at? (front ++ rest) = (v.at? front).bind (at? rest) := by
  induction front generalizing v with
  | nil => rfl
  | cons key front ih =>
    rw [List.cons_append, at?, at?]
    cases v.entry? key with
    | none => rfl
    | some w => exact ih w

/-- Nothing stands below a value that is no mapping. -/
theorem at?_eq_none (hv : v.isMapping = false) (hpath : path ≠ []) : v.at? path = none := by
  cases path with
  | nil => exact absurd rfl hpath
  | cons key rest =>
    cases v with
    | mapping entries => cases hv
    | _ => rfl

/-- At a value that is no mapping stands nothing but that value. -/
theorem eq_of_at?_eq_some (hv : v.isMapping = false) (h : v.at? path = some w) :
    path = [] ∧ w = v := by
  by_cases hpath : path = []
  · cases hpath
    cases h
    exact ⟨rfl, rfl⟩
  · rw [at?_eq_none hv hpath] at h
    cases h

/-- What stands above something is a mapping, since `Value.at?` goes on from mappings only. -/
theorem exists_mapping_of_at? (h : v.at? (front ++ rest) = some w) (hrest : rest ≠ []) :
    ∃ below, v.at? front = some (mapping below) := by
  rw [at?_append, Option.bind_eq_some_iff] at h
  obtain ⟨above, habove, hw⟩ := h
  cases above with
  | mapping below => exact ⟨below, habove⟩
  | _ =>
    rw [at?_eq_none rfl hrest] at hw
    cases hw

/-- What stands at a place after a value was written under a key, by `Entries.get?_set` for the
first key of the place. -/
theorem at?_cons_set (key key' : String) (w : Value) (rest : List String) (entries : Entries) :
    (mapping (entries.set key w)).at? (key' :: rest)
      = if key = key' then w.at? rest else (mapping entries).at? (key' :: rest) := by
  rw [at?, at?, entry?, entry?, Entries.get?_set]
  split
  · rfl
  · rfl

/-- **A path without an empty segment leads where its segments lead.** -/
theorem resolve_eq_at? {p : String} (h : "" ∉ segments p) (v : Value) :
    v.resolve p = v.at? (segments p) := by
  rw [resolve]
  generalize segments p = path at h
  induction path generalizing v with
  | nil => rfl
  | cons key rest ih =>
    rw [List.mem_cons, not_or] at h
    rw [List.foldlM_cons, at?, step?, if_neg (Ne.symm h.1)]
    cases v.entry? key with
    | none => rfl
    | some w => exact ih w h.2

/-! ### Values that are alike at all places -/

/-- No mapping at any place has two entries with one key. -/
def IsKeyed (v : Value) : Prop :=
  ∀ path below, v.at? path = some (mapping below) → (below.map Prod.fst).Nodup

/-- A value that is no mapping is keyed, having no mapping at any place. -/
theorem isKeyed_of_not_isMapping (h : v.isMapping = false) : v.IsKeyed := by
  intro path below hbelow
  obtain ⟨-, rfl⟩ := eq_of_at?_eq_some h hbelow
  cases h

/-- A mapping is keyed if it has no two entries with one key and what is entered is keyed. -/
theorem isKeyed_mapping_iff : (mapping entries).IsKeyed ↔ (entries.map Prod.fst).Nodup
    ∧ ∀ key w, entries.get? key = some w → w.IsKeyed := by
  constructor
  · intro h
    refine ⟨h [] entries rfl, fun key w hw path below hbelow => h (key :: path) below ?_⟩
    rw [at?, entry?, hw]
    exact hbelow
  · rintro ⟨hnodup, hbelow⟩ path below hpath
    cases path with
    | nil =>
      cases hpath
      exact hnodup
    | cons key rest =>
      obtain ⟨w, hw, hrest⟩ := Option.bind_eq_some_iff.1 hpath
      exact hbelow key w hw rest below hrest

/-- Writing a keyed value under a key keeps a mapping keyed, since `Entries.set` enters no key twice
(`Entries.nodup_set`). -/
theorem IsKeyed.set (h : (mapping entries).IsKeyed) (hw : w.IsKeyed) (key : String) :
    (mapping (entries.set key w)).IsKeyed := by
  obtain ⟨hnodup, hkeyed⟩ := isKeyed_mapping_iff.1 h
  refine isKeyed_mapping_iff.2 ⟨Entries.nodup_set hnodup key w, fun key' w' hw' => ?_⟩
  rw [Entries.get?_set] at hw'
  split at hw'
  · cases hw'
    exact hw
  · exact hkeyed key' w' hw'

/-- What may stand at one place of two values that are alike: nothing, mappings, or one value that
is no mapping. -/
inductive AlikeAt : Option Value → Option Value → Prop
  | nothing : AlikeAt none none
  | mappings (entries entries' : Entries) :
    AlikeAt (some (mapping entries)) (some (mapping entries'))
  | value {v : Value} (h : v.isMapping = false) : AlikeAt (some v) (some v)

/-- Values that are alike have something at the same places. -/
theorem AlikeAt.isSome_eq {o o' : Option Value} (h : AlikeAt o o') : o.isSome = o'.isSome := by
  cases h with
  | nothing => rfl
  | mappings => rfl
  | value => rfl

theorem isMapping_cases (v : Value) : v.isMapping = false ∨ ∃ below, v = mapping below := by
  cases v with
  | mapping below => exact .inr ⟨below, rfl⟩
  | _ => exact .inl rfl

/-- Alike stands at a place if the same values that are no mappings stand there, and mappings stand
there at once. -/
theorem alikeAt_of_iff {o o' : Option Value}
    (hvalue : ∀ v, v.isMapping = false → (o = some v ↔ o' = some v))
    (hmapping : (∃ below, o = some (mapping below)) ↔ ∃ below, o' = some (mapping below)) :
    AlikeAt o o' := by
  cases o with
  | none =>
    cases o' with
    | none => exact .nothing
    | some v =>
      rcases isMapping_cases v with hv | ⟨below, rfl⟩
      · cases (hvalue v hv).2 rfl
      · obtain ⟨_, ⟨⟩⟩ := hmapping.2 ⟨below, rfl⟩
  | some v =>
    rcases isMapping_cases v with hv | ⟨below, rfl⟩
    · rw [(hvalue v hv).1 rfl]
      exact .value hv
    · obtain ⟨below', hbelow'⟩ := hmapping.1 ⟨below, rfl⟩
      rw [hbelow']
      exact .mappings below below'

/-- What is alike to a value that is no mapping is the value itself, as `AlikeAt` says for the empty
list of keys. -/
theorem rearranges_of_not_isMapping (hv : v.isMapping = false)
    (h : ∀ path, AlikeAt (v.at? path) (v'.at? path)) : Rearranges v v' := by
  have hroot := h []
  rw [at?, at?] at hroot
  cases hroot with
  | mappings => cases hv
  | value => exact rearranges_of_canonical_eq rfl

/-- Entries that are written in another order under the keys of some mapping, each with what stands
there, are the entries of that mapping. -/
theorem perm_of_get?_eq {entries' rearranged : Entries} (hnodup : (entries'.map Prod.fst).Nodup)
    (hnodup' : (rearranged.map Prod.fst).Nodup)
    (hkeys : ∀ key, key ∈ entries'.map Prod.fst → key ∈ rearranged.map Prod.fst)
    (hentered : ∀ entry ∈ rearranged, entries'.get? entry.1 = some entry.2) :
    rearranged.Perm entries' := by
  refine (List.perm_ext_iff_of_nodup (.of_map _ hnodup') (.of_map _ hnodup)).2 fun entry => ?_
  refine ⟨fun h => (Entries.get?_eq_some_iff hnodup).1 (hentered entry h), fun h => ?_⟩
  obtain ⟨entry', hentry', hkey⟩ := List.mem_map.1 (hkeys _ (List.mem_map_of_mem h))
  have hsame := hentered entry' hentry'
  rw [hkey, (Entries.get?_eq_some_iff hnodup).2 h] at hsame
  obtain rfl : entry' = entry := Prod.ext hkey (Option.some.inj hsame).symm
  exact hentry'

/-- Mappings that are alike have values that are alike under the same keys: a place below the value
is a place below the mapping, with the key in front. -/
theorem exists_get?_of_alikeAt {entries' : Entries} (hkeyed' : (mapping entries').IsKeyed)
    (h : ∀ path, AlikeAt ((mapping entries).at? path) ((mapping entries').at? path)) {key : String}
    (hw : entries.get? key = some w) : ∃ w', entries'.get? key = some w' ∧ w'.IsKeyed
      ∧ ∀ path, AlikeAt (w.at? path) (w'.at? path) := by
  have hthere (rest : List String) : (mapping entries).at? (key :: rest) = w.at? rest := by
    rw [at?, entry?, hw, Option.bind_some]
  have hsome := (h [key]).isSome_eq
  rw [hthere, at?, at?, entry?] at hsome
  cases hw' : entries'.get? key with
  | none =>
    rw [hw'] at hsome
    cases hsome
  | some w' =>
    refine ⟨w', rfl, (isKeyed_mapping_iff.1 hkeyed').2 key w' hw', fun path => ?_⟩
    have hplace := h (key :: path)
    rwa [hthere, at?, entry?, hw', Option.bind_some] at hplace

mutual

/-- **Values that are alike at all places differ at most in the order of entries.** Mutual induction
with the entries of a mapping, each of which has its like under the same key of the other. -/
theorem rearranges_of_alikeAt : ∀ {v v' : Value}, v.IsKeyed → v'.IsKeyed →
    (∀ path, AlikeAt (v.at? path) (v'.at? path)) → Rearranges v v'
  | mapping entries, v', hv, hv', h => by
    have hroot := h []
    rw [at?, at?] at hroot
    cases hroot with
    | value hmapping => cases hmapping
    | mappings _ entries' =>
      obtain ⟨hnodup, hkeyed⟩ := isKeyed_mapping_iff.1 hv
      obtain ⟨rearranged, hrearranges, hkeys, hentered⟩ := exists_rearrangesEntries_of_alikeAt
        (fun entry hentry => hkeyed entry.1 entry.2 ((Entries.get?_eq_some_iff hnodup).2 hentry))
        (fun entry hentry =>
          exists_get?_of_alikeAt hv' h ((Entries.get?_eq_some_iff hnodup).2 hentry))
      refine .mapping hrearranges (perm_of_get?_eq (isKeyed_mapping_iff.1 hv').1 ?_ ?_ hentered)
      · rwa [hkeys]
      · intro key hkey
        rw [hkeys]
        by_contra habsent
        have hsome := (h [key]).isSome_eq
        rw [at?, at?, entry?, entry?, Entries.get?_eq_none_iff.2 habsent] at hsome
        cases hw : entries'.get? key with
        | none => exact Entries.get?_eq_none_iff.1 hw hkey
        | some w =>
          rw [hw] at hsome
          cases hsome
  | null, _, _, _, h => rearranges_of_not_isMapping rfl h
  | bool _, _, _, _, h => rearranges_of_not_isMapping rfl h
  | number _, _, _, _, h => rearranges_of_not_isMapping rfl h
  | text _, _, _, _, h => rearranges_of_not_isMapping rfl h
  | list _, _, _, _, h => rearranges_of_not_isMapping rfl h

/-- The part of `rearranges_of_alikeAt` for the entries of a mapping: they can be rearranged one by
one under their own keys, into what stands under these keys in the other mapping. -/
theorem exists_rearrangesEntries_of_alikeAt {entries' : Entries} :
    ∀ {entries : List (String × Value)}, (∀ entry ∈ entries, entry.2.IsKeyed) →
    (∀ entry ∈ entries, ∃ w, entries'.get? entry.1 = some w ∧ w.IsKeyed
      ∧ ∀ path, AlikeAt (entry.2.at? path) (w.at? path)) →
    ∃ rearranged, RearrangesEntries entries rearranged
      ∧ rearranged.map Prod.fst = entries.map Prod.fst
      ∧ ∀ entry ∈ rearranged, entries'.get? entry.1 = some entry.2
  | [], _, _ => ⟨[], .nil, rfl, fun _ hmem => absurd hmem List.not_mem_nil⟩
  | (key, v) :: entries, hkeyed, halike => by
    rw [List.forall_mem_cons] at hkeyed halike
    obtain ⟨⟨w, hw, hwkeyed, hplaces⟩, hrest⟩ := halike
    obtain ⟨rearranged, hrearranges, hkeys, hentered⟩ :=
      exists_rearrangesEntries_of_alikeAt hkeyed.2 hrest
    refine ⟨(key, w) :: rearranged,
      .cons key (rearranges_of_alikeAt hkeyed.1 hwkeyed hplaces) hrearranges, ?_, ?_⟩
    · rw [List.map_cons, List.map_cons, hkeys]
    · exact List.forall_mem_cons.2 ⟨hw, hentered⟩

end

end Value

end Templating
