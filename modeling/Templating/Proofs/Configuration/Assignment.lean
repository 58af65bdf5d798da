import Templating.Configuration.Build
import Templating.Proofs.Outcome
import Templating.Proofs.Value.Places

/-!
# What an assignment does

A value is assigned at a path by descending along its segments and writing at the last one. The
descent is told once, by `Assigned`, which follows the segments; what stands at every place after
the assignment, and when it fails, is read off it. At and below its path an assignment leaves what
it assigns, on the way to it mappings, and everywhere else what stood there. It fails where a value
that is no mapping stands on the way, or a mapping where a value that is none is to be written.

## Main definitions

* `Assigned`: the entries before and after an assignment.
* `IsBlocked`: what stands in the way of an assignment.

## Main results

* `assign_cases`, `Assigned.not_isBlocked`: when an assignment succeeds and when it fails.
* `Assigned.at?_append`, `Assigned.at?_above`, `Assigned.at?_apart`: what stands where after it.
* `Assigned.eq_self`: assigning what stands there already changes nothing.
-/

namespace Templating

open Value

/-- The entries of the mapping that an assignment descends into under a key: those of the mapping
that stands there, or none where nothing stands and a new mapping is made. -/
def IsBelow (entries : Entries) (segment : String) (below : Entries) : Prop :=
  entries.get? segment = some (mapping below) ∨ entries.get? segment = none ∧ below = []

/-- The entries before and after a value was assigned at a path, which is given by its segments. At
the end of the path the value is set; before it the assignment descends into the mapping under the
segment (`IsBelow`). -/
inductive Assigned (v : Value) : List String → Entries → Entries → Prop
  | leaf {segment : String} {entries : Entries}
      (h : ∀ below, entries.get? segment = some (mapping below) → v.isMapping = true) :
    Assigned v [segment] entries (entries.set segment v)
  | descend {segment : String} {rest : List String} {entries below child : Entries}
      (hbelow : IsBelow entries segment below) (h : Assigned v rest below child) :
    Assigned v (segment :: rest) entries (entries.set segment (mapping child))

/-- What stands in the way of an assignment: a value that is no mapping on the way to the end of
the path, or a mapping at its end if the value to be assigned is none. -/
def IsBlocked (v : Value) (path : List String) (entries : Entries) : Prop :=
  (∃ front rest w, path = front ++ rest ∧ rest ≠ [] ∧ (mapping entries).at? front = some w
      ∧ w.isMapping = false)
    ∨ v.isMapping = false ∧ ∃ below, (mapping entries).at? path = some (mapping below)

variable {key : String} {v w : Value} {path rest : List String} {entries entries' : Entries}

/-! ### One step of the descent -/

/-- Below a key stands in the mapping what stands in the mapping that is descended into, by
`Value.at?` one key at a time. -/
theorem IsBelow.at?_cons {segment : String} {below : Entries} (h : IsBelow entries segment below)
    (hrest : rest ≠ []) : (mapping entries).at? (segment :: rest) = (mapping below).at? rest := by
  rw [at?, entry?]
  rcases h with hbelow | ⟨hnone, rfl⟩
  · rw [hbelow, Option.bind_some]
  · rw [hnone, Option.bind_none]
    cases rest with
    | nil => exact absurd rfl hrest
    | cons => rfl

/-- What stands in the way below a key stands in the way of the whole path. -/
theorem IsBelow.isBlocked {segment : String} {below : Entries} (h : IsBelow entries segment below)
    (hrest : rest ≠ []) (hblocked : IsBlocked v rest below) :
    IsBlocked v (segment :: rest) entries := by
  rcases hblocked with ⟨front, rest', w, rfl, hrest', hw, hmapping⟩ | ⟨hv, below', hbelow'⟩
  · refine .inl ⟨segment :: front, rest', w, rfl, hrest', ?_, hmapping⟩
    have hfront : front ≠ [] := by
      rintro rfl
      cases hw
      cases hmapping
    rw [h.at?_cons hfront, hw]
  · exact .inr ⟨hv, below', by rw [h.at?_cons hrest, hbelow']⟩

/-- A mapping stands somewhere if what stands there is a mapping. -/
theorem any_isMapping_iff {o : Option Value} :
    o.any isMapping = true ↔ ∃ below, o = some (mapping below) := by
  rw [Option.any_eq_true]
  constructor
  · rintro ⟨w, rfl, hw⟩
    cases w with
    | mapping below => exact ⟨below, rfl⟩
    | _ => cases hw
  · rintro ⟨below, rfl⟩
    exact ⟨_, rfl, rfl⟩

/-! ### Success and failure -/

/-- **An assignment succeeds, or something stands in its way and it fails with a conflict.**
Induction along `assignAt`, one segment after the other. -/
theorem assignAt_cases (hpath : path ≠ []) :
    (∃ entries', assignAt key v path entries = .ok entries' ∧ Assigned v path entries entries')
      ∨ ∃ fault, assignAt key v path entries = .error (.configuration fault)
        ∧ IsBlocked v path entries := by
  fun_induction assignAt key v path entries with
  | case1 => exact absurd rfl hpath
  | case2 segment entries hmapping =>
    rw [Bool.and_eq_true, Bool.not_eq_true', any_isMapping_iff] at hmapping
    obtain ⟨⟨below, hbelow⟩, hv⟩ := hmapping
    -- A mapping stands at the end of the path, and the value is none.
    refine .inr ⟨_, rfl, .inr ⟨hv, below, ?_⟩⟩
    rw [at?, entry?, hbelow]
    rfl
  | case3 segment entries hfree =>
    refine .inl ⟨_, rfl, .leaf fun below hbelow => ?_⟩
    by_contra hv
    rw [hbelow, Bool.eq_false_iff.2 hv] at hfree
    exact hfree rfl
  | case4 segment rest entries hrest hnone ih =>
    have hbelow : IsBelow entries segment [] := .inr ⟨hnone, rfl⟩
    rcases ih hrest with ⟨child, hchild, hassigned⟩ | ⟨fault, hfault, hblocked⟩
    · rw [hchild]
      exact .inl ⟨_, rfl, .descend hbelow hassigned⟩
    · rw [hfault]
      exact .inr ⟨fault, rfl, hbelow.isBlocked hrest hblocked⟩
  | case5 segment rest entries hrest below hsome ih =>
    have hbelow : IsBelow entries segment below := .inl hsome
    rcases ih hrest with ⟨child, hchild, hassigned⟩ | ⟨fault, hfault, hblocked⟩
    · rw [hchild]
      exact .inl ⟨_, rfl, .descend hbelow hassigned⟩
    · rw [hfault]
      exact .inr ⟨fault, rfl, hbelow.isBlocked hrest hblocked⟩
  | case6 segment rest entries hrest w hmapping hsome =>
    -- A value that is no mapping stands on the way.
    refine .inr ⟨_, rfl, .inl ⟨[segment], rest, w, rfl, hrest, ?_, ?_⟩⟩
    · rw [at?, entry?, hsome]
      rfl
    · cases w with
      | mapping below => exact absurd rfl (hmapping below)
      | _ => rfl

/-- A value is assigned at the segments of its key, or something stands in its way and there is a
conflict: `assignAt_cases`. -/
theorem assign_cases (key : String) (v : Value) (entries : Entries) :
    (∃ entries', assign key v entries = .ok entries' ∧ Assigned v (segments key) entries entries')
      ∨ ∃ fault, assign key v entries = .error (.configuration fault)
        ∧ IsBlocked v (segments key) entries :=
  assignAt_cases (segments_ne_nil key)

theorem Assigned.ne_nil (h : Assigned v path entries entries') : path ≠ [] := by
  cases h with
  | leaf => exact List.cons_ne_nil _ _
  | descend => exact List.cons_ne_nil _ _

/-- Nothing stands in the way of an assignment that succeeds. Induction on `Assigned`. -/
theorem Assigned.not_isBlocked (h : Assigned v path entries entries') :
    ¬IsBlocked v path entries := by
  induction h with
  | @leaf segment entries hfree =>
    rintro (⟨front, rest, w, hpath, hrest, hw, hmapping⟩ | ⟨hv, below, hbelow⟩)
    · rcases List.append_eq_singleton_iff.1 hpath.symm with ⟨rfl, -⟩ | ⟨-, rfl⟩
      · cases hw
        cases hmapping
      · exact hrest rfl
    · obtain ⟨w, hw, ⟨⟩⟩ := Option.bind_eq_some_iff.1 hbelow
      rw [hfree below hw] at hv
      cases hv
  | @descend segment rest entries below child hbelow hassigned ih =>
    rintro (⟨front, rest', w, hpath, hrest', hw, hmapping⟩ | ⟨hv, below', hbelow'⟩)
    · cases front with
      | nil =>
        cases hw
        cases hmapping
      | cons key front =>
        obtain ⟨rfl, rfl⟩ := List.cons.inj hpath
        by_cases hfront : front = []
        · cases hfront
          obtain ⟨w', hw', ⟨⟩⟩ := Option.bind_eq_some_iff.1 hw
          rcases hbelow with hsome | ⟨hnone, -⟩
          · cases hw'.symm.trans hsome
            cases hmapping
          · cases hw'.symm.trans hnone
        · rw [hbelow.at?_cons hfront] at hw
          exact ih (.inl ⟨front, rest', w, rfl, hrest', hw, hmapping⟩)
    · rw [hbelow.at?_cons hassigned.ne_nil] at hbelow'
      exact ih (.inr ⟨hv, below', hbelow'⟩)

/-! ### What stands where afterwards -/

/-- **At its path and below it an assignment leaves what it assigns.** Induction on `Assigned`, as
for the next two. -/
theorem Assigned.at?_append (h : Assigned v path entries entries') (rest : List String) :
    (mapping entries').at? (path ++ rest) = v.at? rest := by
  induction h with
  | leaf =>
    rw [List.singleton_append, at?_cons_set, if_pos rfl]
  | descend _ _ ih => rw [List.cons_append, at?_cons_set, if_pos rfl, ih]

/-- **On the way to its path an assignment leaves mappings.** -/
theorem Assigned.at?_above {front : List String} (h : Assigned v (front ++ rest) entries entries')
    (hrest : rest ≠ []) : ∃ below, (mapping entries').at? front = some (mapping below) := by
  generalize hpath : front ++ rest = path at h
  induction h generalizing front with
  | leaf =>
    rcases List.append_eq_singleton_iff.1 hpath with ⟨rfl, -⟩ | ⟨-, rfl⟩
    · exact ⟨_, rfl⟩
    · exact absurd rfl hrest
  | descend _ _ ih =>
    cases front with
    | nil => exact ⟨_, rfl⟩
    | cons segment front =>
      obtain ⟨rfl, hrest'⟩ := List.cons.inj hpath
      rw [at?_cons_set, if_pos rfl]
      exact ih hrest'

/-- **Away from its path an assignment leaves what stood there**: at every place that neither leads
on from the path nor lies on the way to it. -/
theorem Assigned.at?_apart {place : List String} (h : Assigned v path entries entries')
    (hbelow : ¬path <+: place) (habove : ¬place <+: path) :
    (mapping entries').at? place = (mapping entries).at? place := by
  induction h generalizing place with
  | @leaf segment entries =>
    cases place with
    | nil => exact absurd (List.nil_prefix) habove
    | cons key place =>
      rw [at?_cons_set, if_neg]
      rintro rfl
      exact hbelow (List.cons_prefix_cons.2 ⟨rfl, List.nil_prefix⟩)
  | @descend segment rest entries below child hfree _ ih =>
    cases place with
    | nil => exact absurd List.nil_prefix habove
    | cons key place =>
      rw [at?_cons_set]
      split
      · rename_i hkey
        obtain rfl : segment = key := hkey
        rw [List.cons_prefix_cons, not_and] at hbelow habove
        have hplace : place ≠ [] := by
          rintro rfl
          exact habove rfl List.nil_prefix
        rw [ih (hbelow rfl) (habove rfl), hfree.at?_cons hplace]
      · rfl

/-- Assigning what stands there already changes nothing, since `Entries.set` does not
(`Entries.set_eq_self`). -/
theorem Assigned.eq_self (h : Assigned v path entries entries')
    (hv : (mapping entries).at? path = some v) : entries' = entries := by
  induction h with
  | leaf =>
    rw [at?, entry?] at hv
    obtain ⟨w, hw, ⟨⟩⟩ := Option.bind_eq_some_iff.1 hv
    exact Entries.set_eq_self hw
  | descend hfree hassigned ih =>
    rw [hfree.at?_cons hassigned.ne_nil] at hv
    rw [ih hv]
    rcases hfree with hsome | ⟨-, rfl⟩
    · exact Entries.set_eq_self hsome
    · obtain ⟨key, rest, rfl⟩ := List.exists_cons_of_ne_nil hassigned.ne_nil
      cases hv

/-- Where no two entries have one key, an assignment keeps it so, by `Value.IsKeyed.set` at each
step. -/
theorem Assigned.isKeyed (h : Assigned v path entries entries') (hv : v.IsKeyed)
    (hentries : (mapping entries).IsKeyed) : (mapping entries').IsKeyed := by
  induction h with
  | leaf => exact hentries.set hv _
  | descend hfree _ ih =>
    refine hentries.set (ih ?_) _
    rcases hfree with hsome | ⟨-, rfl⟩
    · exact (isKeyed_mapping_iff.1 hentries).2 _ _ hsome
    · exact isKeyed_mapping_iff.2 ⟨List.nodup_nil, fun _ _ h => by cases h⟩

end Templating
