import Templating.Proofs.Configuration.Assignment

/-!
# Assignments one after the other

Values given under paths are assigned one after the other. As long as a value given below another
one is what that one has there already, every assignment succeeds, and in the end each path leads
to its value. Otherwise no configuration has all the values; then the assignments fail with a
conflict, unless the value that others are given below is a mapping. Into such a mapping a later
assignment descends, and such a mapping replaces what was assigned below it before, so that values
may be lost without a conflict.

## Main definitions

* `assignAll`: assignments one after the other.
* `AgreesBelow`: values given below others are what these have there.
* `NoMappingAbove`: no mapping is given above the path of another value.
* `Holds`: the values given stand at their paths, and all else comes from them.
* `LeadsTo`: the paths lead to the values given under them.

## Main results

* `Holds.assign`: one more assignment.
* `exists_assignAll_of_agreesBelow`, `agreesBelow_of_assignAll`: a sequence of assignments.
* `buildConfiguration_keeps`: when values are kept, and when building a configuration fails.
* `lost_value_below_mapping`: a value that is lost.
-/

namespace Templating

open Value

/-- Assigns values at paths one after the other, up to the first conflict. -/
def assignAll (pairs : List (String × Value)) (entries : Entries) : Except Fault Entries :=
  pairs.foldlM (fun entries pair => assign pair.1 pair.2 entries) entries

/-- A value given at or below the path of another one is what that one has there. This is what it
takes for one configuration to have all values at their paths. -/
def AgreesBelow (pairs : List (String × Value)) : Prop :=
  ∀ p ∈ pairs, ∀ q ∈ pairs, ∀ rest, segments q.1 = segments p.1 ++ rest →
    p.2.at? rest = some q.2

/-- No mapping is given above the path of another value. -/
def NoMappingAbove (pairs : List (String × Value)) : Prop :=
  ∀ p ∈ pairs, ∀ q ∈ pairs, ∀ rest, rest ≠ [] → segments q.1 = segments p.1 ++ rest →
    p.2.isMapping = false

/-- The place is the outermost one, or lies on the way to one of the paths. -/
def IsAbove (pairs : List (String × Value)) (place : List String) : Prop :=
  place = [] ∨ ∃ p ∈ pairs, ∃ rest, rest ≠ [] ∧ segments p.1 = place ++ rest

/-- What a sequence of assignments keeps: the values given stand at their paths, and whatever stands
somewhere is a mapping on the way to one of the paths or comes from one of the values. -/
structure Holds (pairs : List (String × Value)) (entries : Entries) : Prop where
  kept : ∀ p ∈ pairs, (mapping entries).at? (segments p.1) = some p.2
  given : ∀ place w, (mapping entries).at? place = some w →
    (w.isMapping = true ∧ IsAbove pairs place)
      ∨ ∃ p ∈ pairs, ∃ rest, place = segments p.1 ++ rest ∧ p.2.at? rest = some w

/-- The paths lead to the values given under them, as `Value.resolve` follows paths. -/
def LeadsTo (values : Entries) (c : Value) : Prop :=
  ∀ entry ∈ values, c.resolve entry.1 = some entry.2

variable {pairs : List (String × Value)} {pair : String × Value} {entries entries' : Entries}

/-! ### Values that agree -/

theorem AgreesBelow.of_append {pairs' : List (String × Value)} (h : AgreesBelow (pairs ++ pairs')) :
    AgreesBelow pairs :=
  fun p hp q hq => h p (List.mem_append_left _ hp) q (List.mem_append_left _ hq)

theorem NoMappingAbove.of_append {pairs' : List (String × Value)}
    (h : NoMappingAbove (pairs ++ pairs')) : NoMappingAbove pairs :=
  fun p hp q hq => h p (List.mem_append_left _ hp) q (List.mem_append_left _ hq)

/-- Values that stand at their paths in one configuration agree, by `Value.at?_append`. -/
theorem agreesBelow_of_at? {c : Value} (h : ∀ p ∈ pairs, c.at? (segments p.1) = some p.2) :
    AgreesBelow pairs := by
  intro p hp q hq rest hrest
  have hq' := h q hq
  rwa [hrest, at?_append, h p hp, Option.bind_some] at hq'

/-! ### One more assignment -/

/-- Nothing is assigned at first, and nothing is entered. -/
theorem holds_nil : Holds [] [] := by
  refine ⟨fun p hp => absurd hp List.not_mem_nil, fun place w hw => .inl ?_⟩
  cases place with
  | nil =>
    cases hw
    exact ⟨rfl, .inl rfl⟩
  | cons => cases hw

/-- Nothing stands in the way of a value that agrees with those assigned before: whatever stands on
its way comes from one of them, and they agree with it. -/
theorem Holds.not_isBlocked (h : Holds pairs entries) (hagrees : AgreesBelow (pairs ++ [pair])) :
    ¬IsBlocked pair.2 (segments pair.1) entries := by
  have hlast : pair ∈ pairs ++ [pair] := List.mem_append_right _ (List.mem_singleton_self pair)
  have hearlier {p : String × Value} (hp : p ∈ pairs) : p ∈ pairs ++ [pair] :=
    List.mem_append_left _ hp
  rintro (⟨front, rest, w, hpath, hrest, hw, hmapping⟩ | ⟨hv, below, hbelow⟩)
  · rcases h.given front w hw with ⟨hmapping', -⟩ | ⟨p, hp, between, rfl, hw'⟩
    · rw [hmapping] at hmapping'
      cases hmapping'
    · rw [List.append_assoc] at hpath
      have hthere := hagrees p (hearlier hp) pair hlast _ hpath
      rw [at?_append, hw', Option.bind_some, at?_eq_none hmapping hrest] at hthere
      cases hthere
  · rcases h.given _ _ hbelow with
      ⟨-, hroot | ⟨p, hp, rest, hrest, hpath⟩⟩ | ⟨p, hp, rest, hpath, hw⟩
    · exact segments_ne_nil _ hroot
    · have hthere := hagrees pair hlast p (hearlier hp) rest hpath
      rw [at?_eq_none hv hrest] at hthere
      cases hthere
    · rw [hagrees p (hearlier hp) pair hlast rest hpath] at hw
      rw [Option.some.inj hw] at hv
      cases hv

/-- What an assignment leaves at the paths, if the values agree: `Assigned.at?_append` below its own
path, `Assigned.at?_apart` away from it. -/
theorem Holds.kept_of_assigned (h : Holds pairs entries) (hagrees : AgreesBelow (pairs ++ [pair]))
    (hassigned : Assigned pair.2 (segments pair.1) entries entries') :
    ∀ p ∈ pairs ++ [pair], (mapping entries').at? (segments p.1) = some p.2 := by
  have hlast : pair ∈ pairs ++ [pair] := List.mem_append_right _ (List.mem_singleton_self pair)
  intro p hp
  rcases List.mem_append.1 hp with hold | hnew
  · by_cases hbelow : segments pair.1 <+: segments p.1
    · obtain ⟨rest, hrest⟩ := hbelow
      rw [← hrest, hassigned.at?_append, hagrees pair hlast p hp rest hrest.symm]
    · by_cases habove : segments p.1 <+: segments pair.1
      · -- the new value stands there already, as a part of the value given above it
        obtain ⟨rest, hrest⟩ := habove
        have hthere : (mapping entries).at? (segments pair.1) = some pair.2 := by
          rw [← hrest, at?_append, h.kept p hold, Option.bind_some,
            hagrees p hp pair hlast rest hrest.symm]
        rw [hassigned.eq_self hthere, h.kept p hold]
      · rw [hassigned.at?_apart hbelow habove, h.kept p hold]
  · rw [List.mem_singleton.1 hnew]
    have hthere := hassigned.at?_append []
    rwa [List.append_nil] at hthere

/-- An assignment brings in nothing but the value assigned and mappings on the way to it. -/
theorem Holds.given_of_assigned (h : Holds pairs entries)
    (hassigned : Assigned pair.2 (segments pair.1) entries entries') (place : List String)
    (w : Value) (hw : (mapping entries').at? place = some w) :
    (w.isMapping = true ∧ IsAbove (pairs ++ [pair]) place)
      ∨ ∃ p ∈ pairs ++ [pair], ∃ rest, place = segments p.1 ++ rest ∧ p.2.at? rest = some w := by
  have hlast : pair ∈ pairs ++ [pair] := List.mem_append_right _ (List.mem_singleton_self pair)
  by_cases hbelow : segments pair.1 <+: place
  · obtain ⟨rest, rfl⟩ := hbelow
    rw [hassigned.at?_append] at hw
    exact .inr ⟨pair, hlast, rest, rfl, hw⟩
  · by_cases habove : place <+: segments pair.1
    · obtain ⟨rest, hrest⟩ := habove
      have hproper : rest ≠ [] := by
        rintro rfl
        exact hbelow ⟨[], by rw [← hrest, List.append_nil, List.append_nil]⟩
      rw [← hrest] at hassigned
      obtain ⟨below, hmapping⟩ := hassigned.at?_above hproper
      cases hw.symm.trans hmapping
      exact .inl ⟨rfl, .inr ⟨pair, hlast, rest, hproper, hrest.symm⟩⟩
    · rw [hassigned.at?_apart hbelow habove] at hw
      rcases h.given place w hw with ⟨hmapping, hroot | ⟨p, hp, hrest⟩⟩ | ⟨p, hp, hrest⟩
      · exact .inl ⟨hmapping, .inl hroot⟩
      · exact .inl ⟨hmapping, .inr ⟨p, List.mem_append_left _ hp, hrest⟩⟩
      · exact .inr ⟨p, List.mem_append_left _ hp, hrest⟩

/-- **One more value that agrees with those before is assigned, and all values hold.** It is not
blocked, so `assign_cases` leaves success only. -/
theorem Holds.assign (h : Holds pairs entries) (hagrees : AgreesBelow (pairs ++ [pair])) :
    ∃ entries', Templating.assign pair.1 pair.2 entries = .ok entries'
      ∧ Holds (pairs ++ [pair]) entries' := by
  rcases assign_cases pair.1 pair.2 entries with
    ⟨entries', hok, hassigned⟩ | ⟨fault, -, hblocked⟩
  · exact ⟨entries', hok, h.kept_of_assigned hagrees hassigned, h.given_of_assigned hassigned⟩
  · exact absurd hblocked (h.not_isBlocked hagrees)

/-- Where nothing stands in the way of one more value under a new key, it agrees with the values
before, unless a mapping is given above another value. Such a mapping takes the place of what stood
there, and nothing is in its way. -/
theorem Holds.agreesBelow_of_not_isBlocked (h : Holds pairs entries)
    (hfree : ¬IsBlocked pair.2 (segments pair.1) entries)
    (habove : NoMappingAbove (pairs ++ [pair])) (hkey : pair.1 ∉ pairs.map Prod.fst)
    (hagrees : AgreesBelow pairs) : AgreesBelow (pairs ++ [pair]) := by
  -- Different keys have different paths, so of two that lead on one is longer.
  have hapart {p q : String × Value} {rest : List String} (hpq : p.1 ≠ q.1)
      (hrest : segments q.1 = segments p.1 ++ rest) : rest ≠ [] := by
    rintro rfl
    rw [List.append_nil] at hrest
    exact hpq (segments_injective hrest.symm)
  intro p hp q hq rest hrest
  have hmapping := habove p hp q hq rest
  rcases List.mem_append.1 hp with hpold | hpnew
  · rcases List.mem_append.1 hq with hqold | hqnew
    · exact hagrees p hpold q hqold rest hrest
    · -- An earlier value would stand in the way of the new one.
      obtain rfl := List.mem_singleton.1 hqnew
      have hproper : rest ≠ [] := by
        refine hapart (fun hpq => hkey ?_) hrest
        rw [← hpq]
        exact List.mem_map_of_mem hpold
      exact absurd (.inl ⟨_, rest, p.2, hrest, hproper, h.kept p hpold, hmapping hproper hrest⟩)
        hfree
  · obtain rfl := List.mem_singleton.1 hpnew
    rcases List.mem_append.1 hq with hqold | hqnew
    · have hproper : rest ≠ [] := by
        refine hapart (fun hpq => hkey ?_) hrest
        rw [hpq]
        exact List.mem_map_of_mem hqold
      -- The new value would stand where a mapping leads on to an earlier one.
      have hthere := h.kept q hqold
      rw [hrest] at hthere
      exact absurd (.inr ⟨hmapping hproper hrest, exists_mapping_of_at? hthere hproper⟩) hfree
    · obtain rfl := List.mem_singleton.1 hqnew
      obtain rfl := List.self_eq_append_right.1 hrest
      rfl

/-! ### A sequence of assignments -/

/-- The first pair is assigned before the others. -/
theorem assignAll_cons (pair : String × Value) (pairs : List (String × Value))
    (entries : Entries) :
    assignAll (pair :: pairs) entries = assign pair.1 pair.2 entries >>= assignAll pairs := by
  rw [assignAll, List.foldlM_cons]
  rfl

/-- Pairs are assigned one list after the other. -/
theorem assignAll_append (pairs pairs' : List (String × Value)) (entries : Entries) :
    assignAll (pairs ++ pairs') entries = assignAll pairs entries >>= assignAll pairs' := by
  rw [assignAll, List.foldlM_append]
  rfl

theorem assignAll_singleton (pair : String × Value) (entries : Entries) :
    assignAll [pair] entries = assign pair.1 pair.2 entries := by
  rw [assignAll_cons]
  exact bind_pure _

/-- **Values that agree are assigned one after the other, and all of them hold.** Induction from the
last one with `Holds.assign`. -/
theorem exists_assignAll_of_agreesBelow (h : AgreesBelow pairs) :
    ∃ entries, assignAll pairs [] = .ok entries ∧ Holds pairs entries := by
  induction pairs using List.reverseRecOn with
  | nil => exact ⟨[], rfl, holds_nil⟩
  | append_singleton pairs pair ih =>
    obtain ⟨entries, hok, hholds⟩ := ih h.of_append
    obtain ⟨entries', hok', hholds'⟩ := hholds.assign h
    refine ⟨entries', ?_, hholds'⟩
    rw [assignAll_append, hok]
    exact (assignAll_singleton pair entries).trans hok'

/-- **Values that are assigned one after the other agree, unless a mapping is given above another
value.** Induction from the last one with `Holds.agreesBelow_of_not_isBlocked`. -/
theorem agreesBelow_of_assignAll (hkeys : (pairs.map Prod.fst).Nodup)
    (habove : NoMappingAbove pairs) (hok : assignAll pairs [] = .ok entries) :
    AgreesBelow pairs := by
  induction pairs using List.reverseRecOn generalizing entries with
  | nil => exact fun p hp => absurd hp List.not_mem_nil
  | append_singleton pairs pair ih =>
    rw [List.map_append, List.nodup_append] at hkeys
    rw [assignAll_append] at hok
    obtain ⟨before, hbefore, hpair⟩ := bind_eq_ok_iff.1 hok
    rw [assignAll_singleton] at hpair
    have hagrees : AgreesBelow pairs := ih hkeys.1 habove.of_append hbefore
    obtain ⟨entries', hok', hholds⟩ := exists_assignAll_of_agreesBelow hagrees
    cases hbefore.symm.trans hok'
    refine hholds.agreesBelow_of_not_isBlocked ?_ habove ?_ hagrees
    · rcases assign_cases pair.1 pair.2 before with ⟨_, -, hassigned⟩ | ⟨fault, herror, -⟩
      · exact hassigned.not_isBlocked
      · cases herror.symm.trans hpair
    · exact fun hmem => hkeys.2.2 _ hmem _ (List.mem_singleton_self pair.1) rfl

/-- A sequence of assignments fails with a conflict, if it fails. Induction with `assign_cases` for
the first. -/
theorem isConfiguration_of_assignAll {fault : Fault} (h : assignAll pairs entries = .error fault) :
    ∃ conflict, fault = .configuration conflict := by
  induction pairs generalizing entries with
  | nil => cases h
  | cons pair pairs ih =>
    rw [assignAll_cons] at h
    rcases assign_cases pair.1 pair.2 entries with ⟨entries', hok, -⟩ | ⟨conflict, herror, -⟩
    · rw [hok] at h
      exact ih h
    · rw [herror] at h
      cases h
      exact ⟨conflict, rfl⟩

/-! ### Building a configuration from values -/

/-- Given values with nonempty keys are assigned as pairs: `assignValues` passes over empty keys
only. -/
theorem assignValues_eq {values : Entries} (h : ∀ entry ∈ values, entry.1 ≠ "")
    (entries : Entries) : assignValues values entries = assignAll values entries := by
  induction values generalizing entries with
  | nil => rfl
  | cons entry values ih =>
    rw [List.forall_mem_cons] at h
    rw [assignValues, if_neg h.1, assignAll_cons]
    exact bind_congr fun entries => ih h.2 entries

/-- A configuration arises from its entries (`buildEntries`). -/
theorem buildConfiguration_list (declarations : List Value) (values : Entries) :
    buildConfiguration (.list declarations) (.mapping values)
      = (buildEntries declarations values).map .mapping := by
  cases values with
  | nil => rfl
  | cons => rfl

/-- Without options, a configuration is built by `assignAll` from the given values. -/
theorem buildConfiguration_eq {values : Entries} (h : ∀ entry ∈ values, entry.1 ≠ "") :
    buildConfiguration (.list []) (.mapping values) = (assignAll values []).map .mapping := by
  rw [buildConfiguration_list, ← assignValues_eq h]
  rfl

/-- A key without an empty segment is not empty. -/
theorem ne_empty_of_segments {key : String} (h : "" ∉ segments key) : key ≠ "" := by
  rintro rfl
  exact h (List.mem_singleton_self "")

/-- Paths without an empty segment lead where their segments lead, by `Value.resolve_eq_at?`. -/
theorem leadsTo_iff {values : Entries} (hsegments : ∀ entry ∈ values, "" ∉ segments entry.1)
    (c : Value) :
    LeadsTo values c ↔ ∀ entry ∈ values, c.at? (segments entry.1) = some entry.2 :=
  forall₂_congr fun entry hentry => by rw [resolve_eq_at? (hsegments entry hentry)]

/-- From values that agree a configuration is built that has them all. -/
theorem exists_leadsTo_of_agreesBelow {values : Entries}
    (hsegments : ∀ entry ∈ values, "" ∉ segments entry.1) (hagrees : AgreesBelow values) :
    ∃ tree, buildConfiguration (.list []) (.mapping values) = .ok tree ∧ LeadsTo values tree := by
  obtain ⟨entries, hok, hholds⟩ := exists_assignAll_of_agreesBelow hagrees
  refine ⟨mapping entries, ?_, (leadsTo_iff hsegments _).2 hholds.kept⟩
  rw [buildConfiguration_eq fun entry hentry => ne_empty_of_segments (hsegments entry hentry), hok]
  rfl

/-- **If there is a configuration in which the path of every given value leads to that value, the
configuration that is built is one.** If there is none, building fails with a conflict, except where
a mapping is given above another value; and it fails with nothing but a conflict. -/
theorem buildConfiguration_keeps {values : Entries} (hkeys : (values.map Prod.fst).Nodup)
    (hsegments : ∀ entry ∈ values, "" ∉ segments entry.1) :
    ((∃ c, LeadsTo values c) →
        ∃ tree, buildConfiguration (.list []) (.mapping values) = .ok tree ∧ LeadsTo values tree)
      ∧ ((¬∃ c, LeadsTo values c) → NoMappingAbove values →
        ∃ conflict, buildConfiguration (.list []) (.mapping values)
          = .error (.configuration conflict))
      ∧ ∀ fault, buildConfiguration (.list []) (.mapping values) = .error fault →
        ∃ conflict, fault = .configuration conflict := by
  have hbuild := buildConfiguration_eq
    fun entry hentry => ne_empty_of_segments (hsegments entry hentry)
  have hfails (fault : Fault)
      (herror : buildConfiguration (.list []) (.mapping values) = .error fault) :
      ∃ conflict, fault = .configuration conflict := by
    rw [hbuild, map_eq_error_iff] at herror
    exact isConfiguration_of_assignAll herror
  refine ⟨fun ⟨c, hc⟩ => ?_, fun himpossible habove => ?_, hfails⟩
  · exact exists_leadsTo_of_agreesBelow hsegments
      (agreesBelow_of_at? ((leadsTo_iff hsegments c).1 hc))
  · cases hresult : buildConfiguration (.list []) (.mapping values) with
    | error fault =>
      obtain ⟨conflict, rfl⟩ := hfails fault hresult
      exact ⟨conflict, rfl⟩
    | ok tree =>
      -- without a mapping above, values that are assigned agree, so there is a configuration
      rw [hbuild] at hresult
      obtain ⟨entries, hok, -⟩ := map_eq_ok_iff.1 hresult
      obtain ⟨tree, -, hkept⟩ := exists_leadsTo_of_agreesBelow hsegments
        (agreesBelow_of_assignAll hkeys habove hok)
      exact absurd ⟨tree, hkept⟩ himpossible

/-- Two values below one key are both kept; a value below another one is refused. -/
theorem buildConfiguration_keeps_user_values :
    (∃ tree, buildConfiguration (.list [])
          (.mapping [("user.name", .text "Ada"), ("user.role", .text "Admin")]) = .ok tree
        ∧ LeadsTo [("user.name", .text "Ada"), ("user.role", .text "Admin")] tree)
      ∧ ∃ conflict, buildConfiguration (.list [])
          (.mapping [("user", .text "Ada"), ("user.name", .text "Ada")])
        = .error (.configuration conflict) := by
  constructor
  · refine (buildConfiguration_keeps (by decide) (by decide)).1
      ⟨.mapping [("user", .mapping [("name", .text "Ada"), ("role", .text "Admin")])], ?_⟩
    simp only [LeadsTo, List.forall_mem_cons]
    exact ⟨rfl, rfl, fun _ h => absurd h List.not_mem_nil⟩
  · refine (buildConfiguration_keeps (by decide) (by decide)).2.1 ?_ ?_
    · rintro ⟨c, hc⟩
      simp only [LeadsTo, List.forall_mem_cons] at hc
      obtain ⟨huser, hname, -⟩ := hc
      rw [resolve_eq_at? (by decide)] at huser hname
      rw [show segments "user.name" = segments "user" ++ ["name"] by decide, at?_append, huser]
        at hname
      cases hname
    · simp [NoMappingAbove, isMapping]

/-- A mapping given under a key takes the place of what was assigned below that key before: the
value given there is lost, and there is no conflict. -/
theorem lost_value_below_mapping :
    (["a.b", "a"].Nodup ∧ ∀ key ∈ ["a.b", "a"], "" ∉ segments key)
      ∧ buildConfiguration (.list [])
          (.mapping [("a.b", .number (.int 1)), ("a", .mapping [("c", .number (.int 2))])])
        = .ok (.mapping [("a", .mapping [("c", .number (.int 2))])])
      ∧ (Value.mapping [("a", .mapping [("c", .number (.int 2))])]).resolve "a.b" = none := by
  refine ⟨?_, rfl, rfl⟩
  decide

end Templating
