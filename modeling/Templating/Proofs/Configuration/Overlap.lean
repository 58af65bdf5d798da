import Templating.Proofs.Configuration.Sequence

/-!
# Conflicts of options and values

Of the options of a bundle those that contribute a value are assigned first, under their names, and
then the given values that no option takes, under their keys. If no mapping is among these values,
a conflict arises exactly if the path of one of them leads on to the path of another one, whatever
their order. Otherwise each path leads to its value, the mappings on the way hold nothing else, and
the order of the options and values shows in nothing but the order of entries.

## Main definitions

* `contribution`: the name of an option with the value that it contributes.
* `assigned`: the keys that are assigned with their values.
* `Overlap`: one path is a proper part of another one.

## Main results

* `assignOptions_eq`, `buildEntries_eq`: a configuration arises from a sequence of assignments.
* `exists_perm_assigned`: permuted options and values are assigned in another order.
* `agreesBelow_iff`: values that are no mappings agree unless their paths overlap.
* `Holds.at?_eq_some_iff`: the values that are no mappings in a configuration.
* `Holds.rearranges`: the order of assignments.
* `buildConfiguration_overlap`: when options and values conflict, and what is built otherwise.
-/

namespace Templating

open Value

/-- The values are accepted as the options, one by one, by `OptionDecl.decode`. -/
def Declare (declarations : List Value) (options : List OptionDecl) : Prop :=
  List.Forall₂ (fun declaration option => (OptionDecl.decode declaration).toExcept = .ok option)
    declarations options

/-- The name of an option with the value that it contributes (`optionValue?`), if it contributes
one. -/
def contribution (values : Entries) (option : OptionDecl) : Option (String × Value) :=
  match optionValue? option values with
  | .ok (some v) => some (option.name, v)
  | _ => none

/-- The given values that no option takes. -/
def untaken (options : List OptionDecl) (values : Entries) : Entries :=
  values.filter fun entry => !(options.map (·.name)).contains entry.1

/-- The keys that are assigned with their values: first those of options with the values given or
their defaults, then those of the given values that no option takes. -/
def assigned (options : List OptionDecl) (values : Entries) : Entries :=
  options.filterMap (contribution values) ++ untaken options values

/-- The path of one value is a proper part, at the front, of the path of another one. -/
def Overlap (pairs : Entries) : Prop :=
  ∃ p ∈ pairs, ∃ q ∈ pairs, segments p.1 <+: segments q.1 ∧ segments p.1 ≠ segments q.1

/-- Whether paths overlap is decided by comparing them two by two. -/
instance (pairs : Entries) : Decidable (Overlap pairs) :=
  inferInstanceAs (Decidable (∃ p ∈ pairs, ∃ q ∈ pairs, _))

variable {options options' : List OptionDecl} {declarations : List Value} {option : OptionDecl}
  {pairs pairs' : List (String × Value)} {values values' entries entries' : Entries}
  {name key : String} {v w : Value} {place : List String}

/-! ### Options are assigned as pairs -/

/-- Removing a value under one name leaves those under other names. -/
theorem get?_remove (h : key ≠ name) : (values.remove name).get? key = values.get? key := by
  induction values with
  | nil => rfl
  | cons entry values ih =>
    obtain ⟨other, v⟩ := entry
    rw [Entries.remove, List.filter_cons]
    split
    · rw [Entries.get?_cons, Entries.get?_cons]
      exact if_congr Iff.rfl rfl ih
    · rename_i hother
      rw [bne_iff_ne, not_not] at hother
      rw [Entries.get?_cons, if_neg fun hkey => h (hkey.symm.trans hother)]
      exact ih

/-- What an option contributes is not changed by removing a value under another name. -/
theorem optionValue?_remove (h : option.name ≠ name) :
    optionValue? option (values.remove name) = optionValue? option values := by
  rw [optionValue?, optionValue?, get?_remove h]

/-- Without a value under its name, `Entries.remove` changes nothing. -/
theorem remove_eq_self (h : values.get? name = none) : values.remove name = values := by
  rw [Entries.remove, List.filter_eq_self]
  intro entry hentry
  rw [bne_iff_ne]
  rintro rfl
  exact Entries.get?_eq_none_iff.1 h (List.mem_map_of_mem hentry)

/-- An option that contributes nothing has no value given under its name. -/
theorem get?_eq_none_of_optionValue? (h : optionValue? option values = .ok none) :
    values.get? option.name = none := by
  rw [optionValue?] at h
  split at h
  · obtain ⟨_, -, ⟨⟩⟩ := map_eq_ok_iff.1 h
  · assumption

/-- Removing the value of an option leaves what that option and the others do not take. -/
theorem untaken_remove (option : OptionDecl) (options : List OptionDecl) (values : Entries) :
    untaken options (values.remove option.name) = untaken (option :: options) values := by
  rw [untaken, untaken, Entries.remove, List.filter_filter]
  refine List.filter_congr fun entry _ => ?_
  rw [List.map_cons, List.contains_cons, Bool.not_or, Bool.and_comm]
  rfl

/-- Options with distinct names are assigned one after the other with what each contributes, and the
given values that none of them takes are left. Induction on the options; the value of the first is
removed before the others are looked at. -/
theorem assignOptions_eq
    (hdeclared : Declare declarations options)
    (hnames : (options.map (·.name)).Nodup)
    (hvalues : ∀ option ∈ options, ∃ v, optionValue? option values = .ok v) (entries : Entries) :
    assignOptions declarations values entries
      = (assignAll (options.filterMap (contribution values)) entries).map
        fun entries => (entries, untaken options values) := by
  induction declarations generalizing options values entries with
  | nil =>
    obtain rfl := List.forall₂_nil_left_iff.1 hdeclared
    have hall : untaken [] values = values := List.filter_eq_self.2 fun _ _ => rfl
    rw [hall]
    rfl
  | cons declaration declarations ih =>
    obtain ⟨option, options, hdecode, hrest, rfl⟩ :=
      List.forall₂_cons_left_iff.1 hdeclared
    rw [List.map_cons, List.nodup_cons] at hnames
    rw [List.forall_mem_cons] at hvalues
    obtain ⟨⟨contributed, hcontributed⟩, hothers⟩ := hvalues
    -- the options that follow have other names, so the removal does not concern them
    have hsame : ∀ other ∈ options,
        optionValue? other (values.remove option.name) = optionValue? other values := by
      intro other hother
      refine optionValue?_remove fun hname => hnames.1 ?_
      rw [← hname]
      exact List.mem_map_of_mem hother
    have hcontributions : options.filterMap (contribution (values.remove option.name))
        = options.filterMap (contribution values) :=
      List.filterMap_congr fun other hother => by
        rw [contribution, contribution, hsame other hother]
    have hremaining : ∀ other ∈ options,
        ∃ v, optionValue? other (values.remove option.name) = .ok v := by
      intro other hother
      rw [hsame other hother]
      exact hothers other hother
    have hnext := ih hrest hnames.2 hremaining
    rw [hcontributions, untaken_remove] at hnext
    rw [assignOptions, hdecode, List.filterMap_cons]
    simp only [bind, Except.bind, hcontributed]
    cases contributed with
    | none =>
      have habsent := remove_eq_self (get?_eq_none_of_optionValue? hcontributed)
      rw [habsent] at hnext
      have hnothing : contribution values option = none := by rw [contribution, hcontributed]
      rw [hnothing]
      exact hnext entries
    | some v =>
      have hpair : contribution values option = some (option.name, v) := by
        rw [contribution, hcontributed]
      simp only [hpair, assignAll_cons, bind, Except.bind]
      cases assign option.name v entries with
      | error fault => rfl
      | ok entries' => exact hnext entries'

/-- **The entries of a configuration arise from a sequence of assignments**: first
`assignOptions_eq`, then `assignValues_eq` for what is left. -/
theorem buildEntries_eq
    (hdeclared : Declare declarations options)
    (hnames : (options.map (·.name)).Nodup)
    (hcontributes : ∀ option ∈ options, ∃ v, optionValue? option values = .ok v)
    (hkeys : ∀ entry ∈ values, entry.1 ≠ "") :
    buildEntries declarations values = assignAll (assigned options values) [] := by
  have huntaken : ∀ entry ∈ untaken options values, entry.1 ≠ "" :=
    fun entry hentry => hkeys entry (List.mem_filter.1 hentry).1
  rw [buildEntries, assignOptions_eq hdeclared hnames hcontributes, assigned, assignAll_append]
  cases assignAll (options.filterMap (contribution values)) [] with
  | error fault => rfl
  | ok entries => exact assignValues_eq huntaken entries

/-! ### What is assigned -/

theorem isMapping_value (scalar : Scalar) : scalar.value.isMapping = false := by
  cases scalar <;> rfl

/-- The value that `coerce` makes is a mapping only if the value given for the option is one. -/
theorem isMapping_of_coerce (h : coerce option v = .ok w) (hv : v.isMapping = false) :
    w.isMapping = false := by
  unfold coerce at h
  split at h
  · split at h
    · cases h
      rfl
    · cases h
  · split at h
    · cases h
      rfl
    · cases h
  · split at h
    · split at h
      · cases h
        exact hv
      · cases h
    · cases h
      exact hv
  · cases h
    exact hv

/-- An option contributes no mapping if none is among the given values. -/
theorem isMapping_of_optionValue? (hvalues : ∀ entry ∈ values, entry.2.isMapping = false)
    (h : optionValue? option values = .ok (some v)) : v.isMapping = false := by
  rw [optionValue?] at h
  split at h
  · rename_i given hgiven
    obtain ⟨w, hw, hv⟩ := map_eq_ok_iff.1 h
    cases hv
    exact isMapping_of_coerce hw (hvalues _ (Entries.mem_of_get? hgiven))
  · split at h
    · cases h
      exact isMapping_value _
    · split at h
      · cases h
      · cases h

/-- An option contributes a pair of its name and its value, if it has a value. -/
theorem contribution_eq_some_iff {pair : String × Value} :
    contribution values option = some pair
      ↔ option.name = pair.1 ∧ optionValue? option values = .ok (some pair.2) := by
  rw [contribution]
  split
  · rename_i v hv
    rw [hv, Option.some.injEq, Prod.ext_iff, Except.ok.injEq, Option.some.injEq]
  · rename_i hnone
    refine iff_of_false (by rintro ⟨⟩) fun h => hnone _ h.2

/-- Without a mapping among the given values, no mapping is assigned. -/
theorem isMapping_of_mem_assigned (hvalues : ∀ entry ∈ values, entry.2.isMapping = false) :
    ∀ entry ∈ assigned options values, entry.2.isMapping = false := by
  intro entry hentry
  rcases List.mem_append.1 hentry with hcontributed | huntaken
  · obtain ⟨option, -, hoption⟩ := List.mem_filterMap.1 hcontributed
    exact isMapping_of_optionValue? hvalues (contribution_eq_some_iff.1 hoption).2
  · exact hvalues entry (List.mem_filter.1 huntaken).1

/-- The names under which options contribute are names of those options. -/
theorem sublist_map_fst_contributions (options : List OptionDecl) (values : Entries) :
    ((options.filterMap (contribution values)).map Prod.fst).Sublist (options.map (·.name)) := by
  induction options with
  | nil => exact .slnil
  | cons option options ih =>
    rw [List.filterMap_cons, List.map_cons]
    cases hpair : contribution values option with
    | none => exact ih.cons _
    | some pair =>
      rw [(contribution_eq_some_iff.1 hpair).1]
      exact ih.cons_cons _

/-- No key is assigned twice: the names of options are distinct, and `untaken` leaves out the values
under them. -/
theorem nodup_map_fst_assigned (hnames : (options.map (·.name)).Nodup)
    (hkeys : (values.map Prod.fst).Nodup) : ((assigned options values).map Prod.fst).Nodup := by
  have hcontributed := sublist_map_fst_contributions options values
  rw [assigned, List.map_append, List.nodup_append]
  refine ⟨hcontributed.nodup hnames, (List.filter_sublist.map Prod.fst).nodup hkeys, ?_⟩
  rintro key hkey _ huntaken rfl
  obtain ⟨entry, hentry, rfl⟩ := List.mem_map.1 huntaken
  have hfree := (List.mem_filter.1 hentry).2
  rw [List.contains_iff_mem.2 (hcontributed.subset hkey)] at hfree
  cases hfree

/-! ### Permuted options and values -/

/-- What stands under a key does not depend on the order of entries with distinct keys. -/
theorem get?_eq_of_perm (hkeys : (values.map Prod.fst).Nodup) (h : values.Perm values')
    (key : String) : values.get? key = values'.get? key := by
  refine Option.ext fun v => ?_
  rw [Entries.get?_eq_some_iff hkeys, Entries.get?_eq_some_iff ((h.map Prod.fst).nodup hkeys)]
  exact h.mem_iff

theorem optionValue?_eq_of_perm (hkeys : (values.map Prod.fst).Nodup) (h : values.Perm values')
    (option : OptionDecl) : optionValue? option values = optionValue? option values' := by
  rw [optionValue?, optionValue?, get?_eq_of_perm hkeys h]

/-- Permuted options and values are assigned in another order, because what each option contributes
stays the same (`optionValue?_eq_of_perm`). -/
theorem assigned_perm (hkeys : (values.map Prod.fst).Nodup) (hvalues : values.Perm values')
    (hoptions : options.Perm options') :
    (assigned options values).Perm (assigned options' values') := by
  have hcontribution : contribution values = contribution values' :=
    funext fun option => by
      rw [contribution, contribution, optionValue?_eq_of_perm hkeys hvalues]
  have huntaken : untaken options values = untaken options' values :=
    List.filter_congr fun entry _ => by rw [(hoptions.map (·.name)).contains_eq]
  rw [assigned, assigned, hcontribution, huntaken]
  exact (hoptions.filterMap _).append (hvalues.filter _)

theorem exists_declared_of_perm {declarations' : List Value}
    (hdeclared : Declare declarations options) (h : declarations.Perm declarations') :
    ∃ options', Declare declarations' options' ∧ options.Perm options' := by
  obtain ⟨options', hdeclared', hperm⟩ := List.perm_comp_forall₂ h.symm hdeclared
  exact ⟨options', hdeclared', hperm.symm⟩

/-! ### Values that are no mappings -/

/-- **Values that are no mappings, under distinct keys, agree unless their paths overlap**
(`Overlap`). -/
theorem agreesBelow_iff (hkeys : (pairs.map Prod.fst).Nodup)
    (hpairs : ∀ pair ∈ pairs, pair.2.isMapping = false) : AgreesBelow pairs ↔ ¬Overlap pairs := by
  constructor
  · rintro hagrees ⟨p, hp, q, hq, ⟨rest, hrest⟩, hproper⟩
    have hthere := hagrees p hp q hq rest hrest.symm
    rw [at?_eq_none (hpairs p hp)] at hthere
    · cases hthere
    · rintro rfl
      exact hproper (by rw [← hrest, List.append_nil])
  · intro hoverlap p hp q hq rest hrest
    by_cases hkey : segments p.1 = segments q.1
    · obtain rfl := List.inj_on_of_nodup_map hkeys hp hq (segments_injective hkey)
      obtain rfl := List.self_eq_append_right.1 hrest
      rfl
    · exact absurd ⟨p, hp, q, hq, ⟨rest, hrest.symm⟩, hkey⟩ hoverlap

/-- Whether paths overlap does not depend on their order. -/
theorem overlap_iff_of_perm (h : pairs.Perm pairs') : Overlap pairs ↔ Overlap pairs' := by
  simp only [Overlap, h.mem_iff]

/-- The values that stand anywhere and are no mappings are those given, each at the end of its path.
Nothing stands below them, so `Holds.given` leaves no other place. -/
theorem Holds.at?_eq_some_iff (h : Holds pairs entries)
    (hpairs : ∀ pair ∈ pairs, pair.2.isMapping = false) (hv : v.isMapping = false) :
    (mapping entries).at? place = some v ↔ ∃ key, (key, v) ∈ pairs ∧ segments key = place := by
  constructor
  · intro hthere
    rcases h.given place v hthere with ⟨hmapping, -⟩ | ⟨p, hp, rest, rfl, hrest⟩
    · rw [hv] at hmapping
      cases hmapping
    · obtain ⟨rfl, rfl⟩ := eq_of_at?_eq_some (hpairs p hp) hrest
      exact ⟨p.1, hp, (List.append_nil _).symm⟩
  · rintro ⟨key, hpair, rfl⟩
    exact h.kept _ hpair

/-- The mappings that stand anywhere are the outermost one and those on the way to a value
(`IsAbove`). -/
theorem Holds.isMapping_iff (h : Holds pairs entries)
    (hpairs : ∀ pair ∈ pairs, pair.2.isMapping = false) :
    (∃ below, (mapping entries).at? place = some (mapping below)) ↔ IsAbove pairs place := by
  constructor
  · rintro ⟨below, hbelow⟩
    rcases h.given place _ hbelow with ⟨-, habove⟩ | ⟨p, hp, rest, -, hrest⟩
    · exact habove
    · obtain ⟨-, hmapping⟩ := eq_of_at?_eq_some (hpairs p hp) hrest
      have hvalue := hpairs p hp
      rw [← hmapping] at hvalue
      cases hvalue
  · rintro (rfl | ⟨p, hp, rest, hproper, hrest⟩)
    · exact ⟨_, rfl⟩
    · have hthere := h.kept p hp
      rw [hrest] at hthere
      exact exists_mapping_of_at? hthere hproper

/-- In whatever order values that are no mappings were assigned, alike stands at every place: the
values by `Holds.at?_eq_some_iff`, the mappings by `Holds.isMapping_iff`. -/
theorem Holds.alikeAt (h : Holds pairs entries) (h' : Holds pairs' entries')
    (hpairs : ∀ pair ∈ pairs, pair.2.isMapping = false) (hperm : pairs.Perm pairs')
    (place : List String) :
    AlikeAt ((mapping entries).at? place) ((mapping entries').at? place) := by
  have hpairs' : ∀ pair ∈ pairs', pair.2.isMapping = false :=
    fun pair hpair => hpairs pair (hperm.mem_iff.2 hpair)
  refine alikeAt_of_iff (fun v hv => ?_) ?_
  · rw [h.at?_eq_some_iff hpairs hv, h'.at?_eq_some_iff hpairs' hv]
    exact exists_congr fun key => and_congr_left' hperm.mem_iff
  · rw [h.isMapping_iff hpairs, h'.isMapping_iff hpairs', IsAbove, IsAbove]
    exact or_congr_right (exists_congr fun p => and_congr_left' hperm.mem_iff)

/-- Assignments keep it so that no two entries have one key. Induction with `Assigned.isKeyed`. -/
theorem isKeyed_of_assignAll (hpairs : ∀ pair ∈ pairs, pair.2.IsKeyed)
    (hentries : (mapping entries).IsKeyed) (h : assignAll pairs entries = .ok entries') :
    (mapping entries').IsKeyed := by
  induction pairs generalizing entries with
  | nil =>
    cases h
    exact hentries
  | cons pair pairs ih =>
    rw [List.forall_mem_cons] at hpairs
    rw [assignAll_cons] at h
    obtain ⟨between, hbetween, hrest⟩ := bind_eq_ok_iff.1 h
    refine ih hpairs.2 ?_ hrest
    rcases assign_cases pair.1 pair.2 entries with ⟨_, hok, hassigned⟩ | ⟨_, herror, -⟩
    · cases hbetween.symm.trans hok
      exact hassigned.isKeyed hpairs.1 hentries
    · cases hbetween.symm.trans herror

/-- The order in which values that are no mappings were assigned shows in nothing but the order of
entries, by `Value.rearranges_of_alikeAt`. -/
theorem Holds.rearranges (h : Holds pairs entries) (h' : Holds pairs' entries')
    (hok : assignAll pairs [] = .ok entries) (hok' : assignAll pairs' [] = .ok entries')
    (hpairs : ∀ pair ∈ pairs, pair.2.isMapping = false) (hperm : pairs.Perm pairs') :
    Rearranges (mapping entries) (mapping entries') := by
  have hkeyed : ∀ pair ∈ pairs, pair.2.IsKeyed :=
    fun pair hpair => isKeyed_of_not_isMapping (hpairs pair hpair)
  have hnil : (mapping []).IsKeyed :=
    isKeyed_mapping_iff.2 ⟨List.nodup_nil, fun _ _ h => by cases h⟩
  exact rearranges_of_alikeAt (isKeyed_of_assignAll hkeyed hnil hok)
    (isKeyed_of_assignAll (fun pair hpair => hkeyed pair (hperm.mem_iff.2 hpair)) hnil hok')
    (h.alikeAt h' hpairs hperm)

/-! ### Building a configuration -/

/-- **Assignments of values that are no mappings, under distinct keys, fail with a conflict exactly
if their paths overlap**, by the two lemmas on `AgreesBelow` and `agreesBelow_iff`. -/
theorem assignAll_eq_error_iff (hkeys : (pairs.map Prod.fst).Nodup)
    (hpairs : ∀ pair ∈ pairs, pair.2.isMapping = false) :
    (∃ conflict, assignAll pairs [] = .error (.configuration conflict)) ↔ Overlap pairs := by
  rw [← not_iff_not, ← agreesBelow_iff hkeys hpairs]
  constructor
  · intro hnone
    cases hassign : assignAll pairs [] with
    | ok entries =>
      exact agreesBelow_of_assignAll hkeys (fun p hp _ _ _ _ _ => hpairs p hp) hassign
    | error fault =>
      obtain ⟨conflict, rfl⟩ := isConfiguration_of_assignAll hassign
      exact absurd ⟨conflict, hassign⟩ hnone
  · rintro hagrees ⟨conflict, herror⟩
    obtain ⟨entries, hok, -⟩ := exists_assignAll_of_agreesBelow hagrees
    cases herror.symm.trans hok

/-- From permuted options and values a configuration is built by assigning the same pairs in another
order: `assigned_perm` and `buildEntries_eq`. -/
theorem exists_perm_assigned (hdeclared : Declare declarations options)
    (hnames : (options.map (·.name)).Nodup) (hkeys : (values.map Prod.fst).Nodup)
    (hnamed : ∀ entry ∈ values, entry.1 ≠ "")
    (hcontributes : ∀ option ∈ options, ∃ v, optionValue? option values = .ok v)
    {declarations' : List Value} (hdeclarations : declarations.Perm declarations')
    (hvalues : values.Perm values') : ∃ pairs, (assigned options values).Perm pairs
      ∧ buildConfiguration (.list declarations') (.mapping values')
        = (assignAll pairs []).map .mapping := by
  obtain ⟨options', hdeclared', hoptions⟩ := exists_declared_of_perm hdeclared hdeclarations
  refine ⟨assigned options' values', assigned_perm hkeys hvalues hoptions, ?_⟩
  rw [buildConfiguration_list, buildEntries_eq hdeclared' ((hoptions.map _).nodup hnames) ?_ ?_]
  · intro option hoption
    rw [← optionValue?_eq_of_perm hkeys hvalues]
    exact hcontributes option (hoptions.mem_iff.2 hoption)
  · exact fun entry hentry => hnamed entry (hvalues.mem_iff.2 hentry)

/-- **When options and values conflict, and what is built otherwise.** Options and given values none
of which is a mapping conflict exactly if one path that is assigned is a proper part of another one,
and this in any order of the options and values. Otherwise the values in the configuration that are
no mappings are those assigned, each at the end of its path, and in any order of the options and
values the configuration is the same up to the order of entries. -/
theorem buildConfiguration_overlap
    (hdeclared : Declare declarations options)
    (hnames : (options.map (·.name)).Nodup) (hkeys : (values.map Prod.fst).Nodup)
    (hnamed : ∀ entry ∈ values, entry.1 ≠ "")
    (hvalues : ∀ entry ∈ values, entry.2.isMapping = false)
    (hcontributes : ∀ option ∈ options, ∃ v, optionValue? option values = .ok v) :
    (∀ declarations' values', declarations.Perm declarations' → values.Perm values' →
        ((∃ conflict, buildConfiguration (.list declarations') (.mapping values')
            = .error (.configuration conflict)) ↔ Overlap (assigned options values)))
      ∧ (¬Overlap (assigned options values) →
        ∃ tree, buildConfiguration (.list declarations) (.mapping values) = .ok tree
          ∧ (∀ place v, v.isMapping = false → (tree.at? place = some v
            ↔ ∃ key, (key, v) ∈ assigned options values ∧ segments key = place))
          ∧ ∀ declarations' values', declarations.Perm declarations' → values.Perm values' →
            ∃ tree', buildConfiguration (.list declarations') (.mapping values') = .ok tree'
              ∧ Rearranges tree tree') := by
  have hassigned : ((assigned options values).map Prod.fst).Nodup :=
    nodup_map_fst_assigned hnames hkeys
  have hplain : ∀ entry ∈ assigned options values, entry.2.isMapping = false :=
    isMapping_of_mem_assigned hvalues
  constructor
  · intro declarations' values' hdeclarations hperm
    obtain ⟨pairs, hpairs, hbuild⟩ :=
      exists_perm_assigned hdeclared hnames hkeys hnamed hcontributes hdeclarations hperm
    rw [hbuild, overlap_iff_of_perm hpairs, ← assignAll_eq_error_iff
      ((hpairs.map Prod.fst).nodup hassigned) fun p hp => hplain p (hpairs.mem_iff.2 hp)]
    exact exists_congr fun conflict => map_eq_error_iff
  · intro hoverlap
    -- Paths that do not overlap agree in any order, so every order can be assigned.
    have hagrees {pairs : Entries} (hpairs : (assigned options values).Perm pairs) :
        AgreesBelow pairs := by
      rw [overlap_iff_of_perm hpairs] at hoverlap
      exact (agreesBelow_iff ((hpairs.map Prod.fst).nodup hassigned)
        fun p hp => hplain p (hpairs.mem_iff.2 hp)).2 hoverlap
    obtain ⟨pairs, hpairs, hbuild⟩ :=
      exists_perm_assigned hdeclared hnames hkeys hnamed hcontributes (.refl _) (.refl _)
    obtain ⟨entries, hok, hholds⟩ := exists_assignAll_of_agreesBelow (hagrees hpairs)
    have hplain' : ∀ pair ∈ pairs, pair.2.isMapping = false :=
      fun pair hpair => hplain pair (hpairs.mem_iff.2 hpair)
    refine ⟨.mapping entries, by rw [hbuild, hok]; rfl, fun place v hv => ?_, ?_⟩
    · rw [hholds.at?_eq_some_iff hplain' hv]
      exact exists_congr fun key => and_congr_left' hpairs.symm.mem_iff
    · intro declarations' values' hdeclarations hperm
      -- The other order has the same values at the same places (`Holds.rearranges`).
      obtain ⟨pairs', hpairs', hbuild'⟩ :=
        exists_perm_assigned hdeclared hnames hkeys hnamed hcontributes hdeclarations hperm
      obtain ⟨entries', hok', hholds'⟩ := exists_assignAll_of_agreesBelow (hagrees hpairs')
      exact ⟨.mapping entries', by rw [hbuild', hok']; rfl,
        hholds.rearranges hholds' hok hok' hplain' (hpairs.symm.trans hpairs')⟩

/-- A default and two given values, one of them for an option, are kept side by side in any order; a
value below the path of a given one conflicts in any order. -/
theorem buildConfiguration_overlap_user_options :
    (∃ tree, buildConfiguration
        (.list [
          .mapping [("name", .text "user.role"), ("type", .text "string"),
            ("description", .text "the role"), ("default", .text "Admin")],
          .mapping [("name", .text "debug"), ("type", .text "boolean"),
            ("description", .text "more output")]])
        (.mapping [("debug", .text "yes"), ("user.name", .text "Ada")]) = .ok tree
      ∧ tree.at? ["debug"] = some (.bool true) ∧ tree.at? ["user", "role"] = some (.text "Admin"))
      ∧ ∀ values, [("user", .text "Ada"), ("user.name", .text "Ada")].Perm values →
        ∃ conflict, buildConfiguration (.list []) (.mapping values)
          = .error (.configuration conflict) := by
  constructor
  · have hdeclared : Declare [
          .mapping [("name", .text "user.role"), ("type", .text "string"),
            ("description", .text "the role"), ("default", .text "Admin")],
          .mapping [("name", .text "debug"), ("type", .text "boolean"),
            ("description", .text "more output")]]
        [⟨"user.role", .string, "the role", some (.text "Admin"), none, false⟩,
          ⟨"debug", .boolean, "more output", none, none, false⟩] :=
      .cons rfl (.cons rfl .nil)
    have hkeys : (List.map Prod.fst
        [("debug", Value.text "yes"), ("user.name", .text "Ada")]).Nodup := by decide
    obtain ⟨tree, hbuild, hleaves, -⟩ := (buildConfiguration_overlap hdeclared (by decide) hkeys
      (by decide) (by decide) (List.forall_mem_cons.2 ⟨⟨_, rfl⟩, List.forall_mem_cons.2 ⟨⟨_, rfl⟩,
        fun _ h => absurd h List.not_mem_nil⟩⟩)).2 (by decide +kernel)
    exact ⟨tree, hbuild, (hleaves _ _ rfl).2 ⟨"debug", .tail _ (.head _), by decide⟩,
      (hleaves _ _ rfl).2 ⟨"user.role", .head _, by decide⟩⟩
  · intro values hperm
    have hdeclared : Declare [] [] := .nil
    exact ((buildConfiguration_overlap hdeclared .nil (by decide) (by decide) (by decide)
      (fun _ h => absurd h List.not_mem_nil)).1 [] values .nil hperm).2 (by decide +kernel)

end Templating
