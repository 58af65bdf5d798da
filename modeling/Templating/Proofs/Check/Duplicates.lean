import Templating.Proofs.Check.FileResults
import Templating.Proofs.Check.GuardErrors
import Templating.Proofs.Check.OptionNames
import Templating.Proofs.Occurrences

/-!
# Duplicates

No two files of a bundle may have the same path, and no two of its options the same name. Both are
found on a walk that remembers what it has met: the paths so far, and the names so far with the
numbers of the options that had them first. On the walk over the files the paths that come back are
listed, each once, in the order in which they come back; on the walk over the options each option
whose name was met is told of, together with the first option of that name. So every duplicate is
found and nothing else is, whatever else is wrong with the items, as long as the check returns. It
does not where an integer that is too long stands in the guard of a file, or in what an option has
for a type.

## Main definitions

* `NamedAt`, `RepeatedAt`, `FirstNamedAt`: what the items of a list are named, and where.
* `optionName?`: the name of an option.
* `FileFindings.TellsRepeated`, `Findings.TellsRepeated`: what is said about duplicates.
* `Entries.HasDistinctNames`: a bundle without duplicates.

## Main results

* `listsFirst_repeatedPaths`: the paths that come back are listed.
* `mem_errors_of_checkOptionsFrom`: what is said about the options on the walk.
* `duplicates_told`: the check of files, of options and of a bundle.
-/

namespace Templating

open Templating.Text

/-! ### Names and their places -/

section Names

variable (name? : Value → Option String) (items : List Value) (name : String) (place : Nat)

/-- The item at a place has a name, as `name?` reads it. The walks over files and over options
differ in `name?` only, so what follows is stated for both. -/
def NamedAt : Prop :=
  ∃ item, items[place]? = some item ∧ name? item = some name

/-- The item at a place has a name that an item before it has: a duplicate is met at that place, and
not at the first one. -/
def RepeatedAt : Prop :=
  NamedAt name? items name place ∧ ∃ earlier < place, NamedAt name? items name earlier

/-- The item at a place is the first that has a name; this is the place that an error about a
duplicate refers to. -/
def FirstNamedAt : Prop :=
  NamedAt name? items name place ∧ ∀ earlier < place, ¬NamedAt name? items name earlier

variable {name? items name place} {item : Value} {more : List Value}

/-- A place where something is named is one of the list's. -/
theorem NamedAt.lt (h : NamedAt name? items name place) : place < items.length := by
  obtain ⟨item, hitem, -⟩ := h
  exact (List.getElem?_eq_some_iff.1 hitem).1

/-- What is named at a place does not depend on items further behind. -/
theorem namedAt_append (hplace : place < items.length) :
    NamedAt name? (items ++ more) name place ↔ NamedAt name? items name place := by
  rw [NamedAt, NamedAt, List.getElem?_append_left hplace]

/-- Nor does what is named at a place first, since it depends on earlier places only. -/
theorem firstNamedAt_append (hplace : place < items.length) :
    FirstNamedAt name? (items ++ more) name place ↔ FirstNamedAt name? items name place := by
  refine and_congr (namedAt_append hplace) (forall₂_congr fun earlier hlt => not_congr ?_)
  exact namedAt_append (hlt.trans hplace)

/-- The item that stands behind `items` has the name that it has: the place of the item that a walk
comes to next. -/
theorem namedAt_length : NamedAt name? (items ++ item :: more) name items.length
    ↔ name? item = some name := by
  rw [NamedAt, List.getElem?_append_right (Nat.le_refl _), Nat.sub_self]
  exact ⟨fun ⟨_, hitem, hname⟩ => Option.some.inj hitem ▸ hname, fun hname => ⟨item, rfl, hname⟩⟩

/-- One more item stands behind all others: something is named at a place of the longer list exactly
if it is at that place before, or it is the new item. `repeatedAt_concat` and `firstNamedAt_concat`
follow from it, and the three are the steps of the walks below. -/
theorem namedAt_concat : NamedAt name? (items ++ [item]) name place
    ↔ NamedAt name? items name place ∨ name? item = some name ∧ place = items.length := by
  constructor
  · intro h
    have hlt := h.lt
    rw [List.length_append, List.length_singleton] at hlt
    rcases Nat.lt_or_eq_of_le (Nat.le_of_lt_succ hlt) with hbefore | rfl
    · exact .inl ((namedAt_append hbefore).1 h)
    · exact .inr ⟨namedAt_length.1 h, rfl⟩
  · rintro (h | ⟨hname, rfl⟩)
    · exact (namedAt_append h.lt).2 h
    · exact namedAt_length.2 hname

/-- The new item is a duplicate exactly if its name was met at all; whatever else is one stays
one. -/
theorem repeatedAt_concat : RepeatedAt name? (items ++ [item]) name place
    ↔ RepeatedAt name? items name place
      ∨ (name? item = some name ∧ ∃ earlier, NamedAt name? items name earlier)
        ∧ place = items.length := by
  constructor
  · rintro ⟨hplace, earlier, hlt, hearlier⟩
    have hbefore (h : place ≤ items.length) : NamedAt name? items name earlier :=
      (namedAt_append (hlt.trans_le h)).1 hearlier
    rcases namedAt_concat.1 hplace with hplace | ⟨hname, rfl⟩
    · exact .inl ⟨hplace, earlier, hlt, hbefore hplace.lt.le⟩
    · exact .inr ⟨⟨hname, earlier, hbefore (Nat.le_refl _)⟩, rfl⟩
  · rintro (⟨hplace, earlier, hlt, hearlier⟩ | ⟨⟨hname, earlier, hearlier⟩, rfl⟩)
    · exact ⟨namedAt_concat.2 (.inl hplace), earlier, hlt, namedAt_concat.2 (.inl hearlier)⟩
    · exact ⟨namedAt_length.2 hname, earlier, hearlier.lt, namedAt_concat.2 (.inl hearlier)⟩

/-- The new item is the first of its name exactly if that name was not met before. -/
theorem firstNamedAt_concat : FirstNamedAt name? (items ++ [item]) name place
    ↔ FirstNamedAt name? items name place
      ∨ (name? item = some name ∧ ∀ earlier, ¬NamedAt name? items name earlier)
        ∧ place = items.length := by
  constructor
  · rintro ⟨hplace, hfirst⟩
    rcases namedAt_concat.1 hplace with hplace | ⟨hname, rfl⟩
    · exact .inl ((firstNamedAt_append hplace.lt).1 ⟨namedAt_concat.2 (.inl hplace), hfirst⟩)
    · exact .inr ⟨⟨hname, fun earlier h => hfirst earlier h.lt (namedAt_concat.2 (.inl h))⟩, rfl⟩
  · rintro (h | ⟨⟨hname, hnone⟩, rfl⟩)
    · exact (firstNamedAt_append h.1.lt).2 h
    · exact ⟨namedAt_length.2 hname, fun earlier hlt h => hnone earlier ((namedAt_append hlt).1 h)⟩

/-- Whatever an item is named, some item has that name first. Strong induction on the place: an
earlier item of the name has a first one before it. -/
theorem NamedAt.exists_first (h : NamedAt name? items name place) :
    ∃ first ≤ place, FirstNamedAt name? items name first := by
  induction place using Nat.strongRecOn with
  | ind place ih =>
    by_cases hearlier : ∃ earlier < place, NamedAt name? items name earlier
    · obtain ⟨earlier, hlt, hnamed⟩ := hearlier
      obtain ⟨first, hle, hfirst⟩ := ih earlier hlt hnamed
      exact ⟨first, hle.trans hlt.le, hfirst⟩
    · exact ⟨place, Nat.le_refl _, h, fun earlier hlt hnamed => hearlier ⟨earlier, hlt, hnamed⟩⟩

/-- Where no name comes back (`RepeatedAt`), all names are told apart: of two equal names the later
one would. -/
theorem nodup_filterMap_of_not_repeatedAt (h : ∀ name place, ¬RepeatedAt name? items name place) :
    (items.filterMap name?).Nodup := by
  refine List.pairwise_filterMap.2 (List.pairwise_iff_getElem.2 ?_)
  rintro i j hi hj hlt name hname _ hname' rfl
  have hnamed {k : Nat} (hk : k < items.length) (hk' : name? items[k] = some name) :
      NamedAt name? items name k := ⟨items[k], List.getElem?_eq_getElem hk, hk'⟩
  exact h name j ⟨hnamed hj hname', i, hlt, hnamed hi hname⟩

end Names

/-! ### Paths that come back -/

/-- The paths met on a walk over entries, and those that came back. This is the invariant of
`PathSearch.meet`: `seen` holds every path so far, and `repeated` lists the paths that came back by
`ListsFirst`. -/
structure PathSearch.Follows (s : PathSearch) (files : List Value) : Prop where
  seen : ∀ path, path ∈ s.seen ↔ ∃ place, NamedAt entryPath? files path place
  repeated : ListsFirst (RepeatedAt entryPath? files) s.repeated

namespace PathSearch

variable {s : PathSearch} {files : List Value} {entry : Value}

/-- The invariant holds before the walk: nothing is met, and nothing comes back. -/
theorem follows_nil : Follows ⟨[], []⟩ [] := by
  have hnone (path : String) (place : Nat) : ¬NamedAt entryPath? [] path place :=
    fun h => absurd h.lt (Nat.not_lt_zero place)
  refine ⟨fun path => ?_, .nil, fun path => ?_, .nil⟩
  · exact iff_of_false List.not_mem_nil fun ⟨place, h⟩ => hnone path place h
  · exact iff_of_false List.not_mem_nil fun ⟨place, h, _⟩ => hnone path place h

/-- One more entry without a path keeps the invariant, with the search as it is. -/
theorem Follows.concat_of_none (h : s.Follows files) (hentry : entryPath? entry = none) :
    s.Follows (files ++ [entry]) := by
  refine ⟨fun path => ?_, h.repeated.congr fun path place => ?_⟩
  · simp only [h.seen, namedAt_concat, hentry, reduceCtorEq, false_and, or_false]
  · simp only [repeatedAt_concat, hentry, reduceCtorEq, false_and, or_false]

/-- **The step of the walk**: one more entry with a path keeps the invariant. The path is listed as
one that came back exactly if it was seen and is not listed yet, and the place where it came back is
the new one. -/
theorem Follows.meet (h : s.Follows files) {path : String} (hentry : entryPath? entry = some path) :
    (s.meet path).Follows (files ++ [entry]) := by
  have hsame (path' : String) : some path = some path' ↔ path' = path := by
    rw [Option.some_inj, eq_comm]
  refine ⟨fun path' => ?_, ?_⟩
  · rw [PathSearch.meet, List.mem_cons, h.seen]
    simp only [namedAt_concat, hentry, hsame, exists_or, exists_and_left, exists_eq, and_true]
    exact or_comm
  · by_cases hseen : path ∈ s.seen
    · have hmeet : (s.meet path).repeated
          = if path ∈ s.repeated then s.repeated else s.repeated ++ [path] := by
        simp [PathSearch.meet, hseen]
      rw [hmeet]
      refine (h.repeated.concat fun _ _ hplace => hplace.1.lt).congr fun path' place => ?_
      rw [repeatedAt_concat, hentry, hsame]
      refine or_congr_right (and_congr_left fun _ => (and_iff_left_of_imp ?_).symm)
      rintro rfl
      exact (h.seen path').1 hseen
    · have hmeet : (s.meet path).repeated = s.repeated := by simp [PathSearch.meet, hseen]
      rw [hmeet]
      refine h.repeated.congr fun path' place => ?_
      rw [repeatedAt_concat, hentry, hsame, or_iff_left]
      rintro ⟨⟨rfl, hplace⟩, -⟩
      exact hseen ((h.seen path').2 hplace)

/-- **The run of the walk.** Induction on the entries from the end, with `Follows.concat_of_none` or
`Follows.meet` for the last one. -/
theorem follows_foldl (files : List Value) :
    ((files.filterMap entryPath?).foldl PathSearch.meet ⟨[], []⟩).Follows files := by
  induction files using List.reverseRecOn with
  | nil => exact follows_nil
  | append_singleton files entry ih =>
    rw [List.filterMap_append, List.foldl_append]
    cases hentry : entryPath? entry with
    | none =>
      rw [List.filterMap_cons_none hentry]
      exact ih.concat_of_none hentry
    | some path =>
      rw [List.filterMap_cons_some hentry]
      exact ih.meet hentry

end PathSearch

/-- **The paths that come back are listed.** The paths that more than one entry has are listed in
`repeatedPaths`, each once, in the order of their second occurrence: the invariant at the end of the
walk. -/
theorem listsFirst_repeatedPaths (files : List Value) :
    ListsFirst (RepeatedAt entryPath? files) (repeatedPaths files) :=
  (PathSearch.follows_foldl files).repeated

/-- Whether an error is about repeated paths: it begins as the one error of `repeatedPathErrors`
does, and no other error about files so begins. -/
def isAboutRepeatedPaths (message : String) : Bool :=
  startsWith "Duplicate file paths".toList message.toList

/-- What is said about the paths of files: if two entries have the same path, one error names all
paths that come back, each once, in the order of their second occurrence; else there is no such
error. -/
structure FileFindings.TellsRepeated (found : FileFindings) (files : List Value) : Prop where
  told_iff : (∃ message ∈ found.errors, isAboutRepeatedPaths message = true)
    ↔ ∃ path i j, i < j ∧ NamedAt entryPath? files path i ∧ NamedAt entryPath? files path j
  told : ∃ paths, ListsFirst (RepeatedAt entryPath? files) paths
    ∧ found.errors.filter isAboutRepeatedPaths
      = if paths = [] then [] else ["Duplicate file paths: " ++ join ", " paths]

section Files

variable {limits : Limits} {bundle : Entries} {files : List Value}

/-- Of `repeatedPathErrors` all is about repeated paths: one error that names them, or none if no
path comes back. -/
theorem filter_repeatedPathErrors (files : List Value) :
    (repeatedPathErrors files).filter isAboutRepeatedPaths
      = if repeatedPaths files = [] then []
        else ["Duplicate file paths: " ++ join ", " (repeatedPaths files)] := by
  have habout (text : String) : isAboutRepeatedPaths ("Duplicate file paths: " ++ text) = true := by
    rw [isAboutRepeatedPaths, String.toList_append]
    rfl
  simp only [repeatedPathErrors, List.isEmpty_iff]
  split
  · rfl
  · exact List.filter_eq_self.2 (List.forall_mem_singleton.2 (habout _))

/-- What is said about single entries is said under their keys, `aboutEntries` puts a key in front,
so it is never taken for an error about repeated paths. -/
theorem filter_aboutEntries (messages : Findings → List String) (number : Nat)
    (files : List Value) (checks : List Findings) :
    (aboutEntries messages number files checks).filter isAboutRepeatedPaths = [] := by
  rw [aboutEntries, List.filter_flatMap, List.flatMap_eq_nil_iff]
  intro p _
  rw [aboutFile]
  split
  · rfl
  · refine List.filter_eq_nil_iff.2 (List.forall_mem_singleton.2 ?_)
    simp [isAboutRepeatedPaths, startsWith, dropLeading]

/-- Of the errors about the files as a whole only those of `repeatedPathErrors` are about repeated
paths. -/
theorem filter_commonFileErrors (bundle : Entries) :
    (commonFileErrors bundle).filter isAboutRepeatedPaths
      = (repeatedPathErrors (filesOf bundle)).filter isAboutRepeatedPaths := by
  rw [commonFileErrors]
  split
  · next hfiles =>
    rw [hfiles]
    rfl
  · rfl

/-- **The findings about files tell of repeated paths.** The errors of `checkFiles` are those about
the whole and those about single entries, and only the former can be about repeated paths. -/
theorem tellsRepeated_of_checkFiles {found : FileFindings}
    (h : checkFiles limits bundle = .ok found) : found.TellsRepeated (filesOf bundle) := by
  obtain ⟨checks, -, herrors, -⟩ := checkFiles_eq_ok h
  have hlists := listsFirst_repeatedPaths (filesOf bundle)
  have htold : found.errors.filter isAboutRepeatedPaths
      = if repeatedPaths (filesOf bundle) = [] then []
        else ["Duplicate file paths: " ++ join ", " (repeatedPaths (filesOf bundle))] := by
    rw [herrors, List.filter_append, filter_aboutEntries, List.append_nil, filter_commonFileErrors,
      filter_repeatedPathErrors]
  refine ⟨?_, _, hlists, htold⟩
  have hsome : (∃ message ∈ found.errors, isAboutRepeatedPaths message = true)
      ↔ repeatedPaths (filesOf bundle) ≠ [] := by
    rw [← not_iff_not, not_not]
    push Not
    rw [← List.filter_eq_nil_iff, htold]
    split
    · next hnil => exact iff_of_true rfl hnil
    · next hne => exact iff_of_false (List.cons_ne_nil _ _) hne
  rw [hsome]
  constructor
  · intro hne
    obtain ⟨path, hpath⟩ := List.exists_mem_of_ne_nil _ hne
    obtain ⟨j, hj, i, hlt, hi⟩ := (hlists.mem_iff path).1 hpath
    exact ⟨path, i, j, hlt, hi, hj⟩
  · rintro ⟨path, i, j, hlt, hi, hj⟩
    exact List.ne_nil_of_mem ((hlists.mem_iff path).2 ⟨j, hj, i, hlt, hi⟩)

/-- The guard of an entry has an integer that is too long where a number may stand, so that reading
the guard comes to it (`Guard.MeetsOverlongInteger`) and the check of the entry does not return. -/
def HasOverlongGuard (entry : Value) : Prop :=
  ∃ guard, entry.entry? "condition" = some (.text guard) ∧ Guard.MeetsOverlongInteger guard

/-- `conditionErrors` returns unless the guard meets an integer that is too long: a guard that is
misspelt is an error that is reported. -/
theorem exists_conditionErrors_iff {condition : Option Value} :
    (∃ errors, conditionErrors condition = .ok errors)
      ↔ ∀ guard, condition = some (.text guard) → ¬Guard.MeetsOverlongInteger guard := by
  match condition with
  | some (.text guard) =>
    have hguard : (∃ errors, conditionErrors (some (.text guard)) = .ok errors)
        ↔ Guard.IsReadOrMisspelt guard := by
      rw [conditionErrors]
      split
      · next e hparse => exact iff_of_true ⟨_, rfl⟩ (.inl ⟨e, hparse⟩)
      · next g hparse => exact iff_of_true ⟨_, rfl⟩ (.inr ⟨g, hparse⟩)
      · next fault hnot hparse =>
        refine iff_of_false (by rintro ⟨errors, ⟨⟩⟩) ?_
        rintro (⟨e, he⟩ | ⟨g, hg⟩)
        · cases hparse.symm.trans he
        · exact hnot g (Except.error.inj (hparse.symm.trans hg))
    rw [hguard, Guard.isReadOrMisspelt_iff]
    exact ⟨fun h guard' heq => by cases heq; exact h, fun h => h guard rfl⟩
  | none | some .null => exact iff_of_true ⟨_, rfl⟩ (by rintro guard ⟨⟩)
  | some (.bool _) | some (.number _) | some (.list _) | some (.mapping _) =>
    exact iff_of_true ⟨_, rfl⟩ (by rintro guard ⟨⟩)

/-- **An entry can be checked unless an integer in its guard is too long.** Nothing else in
`checkEntry` fails, whatever the entry is. -/
theorem exists_checkEntry_iff {entry : Value} :
    (∃ f, checkEntry limits entry = .ok f) ↔ ¬HasOverlongGuard entry := by
  have hshort : ¬HasOverlongGuard entry ↔ ∀ guard, entry.entry? "condition" = some (.text guard) →
      ¬Guard.MeetsOverlongInteger guard := by
    rw [HasOverlongGuard]
    push Not
    rfl
  rw [hshort]
  cases entry with
  | mapping entries =>
    refine Iff.trans ?_ exists_conditionErrors_iff
    constructor
    · rintro ⟨f, hf⟩
      obtain ⟨errors, herrors, -⟩ := bind_eq_ok_iff.1 hf
      exact ⟨errors, herrors⟩
    · rintro ⟨errors, herrors⟩
      exact ⟨_, bind_eq_ok_iff.2 ⟨errors, herrors, rfl⟩⟩
  | _ => exact iff_of_true ⟨_, rfl⟩ (by rintro guard ⟨⟩)

/-- **Files can be checked unless an integer in a guard is too long**, since `checkFiles` checks the
entries one by one and fails with the first that cannot be checked. -/
theorem exists_checkFiles_iff : (∃ found, checkFiles limits bundle = .ok found)
    ↔ ∀ file ∈ filesOf bundle, ¬HasOverlongGuard file := by
  constructor
  · rintro ⟨found, h⟩ file hfile
    obtain ⟨checks, hchecks, -⟩ := checkFiles_eq_ok h
    obtain ⟨f, hf, -⟩ := exists_of_mapM_eq_ok hchecks hchecks file hfile
    exact exists_checkEntry_iff.1 ⟨f, hf⟩
  · intro h
    obtain ⟨checks, hchecks⟩ := exists_mapM_eq_ok (f := checkEntry limits) fun file hfile =>
      exists_checkEntry_iff.2 (h file hfile)
    obtain ⟨found, hfound, -⟩ := exists_checkFiles hchecks
    exact ⟨found, hfound⟩

end Files

/-! ### Names that come back -/

/-- The name of an option; none if it has none or an empty one, which is not looked for among the
names met. -/
def optionName? (option : Value) : Option String :=
  match declaredName option with
  | some (.text name) => if name = "" then none else some name
  | _ => none

/-- The error about an option whose name an earlier one has. Both options are referred to by their
numbers, which count from one. -/
def duplicateNameError (number : Nat) (name : String) (first : Nat) : String :=
  "Option " ++ number.repr ++ ": duplicate name '" ++ name ++ "' (also used by option "
    ++ first.repr ++ ")"

/-- The names met on a walk over options, with the numbers of the options that had them first: the
invariant of `SeenNames.note`. -/
def SeenNames.Follows (seen : SeenNames) (options : List Value) : Prop :=
  ∀ name number, seen.lookup name = some number
    ↔ ∃ place, number = place + 1 ∧ FirstNamedAt optionName? options name place

/-- What is said about the names of options: an option is told of exactly if an earlier one has the
same name, and then together with the first of those. -/
def Findings.TellsRepeated (f : Findings) (options : List Value) : Prop :=
  ∀ number name first, duplicateNameError number name first ∈ f.errors
    ↔ ∃ place earlier, number = place + 1 ∧ first = earlier + 1 ∧ earlier < place
      ∧ NamedAt optionName? options name place ∧ FirstNamedAt optionName? options name earlier

section Options

variable {seen : SeenNames} {options : List Value} {option : Value} {number : Nat}

/-! #### The walk -/

/-- `SeenNames.note` in terms of `optionName?`: a name is noted at its first option and left as it
is afterwards. -/
theorem note_eq (seen : SeenNames) (number : Nat) (option : Value) :
    seen.note number (declaredName option)
      = match optionName? option with
        | none => seen
        | some name => if (seen.lookup name).isSome then seen else seen ++ [(name, number)] := by
  rw [optionName?]
  generalize declaredName option = field
  match field with
  | some (.text name) =>
    rw [SeenNames.note]
    by_cases hempty : name = ""
    · simp only [hempty, decide_true, Bool.true_or, if_true]
    · simp only [hempty, decide_false, Bool.false_or, if_false]
  | none | some .null => rfl
  | some (.bool _) | some (.number _) | some (.list _) | some (.mapping _) => rfl

/-- `duplicateErrors` in terms of `optionName?`: one error if the name was noted, and none
otherwise. -/
theorem duplicateErrors_eq (seen : SeenNames) (number : Nat) (option : Value) :
    duplicateErrors ("Option " ++ number.repr) seen (declaredName option)
      = match optionName? option with
        | none => []
        | some name => ((seen.lookup name).map (duplicateNameError number name)).toList := by
  rw [optionName?]
  generalize declaredName option = field
  match field with
  | some (.text name) =>
    rw [duplicateErrors]
    by_cases hempty : name = ""
    · simp only [hempty, if_true]
      cases seen.lookup "" <;> rfl
    · simp only [hempty, if_false]
      cases seen.lookup name <;> rfl
  | none | some .null => rfl
  | some (.bool _) | some (.number _) | some (.list _) | some (.mapping _) => rfl

/-- The invariant holds before the walk, when no name was met. -/
theorem SeenNames.follows_nil : SeenNames.Follows [] [] := by
  intro name number
  refine iff_of_false (by rintro ⟨⟩) ?_
  rintro ⟨place, -, h, -⟩
  exact absurd h.lt (Nat.not_lt_zero place)

/-- A name was noted exactly if some option so far has it: by the invariant one has it first
(`NamedAt.exists_first`). -/
theorem SeenNames.Follows.isSome_lookup_iff (h : seen.Follows options) {name : String} :
    (seen.lookup name).isSome = true ↔ ∃ place, NamedAt optionName? options name place := by
  rw [Option.isSome_iff_exists]
  constructor
  · rintro ⟨number, hnumber⟩
    obtain ⟨place, -, hplace⟩ := (h name number).1 hnumber
    exact ⟨place, hplace.1⟩
  · rintro ⟨place, hplace⟩
    obtain ⟨first, -, hfirst⟩ := hplace.exists_first
    exact ⟨first + 1, (h name _).2 ⟨first, rfl, hfirst⟩⟩

/-- **The step of the walk**: one more option keeps the invariant. A name that was noted keeps its
number; a new one gets the number of this option, its first place. -/
theorem SeenNames.Follows.note (h : seen.Follows options) (option : Value) :
    (seen.note (options.length + 1) (declaredName option)).Follows (options ++ [option]) := by
  intro name number
  simp only [firstNamedAt_concat, and_or_left, exists_or, ← h name number]
  rw [note_eq]
  cases hname : optionName? option with
  | none => simp
  | some name' =>
    dsimp only
    split
    · next hmet =>
      refine (or_iff_left ?_).symm
      rintro ⟨place, -, ⟨hsame, hnew⟩, -⟩
      cases hsame
      obtain ⟨place', hplace'⟩ := h.isSome_lookup_iff.1 hmet
      exact hnew place' hplace'
    · next hnew =>
      rw [List.lookup_append, Option.or_eq_some_iff]
      refine or_congr_right ?_
      by_cases heq : name = name'
      · subst heq
        have hnone : seen.lookup name = none := Option.not_isSome_iff_eq_none.1 hnew
        rw [h.isSome_lookup_iff, not_exists] at hnew
        simp [hnone, hnew, eq_comm]
      · simp [List.lookup_cons, beq_eq_false_iff_ne.2 heq, Ne.symm heq]

/-! #### What is said -/

/-- Digits go up to the first character that is none, so two texts that begin with numbers and are
equal have equal numbers. The length of a number is not known from elsewhere. -/
theorem digits_append_inj {cs ds r s : List Char} {c d : Char} (hcs : ∀ c ∈ cs, c.isDigit = true)
    (hds : ∀ d ∈ ds, d.isDigit = true) (hc : c.isDigit = false) (hd : d.isDigit = false)
    (h : cs ++ c :: r = ds ++ d :: s) : cs = ds ∧ c :: r = d :: s := by
  have hrun {cs r : List Char} {c : Char} (hcs : ∀ c ∈ cs, c.isDigit = true)
      (hc : c.isDigit = false) : (cs ++ c :: r).takeWhile Char.isDigit = cs := by
    rw [List.takeWhile_append_of_pos hcs, List.takeWhile_cons_of_neg (by simp [hc]),
      List.append_nil]
  have hsame : cs = ds := by rw [← hrun hcs hc, h, hrun hds hd]
  exact ⟨hsame, List.append_cancel_left (hsame ▸ h)⟩

/-- An error about an option tells the number of the option and what is said about it: the label
ends where its digits do, by `digits_append_inj`. -/
theorem labelled_inj {m n : Nat} {text text' : String} (htext : text.toList.head? = some ':')
    (htext' : text'.toList.head? = some ':')
    (h : "Option " ++ m.repr ++ text = "Option " ++ n.repr ++ text') : m = n ∧ text = text' := by
  have hchars := congrArg String.toList h
  simp only [String.toList_append, List.append_assoc] at hchars
  obtain ⟨r, hr⟩ := List.head?_eq_some_iff.1 htext
  obtain ⟨s, hs⟩ := List.head?_eq_some_iff.1 htext'
  have hnumbers := List.append_cancel_left hchars
  rw [hr, hs] at hnumbers
  obtain ⟨hdigits, hrest⟩ := digits_append_inj (fun _ => isDigit_of_mem_repr)
    (fun _ => isDigit_of_mem_repr) rfl rfl hnumbers
  exact ⟨toList_repr_injective hdigits, String.toList_injective (hr.trans (hrest.trans hs.symm))⟩

/-- What is said about an option whose name an earlier one has, behind the label of the option. -/
def duplicateNameText (name : String) (first : Nat) : String :=
  ": duplicate name '" ++ name ++ "' (also used by option " ++ first.repr ++ ")"

/-- `duplicateNameError` as a label and a text behind it, the form that `labelled_inj` takes
apart. -/
theorem duplicateNameError_eq (number : Nat) (name : String) (first : Nat) :
    duplicateNameError number name first
      = "Option " ++ number.repr ++ duplicateNameText name first := by
  unfold duplicateNameError duplicateNameText
  simp only [String.append_assoc]

/-- The characters of `duplicateNameText`, part by part. -/
theorem toList_duplicateNameText (name : String) (first : Nat) :
    (duplicateNameText name first).toList = ": duplicate name '".toList
      ++ (name.toList ++ ("' (also used by option ".toList
        ++ (first.repr.toList ++ ")".toList))) := by
  unfold duplicateNameText
  simp only [String.toList_append, List.append_assoc]

/-- The text tells the name and the number of the first option. The name may hold anything, even the
words around it, so the number is read from the end. -/
theorem duplicateNameText_inj {name name' : String} {first first' : Nat}
    (h : duplicateNameText name first = duplicateNameText name' first') :
    name = name' ∧ first = first' := by
  have hchars := congrArg String.toList h
  rw [toList_duplicateNameText, toList_duplicateNameText] at hchars
  -- The name may hold anything, so the number is read from the end.
  have hreversed := congrArg List.reverse (List.append_cancel_left hchars)
  simp only [List.reverse_append, List.append_assoc] at hreversed
  have hdigits (n : Nat) : ∀ c ∈ n.repr.toList.reverse, c.isDigit = true :=
    fun c hc => isDigit_of_mem_repr (List.mem_reverse.1 hc)
  obtain ⟨hnumber, hrest⟩ := digits_append_inj (hdigits first) (hdigits first') rfl rfl
    (List.cons.inj hreversed).2
  have hname :=
    (List.append_right_inj "' (also used by option ".toList.reverse).1 hrest
  exact ⟨String.toList_injective (List.reverse_injective hname),
    toList_repr_injective (List.reverse_injective hnumber)⟩

/-- The message is about the option with a number, but not about a duplicate of its name: behind the
label it goes on in another way than `duplicateNameText`. -/
def IsOtherError (number : Nat) (message : String) : Prop :=
  ∃ text, message = "Option " ++ number.repr ++ text ∧ text.toList.head? = some ':'
    ∧ ¬[':', ' ', 'd', 'u'] <+: text.toList

/-- Such a message is never an error about a duplicate, of whatever option: by `labelled_inj` the
texts would be equal, and they differ in their first four characters. -/
theorem IsOtherError.ne {number number' first : Nat} {message name : String}
    (h : IsOtherError number message) : duplicateNameError number' name first ≠ message := by
  obtain ⟨text, rfl, hcolon, hother⟩ := h
  rw [duplicateNameError_eq]
  intro heq
  have hchars := toList_duplicateNameText name first
  obtain ⟨-, rfl⟩ := labelled_inj (by rw [hchars]; rfl) hcolon heq
  exact hother (hchars ▸ ⟨_, rfl⟩)

/-- The other errors about the name of an option are no errors about duplicates. -/
theorem isOtherError_of_mem_nameErrors {field : Option Value} :
    ∀ message ∈ nameErrors ("Option " ++ number.repr) field, IsOtherError number message := by
  have hmissing : IsOtherError number ("Option " ++ number.repr ++ ": name is required") :=
    ⟨_, rfl, by decide, by decide⟩
  rw [nameErrors.eq_def]
  split
  · split
    · exact List.forall_mem_singleton.2 hmissing
    · split
      · exact List.forall_mem_nil _
      · exact List.forall_mem_singleton.2 ⟨_, rfl, by decide, by decide⟩
  · exact List.forall_mem_singleton.2 hmissing

/-- Nor are the errors about its type, whatever value is shown in them. -/
theorem isOtherError_of_mem_kindErrors {field : Option Value} {errors : List String}
    (h : kindErrors ("Option " ++ number.repr) field = .ok errors) :
    ∀ message ∈ errors, IsOtherError number message := by
  rw [kindErrors] at h
  split at h
  · cases h
    exact List.forall_mem_nil _
  · obtain ⟨shown, -, ⟨⟩⟩ := bind_eq_ok_iff.1 h
    refine List.forall_mem_singleton.2 ⟨": invalid type '" ++ shown ++ "'", ?_, ?_, ?_⟩
    · simp only [String.append_assoc]
    · simp
    · simp

/-- `duplicateErrors` has an error exactly for a name that was noted, with the numbers of this
option and of the first one; the error tells these apart by `labelled_inj` and
`duplicateNameText_inj`. -/
theorem mem_duplicateErrors_iff (number' : Nat) (name : String) (first : Nat) :
    duplicateNameError number' name first
        ∈ duplicateErrors ("Option " ++ number.repr) seen (declaredName option)
      ↔ number' = number ∧ optionName? option = some name ∧ seen.lookup name = some first := by
  rw [duplicateErrors_eq]
  cases optionName? option with
  | none => simp
  | some name' =>
    simp only [Option.mem_toList, Option.map_eq_some_iff, Option.some_inj]
    constructor
    · rintro ⟨first', hfirst', heq⟩
      rw [duplicateNameError_eq, duplicateNameError_eq] at heq
      obtain ⟨rfl, htext⟩ := labelled_inj (by rw [toList_duplicateNameText]; rfl)
        (by rw [toList_duplicateNameText]; rfl) heq
      obtain ⟨rfl, rfl⟩ := duplicateNameText_inj htext
      exact ⟨rfl, rfl, hfirst'⟩
    · rintro ⟨rfl, rfl, hfirst⟩
      exact ⟨first, hfirst, rfl⟩

/-- What `checkOption` says about the name of an option being a duplicate: its other errors are no
errors about duplicates (`IsOtherError.ne`). -/
theorem mem_errors_of_checkOption {errors warnings : List String}
    (h : checkOption seen number option = .ok (errors, warnings)) (number' : Nat) (name : String)
    (first : Nat) : duplicateNameError number' name first ∈ errors
      ↔ number' = number ∧ optionName? option = some name ∧ seen.lookup name = some first := by
  cases option with
  | mapping entries =>
    obtain ⟨kinds, hkinds, ⟨⟩⟩ := bind_eq_ok_iff.1 h
    rw [List.mem_append, or_iff_right]
    · change _ ∈ duplicateErrors _ seen (declaredName (.mapping entries)) ↔ _
      exact mem_duplicateErrors_iff number' name first
    · -- All other errors about the option are worded otherwise.
      have hothers : ∀ message ∈ nameErrors ("Option " ++ number.repr) (Entries.get? "name" entries)
            ++ kinds
            ++ (if isBlankField (Entries.get? "description" entries) then
                ["Option " ++ number.repr ++ ": description is required"] else [])
            ++ (if kindOfField (Entries.get? "type" entries) = some .select
                  && (choicesOfField (Entries.get? "choices" entries)).isEmpty then
                ["Option " ++ number.repr ++ ": select type requires choices"] else []),
          IsOtherError number message := by
        refine List.forall_mem_append.2 ⟨List.forall_mem_append.2 ⟨List.forall_mem_append.2
          ⟨isOtherError_of_mem_nameErrors, isOtherError_of_mem_kindErrors hkinds⟩, ?_⟩, ?_⟩
        · split
          · exact List.forall_mem_singleton.2 ⟨_, rfl, by decide, by decide⟩
          · exact List.forall_mem_nil _
        · split
          · exact List.forall_mem_singleton.2 ⟨_, rfl, by decide, by decide⟩
          · exact List.forall_mem_nil _
      exact fun hmem => (hothers _ hmem).ne rfl
  | _ =>
    cases h
    have hother : IsOtherError number ("Option " ++ number.repr ++ ": must be a mapping") :=
      ⟨_, rfl, by decide, by decide⟩
    refine iff_of_false (fun hmem => hother.ne (List.mem_singleton.1 hmem)) ?_
    rintro ⟨-, ⟨⟩, -⟩

/-- **The run of the walk.** What is said on the walk over options that go on behind others, by
induction on the options to come, for any walk that `Follows` those that went before. -/
theorem mem_errors_of_checkOptionsFrom {rest : List Value} {errors warnings : List String}
    (hseen : seen.Follows options)
    (h : checkOptionsFrom seen (options.length + 1) rest = .ok (errors, warnings)) (number : Nat)
    (name : String) (first : Nat) : duplicateNameError number name first ∈ errors
      ↔ ∃ place earlier, options.length ≤ place ∧ number = place + 1 ∧ first = earlier + 1
        ∧ earlier < place ∧ NamedAt optionName? (options ++ rest) name place
        ∧ FirstNamedAt optionName? (options ++ rest) name earlier := by
  induction rest generalizing seen options errors warnings with
  | nil =>
    cases h
    refine iff_of_false List.not_mem_nil ?_
    rintro ⟨place, earlier, hle, -, -, -, hplace, -⟩
    rw [List.append_nil] at hplace
    exact absurd hplace.lt (Nat.not_lt_of_le hle)
  | cons option rest ih =>
    obtain ⟨⟨errors₁, warnings₁⟩, hoption, h⟩ := bind_eq_ok_iff.1 h
    obtain ⟨⟨errors₂, warnings₂⟩, hrest, ⟨⟩⟩ := bind_eq_ok_iff.1 h
    have hlength : (options ++ [option]).length = options.length + 1 := List.length_append
    rw [← hlength] at hrest
    rw [List.mem_append, mem_errors_of_checkOption hoption, hseen name first,
      ih (hlength ▸ hseen.note option) hrest, hlength, List.append_assoc, List.singleton_append]
    constructor
    · rintro (⟨rfl, hname, earlier, rfl, hfirst⟩ | ⟨place, earlier, hle, hothers⟩)
      · exact ⟨options.length, earlier, Nat.le_refl _, rfl, rfl, hfirst.1.lt,
          namedAt_length.2 hname, (firstNamedAt_append hfirst.1.lt).2 hfirst⟩
      · exact ⟨place, earlier, Nat.le_of_succ_le hle, hothers⟩
    · rintro ⟨place, earlier, hle, rfl, rfl, hlt, hplace, hfirst⟩
      rcases Nat.eq_or_lt_of_le hle with rfl | hbehind
      · exact .inl ⟨rfl, namedAt_length.1 hplace, earlier, rfl, (firstNamedAt_append hlt).1 hfirst⟩
      · exact .inr ⟨place, earlier, hbehind, rfl, rfl, hlt, hplace, hfirst⟩

/-- **The findings about options tell of repeated names**: the walk from its beginning. -/
theorem tellsRepeated_of_checkOptions {f : Findings} (h : checkOptions options = .ok f) :
    f.TellsRepeated options := by
  obtain ⟨⟨errors, warnings⟩, hwalk, ⟨⟩⟩ := bind_eq_ok_iff.1 h
  intro number name first
  refine (mem_errors_of_checkOptionsFrom SeenNames.follows_nil hwalk number name first).trans ?_
  simp only [List.length_nil, Nat.zero_le, true_and, List.nil_append]

/-! #### Whether the check returns -/

/-- What the option has for a type holds an integer that is too long to be shown, which the error
about a wrong type would have to do. -/
def HasOverlongKind (option : Value) : Prop :=
  ∃ v, option.entry? "type" = some v ∧ v.hasOverlongInteger = true

/-- `kindErrors` returns unless it would have to show an integer that is too long; a valid type
holds none. -/
theorem exists_kindErrors_iff {label : String} {field : Option Value} :
    (∃ errors, kindErrors label field = .ok errors)
      ↔ ¬∃ v, field = some v ∧ v.hasOverlongInteger = true := by
  cases hkind : kindOfField field with
  | some kind =>
    rw [kindErrors, hkind]
    refine iff_of_true ⟨_, rfl⟩ ?_
    rintro ⟨v, rfl, hlong⟩
    cases v with
    | text s => cases hlong
    | _ => cases hkind
  | none =>
    rw [kindErrors, hkind]
    dsimp only
    cases field with
    | none => exact iff_of_true ⟨_, rfl⟩ (by rintro ⟨v, ⟨⟩, -⟩)
    | some v =>
      rw [Option.getD_some, Value.displayed]
      by_cases hlong : v.hasOverlongInteger = true
      · rw [if_pos hlong]
        exact iff_of_false (by rintro ⟨errors, ⟨⟩⟩) (not_not_intro ⟨v, rfl, hlong⟩)
      · rw [if_neg hlong]
        refine iff_of_true ⟨_, rfl⟩ ?_
        rintro ⟨_, ⟨⟩, h⟩
        exact hlong h

/-- `checkOption` returns unless its option `HasOverlongKind`; all else that it looks at is only
reported. -/
theorem exists_checkOption_iff :
    (∃ found, checkOption seen number option = .ok found) ↔ ¬HasOverlongKind option := by
  cases option with
  | mapping entries =>
    refine Iff.trans (b := ∃ errors, kindErrors ("Option " ++ number.repr)
      (Value.entry? "type" (.mapping entries)) = .ok errors) ?_ exists_kindErrors_iff
    constructor
    · rintro ⟨found, hfound⟩
      obtain ⟨errors, herrors, -⟩ := bind_eq_ok_iff.1 hfound
      exact ⟨errors, herrors⟩
    · rintro ⟨errors, herrors⟩
      exact ⟨_, bind_eq_ok_iff.2 ⟨errors, herrors, rfl⟩⟩
  | _ => exact iff_of_true ⟨_, rfl⟩ (by rintro ⟨v, ⟨⟩, -⟩)

/-- The same for the walk over the options, by induction on them; the names met and the number play
no part. -/
theorem exists_checkOptionsFrom_iff :
    (∃ found, checkOptionsFrom seen number options = .ok found)
      ↔ ∀ option ∈ options, ¬HasOverlongKind option := by
  induction options generalizing seen number with
  | nil => exact iff_of_true ⟨_, rfl⟩ (List.forall_mem_nil _)
  | cons option rest ih =>
    have hfirst : (∃ found, checkOption seen number option = .ok found)
        ↔ ¬HasOverlongKind option := exists_checkOption_iff
    have hothers : (∃ found, checkOptionsFrom (seen.note number (declaredName option))
        (number + 1) rest = .ok found) ↔ ∀ option ∈ rest, ¬HasOverlongKind option := ih
    rw [List.forall_mem_cons, ← hfirst, ← hothers]
    constructor
    · rintro ⟨found, h⟩
      obtain ⟨first, hfirst, h⟩ := bind_eq_ok_iff.1 h
      obtain ⟨others, hothers, -⟩ := bind_eq_ok_iff.1 h
      exact ⟨⟨first, hfirst⟩, ⟨others, hothers⟩⟩
    · rintro ⟨⟨first, hfirst⟩, ⟨others, hothers⟩⟩
      exact ⟨_, bind_eq_ok_iff.2 ⟨first, hfirst, bind_eq_ok_iff.2 ⟨others, hothers, rfl⟩⟩⟩

/-- **Options can be checked unless one of them has an integer for a type that is too long.** -/
theorem exists_checkOptions_iff :
    (∃ f, checkOptions options = .ok f) ↔ ∀ option ∈ options, ¬HasOverlongKind option := by
  have hfrom : (∃ found, checkOptionsFrom [] 1 options = .ok found)
      ↔ ∀ option ∈ options, ¬HasOverlongKind option := exists_checkOptionsFrom_iff
  rw [← hfrom]
  constructor
  · rintro ⟨f, h⟩
    obtain ⟨found, hfound, -⟩ := bind_eq_ok_iff.1 h
    exact ⟨found, hfound⟩
  · rintro ⟨found, hfound⟩
    exact ⟨_, bind_eq_ok_iff.2 ⟨found, hfound, rfl⟩⟩

end Options

/-! ### Bundles without duplicates -/

/-- Every file of a bundle has a path and every option a name, and the paths are different from each
other, and so are the names. This is what a valid report promises
(`hasDistinctNames_of_checkBundle`). -/
structure Entries.HasDistinctNames (bundle : Entries) : Prop where
  paths : ∀ file ∈ filesOf bundle, ∃ path, entryPath? file = some path
  nodup_paths : ((filesOf bundle).filterMap entryPath?).Nodup
  names : ∀ options, bundle.get? "options" = some (.list options) →
    (∀ option ∈ options, ∃ name, optionName? option = some name)
      ∧ (options.filterMap optionName?).Nodup

section Bundles

variable {limits : Limits} {bundle : Entries}

/-- An entry without an error has a path: an entry without one is an error itself. -/
theorem exists_entryPath?_of_checkEntry {entry : Value} {f : Findings}
    (h : checkEntry limits entry = .ok f) (hvalid : f.errors = []) :
    ∃ path, entryPath? entry = some path := by
  obtain ⟨entries, rfl, -⟩ := kinds_of_checkEntry h hvalid
  obtain ⟨-, hsaid, -⟩ := hasPathFindings_of_checkEntry h entries rfl _ rfl
  rw [hvalid, List.prefix_nil] at hsaid
  obtain ⟨path, hpath⟩ := exists_text_of_checkPathField hsaid
  rw [hpath, checkPathField] at hsaid
  split at hsaid
  · cases hsaid
  · next hblank =>
    refine ⟨path, ?_⟩
    rw [entryPath?, Value.entry?, hpath]
    exact if_neg hblank

/-- **Files about which there is nothing to say have different paths**: a path that comes back would
be told (`tellsRepeated_of_checkFiles`). -/
theorem nodup_entryPath?_of_checkFiles {found : FileFindings}
    (h : checkFiles limits bundle = .ok found) (hvalid : found.errors = []) :
    (∀ file ∈ filesOf bundle, ∃ path, entryPath? file = some path)
      ∧ ((filesOf bundle).filterMap entryPath?).Nodup := by
  obtain ⟨checks, hchecks, herrors, -⟩ := checkFiles_eq_ok h
  rw [hvalid, eq_comm, List.append_eq_nil_iff] at herrors
  have hclean := (aboutEntries_eq_nil_iff (mapM_eq_ok_iff.1 hchecks).length_eq).1 herrors.2
  refine ⟨fun file hfile => ?_, nodup_filterMap_of_not_repeatedAt ?_⟩
  · obtain ⟨f, hf, hcheck⟩ := exists_mem_of_mapM_eq_ok hchecks file hfile
    exact exists_entryPath?_of_checkEntry hcheck (hclean f hf)
  · rintro path j ⟨hj, i, hlt, hi⟩
    obtain ⟨message, hmessage, -⟩ :=
      (tellsRepeated_of_checkFiles h).told_iff.2 ⟨path, i, j, hlt, hi, hj⟩
    rw [hvalid] at hmessage
    exact List.not_mem_nil hmessage

/-- **Options about which there is nothing to say have different names**, in the same way by
`tellsRepeated_of_checkOptions`. -/
theorem nodup_optionName?_of_checkOptions {options : List Value} {f : Findings}
    (h : checkOptions options = .ok f) (hvalid : f.errors = []) :
    (∀ option ∈ options, ∃ name, optionName? option = some name)
      ∧ (options.filterMap optionName?).Nodup := by
  refine ⟨fun option hoption => ?_, nodup_filterMap_of_not_repeatedAt ?_⟩
  · obtain ⟨entries, rfl, hpasses⟩ := passes_of_checkOptions h hvalid option hoption
    obtain ⟨label, hlabel⟩ := hpasses.name
    obtain ⟨name, hname⟩ := exists_text_of_nameErrors hlabel
    rw [hname, nameErrors] at hlabel
    have hne : name ≠ "" := by
      rintro rfl
      cases hlabel
    refine ⟨name, ?_⟩
    rw [optionName?, declaredName, hname]
    exact if_neg hne
  · rintro name place ⟨hplace, earlier, hlt, hearlier⟩
    obtain ⟨first, hle, hfirst⟩ := hearlier.exists_first
    have htold := (tellsRepeated_of_checkOptions h (place + 1) name (first + 1)).2
      ⟨place, first, rfl, rfl, hle.trans_lt hlt, hplace, hfirst⟩
    rw [hvalid] at htold
    exact List.not_mem_nil htold

/-- **A valid bundle has no duplicates.** A valid report has no errors at all, so there are none
among the findings about its files and its options, which it gathers. -/
theorem hasDistinctNames_of_checkBundle {templateId : String} {report : Report}
    (h : checkBundle limits templateId bundle = .ok report) (hvalid : report.isValid = true) :
    bundle.HasDistinctNames := by
  have hgathers := gathers_of_checkBundle h
  have hnone := hgathers.whole.1 hvalid
  rw [hgathers.errors, List.append_eq_nil_iff, List.append_eq_nil_iff] at hnone
  obtain ⟨options, hoptions, -, hsuffix, -⟩ := hgathers.options
  rw [hnone.1.2, List.suffix_nil] at hsuffix
  obtain ⟨_, -, h⟩ := bind_eq_ok_iff.1 h
  obtain ⟨_, -, h⟩ := bind_eq_ok_iff.1 h
  obtain ⟨files, hfiles, ⟨⟩⟩ := bind_eq_ok_iff.1 h
  obtain ⟨hpaths, hnodup⟩ := nodup_entryPath?_of_checkFiles hfiles hnone.2
  refine ⟨hpaths, hnodup, fun items hitems => ?_⟩
  rw [hitems] at hoptions
  exact nodup_optionName?_of_checkOptions hoptions hsuffix

/-- The check of files and that of options tell of every duplicate and of nothing else, whatever
the items are, whenever they return; they do unless an integer that is too long stands in a guard,
or in what an option has for a type. A valid bundle has no duplicates. -/
theorem duplicates_told (limits : Limits) (templateId : String) (bundle : Entries)
    (options : List Value) :
    ((∃ found, checkFiles limits bundle = .ok found)
        ↔ ∀ file ∈ filesOf bundle, ¬HasOverlongGuard file)
      ∧ (∀ found, checkFiles limits bundle = .ok found → found.TellsRepeated (filesOf bundle))
      ∧ ((∃ f, checkOptions options = .ok f) ↔ ∀ option ∈ options, ¬HasOverlongKind option)
      ∧ (∀ f, checkOptions options = .ok f → f.TellsRepeated options)
      ∧ ∀ report, checkBundle limits templateId bundle = .ok report → report.isValid = true →
        bundle.HasDistinctNames :=
  ⟨exists_checkFiles_iff, fun _ => tellsRepeated_of_checkFiles, exists_checkOptions_iff,
    fun _ => tellsRepeated_of_checkOptions, fun _ => hasDistinctNames_of_checkBundle⟩

end Bundles

/-! ### Walks over items of all kinds -/

/-- Entries of all kinds, two paths of which come back, one of them twice. -/
def mixedFiles : Entries :=
  [("files", .list [.null, .mapping [("path", .text "b")], .mapping [("path", .text " ")],
    .mapping [("path", .text "a")], .mapping [("path", .text "a")], .mapping [("path", .text " ")],
    .mapping [("path", .text "b")], .mapping [("path", .text "a")]])]

/-- Options of all kinds, one name of which comes back twice. -/
def mixedOptions : List Value :=
  [.text "p", .mapping [("name", .text "p")], .mapping [("name", .text "")],
    .mapping [("name", .text "")], .mapping [("name", .text "p")], .mapping [("name", .int 1)],
    .mapping [("name", .text "p")]]

/-- A bundle with two files and two options. -/
def distinctBundle : Entries :=
  [("name", .text "demo"), ("description", .text "two files"), ("version", .text "1.0.0"),
    ("files", .list [.mapping [("path", .text "a"), ("content", .text "x")],
      .mapping [("path", .text "b"), ("content", .text "x")]]),
    ("options", .list [optionOf "p", optionOf "q"])]

/-- The paths are named in the order in which they come back, both options of a name that was met
are told of with the first one, and in a valid bundle there is nothing to tell. -/
theorem duplicates_told_mixed :
    (∃ found, checkFiles .standard mixedFiles = .ok found
        ∧ found.errors.filter isAboutRepeatedPaths = ["Duplicate file paths: a, b"])
      ∧ (∃ f, checkOptions mixedOptions = .ok f ∧ duplicateNameError 5 "p" 2 ∈ f.errors
        ∧ duplicateNameError 7 "p" 2 ∈ f.errors)
      ∧ distinctBundle.HasDistinctNames := by
  have hfiles : (checkFiles .standard mixedFiles).map (·.isValid) = .ok false := by decide +kernel
  have hoptions : (checkOptions mixedOptions).map (·.isValid) = .ok false := by decide +kernel
  have hbundle : (checkBundle .standard "demo" distinctBundle).map (·.isValid) = .ok true := by
    decide +kernel
  obtain ⟨found, hfound, -⟩ := map_eq_ok_iff.1 hfiles
  obtain ⟨f, hf, -⟩ := map_eq_ok_iff.1 hoptions
  obtain ⟨report, hreport, hvalid⟩ := map_eq_ok_iff.1 hbundle
  obtain ⟨-, hpaths, -, hnames, -⟩ := duplicates_told .standard "demo" mixedFiles mixedOptions
  obtain ⟨-, -, -, -, hdistinct⟩ := duplicates_told .standard "demo" distinctBundle []
  have hrepeated : repeatedPaths (filesOf mixedFiles) = ["a", "b"] := by decide +kernel
  obtain ⟨paths, hlists, htold⟩ := (hpaths found hfound).told
  obtain rfl : paths = ["a", "b"] := hrepeated ▸ hlists.unique (listsFirst_repeatedPaths _)
  have hfirst : FirstNamedAt optionName? mixedOptions "p" 1 := by
    refine ⟨⟨_, rfl, by decide⟩, ?_⟩
    rintro earlier hlt ⟨item, hitem, hname⟩
    obtain rfl : earlier = 0 := Nat.lt_one_iff.1 hlt
    cases hitem
    cases hname
  refine ⟨⟨found, hfound, htold⟩, ⟨f, hf, ?_, ?_⟩, hdistinct report hreport hvalid⟩
  · exact (hnames f hf 5 "p" 2).2 ⟨4, 1, rfl, rfl, by decide, ⟨_, rfl, by decide⟩, hfirst⟩
  · exact (hnames f hf 7 "p" 2).2 ⟨6, 1, rfl, rfl, by decide, ⟨_, rfl, by decide⟩, hfirst⟩

/-- Two entries with the same path, the second of which has an integer for a guard that is too
long. -/
def overlongDuplicates : Entries :=
  [("files", .list [.mapping [("path", .text "a"), ("content", .text "x")],
    .mapping [("path", .text "a"), ("content", .text "x"),
      ("condition", .text (String.ofList overlongZeros))]])]

/-- The second entry of `overlongDuplicates` cannot be checked: its guard is one integer of more
digits than are ever read. -/
theorem hasOverlongGuard_overlongDuplicates : ∃ file ∈ filesOf overlongDuplicates,
    HasOverlongGuard file := by
  refine ⟨_, List.mem_cons_of_mem _ (List.mem_singleton_self _), _, rfl,
    Guard.meetsOverlongInteger_of_digits (fun c hc => ?_) ?_⟩
  · rw [(List.mem_replicate.1 hc).2]
    decide
  · rw [overlongZeros, List.length_replicate]
    decide

/-- Their path comes back, but nothing is said about it: the check does not return. -/
theorem untold_duplicate :
    NamedAt entryPath? (filesOf overlongDuplicates) "a" 0
      ∧ NamedAt entryPath? (filesOf overlongDuplicates) "a" 1
      ∧ ∀ limits, checkFiles limits overlongDuplicates = .error .integerTooLong
        ∧ ¬∃ found, checkFiles limits overlongDuplicates = .ok found
          ∧ ∃ message ∈ found.errors, isAboutRepeatedPaths message = true := by
  have hraises (limits : Limits) :
      checkFiles limits overlongDuplicates = .error .integerTooLong := by
    cases h : checkFiles limits overlongDuplicates with
    | ok found =>
      obtain ⟨file, hfile, hlong⟩ := hasOverlongGuard_overlongDuplicates
      exact absurd hlong (exists_checkFiles_iff.1 ⟨found, h⟩ file hfile)
    | error fault => rw [failsOnly_checkFiles limits _ fault h]
  refine ⟨⟨_, rfl, by decide⟩, ⟨_, rfl, by decide⟩, fun limits => ⟨hraises limits, ?_⟩⟩
  rintro ⟨found, h, -⟩
  cases (hraises limits).symm.trans h

end Templating
