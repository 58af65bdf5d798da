import Templating.Proofs.Check.Gate
import Templating.Proofs.Check.Reporting
import Templating.Proofs.Value.JsonText

/-!
# Findings under keys

The check of the files of a bundle keeps the findings about each entry under the key of the entry:
its path, or, if it has none, a sign and its number. Findings are kept under a key only if none are
kept under it yet. Where no two entries have the same path, two keys are the same only if an entry
without a path has the number that the path of another entry is spelt with. Then the findings about
the later one of the two are not kept; they are told of in the errors and warnings over all files,
but under the key of both. In all other cases each entry has its own findings, in the order of the
entries.

## Main definitions

* `keyedChecks`: the findings about entries, each under the key of its entry.
* `HasNumberedPath`: a path is spelt like the key of an entry without a path.
* `FileFindings.Collects`: what is kept of the findings about entries.

## Main results

* `nodup_keys_iff`: keys are told apart unless a path is spelt like a number.
* `checkFiles_collects`: the check of files collects the findings about its entries.
-/

namespace Templating

open Templating.Text

/-! ### Keys -/

/-- The key of an entry that has a number and no path. -/
def numberKey (number : Nat) : String :=
  "#" ++ number.repr

/-- The path of some entry is spelt like the key of an entry that has no path (`numberKey`). The
number of an entry counts from one, its place from zero. -/
def HasNumberedPath (files : List Value) : Prop :=
  ∃ (i j : Nat) (entry other : Value), files[i]? = some entry ∧ files[j]? = some other
    ∧ entryPath? entry = none ∧ entryPath? other = some (numberKey (i + 1))

/-- The findings about entries, the first of which has a given number, each under the key of its
entry (`entryKey`). This is what would be kept if no two keys were the same. -/
def keyedChecks (number : Nat) (files : List Value) (checks : List Findings) :
    List (String × Findings) :=
  ((files.zipIdx number).zip checks).map fun p => (entryKey p.1.2 p.1.1, p.2)

section Keys

variable {files : List Value}

/-- Two numbers are never spelt alike. -/
theorem numberKey_injective : Function.Injective numberKey := by
  intro m n h
  refine toList_repr_injective ?_
  have hchars := congrArg String.toList h
  rw [numberKey, numberKey, String.toList_append, String.toList_append] at hchars
  exact List.append_cancel_left hchars

/-- **When keys meet.** Two entries of different paths have the same key only if one of them has no
path and its number is spelt like the path of the other. -/
theorem entryKey_eq_iff {m n : Nat} {a b : Value} (hne : m ≠ n)
    (hpaths : ∀ path, entryPath? a = some path → entryPath? b ≠ some path) :
    entryKey m a = entryKey n b
      ↔ (entryPath? a = none ∧ entryPath? b = some (numberKey m))
        ∨ (entryPath? b = none ∧ entryPath? a = some (numberKey n)) := by
  rw [entryKey, entryKey, ← numberKey, ← numberKey]
  cases ha : entryPath? a with
  | none =>
    cases hb : entryPath? b with
    | none =>
      refine iff_of_false (fun h => hne (numberKey_injective h)) ?_
      rintro (⟨-, ⟨⟩⟩ | ⟨-, ⟨⟩⟩)
    | some path => simp [eq_comm]
  | some path =>
    cases hb : entryPath? b with
    | none => simp
    | some path' =>
      refine iff_of_false ?_ (by rintro (⟨⟨⟩, -⟩ | ⟨⟨⟩, -⟩))
      rintro rfl
      exact hpaths _ ha hb

/-- Where all paths are told apart, entries at different places have different paths, if they have
any. -/
theorem entryPath?_ne_of_nodup (hdistinct : (files.filterMap entryPath?).Nodup) {i j : Nat}
    {a b : Value} (hne : i ≠ j) (ha : files[i]? = some a) (hb : files[j]? = some b) :
    ∀ path, entryPath? a = some path → entryPath? b ≠ some path := by
  have hpairs := List.pairwise_iff_getElem.1 (List.pairwise_filterMap.1 hdistinct)
  obtain ⟨hi, rfl⟩ := List.getElem?_eq_some_iff.1 ha
  obtain ⟨hj, rfl⟩ := List.getElem?_eq_some_iff.1 hb
  intro path hpath hpath'
  rcases Nat.lt_or_gt_of_ne hne with hlt | hlt
  · exact hpairs i j hi hj hlt path hpath path hpath' rfl
  · exact hpairs j i hj hi hlt path hpath' path hpath rfl

/-- **Keys are told apart unless the path of one entry is spelt like the number of another**, by
`entryKey_eq_iff` for every two places. -/
theorem nodup_keys_iff (hdistinct : (files.filterMap entryPath?).Nodup) :
    ((files.zipIdx 1).map fun p => entryKey p.2 p.1).Nodup ↔ ¬HasNumberedPath files := by
  have hkey {i : Nat} {a : Value} (ha : files[i]? = some a) :
      ((files.zipIdx 1).map fun p => entryKey p.2 p.1)[i]? = some (entryKey (i + 1) a) := by
    rw [List.getElem?_map, List.getElem?_zipIdx, ha, Nat.add_comm 1 i]
    rfl
  constructor
  · rintro hnodup ⟨i, j, entry, other, hi, hj, hentry, hother⟩
    have hne : i ≠ j := by
      rintro rfl
      cases hi.symm.trans hj
      cases hentry.symm.trans hother
    have hsame : entryKey (i + 1) entry = entryKey (j + 1) other :=
      (entryKey_eq_iff (by omega) (entryPath?_ne_of_nodup hdistinct hne hi hj)).2
        (.inl ⟨hentry, hother⟩)
    have hkeys := (hkey hi).trans ((congrArg some hsame).trans (hkey hj).symm)
    exact hne (List.getElem?_inj (List.getElem?_eq_some_iff.1 (hkey hi)).1 hnodup |>.1 hkeys)
  · intro hnone
    rw [List.nodup_iff_getElem?_ne_getElem?]
    intro i j hij hj hkeys
    rw [List.length_map, List.length_zipIdx] at hj
    have hi := List.getElem?_eq_getElem (Nat.lt_trans hij hj)
    have hj := List.getElem?_eq_getElem hj
    rw [hkey hi, hkey hj] at hkeys
    have hpaths := entryPath?_ne_of_nodup hdistinct (Nat.ne_of_lt hij) hi hj
    rcases (entryKey_eq_iff (by omega) hpaths).1 (Option.some.inj hkeys) with hfirst | hsecond
    · exact hnone ⟨i, j, _, _, hi, hj, hfirst.1, hfirst.2⟩
    · exact hnone ⟨j, i, _, _, hj, hi, hsecond.1, hsecond.2⟩

/-- The keys of `keyedChecks` are those of the entries. -/
theorem map_fst_keyedChecks {checks : List Findings} (h : files.length = checks.length)
    (number : Nat) : (keyedChecks number files checks).map Prod.fst
      = (files.zipIdx number).map fun p => entryKey p.2 p.1 := by
  rw [keyedChecks, List.map_map]
  have hfst : ((files.zipIdx number).zip checks).map Prod.fst = files.zipIdx number :=
    List.map_fst_zip (by rw [List.length_zipIdx, h])
  conv_rhs => rw [← hfst, List.map_map]
  rfl

end Keys

/-! ### What is kept -/

/-- The findings that are kept when more are added one after the other, each under its key:
`addResult` as a fold. -/
def keepAll (results keyed : List (String × Findings)) : List (String × Findings) :=
  keyed.foldl (fun results p => addResult results p.1 p.2) results

section Results

variable {results keyed : List (String × Findings)}

theorem keepAll_cons (p : String × Findings) :
    keepAll results (p :: keyed) = keepAll (addResult results p.1 p.2) keyed :=
  rfl

/-- Something is found under a key exactly if it is one of the keys. -/
theorem isSome_lookup_iff {key : String} :
    (results.lookup key).isSome = true ↔ key ∈ results.map Prod.fst := by
  simp [List.lookup_isSome_iff]

/-- Findings are added at the end if their key is new, else they are not added. The inductions on
`keepAll` below split by these two cases. -/
theorem addResult_cases (results : List (String × Findings)) (p : String × Findings) :
    (p.1 ∈ results.map Prod.fst ∧ addResult results p.1 p.2 = results)
      ∨ (p.1 ∉ results.map Prod.fst ∧ addResult results p.1 p.2 = results ++ [p]) := by
  rw [addResult]
  split
  · next h => exact .inl ⟨isSome_lookup_iff.1 h, rfl⟩
  · next h => exact .inr ⟨mt isSome_lookup_iff.2 h, rfl⟩

/-- Under each key stand the findings that were first to be kept there: those from before, or else
the first of those that are added. -/
theorem lookup_keepAll (key : String) : (keepAll results keyed).lookup key
    = (results.lookup key).or (keyed.lookup key) := by
  induction keyed generalizing results with
  | nil => exact (Option.or_none).symm
  | cons p rest ih =>
    rw [keepAll_cons, ih, ← List.singleton_append, List.lookup_append]
    obtain ⟨hmem, hadd⟩ | ⟨-, hadd⟩ := addResult_cases results p
    -- What stands under a key that is taken hides what would have been added.
    · rw [hadd]
      by_cases hkey : key = p.1
      · have hsome := isSome_lookup_iff.2 hmem
        rw [hkey, Option.or_of_isSome hsome, Option.or_of_isSome hsome]
      · have hother : [p].lookup key = none := List.lookup_eq_none_iff.2 (by simpa using hkey)
        rw [hother, Option.none_or]
    · rw [hadd, List.lookup_append, Option.or_assoc]

/-- What is kept keeps its order: it is a sublist of what was kept before and what is added. -/
theorem keepAll_sublist : (keepAll results keyed).Sublist (results ++ keyed) := by
  induction keyed generalizing results with
  | nil => exact List.sublist_append_left _ _
  | cons p rest ih =>
    rw [keepAll_cons, List.append_cons]
    refine ih.trans (List.Sublist.append_right ?_ rest)
    obtain ⟨-, hadd⟩ | ⟨-, hadd⟩ := addResult_cases results p
    · rw [hadd]
      exact List.sublist_append_left _ _
    · rw [hadd]

/-- Keys that are told apart stay so, since only new ones are added. -/
theorem nodup_keepAll (h : (results.map Prod.fst).Nodup) :
    ((keepAll results keyed).map Prod.fst).Nodup := by
  induction keyed generalizing results with
  | nil => exact h
  | cons p rest ih =>
    rw [keepAll_cons]
    refine ih ?_
    obtain ⟨-, hadd⟩ | ⟨hmem, hadd⟩ := addResult_cases results p
    · rwa [hadd]
    · rw [hadd, List.map_append]
      exact List.nodup_append'.2 ⟨h, List.nodup_singleton _, by simpa using hmem⟩

/-- If all keys are told apart, everything is kept. -/
theorem keepAll_eq_append (h : ((results ++ keyed).map Prod.fst).Nodup) :
    keepAll results keyed = results ++ keyed := by
  induction keyed generalizing results with
  | nil => exact (List.append_nil _).symm
  | cons p rest ih =>
    rw [keepAll_cons]
    obtain ⟨hmem, -⟩ | ⟨-, hadd⟩ := addResult_cases results p
    · rw [List.map_append, List.map_cons, List.nodup_append'] at h
      exact absurd List.mem_cons_self (h.2.2 hmem)
    · rw [List.append_cons] at h
      rw [hadd, ih h, ← List.append_cons]

end Results

/-! ### The check of files -/

/-- What the findings about files keep of the findings about entries: they are valid exactly if
there are entries and each of them is, they tell the errors and warnings of each entry under its key
(`aboutEntries`), and in the order of the entries they keep under every key the findings that come
first (`keyedChecks`). -/
structure FileFindings.Collects (found : FileFindings) (files : List Value)
    (checks : List Findings) : Prop where
  isValid : found.isValid = true ↔ files ≠ [] ∧ ∀ f ∈ checks, f.isValid = true
  errors : files ≠ [] → found.errors = aboutEntries (·.errors) 1 files checks
  warnings : found.warnings = aboutEntries (·.warnings) 1 files checks
  order : found.fileResults.Sublist (keyedChecks 1 files checks)
  keys : (found.fileResults.map Prod.fst).Nodup
  first : ∀ key, found.fileResults.lookup key = (keyedChecks 1 files checks).lookup key

section Files

variable {limits : Limits} {bundle : Entries} {files : List Value} {checks : List Findings}

/-- No path is repeated where all paths are told apart. Induction on the paths, none of which was
met before. -/
theorem repeated_foldl_meet {paths : List String} {s : PathSearch} (hdistinct : paths.Nodup)
    (hnew : ∀ path ∈ paths, path ∉ s.seen) :
    (paths.foldl PathSearch.meet s).repeated = s.repeated := by
  induction paths generalizing s with
  | nil => rfl
  | cons path rest ih =>
    obtain ⟨hrest, hdistinct⟩ := List.nodup_cons.1 hdistinct
    rw [List.foldl_cons, ih hdistinct]
    · simp [PathSearch.meet, hnew path List.mem_cons_self]
    · intro path' hpath' hseen
      rcases List.mem_cons.1 hseen with rfl | hseen
      · exact hrest hpath'
      · exact hnew path' (List.mem_cons_of_mem _ hpath') hseen

/-- So there is no error about repeated paths, and the errors over all files are those about the
entries. -/
theorem repeatedPathErrors_eq_nil (hdistinct : (files.filterMap entryPath?).Nodup) :
    repeatedPathErrors files = [] := by
  rw [repeatedPathErrors, repeatedPaths, repeated_foldl_meet hdistinct fun _ _ => List.not_mem_nil]
  rfl

/-- Nothing is said about entries exactly if there is nothing to say about each: a key in front of
messages does not change their number. -/
theorem aboutEntries_eq_nil_iff {messages : Findings → List String} {number : Nat}
    (hlength : files.length = checks.length) :
    aboutEntries messages number files checks = [] ↔ ∀ f ∈ checks, messages f = [] := by
  have hsnd : ((files.zipIdx number).zip checks).map Prod.snd = checks :=
    List.map_snd_zip (by rw [List.length_zipIdx, hlength])
  conv_rhs => rw [← hsnd, List.forall_mem_map]
  rw [aboutEntries, List.flatMap_eq_nil_iff]
  exact forall₂_congr fun p _ => aboutFile_eq_nil_iff

/-- Where every entry can be checked, so can all of them, and what is kept are their findings
(`keepAll`). Induction on the entries, for any findings so far. -/
theorem exists_checkEntriesFrom (h : files.mapM (checkEntry limits) = .ok checks) (number : Nat)
    (found : FileFindings) : ∃ result, checkEntriesFrom limits number found files = .ok result
      ∧ result.fileResults = keepAll found.fileResults (keyedChecks number files checks) := by
  rw [mapM_eq_ok_iff] at h
  induction h generalizing number found with
  | nil => exact ⟨found, rfl, rfl⟩
  | cons hf _ ih =>
    rw [checkEntriesFrom, hf]
    exact ih _ _

/-- The same for `checkFiles`, which adds nothing to what is kept. -/
theorem exists_checkFiles (h : (filesOf bundle).mapM (checkEntry limits) = .ok checks) :
    ∃ found, checkFiles limits bundle = .ok found
      ∧ found.fileResults = keepAll [] (keyedChecks 1 (filesOf bundle) checks) := by
  rw [checkFiles]
  split
  · next hfiles =>
    rw [hfiles]
    exact ⟨_, rfl, rfl⟩
  · exact exists_checkEntriesFrom h _ _

/-- The findings about files of different paths, and the checks of the entries that they collect.
Each field of `FileFindings.Collects` follows from what is kept (`keepAll_sublist`, `nodup_keepAll`,
`lookup_keepAll`). -/
theorem exists_collects {found : FileFindings}
    (hdistinct : ((filesOf bundle).filterMap entryPath?).Nodup)
    (h : checkFiles limits bundle = .ok found) :
    ∃ checks, (filesOf bundle).mapM (checkEntry limits) = .ok checks
      ∧ found.Collects (filesOf bundle) checks
      ∧ found.fileResults = keepAll [] (keyedChecks 1 (filesOf bundle) checks) := by
  obtain ⟨checks, hchecks, herrors, hwarnings, hvalid, -⟩ := checkFiles_eq_ok h
  obtain ⟨found', hfound', hresults⟩ := exists_checkFiles hchecks
  cases h.symm.trans hfound'
  have hlength := (mapM_eq_ok_iff.1 hchecks).length_eq
  have hsound : ∀ f ∈ checks, f.IsSound := isSound_of_mapM_checkEntry hchecks
  -- Keys are distinct, so no error about repeated paths comes before those about the entries.
  have hcommon : filesOf bundle ≠ [] →
      found.errors = aboutEntries (·.errors) 1 (filesOf bundle) checks := by
    intro hne
    rw [herrors, commonFileErrors]
    split
    · next hnil => exact absurd hnil hne
    · rw [repeatedPathErrors_eq_nil hdistinct, List.nil_append]
  refine ⟨checks, hchecks, ?_, hresults⟩
  refine
    { isValid := ?_
      errors := hcommon
      warnings := hwarnings
      order := ?_
      keys := ?_
      first := fun key => ?_ }
  · rw [hvalid, List.isEmpty_iff]
    by_cases hnil : filesOf bundle = []
    · rw [herrors, commonFileErrors, hnil]
      exact iff_of_false (List.cons_ne_nil _ _) fun hboth => hboth.1 rfl
    · rw [hcommon hnil, aboutEntries_eq_nil_iff hlength, and_iff_right hnil]
      exact forall₂_congr fun f hf => (hsound f hf).symm
  · rw [hresults]
    exact keepAll_sublist
  · rw [hresults]
    exact nodup_keepAll .nil
  · rw [hresults]
    exact lookup_keepAll key

/-- **The check of files collects the findings about its entries.** The check of files, no two of
which have the same path, gives findings exactly if the check of every entry does. It collects them
all, and under each key it keeps those of the first entry with that key. So every entry has its own
findings, in the order of the entries, exactly if no path is spelt like the number of an entry
without a path. -/
theorem checkFiles_collects (hdistinct : ((filesOf bundle).filterMap entryPath?).Nodup) :
    ((∃ found, checkFiles limits bundle = .ok found)
      ↔ ∀ file ∈ filesOf bundle, ∃ f, checkEntry limits file = .ok f)
    ∧ ∀ found, checkFiles limits bundle = .ok found →
      ∃ checks, (filesOf bundle).mapM (checkEntry limits) = .ok checks
        ∧ found.Collects (filesOf bundle) checks
        ∧ (found.fileResults = keyedChecks 1 (filesOf bundle) checks
          ↔ ¬HasNumberedPath (filesOf bundle)) := by
  refine ⟨⟨?_, fun hall => ?_⟩, fun found h => ?_⟩
  · rintro ⟨found, h⟩ file hfile
    obtain ⟨checks, hchecks, -⟩ := checkFiles_eq_ok h
    obtain ⟨f, hf, -⟩ := exists_of_mapM_eq_ok hchecks hchecks file hfile
    exact ⟨f, hf⟩
  · obtain ⟨checks, hchecks⟩ := exists_mapM_eq_ok hall
    obtain ⟨found, h, -⟩ := exists_checkFiles hchecks
    exact ⟨found, h⟩
  · obtain ⟨checks, hchecks, hcollects, hresults⟩ := exists_collects hdistinct h
    refine ⟨checks, hchecks, hcollects, ?_⟩
    have hlength := (mapM_eq_ok_iff.1 hchecks).length_eq
    rw [← nodup_keys_iff hdistinct, ← map_fst_keyedChecks hlength]
    constructor
    · intro hall
      exact hall ▸ hcollects.keys
    · intro hnodup
      rw [hresults, keepAll_eq_append (by rwa [List.nil_append]), List.nil_append]

end Files

/-! ### An entry without a path -/

/-- Three entries of which one has no path: the path of the first is spelt like a number, but that
of another entry. -/
def numberedFiles : Entries :=
  [("files", .list [
    .mapping [("path", .text "#1"), ("content", .text "x")],
    .mapping [("content", .text "y")],
    .mapping [("path", .text "a"), ("content", .text "")]])]

/-- Each of the three has its own findings. -/
theorem checkFiles_collects_numbered :
    ((filesOf numberedFiles).filterMap entryPath?).Nodup
      ∧ ∃ found, checkFiles .standard numberedFiles = .ok found
        ∧ found.fileResults = [("#1", .none), ("#2", .of ["File path is required"] []),
          ("a", .of [] ["File content is empty"])]
        ∧ ¬HasNumberedPath (filesOf numberedFiles) := by
  have hdistinct : ((filesOf numberedFiles).filterMap entryPath?).Nodup := by decide +kernel
  have hmap : (checkFiles .standard numberedFiles).map (·.fileResults)
      = .ok [("#1", .none), ("#2", .of ["File path is required"] []),
        ("a", .of [] ["File content is empty"])] := by decide +kernel
  obtain ⟨found, hfound, hresults⟩ := map_eq_ok_iff.1 hmap
  obtain ⟨-, hcollected⟩ := @checkFiles_collects .standard numberedFiles hdistinct
  obtain ⟨checks, hchecks, -, hiff⟩ := hcollected found hfound
  have hkeyed : (filesOf numberedFiles).mapM (checkEntry .standard)
      = .ok [.none, .of ["File path is required"] [], .of [] ["File content is empty"]] := by
    decide +kernel
  cases hkeyed.symm.trans hchecks
  refine ⟨hdistinct, found, hfound, hresults, hiff.1 (hresults.trans ?_)⟩
  decide +kernel

/-- An entry without a path before one whose path is spelt like its number: the path leads to the
findings about the other entry, and those about its own entry, which is valid, are not kept. -/
theorem lost_numbered_path :
    let entry := Value.mapping [("content", .text "y")]
    let other := Value.mapping [("path", .text "#1"), ("content", .text "x")]
    ([entry, other].filterMap entryPath?).Nodup
      ∧ checkEntry .standard other = .ok .none
      ∧ checkFiles .standard [("files", .list [entry, other])]
        = .ok ⟨false, ["File '#1': File path is required"], [],
          [("#1", .of ["File path is required"] [])]⟩ := by
  decide +kernel

end Templating
