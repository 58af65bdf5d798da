import Templating.Proofs.Files.Frames

/-!
# Doing again what was done

What an operation on a file tree has made is found in the tree afterwards, and later operations do
not take it away: a directory remains one, and so does a file, whatever its text. So operations that
were carried out can be carried out again. The directories on the way are there already, and a text
is put in the place of a text. Texts put at different locations where something stands do not get in
each other's way, and a text put where it stands changes nothing.

## Main definitions

* `FileTree.Retains`: whatever stands in a tree still does, as a directory or as a file.
* `FileTree.HasFile`: a file is found at a location.

## Main results

* `FileTree.put_eq_self`, `FileTree.put_put`, `FileTree.put_comm`: putting something where something
  stands.
* `FileTree.find_of_withDirectories`, `FileTree.find_of_withText`: what was made is found.
* `FileTree.Retains.find`: it is found as long as it is retained.
* `FileTree.withDirectories_of_find`, `FileTree.withText_of_find`: it can be made again.
-/

namespace Templating.FileTree

variable {t t' : FileTree} {location place start : Location} {parts : List String}
  {node node' : Node} {text : String}

/-! ### Putting something where something stands -/

/-- Putting what `lookup` finds already changes nothing. Induction on the nodes, as for the next
two. -/
theorem put.go_eq_self {nodes : List (Location × Node)} (h : nodes.lookup location = some node) :
    put.go location node nodes = nodes := by
  induction nodes with
  | nil => cases h
  | cons entry rest ih =>
    obtain ⟨key, other⟩ := entry
    rw [lookup_cons_eq_ite] at h
    rw [put.go]
    split
    · next hkey =>
      obtain rfl : key = location := hkey
      rw [if_pos rfl] at h
      rw [Option.some.inj h]
    · next hkey =>
      rw [if_neg (Ne.symm hkey)] at h
      rw [ih h]

/-- The second of two nodes at one place is what stays there. -/
theorem put.go_go (location : Location) (node node' : Node) (nodes : List (Location × Node)) :
    put.go location node' (put.go location node nodes) = put.go location node' nodes := by
  induction nodes with
  | nil => exact if_pos rfl
  | cons entry rest ih =>
    by_cases hkey : entry.1 = location
    · rw [put.go, if_pos hkey, put.go, if_pos rfl, put.go, if_pos hkey]
    · rw [put.go, if_neg hkey, put.go, if_neg hkey, ih, put.go, if_neg hkey]

/-- An entry that is there is replaced where it is by `put.go`, so another one is added at the same
end, be it before or afterwards. -/
theorem put.go_comm {nodes : List (Location × Node)} (hne : location ≠ place)
    (h : nodes.lookup location ≠ none) (node node' : Node) :
    put.go place node' (put.go location node nodes)
      = put.go location node (put.go place node' nodes) := by
  induction nodes with
  | nil => exact absurd rfl h
  | cons entry rest ih =>
    obtain ⟨key, other⟩ := entry
    by_cases hlocation : key = location
    · subst hlocation
      simp only [put.go, if_neg hne, if_true]
    · by_cases hplace : key = place
      · subst hplace
        simp only [put.go, if_neg hlocation, if_true]
      · rw [lookup_cons_eq_ite, if_neg (Ne.symm hlocation)] at h
        simp only [put.go, if_neg hlocation, if_neg hplace, ih h]

/-- Putting what stands at a location changes nothing, by `put.go_eq_self`. -/
theorem put_eq_self (hne : location ≠ []) (h : t.node? location = some node) :
    t.put location node = t := by
  rw [node?, if_neg hne] at h
  rw [put, put.go_eq_self h]

/-- Of two things put at one location the second remains. -/
theorem put_put (t : FileTree) (location : Location) (node node' : Node) :
    (t.put location node).put location node' = t.put location node' := by
  rw [put, put, put, put.go_go]

/-- Things put at two locations, at the first of which something stands, may be put in either order.
The hypothesis is needed because the order of the nodes matters to the tree as a datum. -/
theorem put_comm (hne : location ≠ place) (hroot : location ≠ [])
    (hthere : t.node? location ≠ none) (node node' : Node) :
    (t.put location node).put place node' = (t.put place node').put location node := by
  rw [node?, if_neg hroot] at hthere
  rw [put, put, put, put, put.go_comm hne hthere]

/-! ### What is retained -/

/-- Whatever stands in a tree still does afterwards: a directory is one, and a file has some
text. -/
structure Retains (t t' : FileTree) : Prop where
  directory : ∀ location, t.node? location = some .directory →
    t'.node? location = some .directory
  file : ∀ location text, t.node? location = some (.file text) →
    ∃ text', t'.node? location = some (.file text')

namespace Retains

theorem refl (t : FileTree) : Retains t t :=
  ⟨fun _ h => h, fun _ text h => ⟨text, h⟩⟩

theorem trans (t t' t'' : FileTree) (h : Retains t t') (h' : Retains t' t'') : Retains t t'' := by
  refine ⟨fun location hnode => h'.directory location (h.directory location hnode),
    fun location text hnode => ?_⟩
  obtain ⟨text', hnode'⟩ := h.file location text hnode
  exact h'.file location text' hnode'

/-- Making directories retains what stands, by `node?_withDirectories`. -/
theorem withDirectories (hparts : ".." ∉ parts) (t : FileTree) :
    Retains t (FileTree.withDirectories start parts t).2 := by
  have hstands (location : Location) (node : Node) (hnode : t.node? location = some node) :
      (FileTree.withDirectories start parts t).2.node? location = some node := by
    rcases node?_withDirectories hparts location with hsame | ⟨-, hnone, -⟩
    · exact hsame.trans hnode
    · cases hnone.symm.trans hnode
  exact ⟨fun location => hstands location .directory,
    fun location text hnode => ⟨text, hstands location (.file text) hnode⟩⟩

/-- Putting a text where no directory stands retains what stands. -/
theorem put (hne : place ≠ []) (hplace : t.node? place ≠ some .directory) (text : String) :
    Retains t (t.put place (.file text)) := by
  refine ⟨fun location hnode => ?_, fun location text' hnode => ?_⟩
  · rw [node?_put hne, if_neg, hnode]
    rintro rfl
    exact hplace hnode
  · rw [node?_put hne]
    split
    · exact ⟨text, rfl⟩
    · exact ⟨text', hnode⟩

/-- **What is found is found as long as it is retained.** Induction along `FileTree.find`: the way
leads through directories, which stay directories. -/
theorem find (h : Retains t t') (hfind : t.find start parts = .ok (location, node)) :
    ∃ node', t'.find start parts = .ok (location, node')
      ∧ (node' = .directory ↔ node = .directory) := by
  fun_induction FileTree.find t start parts with
  | case1 at' =>
    cases hfind
    exact ⟨.directory, rfl, Iff.rfl⟩
  | case2 at' rest ih =>
    rw [FileTree.find, if_pos rfl]
    exact ih hfind
  | case3 => cases hfind
  | case4 => cases hfind
  | case5 at' part rest hup hlong hnode ih =>
    rw [FileTree.find, if_neg hup, if_neg hlong, h.directory _ hnode]
    exact ih hfind
  | case6 at' part rest hup hlong text hnode hrest =>
    cases hfind
    obtain ⟨text', hnode'⟩ := h.file _ _ hnode
    rw [FileTree.find, if_neg hup, if_neg hlong, hnode']
    exact ⟨.file text', if_pos hrest, by simp⟩
  | case7 => cases hfind

end Retains

/-! ### What was made is found -/

/-- Directories made along plain parts are found. Induction along `withDirectories`, and
`Retains.find` for what is made further on. -/
theorem find_of_withDirectories (hparts : ".." ∉ parts)
    (h : withDirectories start parts t = (.ok (), t')) :
    t'.find start parts = .ok (start ++ parts, .directory) := by
  fun_induction withDirectories start parts t with
  | case1 at' t => rw [find, List.append_nil]
  | case2 => exact absurd List.mem_cons_self hparts
  | case3 => cases h
  | case4 at' part rest t hup hlong hnode ih =>
    have hrest : ".." ∉ rest := fun hmem => hparts (List.mem_cons_of_mem _ hmem)
    have hretains : Retains t (withDirectories (at' ++ [part]) rest t).2 := .withDirectories hrest t
    rw [h] at hretains
    rw [find, if_neg hup, if_neg hlong, hretains.directory _ hnode]
    dsimp only
    rw [ih hrest h, ← List.append_cons]
  | case5 => cases h
  | case6 at' part rest t hup hlong _ ih =>
    have hrest : ".." ∉ rest := fun hmem => hparts (List.mem_cons_of_mem _ hmem)
    have hmade : (t.put (at' ++ [part]) .directory).node? (at' ++ [part]) = some .directory := by
      rw [node?_put (List.append_ne_nil_of_right_ne_nil _ (List.cons_ne_nil _ _)), if_pos rfl]
    have hretains : Retains (t.put (at' ++ [part]) .directory)
        (withDirectories (at' ++ [part]) rest (t.put (at' ++ [part]) .directory)).2 :=
      .withDirectories hrest _
    rw [h] at hretains
    rw [find, if_neg hup, if_neg hlong, hretains.directory _ hmade]
    dsimp only
    rw [ih hrest h, ← List.append_cons]

/-- A text written along plain parts is found, by induction along `withText`. -/
theorem find_of_withText (hparts : ".." ∉ parts) (h : withText text start parts t = .ok t') :
    t'.find start parts = .ok (start ++ parts, .file text) := by
  have hput (at' : Location) (part : String) (t : FileTree) :
      (t.put (at' ++ [part]) (.file text)).node? (at' ++ [part]) = some (.file text) := by
    rw [node?_put (List.append_ne_nil_of_right_ne_nil _ (List.cons_ne_nil _ _)), if_pos rfl]
  fun_induction withText text start parts t with
  | case1 => cases h
  | case2 => exact absurd List.mem_cons_self hparts
  | case3 => cases h
  | case4 at' part t hup hlong rest hnode ih =>
    have hrest : ".." ∉ rest := fun hmem => hparts (List.mem_cons_of_mem _ hmem)
    obtain ⟨hne, rfl⟩ := withText_eq_ok hrest h
    have hstands : (t.put (at' ++ [part] ++ rest) (.file text)).node? (at' ++ [part])
        = some .directory := by
      rw [node?_put (List.append_ne_nil_of_right_ne_nil _ hne), if_neg, hnode]
      exact fun heq => hne (List.self_eq_append_right.1 heq)
    rw [find, if_neg hup, if_neg hlong, hstands]
    dsimp only
    rw [ih hrest h, ← List.append_cons]
  | case5 at' part t hup hlong =>
    cases h
    rw [find, if_neg hup, if_neg hlong, hput]
    rfl
  | case6 => cases h
  | case7 at' part t hup hlong =>
    cases h
    rw [find, if_neg hup, if_neg hlong, hput]
    rfl
  | case8 => cases h

/-! ### What is found can be made again -/

/-- There are no directories to make on the way to one that is found, so `withDirectories` changes
nothing. -/
theorem withDirectories_of_find (h : t.find start parts = .ok (location, .directory)) :
    withDirectories start parts t = (.ok (), t) := by
  fun_induction find t start parts with
  | case1 => rfl
  | case2 at' rest ih =>
    rw [withDirectories, if_pos rfl]
    exact ih h
  | case3 => cases h
  | case4 => cases h
  | case5 at' part rest hup hlong hnode ih =>
    rw [withDirectories, if_neg hup, if_neg hlong, hnode]
    exact ih h
  | case6 => cases h
  | case7 => cases h

/-- What is found stands in a directory that is found. -/
theorem find_dropLast (h : t.find start parts = .ok (location, node)) :
    ∃ above, t.find start parts.dropLast = .ok (above, .directory) := by
  fun_induction find t start parts with
  | case1 at' => exact ⟨at', rfl⟩
  | case2 at' rest ih =>
    cases rest with
    | nil => exact ⟨at', rfl⟩
    | cons part rest =>
      rw [List.dropLast_cons_cons, find, if_pos rfl]
      exact ih h
  | case3 => cases h
  | case4 => cases h
  | case5 at' part rest hup hlong hnode ih =>
    cases rest with
    | nil => exact ⟨at', rfl⟩
    | cons next rest =>
      rw [List.dropLast_cons_cons, find, if_neg hup, if_neg hlong, hnode]
      exact ih h
  | case6 at' part rest _ _ _ _ hrest =>
    rw [List.isEmpty_iff.1 hrest]
    exact ⟨at', rfl⟩
  | case7 => cases h

/-- A text is put in the place of the text of a file that is found: `withText` makes nothing
else. -/
theorem withText_of_find {old : String} (h : t.find start parts = .ok (location, .file old))
    (text : String) : withText text start parts t = .ok (t.put location (.file text)) := by
  fun_induction withText text start parts t with
  | case1 => cases h
  | case2 at' rest t ih =>
    rw [find, if_pos rfl] at h
    exact ih h
  | case3 at' part rest t hup hlong =>
    rw [find, if_neg hup, if_pos hlong] at h
    cases h
  | case4 at' part t hup hlong rest hnode ih =>
    rw [find, if_neg hup, if_neg hlong, hnode] at h
    exact ih h
  | case5 at' part t hup hlong other hnode =>
    rw [find, if_neg hup, if_neg hlong, hnode] at h
    cases h
    rfl
  | case6 at' part t hup hlong other next rest hnode =>
    rw [find, if_neg hup, if_neg hlong, hnode] at h
    cases h
  | case7 at' part t hup hlong hnode =>
    rw [find, if_neg hup, if_neg hlong, hnode] at h
    cases h
  | case8 at' part t hup hlong next rest hnode =>
    rw [find, if_neg hup, if_neg hlong, hnode] at h
    cases h

/-! ### Files that are found -/

/-- A file is found at a location, through directories from the root on. -/
def HasFile (t : FileTree) (location : Location) : Prop :=
  ∃ text, t.find [] location = .ok (location, .file text)

/-- What is found as a file stands at its location, which is not the root. -/
theorem HasFile.node? (h : t.HasFile location) :
    location ≠ [] ∧ ∃ text, t.node? location = some (.file text) := by
  obtain ⟨text, hfind⟩ := h
  have hstands {start parts} (hparts : t.find start parts = .ok (location, .file text)) :
      t.node? location = some (.file text) := by
    fun_induction find t start parts with
    | case1 => cases hparts
    | case2 at' rest ih => exact ih hparts
    | case3 => cases hparts
    | case4 => cases hparts
    | case5 at' part rest _ _ _ ih => exact ih hparts
    | case6 at' part rest _ _ _ hnode =>
      cases hparts
      exact hnode
    | case7 => cases hparts
  refine ⟨?_, text, hstands hfind⟩
  rintro rfl
  cases hfind

/-- After text is written, a file is there. -/
theorem hasFile_of_withText (hplain : location.IsPlain)
    (h : withText text [] location t = .ok t') : t'.HasFile location :=
  ⟨text, find_of_withText hplain h⟩

theorem HasFile.exists? (h : t.HasFile location) : t.exists? [] location = .ok true := by
  obtain ⟨text, hfind⟩ := h
  rw [FileTree.exists?, hfind]

/-- A file stays a file where nodes are retained. -/
theorem HasFile.retained (h : t.HasFile location) (hretains : Retains t t') :
    t'.HasFile location := by
  obtain ⟨text, hfind⟩ := h
  obtain ⟨node, hfind', hkind⟩ := hretains.find hfind
  cases node with
  | directory => cases hkind.1 rfl
  | file text' => exact ⟨text', hfind'⟩

/-- Putting a text in the place of a file does not take away files, by `Retains.put`. -/
theorem HasFile.put (h : t.HasFile location) (hplace : t.HasFile place) (text : String) :
    (t.put place (.file text)).HasFile location := by
  obtain ⟨hne, old, hold⟩ := hplace.node?
  exact h.retained (.put hne (by rw [hold]; rintro ⟨⟩) text)

end Templating.FileTree
