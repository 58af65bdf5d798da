import Mathlib.Data.List.Induction
import Templating.Proofs.Files.Frames

/-!
# Trees that hang together

In a file system everything lies in a directory. A tree in which this holds is called rooted. The
operations keep it so: directories are made only below directories, and a text is written only into
a directory, where no directory stands already. In a rooted tree what stands at a location is found
by following the parts of the location, unless one of them is too long for a name.

## Main definitions

* `FileTree.IsRooted`: whatever the tree holds lies in a directory.

## Main results

* `FileTree.IsRooted.withDirectories`, `FileTree.IsRooted.withText`: the operations keep a tree
  rooted.
* `FileTree.IsRooted.exists?_ne_false`: what stands in a rooted tree is found.
-/

namespace Templating.FileTree

variable {t t' : FileTree} {text : String}

/-- Whatever the tree holds lies in a directory. -/
def IsRooted (t : FileTree) : Prop :=
  ∀ (location : Location) (part : String),
    t.node? (location ++ [part]) ≠ none → t.node? location = some .directory

theorem node?_root (t : FileTree) : t.node? [] = some .directory :=
  rfl

/-- Every location on the way to what the tree holds is a directory. Induction on the parts from the
last one. -/
theorem IsRooted.directory_above (h : t.IsRooted) {location : Location} {parts : List String}
    (hparts : parts ≠ []) (hthere : t.node? (location ++ parts) ≠ none) :
    t.node? location = some .directory := by
  induction parts using List.reverseRecOn with
  | nil => exact absurd rfl hparts
  | append_singleton parts part ih =>
    rw [← List.append_assoc] at hthere
    have hlast := h (location ++ parts) part hthere
    rcases eq_or_ne parts [] with rfl | hne
    · rwa [List.append_nil] at hlast
    · exact ih hne (by rw [hlast]; exact Option.some_ne_none _)

/-- The directory that holds a directory is one. -/
theorem IsRooted.directory_dropLast (h : t.IsRooted) {location : Location}
    (hthere : t.node? location = some .directory) :
    t.node? location.dropLast = some .directory := by
  rcases List.eq_nil_or_concat location with rfl | ⟨above, part, rfl⟩
  · exact node?_root t
  · rw [List.concat_eq_append] at hthere ⊢
    rw [List.dropLast_concat]
    exact h above part (by rw [hthere]; exact Option.some_ne_none _)

/-- A tree is rooted if each of the nodes it is given by, the root apart, lies in a directory. This
is what makes `IsRooted` decidable. -/
theorem isRooted_iff : t.IsRooted ↔ ∀ entry ∈ t.nodes, entry.1 ≠ [] →
    t.node? entry.1.dropLast = some .directory := by
  constructor
  · rintro h ⟨location, node⟩ hentry hne
    obtain ⟨above, part, rfl⟩ := (List.eq_nil_or_concat location).resolve_left hne
    rw [List.concat_eq_append] at hentry ⊢
    rw [List.dropLast_concat]
    refine h above part fun hnone => ?_
    rw [node?, if_neg (List.append_ne_nil_of_right_ne_nil _ (List.cons_ne_nil part [])),
      List.lookup_eq_none_iff] at hnone
    exact absurd rfl (bne_iff_ne.1 (hnone _ hentry))
  · intro h location part hthere
    have hne : location ++ [part] ≠ [] :=
      List.append_ne_nil_of_right_ne_nil _ (List.cons_ne_nil part [])
    rw [node?, if_neg hne, ne_eq, List.lookup_eq_none_iff] at hthere
    push Not at hthere
    obtain ⟨entry, hentry, heq⟩ := hthere
    have hplace : location ++ [part] = entry.1 := by simpa using heq
    have hdirectory := h entry hentry (hplace ▸ hne)
    rwa [← hplace, List.dropLast_concat] at hdirectory

/-- Whether a tree is rooted can be decided node by node. -/
instance : Decidable t.IsRooted :=
  decidable_of_iff _ isRooted_iff.symm

/-! ### Operations -/

/-- Putting something into a directory keeps a tree rooted, unless a file is put in the place of a
directory. -/
theorem IsRooted.put (h : t.IsRooted) {above : Location} {part : String} {node : Node}
    (habove : t.node? above = some .directory)
    (hnode : node = .directory ∨ t.node? (above ++ [part]) ≠ some .directory) :
    (t.put (above ++ [part]) node).IsRooted := by
  have hplace : above ++ [part] ≠ [] :=
    List.append_ne_nil_of_right_ne_nil _ (List.cons_ne_nil part [])
  intro location last hthere
  rw [node?_put hplace] at hthere ⊢
  have hdirectory : t.node? location = some .directory := by
    split at hthere
    · rename_i heq
      obtain ⟨rfl, -⟩ := List.append_inj' heq rfl
      exact habove
    · exact h location last hthere
  split
  · rename_i heq
    subst heq
    rcases hnode with rfl | hfile
    · rfl
    · exact absurd hdirectory hfile
  · exact hdirectory

/-- **Making directories from a directory on keeps a tree rooted.** Induction along
`FileTree.withDirectories`. -/
theorem IsRooted.withDirectories (h : t.IsRooted) {start : Location}
    (hstart : t.node? start = some .directory) (parts : List String) :
    (FileTree.withDirectories start parts t).2.IsRooted := by
  fun_induction FileTree.withDirectories start parts t with
  | case1 => exact h
  | case2 at' rest t ih => exact ih h (h.directory_dropLast hstart)
  | case3 => exact h
  | case4 at' part rest t _ _ hnode ih => exact ih h hnode
  | case5 => exact h
  | case6 at' part rest t _ _ hnode ih =>
    refine ih (h.put hstart (.inl rfl)) ?_
    rw [node?_put (List.append_ne_nil_of_right_ne_nil _ (List.cons_ne_nil part []))]
    exact if_pos rfl

/-- A text is written where no directory stands: `FileTree.withText` fails there. -/
theorem not_directory_of_withText {start : Location} {parts : List String} (hparts : ".." ∉ parts)
    (h : FileTree.withText text start parts t = .ok t') :
    t.node? (start ++ parts) ≠ some .directory := by
  fun_induction FileTree.withText text start parts t with
  | case1 => cases h
  | case2 => exact absurd List.mem_cons_self hparts
  | case3 => cases h
  | case4 at' part t _ _ rest hnode ih =>
    rw [List.append_cons at' part rest]
    exact ih (fun hmem => hparts (List.mem_cons_of_mem _ hmem)) h
  | case5 at' part t _ _ other hnode =>
    rw [hnode]
    rintro ⟨⟩
  | case6 => cases h
  | case7 at' part t _ _ hnode =>
    rw [hnode]
    rintro ⟨⟩
  | case8 => cases h

/-- **Writing a text from a directory on keeps a tree rooted**, by `IsRooted.put` at the end of the
parts. -/
theorem IsRooted.withText (h : t.IsRooted) {start : Location}
    (hstart : t.node? start = some .directory) {parts : List String}
    (hwritten : FileTree.withText text start parts t = .ok t') : t'.IsRooted := by
  fun_induction FileTree.withText text start parts t with
  | case1 => cases hwritten
  | case2 at' rest t ih => exact ih h (h.directory_dropLast hstart) hwritten
  | case3 => cases hwritten
  | case4 at' part t _ _ rest hnode ih => exact ih h hnode hwritten
  | case5 at' part t _ _ other hnode =>
    cases hwritten
    exact h.put hstart (.inr (by rw [hnode]; rintro ⟨⟩))
  | case6 => cases hwritten
  | case7 at' part t _ _ hnode =>
    cases hwritten
    exact h.put hstart (.inr (by rw [hnode]; rintro ⟨⟩))
  | case8 => cases hwritten

/-! ### Finding what is there -/

/-- What stands in a rooted tree is found there, unless a part is too long for a name; `exists?`
fails then, and does not say that nothing is there. -/
theorem IsRooted.exists?_ne_false (h : t.IsRooted) {start : Location} {parts : List String}
    (hparts : ".." ∉ parts) (hthere : t.node? (start ++ parts) ≠ none) :
    t.exists? start parts ≠ .ok false := by
  rw [exists?]
  fun_induction find t start parts with
  | case1 => rintro ⟨⟩
  | case2 => exact absurd List.mem_cons_self hparts
  | case3 => rintro ⟨⟩
  | case4 at' part rest _ _ hnone =>
    rw [List.append_cons] at hthere
    rcases eq_or_ne rest [] with rfl | hrest
    · rw [List.append_nil] at hthere
      exact absurd hnone hthere
    · cases hnone.symm.trans (h.directory_above hrest hthere)
  | case5 at' part rest _ _ _ ih =>
    rw [List.append_cons] at hthere
    exact ih (fun hmem => hparts (List.mem_cons_of_mem _ hmem)) hthere
  | case6 => rintro ⟨⟩
  | case7 at' part rest _ _ other hfile hrest =>
    rw [List.append_cons] at hthere
    have hne : rest ≠ [] := by
      rintro rfl
      exact hrest rfl
    cases hfile.symm.trans (h.directory_above hne hthere)

end Templating.FileTree
