import Templating.Files.Tree
import Templating.Proofs.Outcome

/-!
# What changes in a file tree

The operations on a file tree look at it and change it through what stands at each location. As
long as no part of a name leads one directory up, making directories changes nothing but the
locations on the way along the parts, where something was missing, and writing a text changes one
location. A sequence of operations changes a tree as a relation says if every operation does, and
the relation holds along any number of changes.

## Main definitions

* `Location.IsPlain`: locations no part of which leads up.
* `Moves`: an operation changes every tree as a relation says.

## Main results

* `FileTree.node?_put`: what stands at a location after something was put somewhere.
* `FileTree.node?_withDirectories`: what stands at a location after directories were made.
* `FileTree.withText_eq_ok`: the tree after a text was written.
* `Moves.bind`, `Moves.mapM`: sequences of operations.
-/

namespace Templating

/-! ### Locations -/

namespace Location

variable {location start : Location}

/-- No part of the location leads one directory up, so what is written at a location below it stays
below it. -/
def IsPlain (location : Location) : Prop :=
  ".." ∉ location

theorem IsPlain.dropLast (h : location.IsPlain) : IsPlain location.dropLast :=
  fun hmem => h (List.dropLast_subset location hmem)

/-- Following parts from a plain location leads to a plain location. -/
theorem IsPlain.follow (h : start.IsPlain) (parts : List String) :
    (start.follow parts).IsPlain := by
  induction parts generalizing start with
  | nil => exact h
  | cons part parts ih =>
    refine ih ?_
    dsimp only
    split
    · exact h.dropLast
    · rename_i hpart
      intro hmem
      rcases List.mem_append.1 hmem with hmem | hmem
      · exact h hmem
      · exact hpart (List.mem_singleton.1 hmem).symm

/-- A name leads from a plain directory to a plain location: at a part that leads up
`Location.follow` takes the last directory off, and adds no part. -/
theorem IsPlain.locate (h : start.IsPlain) (p : PathName) : IsPlain (p.locate start) := by
  rw [PathName.locate, PathName.start]
  split
  · exact IsPlain.follow List.not_mem_nil p.parts
  · exact h.follow p.parts

end Location

/-! ### Trees -/

namespace FileTree

variable {t t' : FileTree} {text : String}

/-- What stands at a location is decided by the first node there. -/
theorem lookup_cons_eq_ite (place location : Location) (node : Node)
    (nodes : List (Location × Node)) : ((place, node) :: nodes).lookup location
      = if location = place then some node else nodes.lookup location := by
  rw [List.lookup_cons]
  split
  · rename_i h
    rw [if_pos (eq_of_beq h)]
  · rename_i h
    rw [if_neg (ne_of_beq_false h)]

/-- What stands at a location after something was put somewhere: the new node there, and everywhere
else what stood there. -/
theorem node?_put {place : Location} (hplace : place ≠ []) (node : Node) (location : Location) :
    (t.put place node).node? location
      = if location = place then some node else t.node? location := by
  have hgo (nodes : List (Location × Node)) : (put.go place node nodes).lookup location
      = if location = place then some node else nodes.lookup location := by
    induction nodes with
    | nil => exact lookup_cons_eq_ite place location node []
    | cons entry rest ih =>
      obtain ⟨key, other⟩ := entry
      rw [put.go]
      split
      · rename_i hkey
        obtain rfl : key = place := hkey
        rw [lookup_cons_eq_ite, lookup_cons_eq_ite]
        split
        · rfl
        · rfl
      · rename_i hkey
        rw [lookup_cons_eq_ite, lookup_cons_eq_ite, ih]
        split
        · rename_i hlocation
          rw [if_neg (fun heq => hkey (hlocation.symm.trans heq))]
        · rfl
  rw [node?, node?, put, hgo]
  split
  · rename_i hroot
    rw [if_neg (fun heq => hplace (heq.symm.trans hroot))]
  · rfl

/-- **Making directories along plain parts changes nothing but the locations on the way where
something was missing.** Induction along `withDirectories`. -/
theorem node?_withDirectories {start : Location} {parts : List String} (hparts : ".." ∉ parts)
    (location : Location) :
    (withDirectories start parts t).2.node? location = t.node? location
      ∨ (location <+: start ++ parts ∧ t.node? location = none
        ∧ (withDirectories start parts t).2.node? location = some .directory) := by
  fun_induction withDirectories start parts t with
  | case1 => exact .inl rfl
  | case2 => exact absurd List.mem_cons_self hparts
  | case3 => exact .inl rfl
  | case4 at' part rest t _ _ hnode ih =>
    rw [List.append_cons at' part rest]
    exact ih fun h => hparts (List.mem_cons_of_mem _ h)
  | case5 => exact .inl rfl
  | case6 at' part rest t _ _ hnode ih =>
    rw [List.append_cons at' part rest]
    have hput : (t.put (at' ++ [part]) .directory).node? location
        = if location = at' ++ [part] then some .directory else t.node? location :=
      node?_put (List.append_ne_nil_of_right_ne_nil _ (List.cons_ne_nil _ _)) .directory location
    rcases ih fun h => hparts (List.mem_cons_of_mem _ h) with hsame | ⟨hinitial, hnone, hmade⟩
    · rw [hsame, hput]
      split
      · rename_i heq
        subst heq
        exact .inr ⟨List.prefix_append _ _, hnode, rfl⟩
      · exact .inl rfl
    · rw [hput] at hnone
      split at hnone
      · cases hnone
      · exact .inr ⟨hinitial, hnone, hmade⟩

/-- **Writing a text along plain parts puts it where they lead to**, which is not the start.
Induction along `withText`. -/
theorem withText_eq_ok {start : Location} {parts : List String} (hparts : ".." ∉ parts)
    (h : withText text start parts t = .ok t') :
    parts ≠ [] ∧ t' = t.put (start ++ parts) (.file text) := by
  fun_induction withText text start parts t with
  | case1 => cases h
  | case2 => exact absurd List.mem_cons_self hparts
  | case3 => cases h
  | case4 at' part t _ _ rest hnode ih =>
    refine ⟨List.cons_ne_nil part rest, ?_⟩
    rw [List.append_cons at' part rest]
    exact (ih (fun h => hparts (List.mem_cons_of_mem _ h)) h).2
  | case5 at' part => cases h; exact ⟨List.cons_ne_nil part [], rfl⟩
  | case6 => cases h
  | case7 at' part => cases h; exact ⟨List.cons_ne_nil part [], rfl⟩
  | case8 => cases h

end FileTree

/-! ### Sequences of operations -/

section Moves

variable {α β : Type} {R : FileTree → FileTree → Prop}

/-- The operation changes every tree as a relation says, whether it fails or not. Whatever a
relation like `FileTree.Retains` or `Confined` says of a run follows from its steps by `Moves.bind`
and `Moves.mapM`. -/
def Moves (R : FileTree → FileTree → Prop) (m : FilesM α) : Prop :=
  ∀ t, R t (m t).2

/-- A computation that only returns a result leaves the files alone. -/
theorem moves_pure (hrefl : ∀ t, R t t) (a : α) : Moves R (pure a : FilesM α) :=
  hrefl

/-- One computation after another moves as each does, if the relation is transitive. -/
theorem Moves.bind (htrans : ∀ t t' t'', R t t' → R t' t'' → R t t'') {m : FilesM α}
    {f : α → FilesM β} (hm : Moves R m) (hf : ∀ a, Moves R (f a)) : Moves R (m >>= f) := by
  intro t
  have hfirst := hm t
  rw [bind_apply]
  rcases hout : m t with ⟨fault | a, t'⟩
  · rwa [hout] at hfirst
  · rw [hout] at hfirst
    exact htrans _ _ _ hfirst (hf a t')

/-- A computation for every item of a list moves as those of the items do. Induction on the list
with `Moves.bind`. -/
theorem Moves.mapM (hrefl : ∀ t, R t t) (htrans : ∀ t t' t'', R t t' → R t' t'' → R t t'')
    {f : α → FilesM β} {xs : List α} (h : ∀ x ∈ xs, Moves R (f x)) : Moves R (xs.mapM f) := by
  induction xs with
  | nil => exact moves_pure hrefl []
  | cons x xs ih =>
    obtain ⟨hx, hxs⟩ := List.forall_mem_cons.1 h
    rw [List.mapM_cons]
    exact hx.bind htrans fun y => (ih hxs).bind htrans fun ys => moves_pure hrefl _

/-- Making directories moves a tree as `withDirectories` does. -/
theorem moves_makeDirectories {start : Location} {parts : List String}
    (h : ∀ t, R t (FileTree.withDirectories start parts t).2) :
    Moves R (makeDirectories start parts) := by
  intro t
  have hmade := h t
  rw [makeDirectories]
  split
  · rename_i heq
    rwa [heq] at hmade
  · rename_i heq
    rwa [heq] at hmade

/-- Writing a text moves a tree as `withText` does, or leaves it. -/
theorem moves_writeText (hrefl : ∀ t, R t t) {start : Location} {parts : List String}
    {text : String}
    (h : ∀ t t', FileTree.withText text start parts t = .ok t' → R t t') :
    Moves R (writeText start parts text) := by
  intro t
  rw [writeText]
  split
  · rename_i heq
    exact h t _ heq
  · exact hrefl t

end Moves

end Templating
