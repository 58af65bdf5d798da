import Mathlib.Data.List.Forall2
import Templating.Fault

/-!
# Outcomes of computations that may fail

A sequence of computations succeeds if each of them does, and fails as the first of them that
fails. The lemmas here take such sequences apart. If the faults of each computation satisfy a
condition, so do those of the sequence.

## Main definitions

* `FailsOnly`, `NeverFailsBut`: the faults of a computation satisfy a condition.

## Main results

* `bind_eq_ok_iff`, `bind_eq_error_iff`, `map_eq_ok_iff`, `map_eq_error_iff`: one computation after
  another.
* `mapM_eq_ok_iff`, `mapM_concat_eq_ok_iff`, `exists_mapM_eq_ok`: one computation for every item of
  a list.
* `exists_mem_of_mapM_eq_ok`: the results of a computation for every item.
* `exists_of_mapM_eq_ok`: two computations with the same results for every item.
* `bind_apply`, `mapM_cons_apply_eq_ok_iff`, `map_mapM_apply`: computations one after another that
  also change a state.
* `FailsOnly.bind`, `NeverFailsBut.bind`: the faults of one computation after another.
-/

namespace Templating

variable {ε α β : Type}

/-- Two computations succeed, one after the other, if the first does and the second does with its
result. With `bind_eq_error_iff` this takes any `do` block of `Except` apart without unfolding
it. -/
theorem bind_eq_ok_iff {x : Except ε α} {f : α → Except ε β} {b : β} :
    x >>= f = .ok b ↔ ∃ a, x = .ok a ∧ f a = .ok b := by
  cases x with
  | error e => exact iff_of_false (by rintro ⟨⟩) (by rintro ⟨a, ⟨⟩, -⟩)
  | ok a =>
    refine ⟨fun h => ⟨a, rfl, h⟩, ?_⟩
    rintro ⟨a', ⟨⟩, h⟩
    exact h

/-- They fail if the first fails, or if it succeeds and the second fails with its result; the other
half of `bind_eq_ok_iff`. -/
theorem bind_eq_error_iff {x : Except ε α} {f : α → Except ε β} {e : ε} :
    x >>= f = .error e ↔ x = .error e ∨ ∃ a, x = .ok a ∧ f a = .error e := by
  cases x with
  | error e' =>
    constructor
    · rintro ⟨⟩
      exact .inl rfl
    · rintro (⟨⟨⟩⟩ | ⟨a, ⟨⟩, -⟩)
      rfl
  | ok a =>
    constructor
    · exact fun h => .inr ⟨a, rfl, h⟩
    · rintro (⟨⟨⟩⟩ | ⟨a', ⟨⟩, h⟩)
      exact h

/-- Changing the result of a computation succeeds if the computation does. -/
theorem map_eq_ok_iff {x : Except ε α} {f : α → β} {b : β} :
    x.map f = .ok b ↔ ∃ a, x = .ok a ∧ f a = b := by
  cases x with
  | error e => exact iff_of_false (by rintro ⟨⟩) (by rintro ⟨a, ⟨⟩, -⟩)
  | ok a =>
    constructor
    · rintro ⟨⟩
      exact ⟨a, rfl, rfl⟩
    · rintro ⟨a', ⟨⟩, rfl⟩
      rfl

/-- Changing the result of a computation keeps its fault. -/
theorem map_eq_error_iff {x : Except ε α} {f : α → β} {e : ε} :
    x.map f = .error e ↔ x = .error e := by
  cases x with
  | error e' => exact ⟨fun h => by cases h; rfl, fun h => by cases h; rfl⟩
  | ok a => exact iff_of_false (by rintro ⟨⟩) (by rintro ⟨⟩)

/-- A computation that changes a state is followed by the next only if it succeeds; the state stays
changed also if it fails. This is how `ExceptT` over `StateM` runs. -/
theorem bind_apply {σ : Type} (m : ExceptT ε (StateM σ) α) (f : α → ExceptT ε (StateM σ) β)
    (s : σ) :
    (m >>= f) s
      = match m s with
        | (.ok a, s) => f a s
        | (.error e, s) => (.error e, s) := by
  change StateT.bind m (ExceptT.bindCont f) s = _
  rw [StateT.bind]
  obtain ⟨- | -, s'⟩ := m s
  · rfl
  · rfl

/-- A computation for every item succeeds if it does for the first, and then for the others from the
state that the first one leaves. The step of every induction along `mapM` with a state. -/
theorem mapM_cons_apply_eq_ok_iff {σ : Type} {f : α → ExceptT ε (StateM σ) β} {x : α}
    {xs : List α} {ys : List β} {s s'' : σ} :
    (x :: xs).mapM f s = (.ok ys, s'')
      ↔ ∃ y s' ys', f x s = (.ok y, s') ∧ xs.mapM f s' = (.ok ys', s'') ∧ y :: ys' = ys := by
  rw [List.mapM_cons, bind_apply]
  rcases f x s with ⟨e | y, s'⟩
  · exact iff_of_false (by rintro ⟨⟩) (by rintro ⟨y, s', ys', ⟨⟩, -⟩)
  · dsimp only
    rw [bind_apply]
    rcases hrest : xs.mapM f s' with ⟨e | ys', s₂⟩
    · refine iff_of_false (by rintro ⟨⟩) ?_
      rintro ⟨y', s₁, ys₁, ⟨⟩, h, -⟩
      cases hrest.symm.trans h
    · constructor
      · rintro ⟨⟩
        exact ⟨y, s', ys', rfl, hrest, rfl⟩
      · rintro ⟨y', s₁, ys₁, ⟨⟩, h, rfl⟩
        cases hrest.symm.trans h
        rfl

/-- Computations that come to the same, but for a change of their results, and keep a condition on
the state come to the same one after the other. Induction along the items, the state general. -/
theorem map_mapM_apply {σ γ : Type} {Good : σ → Prop} {f : α → ExceptT ε (StateM σ) β}
    {g : α → Except ε γ} {change : β → γ} {xs : List α}
    (hstep : ∀ x ∈ xs, ∀ s, Good s → (f x s).1.map change = g x ∧ Good (f x s).2) {s : σ}
    (hs : Good s) : (xs.mapM f s).1.map (List.map change) = xs.mapM g := by
  induction xs generalizing s with
  | nil => rfl
  | cons x xs ih =>
    rw [List.forall_mem_cons] at hstep
    obtain ⟨hx, hs'⟩ := hstep.1 s hs
    rw [List.mapM_cons, List.mapM_cons, bind_apply, ← hx]
    rcases hout : f x s with ⟨fault | y, s'⟩
    · rfl
    · rw [hout] at hs'
      have hrest := ih hstep.2 hs'
      dsimp only
      rw [bind_apply, ← hrest]
      rcases xs.mapM f s' with ⟨fault | ys, s''⟩
      · rfl
      · rfl

/-- Computations that come to the same for each item come to the same one after the other. -/
theorem foldlM_congr {f g : β → α → Except ε β} {xs : List α}
    (h : ∀ x ∈ xs, ∀ b, f b x = g b x) (b : β) : xs.foldlM f b = xs.foldlM g b := by
  induction xs generalizing b with
  | nil => rfl
  | cons x xs ih =>
    rw [List.forall_mem_cons] at h
    rw [List.foldlM_cons, List.foldlM_cons, h.1]
    exact bind_congr fun b' => ih h.2 b'

/-- **Computing something for every item succeeds with the results item by item**, as `List.Forall₂`
says. Induction on the items. -/
theorem mapM_eq_ok_iff {f : α → Except ε β} {xs : List α} {ys : List β} :
    xs.mapM f = .ok ys ↔ List.Forall₂ (fun x y => f x = .ok y) xs ys := by
  induction xs generalizing ys with
  | nil =>
    rw [List.mapM_nil, List.forall₂_nil_left_iff]
    constructor
    · rintro ⟨⟩
      rfl
    · rintro rfl
      rfl
  | cons x xs ih =>
    rw [List.mapM_cons, bind_eq_ok_iff, List.forall₂_cons_left_iff]
    constructor
    · rintro ⟨y, hy, h⟩
      obtain ⟨ys', hys, ⟨⟩⟩ := bind_eq_ok_iff.1 h
      exact ⟨y, ys', hy, ih.1 hys, rfl⟩
    · rintro ⟨y, ys', hy, hys, rfl⟩
      exact ⟨y, hy, bind_eq_ok_iff.2 ⟨ys', ih.2 hys, rfl⟩⟩

/-- Computing something for one more item at the end, for inductions with `List.reverseRecOn`. -/
theorem mapM_concat_eq_ok_iff {f : α → Except ε β} {xs : List α} {x : α} {ys : List β} :
    (xs ++ [x]).mapM f = .ok ys
      ↔ ∃ ys' y, xs.mapM f = .ok ys' ∧ f x = .ok y ∧ ys' ++ [y] = ys := by
  rw [List.mapM_append, bind_eq_ok_iff]
  refine exists_congr fun ys' => ?_
  rw [List.mapM_cons, List.mapM_nil, exists_and_left]
  refine and_congr_right fun _ => ?_
  cases f x with
  | error e => exact iff_of_false (by rintro ⟨⟩) (by rintro ⟨y, ⟨⟩, -⟩)
  | ok y =>
    constructor
    · rintro ⟨⟩
      exact ⟨y, rfl, rfl⟩
    · rintro ⟨y', ⟨⟩, rfl⟩
      rfl

/-- Computations that succeed for every item succeed one after the other, by `mapM_eq_ok_iff`. -/
theorem exists_mapM_eq_ok {f : α → Except ε β} {xs : List α} (h : ∀ x ∈ xs, ∃ y, f x = .ok y) :
    ∃ ys, xs.mapM f = .ok ys := by
  induction xs with
  | nil => exact ⟨[], rfl⟩
  | cons x xs ih =>
    obtain ⟨⟨y, hy⟩, hrest⟩ := List.forall_mem_cons.1 h
    obtain ⟨ys, hys⟩ := ih hrest
    exact ⟨y :: ys, mapM_eq_ok_iff.2 (.cons hy (mapM_eq_ok_iff.1 hys))⟩

/-- What was computed for an item is among the results. -/
theorem exists_mem_of_mapM_eq_ok {f : α → Except ε β} {xs : List α} {ys : List β}
    (h : xs.mapM f = .ok ys) : ∀ x ∈ xs, ∃ y ∈ ys, f x = .ok y := by
  induction mapM_eq_ok_iff.1 h with
  | nil => exact fun x hx => absurd hx List.not_mem_nil
  | cons hx hrest ih =>
    refine List.forall_mem_cons.2 ⟨⟨_, List.mem_cons_self, hx⟩, fun x hx => ?_⟩
    obtain ⟨y, hy, heq⟩ := ih (mapM_eq_ok_iff.2 hrest) x hx
    exact ⟨y, List.mem_cons_of_mem _ hy, heq⟩

/-- Computations with the same results have them item by item. -/
theorem exists_of_mapM_eq_ok {f g : α → Except ε β} {xs : List α} {ys : List β}
    (hf : xs.mapM f = .ok ys) (hg : xs.mapM g = .ok ys) :
    ∀ x ∈ xs, ∃ y, f x = .ok y ∧ g x = .ok y := by
  rw [mapM_eq_ok_iff] at hf hg
  induction hf with
  | nil => exact fun x hx => absurd hx List.not_mem_nil
  | cons hx hrest ih =>
    obtain ⟨hx', hrest'⟩ := List.forall₂_cons.1 hg
    rw [List.forall_mem_cons]
    exact ⟨⟨_, hx, hx'⟩, ih hrest'⟩

/-! ### Faults that satisfy a condition -/

section Conditions

variable {σ ι : Type} {Allowed Weaker : ε → Prop}

/-- Every fault of the outcome satisfies a condition. Such conditions pass from parts to the whole
(`FailsOnly.bind`, `FailsOnly.mapM`), so that the faults of a computation are told where they
arise. -/
def FailsOnly (Allowed : ε → Prop) (outcome : Except ε α) : Prop :=
  ∀ fault, outcome = .error fault → Allowed fault

/-- Every fault of the computation, from whatever state, satisfies a condition: `FailsOnly` for
computations that change a state. -/
def NeverFailsBut (Allowed : ε → Prop) (m : ExceptT ε (StateM σ) α) : Prop :=
  ∀ s, FailsOnly Allowed (m s).1

theorem failsOnly_ok (a : α) : FailsOnly Allowed (.ok a) := by
  rintro fault ⟨⟩

/-- A fault that is allowed is all that there is to check. -/
theorem failsOnly_error {fault : ε} (h : Allowed fault) :
    FailsOnly Allowed (.error fault : Except ε α) := by
  rintro fault' ⟨⟩
  exact h

theorem FailsOnly.imp {outcome : Except ε α} (h : FailsOnly Allowed outcome)
    (himp : ∀ fault, Allowed fault → Weaker fault) : FailsOnly Weaker outcome :=
  fun fault hfault => himp fault (h fault hfault)

/-- **One computation after another** has no fault but theirs. -/
theorem FailsOnly.bind {x : Except ε α} {f : α → Except ε β} (hx : FailsOnly Allowed x)
    (hf : ∀ a, FailsOnly Allowed (f a)) : FailsOnly Allowed (x >>= f) := by
  intro fault hfault
  obtain hfirst | ⟨a, -, hnext⟩ := bind_eq_error_iff.1 hfault
  · exact hx fault hfirst
  · exact hf a fault hnext

/-- A computation that is repeated along a list has no fault but those of its steps. -/
theorem FailsOnly.foldlM {f : β → ι → Except ε β} (h : ∀ b x, FailsOnly Allowed (f b x))
    (xs : List ι) (b : β) : FailsOnly Allowed (xs.foldlM f b) := by
  induction xs generalizing b with
  | nil => exact failsOnly_ok b
  | cons x xs ih =>
    rw [List.foldlM_cons]
    exact (h b x).bind ih

/-- A computation for every item of a list has no fault but those of the items. -/
theorem FailsOnly.mapM {f : ι → Except ε α} (h : ∀ x, FailsOnly Allowed (f x))
    (xs : List ι) : FailsOnly Allowed (xs.mapM f) := by
  induction xs with
  | nil => exact failsOnly_ok _
  | cons x xs ih =>
    rw [List.mapM_cons]
    exact (h x).bind fun _ => ih.bind fun _ => failsOnly_ok _

/-- A computation that only returns a result has no fault. -/
theorem neverFailsBut_pure (a : α) :
    NeverFailsBut Allowed (pure a : ExceptT ε (StateM σ) α) :=
  fun _ => failsOnly_ok a

/-- A computation that leaves the state alone has the faults of its outcome. -/
theorem neverFailsBut_ofExcept {outcome : Except ε α} (h : FailsOnly Allowed outcome) :
    NeverFailsBut Allowed (MonadExcept.ofExcept outcome : ExceptT ε (StateM σ) α) := by
  cases outcome with
  | error fault => exact fun _ => h
  | ok a => exact neverFailsBut_pure a

/-- What allows a fault may be weakened, for computations that change a state too. -/
theorem NeverFailsBut.imp {m : ExceptT ε (StateM σ) α} (h : NeverFailsBut Allowed m)
    (himp : ∀ fault, Allowed fault → Weaker fault) : NeverFailsBut Weaker m :=
  fun s => (h s).imp himp

/-- One computation after another has no fault but theirs, from whatever state the first one leaves
(`bind_apply`). -/
theorem NeverFailsBut.bind {m : ExceptT ε (StateM σ) α} {f : α → ExceptT ε (StateM σ) β}
    (hm : NeverFailsBut Allowed m) (hf : ∀ a, NeverFailsBut Allowed (f a)) :
    NeverFailsBut Allowed (m >>= f) := by
  intro s
  have hfirst := hm s
  rw [bind_apply]
  rcases hout : m s with ⟨fault | a, s'⟩
  · rw [hout] at hfirst
    exact failsOnly_error (hfirst fault rfl)
  · exact hf a s'

/-- A computation for every item of a list has no fault but those of the items, from whatever
state. -/
theorem NeverFailsBut.mapM {f : ι → ExceptT ε (StateM σ) α}
    (h : ∀ x, NeverFailsBut Allowed (f x)) (xs : List ι) : NeverFailsBut Allowed (xs.mapM f) := by
  induction xs with
  | nil => exact neverFailsBut_pure _
  | cons x xs ih =>
    rw [List.mapM_cons]
    exact (h x).bind fun _ => ih.bind fun _ => neverFailsBut_pure _

end Conditions

end Templating
