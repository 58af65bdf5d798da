import Templating.Bundle.Rendering
import Templating.Proofs.Outcome

/-!
# Files that are dealt out to workers

The files of a bundle may be rendered by several workers instead of one after the other. A worker
that is free takes the file that has waited longest, files are finished in any order, and the
results are asked for in the order of the files, up to the first that is a fault. What a worker
makes of a file depends on the file only, so a result that has come in is right whatever came in
before it. Hence whatever is returned is what rendering the files one by one returns, however many
workers there are and whoever is faster.

## Main definitions

* `Worklist`, `Move`, `Worklist.run`: jobs that are dealt out to workers, and what happens to them.
* `Worklist.IsDealt`: every job is waiting, being worked on or done, and done right.
* `Worklist.collectFrom`: the results, as they are asked for.
* `Bundle.renderByWorkers`: renders a bundle with some number of workers.

## Main results

* `Worklist.IsDealt.move`, `Worklist.IsDealt.run`: what one move and a sequence of moves keep.
* `Worklist.exists_run_isOver`: workers can always finish what there is to do.
* `Bundle.eq_renderPlainly_of_renderByWorkers`, `Bundle.exists_renderByWorkers_eq`: workers return
  what rendering the files one by one does.
-/

namespace Templating

variable {α β ε : Type}

/-! ### Jobs and workers -/

/-- Jobs that are dealt out to workers, each under its number: those that wait, those that someone
works on, and the results of those that have `ended`. -/
structure Worklist (α β : Type) where
  waiting : List (Nat × α)
  running : List (Nat × α)
  ended : List (Nat × β)

/-- What happens to jobs: a free worker takes the one that has waited longest, or one that someone
works on is finished. -/
inductive Move where
  | take
  | finish (place : Nat)

namespace Worklist

/-- Jobs of which none has been taken, with their numbers. -/
def start (jobs : List α) : Worklist α β :=
  ⟨jobs.mapIdx Prod.mk, [], []⟩

/-- The jobs after one move. Nothing happens if there is no such job or no free worker, so any
sequence of moves may be tried. -/
def move (workers : Nat) (work : α → β) (w : Worklist α β) : Move → Worklist α β
  | .take =>
    match w.waiting with
    | [] => w
    | job :: rest =>
      if w.running.length < workers then ⟨rest, w.running ++ [job], w.ended⟩ else w
  | .finish place =>
    match w.running[place]? with
    | none => w
    | some (number, job) =>
      ⟨w.waiting, w.running.eraseIdx place, (number, work job) :: w.ended⟩

/-- The jobs after a sequence of moves. -/
def run (workers : Nat) (work : α → β) (w : Worklist α β) (moves : List Move) : Worklist α β :=
  moves.foldl (move workers work) w

/-- The jobs that are not done: those that wait and those that someone works on. -/
def undone (w : Worklist α β) : List (Nat × α) :=
  w.waiting ++ w.running

/-- No job is left to do. -/
def IsOver (w : Worklist α β) : Prop :=
  w.waiting = [] ∧ w.running = []

/-- Every job stands under its number among those that are not done (`undone`) or those that are,
and what is done was made from the job of that number. This is what every `move` keeps. -/
structure IsDealt (work : α → β) (jobs : List α) (w : Worklist α β) : Prop where
  undone : ∀ p ∈ w.undone, jobs[p.1]? = some p.2
  ended : ∀ p ∈ w.ended, ∃ job, jobs[p.1]? = some job ∧ work job = p.2
  covers : ∀ i < jobs.length, (∃ job, (i, job) ∈ w.undone) ∨ ∃ result, (i, result) ∈ w.ended

variable {work : α → β} {jobs : List α} {w : Worklist α β} {workers : Nat}

/-- At first no job has been dealt out, and all of them wait, each under its number in `jobs`. -/
theorem isDealt_start (work : α → β) (jobs : List α) : (start jobs).IsDealt work jobs := by
  refine ⟨fun p hp => ?_, fun p hp => absurd hp List.not_mem_nil, fun i hi => .inl ⟨jobs[i], ?_⟩⟩
  · rw [Worklist.undone, start, List.append_nil, List.mem_mapIdx] at hp
    obtain ⟨i, hi, rfl⟩ := hp
    exact List.getElem?_eq_getElem hi
  · rw [Worklist.undone, start, List.append_nil, List.mem_mapIdx]
    exact ⟨i, hi, rfl⟩

/-- A running job is the one at a place, or it still runs without that one. -/
theorem eq_or_mem_eraseIdx {running : List α} {place : Nat} {job job' : α}
    (hjob : running[place]? = some job) (hmem : job' ∈ running) :
    job' = job ∨ job' ∈ running.eraseIdx place := by
  obtain ⟨place', hplace'⟩ := List.mem_iff_getElem?.1 hmem
  rcases eq_or_ne place' place with rfl | hne
  · exact .inl (Option.some.inj (hplace'.symm.trans hjob))
  · exact .inr (List.mem_eraseIdx_iff_getElem?.2 ⟨place', hne, hplace'⟩)

/-- **One move keeps the jobs dealt.** Taking a job moves it from those that wait to those worked
on; finishing one makes its result from the job of its number. -/
theorem IsDealt.move (h : w.IsDealt work jobs) (workers : Nat) (m : Move) :
    (w.move workers work m).IsDealt work jobs := by
  obtain ⟨waiting, running, ended⟩ := w
  cases m with
  | take =>
    cases waiting with
    | nil => exact h
    | cons job rest =>
      rw [Worklist.move]
      dsimp only
      split
      · have hmem (p : Nat × α) : p ∈ rest ++ (running ++ [job]) ↔ p ∈ job :: rest ++ running := by
          simp only [List.mem_append, List.mem_cons]
          tauto
        refine ⟨fun p hp => h.undone p ((hmem p).1 hp), h.ended, fun i hi => ?_⟩
        exact (h.covers i hi).imp_left fun ⟨job, hjob⟩ => ⟨job, (hmem _).2 hjob⟩
      · exact h
  | finish place =>
    rw [Worklist.move]
    dsimp only
    split
    · exact h
    · next number job hjob =>
      have hplace : (number, job) ∈ running := List.mem_of_getElem? hjob
      refine ⟨fun p hp => h.undone p ?_, List.forall_mem_cons.2 ⟨?_, h.ended⟩, fun i hi => ?_⟩
      · exact (List.mem_append.1 hp).elim (List.mem_append_left _)
          fun hp => List.mem_append_right _ (List.eraseIdx_subset hp)
      · exact ⟨job, h.undone _ (List.mem_append_right _ hplace), rfl⟩
      · -- the job that was finished is the only one that changes its list
        rcases h.covers i hi with ⟨job', hjob'⟩ | ⟨result, hresult⟩
        · rcases List.mem_append.1 hjob' with hwaiting | hrunning
          · exact .inl ⟨job', List.mem_append_left _ hwaiting⟩
          · rcases eq_or_mem_eraseIdx hjob hrunning with hsame | hothers
            · cases hsame
              exact .inr ⟨work job, List.mem_cons_self⟩
            · exact .inl ⟨job', List.mem_append_right _ hothers⟩
        · exact .inr ⟨result, List.mem_cons_of_mem _ hresult⟩

/-- A sequence of moves keeps the jobs dealt. Induction on the moves with `IsDealt.move`. -/
theorem IsDealt.run (h : w.IsDealt work jobs) (workers : Nat) (moves : List Move) :
    (w.run workers work moves).IsDealt work jobs := by
  induction moves generalizing w with
  | nil => exact h
  | cons m rest ih => exact ih (h.move workers m)

/-! ### Getting done -/

/-- How many moves there are to make: a job that waits has to be taken and finished. Each useful
`move` lowers it (`exists_remaining_move_lt`). -/
def remaining (w : Worklist α β) : Nat :=
  2 * w.waiting.length + w.running.length

/-- As long as there is something to do, one of the moves does something: finishing the first job
that someone works on, or else taking one that waits. -/
theorem exists_remaining_move_lt (work : α → β) (hworkers : 0 < workers) (h : ¬ w.IsOver) :
    ∃ m, (w.move workers work m).remaining < w.remaining := by
  obtain ⟨waiting, running, ended⟩ := w
  cases running with
  | cons job others =>
    refine ⟨.finish 0, ?_⟩
    rw [Worklist.move, remaining, remaining]
    simp
  | nil =>
    cases waiting with
    | nil => exact absurd ⟨rfl, rfl⟩ h
    | cons job rest =>
      refine ⟨.take, ?_⟩
      rw [Worklist.move, remaining, remaining]
      simp only [List.length_nil, hworkers, if_true, List.nil_append, List.length_cons]
      omega

/-- Workers can always finish what there is to do. Strong induction on `remaining`. -/
theorem exists_run_isOver (hworkers : 0 < workers) (work : α → β) (w : Worklist α β) :
    ∃ moves, (w.run workers work moves).IsOver := by
  induction hn : w.remaining using Nat.strongRecOn generalizing w with
  | ind n ih =>
    by_cases hover : w.IsOver
    · exact ⟨[], hover⟩
    · obtain ⟨m, hm⟩ := exists_remaining_move_lt work hworkers hover
      obtain ⟨moves, hmoves⟩ := ih _ (hn ▸ hm) (w.move workers work m) rfl
      exact ⟨m :: moves, hmoves⟩

/-! ### Collecting results -/

/-- The results for jobs, the first of which has a given `number`, asked for one after the other up
to the first that is a fault; none if one that is asked for has not come in. -/
def collectFrom (ended : List (Nat × Except ε β)) (number : Nat) :
    List α → Option (Except ε (List β))
  | [] => some (.ok [])
  | _ :: rest =>
    match ended.lookup number with
    | none => none
    | some (.error fault) => some (.error fault)
    | some (.ok result) => (collectFrom ended (number + 1) rest).map (Except.map (result :: ·))

section Results

variable {work : α → Except ε β} {w : Worklist α (Except ε β)}

/-- A result that has come in is that of its job, since it was made from the job of its number. -/
theorem IsDealt.eq_of_lookup (h : w.IsDealt work jobs) {number : Nat} {job : α}
    {result : Except ε β} (hjob : jobs[number]? = some job)
    (hresult : w.ended.lookup number = some result) : work job = result := by
  obtain ⟨before, after, hended, -⟩ := List.lookup_eq_some_iff.1 hresult
  have hmem : (number, result) ∈ w.ended := by
    rw [hended]
    exact List.mem_append_right _ List.mem_cons_self
  obtain ⟨job', hjob', hwork⟩ := h.ended _ hmem
  cases hjob.symm.trans hjob'
  exact hwork

/-- The next job that waits has the number of jobs before it, and the others wait behind it. -/
theorem getElem?_and_drop_of_drop_eq_cons {number : Nat} {job : α} {rest : List α}
    (h : jobs.drop number = job :: rest) :
    jobs[number]? = some job ∧ jobs.drop (number + 1) = rest := by
  rw [← List.head?_drop, ← List.tail_drop, h]
  exact ⟨rfl, rfl⟩

/-- **What is collected from a number on is what the jobs from that number on come to one after the
other**, the first fault included. Induction on the jobs from that number on, each result by
`IsDealt.eq_of_lookup`. -/
theorem IsDealt.eq_mapM_of_collectFrom (h : w.IsDealt work jobs) {rest : List α} :
    ∀ {number : Nat} {outcome : Except ε (List β)}, jobs.drop number = rest →
      collectFrom w.ended number rest = some outcome → outcome = rest.mapM work := by
  induction rest with
  | nil =>
    rintro number outcome - ⟨⟩
    rfl
  | cons job rest ih =>
    intro number outcome hdrop hcollect
    obtain ⟨hjob, hrest⟩ := getElem?_and_drop_of_drop_eq_cons hdrop
    rw [collectFrom] at hcollect
    rw [List.mapM_cons]
    split at hcollect
    · cases hcollect
    · next fault hfault =>
      cases hcollect
      rw [h.eq_of_lookup hjob hfault]
      rfl
    · next result hresult =>
      obtain ⟨outcomes, houtcomes, rfl⟩ := Option.map_eq_some_iff.1 hcollect
      rw [h.eq_of_lookup hjob hresult, ← ih hrest houtcomes]
      cases outcomes <;> rfl

/-- Once all jobs are done, everything that is asked for has come in, because `covers` leaves no job
without a result. -/
theorem IsDealt.exists_collectFrom_eq (h : w.IsDealt work jobs) (hover : w.IsOver) {rest : List α} :
    ∀ {number : Nat}, jobs.drop number = rest →
      ∃ outcome, collectFrom w.ended number rest = some outcome := by
  induction rest with
  | nil => exact fun _ => ⟨.ok [], rfl⟩
  | cons job rest ih =>
    intro number hdrop
    obtain ⟨hjob, hrest⟩ := getElem?_and_drop_of_drop_eq_cons hdrop
    obtain ⟨outcomes, houtcomes⟩ := ih hrest
    have hended : ∃ result, (number, result) ∈ w.ended := by
      refine (h.covers number (List.getElem?_eq_some_iff.1 hjob).1).resolve_left ?_
      rintro ⟨job', hjob'⟩
      rw [Worklist.undone, hover.1, hover.2] at hjob'
      cases hjob'
    obtain ⟨result, hresult⟩ := hended
    obtain ⟨found, hfound⟩ := Option.isSome_iff_exists.1
      (List.lookup_isSome_iff.2 ⟨_, hresult, beq_self_eq_true number⟩)
    rw [collectFrom, hfound]
    cases found with
    | error fault => exact ⟨_, rfl⟩
    | ok found =>
      rw [houtcomes]
      exact ⟨_, rfl⟩

end Results

end Worklist

/-! ### Bundles -/

/-- Renders the files that were selected: one by one, unless there are several and several workers
for them. None while results have to be waited for. -/
def renderSelected (workers : Option Int) (moves : List Move) (configuration : Value)
    (selected : List FileDecl) : Option (Except Fault (List RenderedFile)) :=
  let render := FileDecl.renderBy (renderBody configuration) configuration
  match workers with
  | none => some (selected.mapM render)
  | some n =>
    if 1 < n ∧ 1 < selected.length then
      Worklist.collectFrom ((Worklist.start selected).run n.toNat render moves).ended 0 selected
    else some (selected.mapM render)

/-- Whatever the workers do, the outcome is that of rendering the files one after the other, by
`IsDealt.eq_mapM_of_collectFrom` at number zero. -/
theorem eq_mapM_of_renderSelected {workers : Option Int} {moves : List Move}
    {configuration : Value} {selected : List FileDecl}
    {outcome : Except Fault (List RenderedFile)}
    (h : renderSelected workers moves configuration selected = some outcome) :
    outcome = selected.mapM (FileDecl.renderBy (renderBody configuration) configuration) := by
  rw [renderSelected.eq_def] at h
  dsimp only at h
  split at h
  · cases h
    rfl
  · split at h
    · exact ((Worklist.isDealt_start _ selected).run _ moves).eq_mapM_of_collectFrom rfl h
    · cases h
      rfl

/-- Some moves of the workers bring the work to its end, for every number of workers:
`exists_run_isOver` where there are several, and none are needed otherwise. -/
theorem exists_renderSelected_eq (workers : Option Int) (configuration : Value)
    (selected : List FileDecl) :
    ∃ moves outcome, renderSelected workers moves configuration selected = some outcome := by
  cases workers with
  | none => exact ⟨[], _, rfl⟩
  | some n =>
    by_cases hseveral : 1 < n ∧ 1 < selected.length
    · have hworkers : 0 < n.toNat := by omega
      obtain ⟨moves, hmoves⟩ := Worklist.exists_run_isOver hworkers
        (FileDecl.renderBy (renderBody configuration) configuration) (.start selected)
      refine ⟨moves, ?_⟩
      rw [renderSelected, if_pos hseveral]
      exact ((Worklist.isDealt_start _ selected).run _ moves).exists_collectFrom_eq hmoves rfl
    · exact ⟨[], _, if_neg hseveral⟩

namespace Bundle

/-- Renders a bundle without a cache and with some number of workers, to whom the moves happen. None
while the bundle has not returned. -/
def renderByWorkers (workers : Option Int) (moves : List Move) (b : Bundle)
    (configuration : Value) : Option (Except Fault BundleRendering) :=
  match selectFiles configuration b.files with
  | .error fault => some (.error fault)
  | .ok (selected, skipped) =>
    (renderSelected workers moves configuration selected).map
      (Except.map fun files => ⟨files, skipped⟩)

/-- **Whatever workers return is what `Bundle.renderPlainly` returns**, which renders the files one
by one. -/
theorem eq_renderPlainly_of_renderByWorkers {workers : Option Int} {moves : List Move}
    {b : Bundle} {configuration : Value} {outcome : Except Fault BundleRendering}
    (h : b.renderByWorkers workers moves configuration = some outcome) :
    outcome = b.renderPlainly configuration := by
  rw [renderByWorkers] at h
  rw [renderPlainly]
  rcases hselect : selectFiles configuration b.files with fault | ⟨selected, skipped⟩
  · rw [hselect] at h
    cases h
    rfl
  · rw [hselect] at h
    obtain ⟨files, hfiles, rfl⟩ := Option.map_eq_some_iff.1 h
    rw [eq_mapM_of_renderSelected hfiles]
    change _ = selected.mapM (FileDecl.renderBy (renderBody configuration) configuration) >>= _
    cases selected.mapM (FileDecl.renderBy (renderBody configuration) configuration) with
    | error fault => rfl
    | ok files => rfl

/-- **Workers can always return that**: some moves bring them to the end of their work. -/
theorem exists_renderByWorkers_eq (workers : Option Int) (b : Bundle) (configuration : Value) :
    ∃ moves, b.renderByWorkers workers moves configuration
      = some (b.renderPlainly configuration) := by
  have hreturns : ∃ moves outcome,
      b.renderByWorkers workers moves configuration = some outcome := by
    simp only [renderByWorkers]
    rcases selectFiles configuration b.files with fault | ⟨selected, skipped⟩
    · exact ⟨[], _, rfl⟩
    · obtain ⟨moves, outcome, houtcome⟩ := exists_renderSelected_eq workers configuration selected
      dsimp only
      exact ⟨moves, _, Option.map_eq_some_iff.2 ⟨outcome, houtcome, rfl⟩⟩
  obtain ⟨moves, outcome, houtcome⟩ := hreturns
  exact ⟨moves, eq_renderPlainly_of_renderByWorkers houtcome ▸ houtcome⟩

end Bundle

end Templating
