import Templating.Proofs.Renderer.Runs

/-!
# Jobs that share a cache

A job renders a template through a cache in two steps, between which others may use the cache: it
asks the cache for the text under the key of the template, and, if there is none, it renders the
template and stores the text. Jobs with one configuration share a cache, and their steps are taken
in any order, while the cache is cleared and time passes. Whatever is stored was rendered from one
of the templates, and no step changes that. So where the keys tell the templates apart, a job ends
with what its own template is rendered to, whether it found a text or stored one itself.

## Main definitions

* `Stage`, `Stage.advance`: how far a job has come, and its next step.
* `contentOf`: what rendering a template with a key comes to.
* `KeysTellApart`: different templates have different keys.
* `Pool`, `Turn`, `Pool.run`: jobs that share a cache, and what happens to them.

## Main results

* `Stage.advance_advance`: the two steps of a job in a row render its template through the cache.
* `Stage.isSound_advance`, `Pool.IsSound.turn`, `Pool.IsSound.run`: what one step of a job, one turn
  and a sequence of turns keep.
* `Pool.exists_ended`: a job ends with its second step at the latest.
-/

namespace Templating

variable {Time Span : Type}

/-! ### Jobs -/

/-- How far a job has come: it has not searched the cache, it has found nothing under its key, or it
has ended. -/
inductive Stage where
  | waiting
  | missed (key : String)
  | ended (outcome : Except Fault Rendered)
  deriving DecidableEq

/-- How many steps a job has before it at most: `advance` takes one off until it has ended. -/
def Stage.remaining : Stage → Nat
  | .waiting => 2
  | .missed _ => 1
  | .ended _ => 0

section Steps

variable [Timeline Time Span]

/-- The next step of a job: it searches the cache, or it renders its template and stores the text.
A job that has ended does nothing. -/
def Stage.advance (now : Time) (template : String) (configuration : Value) (s : Stage)
    (c : Cache Time Span) : Stage × Cache Time Span :=
  match s with
  | .waiting =>
    match cacheKey template configuration with
    | .error fault => (.ended (.error fault), c)
    | .ok key =>
      match c.get now key with
      | (some content, c) => (.ended (.ok ⟨content, true⟩), c)
      | (none, c) => (.missed key, c)
  | .missed key =>
    match Template.renderText template configuration with
    | .error fault => (.ended (.error fault), c)
    | .ok content => (.ended (.ok ⟨content, false⟩), c.set now key content)
  | .ended outcome => (.ended outcome, c)

/-- **The two steps of a job in a row render its template through the cache**, as `renderThrough`
does in one. -/
theorem Stage.advance_advance (now : Time) (template : String) (configuration : Value)
    (c : Cache Time Span) :
    (Stage.waiting.advance now template configuration c).1.advance now template configuration
        (Stage.waiting.advance now template configuration c).2
      = (.ended (renderThrough now template configuration c).1,
        (renderThrough now template configuration c).2) := by
  rw [renderThrough_apply, Stage.advance]
  cases hkey : cacheKey template configuration with
  | error fault => rfl
  | ok key =>
    dsimp only
    rcases c.get now key with ⟨- | content, c'⟩
    · dsimp only
      rw [Stage.advance]
      cases Template.renderText template configuration <;> rfl
    · rfl

/-- Every step of a job leaves one stage less to go, if any is left. -/
theorem Stage.remaining_advance (now : Time) (template : String) (configuration : Value)
    (s : Stage) (c : Cache Time Span) :
    (s.advance now template configuration c).1.remaining ≤ s.remaining - 1 := by
  cases s with
  | waiting =>
    rw [Stage.advance]
    cases cacheKey template configuration with
    | error fault => exact Nat.zero_le _
    | ok key =>
      dsimp only
      rcases c.get now key with ⟨- | content, c'⟩
      · exact Nat.le_refl _
      · exact Nat.zero_le _
  | missed key =>
    rw [Stage.advance]
    cases Template.renderText template configuration <;> exact Nat.zero_le _
  | ended outcome => exact Nat.le_refl _

end Steps

/-- A template that is rendered, and how far its job has come. -/
structure Job where
  template : String
  stage : Stage

/-! ### What a job comes to -/

/-- What rendering a template that has a key comes to: the fault of the key first, and then
`Template.renderText`. -/
def contentOf (template : String) (configuration : Value) : Except Fault String := do
  let _ ← cacheKey template configuration
  Template.renderText template configuration

/-- Different ones of the templates have different keys with the configuration. -/
def KeysTellApart (templates : List String) (configuration : Value) : Prop :=
  ∀ t ∈ templates, ∀ t' ∈ templates, ∀ key, cacheKey t configuration = .ok key →
    cacheKey t' configuration = .ok key → t = t'

/-- What holds of a job: if it has found nothing, it was under the key of its template, and if it
has ended, then with what its template is rendered to (`contentOf`). -/
def Stage.IsSound (template : String) (configuration : Value) : Stage → Prop
  | .waiting => True
  | .missed key => cacheKey template configuration = .ok key
  | .ended outcome => outcome.map Rendered.content = contentOf template configuration

/-- Every text in a cache was rendered from one of the templates and stands under its key
(`Cache.Keeps`, `Stored`). -/
def HoldsTextsOf (templates : List String) (configuration : Value) (c : Cache Time Span) : Prop :=
  c.Keeps (Stored (templates.map fun t => (t, configuration)))

section Sound

variable {templates : List String} {configuration : Value} {template : String}
  {c : Cache Time Span}

/-- What rendering through a cache comes to is the rendered text, if the configuration has a key. -/
theorem contentOf_eq_ok_iff {content : String} : contentOf template configuration = .ok content
    ↔ ∃ key, cacheKey template configuration = .ok key
      ∧ Template.renderText template configuration = .ok content :=
  bind_eq_ok_iff

/-- A text that stands under the key of one of the templates was rendered from it, since no other
one has that key. -/
theorem contentOf_of_stored (hkeys : KeysTellApart templates configuration)
    (hmem : template ∈ templates) {key content : String}
    (hkey : cacheKey template configuration = .ok key)
    (hstored : Stored (templates.map fun t => (t, configuration)) key content) :
    contentOf template configuration = .ok content := by
  obtain ⟨p, hp, hkey', hcontent⟩ := hstored
  obtain ⟨t, ht, rfl⟩ := List.mem_map.1 hp
  obtain rfl := hkeys template hmem t ht key hkey hkey'
  exact contentOf_eq_ok_iff.2 ⟨key, hkey, hcontent⟩

variable [Timeline Time Span]

/-- **A step of a job keeps what holds of the job and of the cache.** A text that is found is the
right one by `contentOf_of_stored`, and one that is stored was just rendered. -/
theorem Stage.isSound_advance (hkeys : KeysTellApart templates configuration)
    (hmem : template ∈ templates) (hc : HoldsTextsOf templates configuration c) {s : Stage}
    (hs : s.IsSound template configuration) (now : Time) :
    (s.advance now template configuration c).1.IsSound template configuration
      ∧ HoldsTextsOf templates configuration (s.advance now template configuration c).2 := by
  cases s with
  | waiting =>
    rw [Stage.advance]
    cases hkey : cacheKey template configuration with
    | error fault =>
      refine ⟨?_, hc⟩
      rw [Stage.IsSound, contentOf, hkey]
      rfl
    | ok key =>
      obtain ⟨hkeeps, hfound⟩ := hc.get now key
      dsimp only
      rcases hget : c.get now key with ⟨- | content, c'⟩
      all_goals rw [hget] at hkeeps hfound
      · exact ⟨hkey, hkeeps⟩
      · exact ⟨(contentOf_of_stored hkeys hmem hkey (hfound content rfl)).symm, hkeeps⟩
  | missed key =>
    rw [Stage.advance]
    cases hrender : Template.renderText template configuration with
    | error fault =>
      refine ⟨?_, hc⟩
      rw [Stage.IsSound, contentOf, show cacheKey template configuration = .ok key from hs, hrender]
      rfl
    | ok content =>
      refine ⟨(contentOf_eq_ok_iff.2 ⟨key, hs, hrender⟩).symm, hc.set now ?_⟩
      exact ⟨_, List.mem_map_of_mem hmem, hs, hrender⟩
  | ended outcome => exact ⟨hs, hc⟩

end Sound

/-! ### Jobs that take turns -/

/-- What happens next: a job takes a step, the cache is cleared, or the time is another one. -/
inductive Turn (Time : Type) where
  | step (job : Nat)
  | clear
  | setTime (now : Time)

/-- Whether a turn is a step of a job. -/
def Turn.isStepOf {Time : Type} (i : Nat) : Turn Time → Bool
  | step j => i == j
  | clear => false
  | setTime _ => false

/-- Jobs that share a cache, and the time. -/
structure Pool (Time Span : Type) where
  cache : Cache Time Span
  now : Time
  jobs : List Job

namespace Pool

/-- Jobs for the templates, none of which has taken a step. -/
def start (c : Cache Time Span) (now : Time) (templates : List String) : Pool Time Span :=
  ⟨c, now, templates.map fun t => ⟨t, .waiting⟩⟩

/-- What holds of jobs for the templates and their cache at any time: the invariant of
`Pool.turn`. -/
structure IsSound (templates : List String) (configuration : Value) (p : Pool Time Span) :
    Prop where
  map_template : p.jobs.map Job.template = templates
  holdsTexts : HoldsTextsOf templates configuration p.cache
  isSound : ∀ job ∈ p.jobs, job.stage.IsSound job.template configuration

/-- Jobs that have taken no step and an empty cache are sound. -/
theorem isSound_start {templates : List String} {configuration : Value} {c : Cache Time Span}
    (hempty : c.entries = []) (now : Time) :
    (start c now templates).IsSound templates configuration := by
  refine ⟨?_, fun e he => ?_, fun job hjob => ?_⟩
  · rw [start, List.map_map]
    exact List.map_id templates
  · rw [start, hempty] at he
    cases he
  · obtain ⟨t, -, rfl⟩ := List.mem_map.1 hjob
    trivial

variable [Timeline Time Span]

/-- The jobs and the cache after a turn. -/
def turn (configuration : Value) (p : Pool Time Span) : Turn Time → Pool Time Span
  | .step i =>
    match p.jobs[i]? with
    | none => p
    | some job =>
      match job.stage.advance p.now job.template configuration p.cache with
      | (stage, c) => { p with cache := c, jobs := p.jobs.set i ⟨job.template, stage⟩ }
  | .clear => { p with cache := p.cache.clear }
  | .setTime now => { p with now := now }

/-- The jobs and the cache after a sequence of turns. -/
def run (configuration : Value) (p : Pool Time Span) (turns : List (Turn Time)) :
    Pool Time Span :=
  turns.foldl (turn configuration) p

section Runs

variable {templates : List String} {configuration : Value} {p : Pool Time Span}

/-- **One turn keeps what holds of the jobs and the cache.** A step of a job does by
`Stage.isSound_advance`; clearing the cache or setting the time does not concern the jobs. -/
theorem IsSound.turn (h : p.IsSound templates configuration)
    (hkeys : KeysTellApart templates configuration) (next : Turn Time) :
    (p.turn configuration next).IsSound templates configuration := by
  cases next with
  | step i =>
    rw [Pool.turn]
    cases hjob : p.jobs[i]? with
    | none => exact h
    | some job =>
      have hmem := List.mem_of_getElem? hjob
      have htemplate : job.template ∈ templates := h.map_template ▸ List.mem_map_of_mem hmem
      obtain ⟨hstage, hcache⟩ :=
        Stage.isSound_advance hkeys htemplate h.holdsTexts (h.isSound job hmem) p.now
      refine ⟨?_, hcache, fun job' hjob' => ?_⟩
      · obtain ⟨hi, rfl⟩ := List.getElem?_eq_some_iff.1 hjob
        have hsame := List.set_getElem_self ((List.length_map Job.template).symm ▸ hi)
        rw [List.getElem_map] at hsame
        rw [List.map_set, hsame, h.map_template]
      · rcases List.mem_or_eq_of_mem_set hjob' with hold | rfl
        · exact h.isSound job' hold
        · exact hstage
  | clear => exact ⟨h.map_template, Cache.Keeps.clear, h.isSound⟩
  | setTime now => exact ⟨h.map_template, h.holdsTexts, h.isSound⟩

/-- A sequence of turns keeps what holds of the jobs and the cache. Induction on the turns with
`IsSound.turn`. -/
theorem IsSound.run (h : p.IsSound templates configuration)
    (hkeys : KeysTellApart templates configuration) (turns : List (Turn Time)) :
    (p.run configuration turns).IsSound templates configuration := by
  induction turns generalizing p with
  | nil => exact h
  | cons next rest ih => exact ih (h.turn hkeys next)

/-- A turn brings a job nearer to its end if it is a step of the job, and no job further away, by
`Stage.remaining_advance`. -/
theorem exists_remaining_turn (configuration : Value) {i : Nat} {job : Job}
    (hjob : p.jobs[i]? = some job) (next : Turn Time) :
    ∃ job', (p.turn configuration next).jobs[i]? = some job'
      ∧ job'.stage.remaining ≤ job.stage.remaining - (next.isStepOf i).toNat := by
  cases next with
  | step j =>
    rw [Pool.turn, Turn.isStepOf]
    rcases eq_or_ne i j with rfl | hne
    · rw [hjob, beq_self_eq_true]
      obtain ⟨hi, -⟩ := List.getElem?_eq_some_iff.1 hjob
      exact ⟨_, List.getElem?_set_self hi, job.stage.remaining_advance _ _ _ _⟩
    · rw [beq_false_of_ne hne]
      cases p.jobs[j]? with
      | none => exact ⟨job, hjob, Nat.le_refl _⟩
      | some other => exact ⟨job, (List.getElem?_set_ne hne.symm).trans hjob, Nat.le_refl _⟩
  | clear => exact ⟨job, hjob, Nat.le_refl _⟩
  | setTime now => exact ⟨job, hjob, Nat.le_refl _⟩

/-- A job that gets enough turns comes to its end. Induction on the turns. -/
theorem exists_remaining_run (configuration : Value) {i : Nat} {job : Job}
    (hjob : p.jobs[i]? = some job) (turns : List (Turn Time)) :
    ∃ job', (p.run configuration turns).jobs[i]? = some job'
      ∧ job'.stage.remaining ≤ job.stage.remaining - turns.countP (Turn.isStepOf i) := by
  induction turns generalizing p job with
  | nil => exact ⟨job, hjob, Nat.le_refl _⟩
  | cons next rest ih =>
    obtain ⟨job₁, hjob₁, hle₁⟩ := exists_remaining_turn configuration hjob next
    obtain ⟨job₂, hjob₂, hle₂⟩ := ih hjob₁
    refine ⟨job₂, hjob₂, ?_⟩
    rw [List.countP_cons]
    cases hstep : next.isStepOf i with
    | true =>
      rw [hstep, Bool.toNat_true] at hle₁
      rw [if_pos rfl]
      omega
    | false =>
      rw [hstep, Bool.toNat_false] at hle₁
      rw [if_neg Bool.false_ne_true]
      omega

/-- A job ends with its second step at the latest: `exists_remaining_run` with two stages to go at
first. -/
theorem exists_ended {c : Cache Time Span} (now : Time) {turns : List (Turn Time)} {i : Nat}
    (hi : i < templates.length) (hsteps : 2 ≤ turns.countP (Turn.isStepOf i)) :
    ∃ job, ((start c now templates).run configuration turns).jobs[i]? = some job
      ∧ ∃ outcome, job.stage = .ended outcome := by
  have hjob : (start c now templates).jobs[i]? = some ⟨templates[i], .waiting⟩ := by
    rw [start, List.getElem?_map, List.getElem?_eq_getElem hi]
    rfl
  obtain ⟨job, hrun, hremaining⟩ := exists_remaining_run configuration hjob turns
  refine ⟨job, hrun, ?_⟩
  cases hstage : job.stage with
  | ended outcome => exact ⟨outcome, rfl⟩
  | waiting =>
    rw [hstage] at hremaining
    change 2 ≤ 2 - _ at hremaining
    omega
  | missed key =>
    rw [hstage] at hremaining
    change 1 ≤ 2 - _ at hremaining
    omega

end Runs

end Pool

end Templating
