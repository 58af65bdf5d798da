import Templating.Command.Run
import Templating.Proofs.Scaffold.Refusal
import Templating.Proofs.Scaffold.Replacement

/-!
# Refused command lines

A command line that asks for the files of a bundle reads the bundle, checks it, builds its
configuration, and only then writes. So it leaves the file tree as it was if it ends with exit code
2, and if it ends with exit code 1, unless the file system itself reported that something stands
where a directory is to be made: that may happen after some of the files have been written. The
same holds of a command line that is interrupted before it begins.

## Main definitions

* `LeavesFiles`: operations that leave the file tree alone.
* `RefusesRun`: what is promised about a command line that asks for the files of a bundle.

## Main results

* `scaffoldBundle_cases`: a run either changes nothing or ends with writing.
* `refusal_leaves_tree`: requests and command lines that are refused.
-/

namespace Templating.Command

/-! ### Reading a bundle -/

/-- An operation that leaves the file tree alone, whether it succeeds or fails. -/
def LeavesFiles {α : Type} (m : FilesM α) : Prop :=
  Moves (fun t t' => t' = t) m

/-- One computation after another leaves the files if both do. -/
theorem LeavesFiles.bind {α β : Type} {m : FilesM α} {f : α → FilesM β} (hm : LeavesFiles m)
    (hf : ∀ a, LeavesFiles (f a)) : LeavesFiles (m >>= f) :=
  Moves.bind (fun _ _ _ h h' => h'.trans h) hm hf

/-- A computation that does not look at the files leaves them. -/
theorem leavesFiles_purely {α : Type} (outcome : Except Fault α) : LeavesFiles (purely outcome) :=
  fun _ => rfl

/-- `readText` leaves the files. -/
theorem leavesFiles_readText (directory : Location) (name : PathName) :
    LeavesFiles (readText directory name) := by
  intro t
  rw [readText]
  split
  · rfl
  · rfl

/-- **Reading a bundle changes no file**: it reads a text, and then takes the text apart without
looking at files. -/
theorem leavesFiles_readBundle (directory : Location) (name : PathName) :
    LeavesFiles (readBundle directory name) := by
  refine (leavesFiles_readText directory name).bind fun text => ?_
  refine (leavesFiles_purely (Json.read text)).bind fun v => ?_
  split
  · exact fun _ => rfl
  · exact fun _ => rfl

/-! ### Writing the files of a bundle -/

section Scaffolding

variable {directory : Location} {t : FileTree}

/-- **Either nothing is written, or the run ends with writing.** Whatever ends the run before
anything is written leaves the tree as it was and has exit code 1 or 2; otherwise the run ends with
`writeOrReport` for the bundle that was read, against the configuration that was built. -/
theorem scaffoldBundle_cases (directory : Location) (verbose : Bool) (name : PathName)
    (target : Option PathName) (pairs : List String) (force : Bool) (t : FileTree) :
    ((scaffoldBundle directory verbose name target pairs force t).2 = t
        ∧ ∀ b, (scaffoldBundle directory verbose name target pairs force t).1 = .ok b →
          b.exitCode = 1 ∨ b.exitCode = 2)
      ∨ ∃ entries configuration notices, readBundle directory name t = (.ok entries, t)
        ∧ bundleConfiguration entries pairs = .ok configuration
        ∧ scaffoldBundle directory verbose name target pairs force t
          = writeOrReport directory verbose notices ⟨.value (.mapping entries), configuration,
              target.getD (.ofLocation directory), force⟩ t := by
  have hsame := leavesFiles_readBundle directory name t
  rw [scaffoldBundle, bind_apply]
  rcases hread : readBundle directory name t with ⟨fault | entries, t'⟩
  all_goals
    rw [hread] at hsame
    dsimp only at hsame
    subst hsame
  · exact .inl ⟨rfl, by rintro b ⟨⟩⟩
  · dsimp only
    rw [bind_apply, purely]
    cases checkSource (some name.stem) (.value (.mapping entries)) with
    | error fault => exact .inl ⟨rfl, by rintro b ⟨⟩⟩
    | ok report =>
      dsimp only
      split
      · exact .inl ⟨rfl, by rintro b ⟨⟩; exact .inl rfl⟩
      · cases hconfiguration : bundleConfiguration entries pairs with
        | ok configuration =>
          exact .inr ⟨entries, configuration, report.notices, rfl, hconfiguration, rfl⟩
        | error fault =>
          -- Only a fault of the configuration is reported; any other ends the run.
          cases fault with
          | configuration _ => exact .inl ⟨rfl, by rintro b ⟨⟩; exact .inr rfl⟩
          | _ => exact .inl ⟨rfl, by rintro b ⟨⟩⟩

/-- If writing files fails with a fault that is not of the file system, no file is changed, by
`tree_writeBundle_of_error`. -/
theorem tree_writeFiles_of_error {r : ScaffoldRequest} {fault : Fault}
    (h : (writeFiles directory r t).1 = .error fault) (hfault : ¬fault.IsOfFileSystem) :
    (writeFiles directory r t).2 = t :=
  (refusesWhole Binary64.zero r ⟨t, directory, none⟩).unwritten fault h hfault

/-- Of the faults of the file system only one is reported by `refusal?`: something stands where a
directory has to be made. -/
theorem exists_alreadyThere_of_refusal? {fault : Fault} {message : String}
    (h : refusal? fault = some message) (hfault : fault.IsOfFileSystem) :
    ∃ path, fault = .system (.alreadyThere path) := by
  cases fault with
  | system s =>
    cases s with
    | alreadyThere path => exact ⟨path, rfl⟩
    | nullCharacter => exact hfault.elim
    | _ => cases h
  | _ => exact hfault.elim

/-- A run that ends with writing changes the tree as `writeFiles` does. It has exit code 0 if that
succeeds and 1 if the fault is reported; any other fault ends it. -/
theorem writeOrReport_cases (directory : Location) (verbose : Bool) (notices : List Notice)
    (r : ScaffoldRequest) (t : FileTree) :
    (writeOrReport directory verbose notices r t).2 = (writeFiles directory r t).2
      ∧ ((∃ b, (writeOrReport directory verbose notices r t).1 = .ok b ∧ b.exitCode = 0)
        ∨ ∃ fault, (writeFiles directory r t).1 = .error fault
          ∧ ((∃ b message, (writeOrReport directory verbose notices r t).1 = .ok b
              ∧ b.exitCode = 1 ∧ refusal? fault = some message)
            ∨ (writeOrReport directory verbose notices r t).1 = .error fault)) := by
  rw [writeOrReport]
  rcases writeFiles directory r t with ⟨fault | written, t'⟩
  · dsimp only
    cases hrefusal : refusal? fault with
    | some message => exact ⟨rfl, .inr ⟨fault, rfl, .inl ⟨_, message, rfl, rfl, hrefusal⟩⟩⟩
    | none => exact ⟨rfl, .inr ⟨fault, rfl, .inr rfl⟩⟩
  · exact ⟨rfl, .inl ⟨_, rfl, rfl⟩⟩

end Scaffolding

/-! ### Command lines -/

/-- What is promised about a run that asks for the files of a bundle. -/
structure RefusesRun (directory : Location) (bundle : PathName) (target : Option PathName)
    (pairs : List String) (force : Bool) (t : FileTree) (out : Ending × FileTree) : Prop where
  /-- With exit code 2 no file is changed. -/
  misconfigured : ∀ b, out.1 = .finished b → b.exitCode = 2 → out.2 = t
  /-- With exit code 1 no file is changed, unless the file system reported what stands in the way
  when the bundle was written. -/
  refused : ∀ b, out.1 = .finished b → b.exitCode = 1 → out.2 = t
    ∨ ∃ entries configuration path, readBundle directory bundle t = (.ok entries, t)
      ∧ bundleConfiguration entries pairs = .ok configuration
      ∧ (writeFiles directory ⟨.value (.mapping entries), configuration,
          target.getD (.ofLocation directory), force⟩ t).1 = .error (.system (.alreadyThere path))
  /-- A fault that is not of the file system comes without a change. -/
  failed : ∀ fault, out.1 = .failed fault → ¬fault.IsOfFileSystem → out.2 = t

/-- The run of a request for the files of a bundle is that of `scaffoldBundle`. -/
theorem run_of_scaffold {directory : Location} {args : List String} {verbose : Bool}
    {bundle : PathName} {target : Option PathName} {pairs : List String} {force : Bool}
    (h : Request.ofArguments args = .ok ⟨verbose, .scaffold bundle target pairs force⟩)
    (t : FileTree) :
    run directory args t
      = match scaffoldBundle directory verbose bundle target pairs force t with
        | (.ok b, t) => (.finished b, t)
        | (.error fault, t) => (.failed fault, t) := by
  rw [run, h]
  rfl

/-- A run that asks for the files of a bundle keeps what `RefusesRun` promises, in both cases of
`scaffoldBundle_cases`. -/
theorem refusesRun_of_scaffold {directory : Location} {args : List String} {verbose : Bool}
    {bundle : PathName} {target : Option PathName} {pairs : List String} {force : Bool}
    (h : Request.ofArguments args = .ok ⟨verbose, .scaffold bundle target pairs force⟩)
    (t : FileTree) :
    RefusesRun directory bundle target pairs force t (run directory args t) := by
  rw [run_of_scaffold h]
  rcases scaffoldBundle_cases directory verbose bundle target pairs force t with
    ⟨htree, -⟩ | ⟨entries, configuration, notices, hread, hconfiguration, heq⟩
  · -- Nothing was written, so that the tree is as it was however the run ends.
    rcases hout : scaffoldBundle directory verbose bundle target pairs force t with ⟨fault | b, t'⟩
    all_goals
      rw [hout] at htree
      dsimp only at htree
      subst htree
    · exact ⟨fun _ _ _ => rfl, fun _ _ _ => .inl rfl, fun _ _ _ => rfl⟩
    · exact ⟨fun _ _ _ => rfl, fun _ _ _ => .inl rfl, fun _ _ _ => rfl⟩
  · obtain ⟨htree, hending⟩ := writeOrReport_cases directory verbose notices
      ⟨.value (.mapping entries), configuration, target.getD (.ofLocation directory), force⟩ t
    rw [← heq] at htree hending
    rcases hout : scaffoldBundle directory verbose bundle target pairs force t with ⟨fault | b, t'⟩
    all_goals
      rw [hout] at htree hending
      dsimp only at htree hending ⊢
      subst htree
    · refine ⟨by rintro b ⟨⟩, by rintro b ⟨⟩, ?_⟩
      rintro fault' ⟨⟩ hfault
      rcases hending with ⟨b, ⟨⟩, -⟩ | ⟨fault', hwrite, ⟨b, message, ⟨⟩, -⟩ | ⟨⟨⟩⟩⟩
      exact tree_writeFiles_of_error hwrite hfault
    · rcases hending with ⟨b', ⟨⟩, hzero⟩ |
        ⟨fault, hwrite, ⟨b', message, ⟨⟩, hone, hreported⟩ | ⟨⟨⟩⟩⟩
      · refine ⟨?_, ?_, by rintro fault ⟨⟩⟩
        · rintro b' ⟨⟩ htwo
          omega
        · rintro b' ⟨⟩ hone
          omega
      · refine ⟨?_, ?_, by rintro fault ⟨⟩⟩
        · rintro b' ⟨⟩ htwo
          omega
        · rintro b' ⟨⟩ -
          by_cases hfault : fault.IsOfFileSystem
          · obtain ⟨path, rfl⟩ := exists_alreadyThere_of_refusal? hreported hfault
            exact .inr ⟨entries, configuration, path, hread, hconfiguration, hwrite⟩
          · exact .inl (tree_writeFiles_of_error hwrite hfault)

/-- **A request that is refused leaves the file tree as it was**, and so does a command line that is
interrupted, or that asks for the files of a bundle and ends with exit code 2, or with exit code 1
for another reason than that the file system found something in the way. -/
theorem refusal_leaves_tree {Time Span : Type} [Timeline Time Span] (now : Time)
    (r : ScaffoldRequest) (w : Workspace Time Span) (directory : Location) (args : List String)
    (t : FileTree) :
    RefusesWhole now r w
      ∧ (∀ i, (run directory args t).1 = .interrupted i → (run directory args t).2 = t)
      ∧ ∀ verbose bundle target pairs force,
        Request.ofArguments args = .ok ⟨verbose, .scaffold bundle target pairs force⟩ →
          RefusesRun directory bundle target pairs force t (run directory args t) := by
  refine ⟨refusesWhole now r w, fun i hi => ?_,
    fun verbose bundle target pairs force h => refusesRun_of_scaffold h t⟩
  rw [run] at hi ⊢
  cases hrequest : Request.ofArguments args with
  | error _ => rfl
  | ok request =>
    rw [hrequest] at hi
    dsimp only at hi
    rcases hperform : perform directory request t with ⟨fault | b, t'⟩
    · rw [hperform] at hi
      cases hi
    · rw [hperform] at hi
      cases hi

/-- A directory with a bundle in a file. -/
def manifestTree : FileTree :=
  ⟨[(["work"], .directory),
    (["work", "b.json"],
      .file ("\x7b\"name\":\"d\",\"description\":\"d\",\"version\":\"1\","
        ++ "\"files\":[\x7b\"path\":\"a\",\"content\":\"x\"\x7d]\x7d"))]⟩

/-- A request whose second file would replace what is there is refused, and a command line that
gives a value for a key and one below it ends with exit code 2; neither changes a file. -/
theorem refusal_leaves_tree_conflictingPairs :
    LeavesTree occupiedWorkspace (writeBundle (.infinite false) halfwayRequest occupiedWorkspace)
      ∧ (run ["work"] ["init", "b.json", "-c", "a=1", "-c", "a.b=2"] manifestTree).1
        = .finished ⟨2, "", "error: 'a.b' conflicts with the value already set for 'a'\n"⟩
      ∧ (run ["work"] ["init", "b.json", "-c", "a=1", "-c", "a.b=2"] manifestTree).2
        = manifestTree := by
  have himpeded : Impediment (.infinite false) ["work", "out"] halfwayRequest occupiedWorkspace :=
    .occupied (f := ⟨"./a", "y", none, false⟩) renderSource_halfwayRequest (by decide)
      (by decide +kernel) rfl (by decide)
  have hending : (run ["work"] ["init", "b.json", "-c", "a=1", "-c", "a.b=2"] manifestTree).1
      = .finished ⟨2, "", "error: 'a.b' conflicts with the value already set for 'a'\n"⟩ := by
    decide +kernel
  obtain ⟨hrefuses, -, hruns⟩ := refusal_leaves_tree (.infinite false) halfwayRequest
    occupiedWorkspace ["work"] ["init", "b.json", "-c", "a=1", "-c", "a.b=2"] manifestTree
  have hrun := hruns false (.ofText "b.json") none ["a=1", "a.b=2"] false rfl
  exact ⟨(hrefuses.impeded _ targetLocation_halfwayRequest himpeded).1, hending,
    hrun.misconfigured _ hending rfl⟩

end Templating.Command
