import TikzChart.Proofs.Files.Page
import TikzChart.Proofs.Files.Writing

/-!
What rendering leaves behind. The tools do not touch the files, and when all have done their work
only the places of the leftovers are emptied; the document is not among them. A rendering that is
repeated on what it left has the same outcome.
-/

set_option autoImplicit false

namespace TikzChart

/-! ### Tools -/

theorem Work.runOn_launch (directory tool : String) (arguments : List String)
    (workspace : Workspace) :
    (Work.launch directory tool arguments).runOn workspace =
      match workspace.prepareLaunch directory tool arguments with
      | .error cause => (.error (.output (.toolLaunch tool cause)), workspace)
      | .ok (launch, status) =>
        (if status ≠ 0 then .error (.output (.toolFailed tool status)) else .ok (),
          workspace.record launch) := by
  unfold Work.launch
  rw [Step.runOn_bind_ok (Step.runOn_get workspace)]
  cases workspace.prepareLaunch directory tool arguments with
  | error cause => rfl
  | ok prepared =>
      obtain ⟨launch, status⟩ := prepared
      by_cases failed : status ≠ 0
      · simp [failed, Step.runOn_bind]
      · simp [failed]

namespace Workspace

theorem launchStatus_of_some {workspace : Workspace} {launch : Launch}
    {outcome : Except OsError Nat} (decided : workspace.outcomes launch = some outcome) :
    workspace.launchStatus launch = outcome := by
  rw [launchStatus, decided, Option.getD_some]

theorem launchStatus_of_none {workspace : Workspace} {launch : Launch}
    (undecided : workspace.outcomes launch = none) :
    workspace.launchStatus launch = workspace.toolStatus launch.place launch.tool := by
  rw [launchStatus, undecided, Option.getD_none]

/-- Two workspaces that differ in their files and in what was started at most. -/
structure SameBesideFiles (workspace other : Workspace) : Prop where
  here : other.here = workspace.here
  tools : other.tools = workspace.tools
  outcomes : other.outcomes = workspace.outcomes
  guarded : other.guarded = workspace.guarded

section

variable {workspace other : Workspace} (same : workspace.SameBesideFiles other)

include same

theorem SameBesideFiles.record (launch : Launch) :
    (workspace.record launch).SameBesideFiles (other.record launch) :=
  ⟨same.here, same.tools, same.outcomes, same.guarded⟩

/-- The files have no part in the status of a launch that is made at all. -/
theorem SameBesideFiles.launchStatus {launch : Launch} {status : Nat}
    (found : workspace.launchStatus launch = .ok status) :
    other.launchStatus launch = .ok status := by
  have outcomes := congrFun same.outcomes launch
  cases decided : workspace.outcomes launch with
  | some outcome =>
      rw [launchStatus_of_some decided] at found
      rw [launchStatus_of_some (outcomes.trans decided), found]
  | none =>
      rw [launchStatus_of_none decided] at found
      rw [launchStatus_of_none (outcomes.trans decided)]
      unfold toolStatus at found ⊢
      split at found
      · obtain ⟨_, _, impossible⟩ := Outcome.bind_eq_ok_iff.mp found
        cases impossible
      · next plain =>
          rw [if_neg plain, same.tools]
          exact found

/-- A tool that can be started can be started among any files in the same directories. -/
theorem SameBesideFiles.prepareLaunch (directories : workspace.tree.SameDirectories other.tree)
    {directory tool : String} {arguments : List String} {prepared : Launch × Nat}
    (starts : workspace.prepareLaunch directory tool arguments = .ok prepared) :
    other.prepareLaunch directory tool arguments = .ok prepared := by
  unfold Workspace.prepareLaunch at starts ⊢
  simp only [Outcome.unless_eq_ok_iff, Outcome.bind_eq_ok_iff] at starts ⊢
  obtain ⟨passable, place, entered, status, found, launched⟩ := starts
  refine ⟨passable, place, ?_, status, same.launchStatus found, launched⟩
  rw [same.here]
  exact directories.enter entered

end

end Workspace

namespace Backend

variable {job : RenderJob} {stages : List (String × List String)} {workspace : Workspace}

theorem runOn_runStages_cons (job : RenderJob) (stage : String × List String)
    (stages : List (String × List String)) (workspace : Workspace) :
    (runStages job (stage :: stages)).runOn workspace =
      match workspace.prepareLaunch job.directory stage.1 stage.2 with
      | .error cause => (.error (.output (.toolLaunch stage.1 cause)), workspace)
      | .ok (launch, status) =>
        if status = 0 then (runStages job stages).runOn (workspace.record launch)
        else (.error (.output (.toolFailed stage.1 status)), workspace.record launch) := by
  change (Work.launch job.directory stage.1 stage.2 >>= fun _ => runStages job stages).runOn
    workspace = _
  rw [Step.runOn_bind, Work.runOn_launch]
  cases workspace.prepareLaunch job.directory stage.1 stage.2 with
  | error cause => rfl
  | ok prepared =>
      obtain ⟨launch, status⟩ := prepared
      by_cases passed : status = 0
      · simp [passed]
      · simp [passed]

theorem files_of_runStages (job : RenderJob) (stages : List (String × List String))
    (workspace : Workspace) :
    ∃ launches, ((runStages job stages).runOn workspace).2 = { workspace with launches } := by
  induction stages generalizing workspace with
  | nil => exact ⟨workspace.launches, rfl⟩
  | cons stage stages ih =>
      rw [runOn_runStages_cons]
      cases workspace.prepareLaunch job.directory stage.1 stage.2 with
      | error cause => exact ⟨workspace.launches, rfl⟩
      | ok prepared =>
          obtain ⟨launch, status⟩ := prepared
          dsimp only
          split
          · exact ih (workspace.record launch)
          · exact ⟨workspace.launches ++ [launch], rfl⟩

/-- What was started before does not matter. -/
theorem outcome_of_runStages (job : RenderJob) (stages : List (String × List String))
    (workspace : Workspace) (launches : List Launch) :
    ((runStages job stages).runOn { workspace with launches }).1 =
      ((runStages job stages).runOn workspace).1 := by
  induction stages generalizing workspace launches with
  | nil => rfl
  | cons stage stages ih =>
      have same : ({ workspace with launches } : Workspace).prepareLaunch job.directory stage.1
          stage.2 = workspace.prepareLaunch job.directory stage.1 stage.2 := rfl
      rw [runOn_runStages_cons, runOn_runStages_cons, same]
      cases workspace.prepareLaunch job.directory stage.1 stage.2 with
      | error cause => rfl
      | ok prepared =>
          obtain ⟨launch, status⟩ := prepared
          dsimp only
          split
          · exact ih (workspace.record launch) (launches ++ [launch])
          · rfl

theorem runStages_of_same {other : Workspace} (same : workspace.SameBesideFiles other)
    (directories : workspace.tree.SameDirectories other.tree)
    (ran : ((runStages job stages).runOn workspace).1 = .ok ()) :
    ((runStages job stages).runOn other).1 = .ok () := by
  induction stages generalizing workspace other with
  | nil => rfl
  | cons stage stages ih =>
      rw [runOn_runStages_cons] at ran ⊢
      cases starts : workspace.prepareLaunch job.directory stage.1 stage.2 with
      | error cause =>
          rw [starts] at ran
          cases ran
      | ok prepared =>
          rw [starts] at ran
          rw [same.prepareLaunch directories starts]
          obtain ⟨launch, status⟩ := prepared
          dsimp only at ran ⊢
          split at ran
          · next passed =>
              rw [if_pos passed]
              exact ih (same.record launch) directories ran
          · cases ran

/-! ### Cleaning up -/

theorem runOn_cleanUp (job : RenderJob) (extensions : List String) (workspace : Workspace) :
    (cleanUp job extensions).runOn workspace =
      (.ok (), { workspace with
        tree := workspace.tree.withoutAll workspace.guarded workspace.here
          (extensions.map job.output) }) := by
  induction extensions generalizing workspace with
  | nil => rfl
  | cons extension extensions ih =>
      have removed : (Work.tryRemove (job.output extension)).runOn workspace =
          (.ok (), { workspace with
            tree := workspace.tree.without workspace.guarded workspace.here
              (job.output extension) }) := by
        unfold Work.tryRemove FileTree.without
        rw [Step.runOn_modify]
        cases workspace.tree.remove workspace.guarded workspace.here (job.output extension) with
        | ok tree => rfl
        | error cause => rfl
      unfold cleanUp
      rw [Step.runOn_bind_ok removed, ih]
      rfl

/-- What is left behind besides the page. -/
theorem runOn_render (backend : Backend) (document : String) (workspace : Workspace) :
    let job := RenderJob.ofDocument document
    (∃ cause launches,
      ((runStages job (backend.stages job)).runOn workspace).1 = .error cause ∧
      (backend.render document).runOn workspace = (.error cause, { workspace with launches })) ∨
    ∃ launches,
      ((runStages job (backend.stages job)).runOn workspace).1 = .ok () ∧
      (backend.render document).runOn workspace =
        (.ok (job.output "pdf"),
          { workspace with
            launches
            tree := workspace.tree.withoutAll workspace.guarded workspace.here
              (backend.leftovers.map job.output) }) := by
  intro job
  obtain ⟨launches, files⟩ := files_of_runStages job (backend.stages job) workspace
  have ran := Step.runOn_of_outcome
    (@rfl _ ((runStages job (backend.stages job)).runOn workspace).1)
  rw [files] at ran
  unfold render
  rw [Step.runOn_bind, ran]
  cases ((runStages job (backend.stages job)).runOn workspace).1 with
  | error cause => exact .inl ⟨cause, launches, rfl, rfl⟩
  | ok _ =>
      refine .inr ⟨launches, rfl, ?_⟩
      dsimp only
      rw [Step.runOn_bind_ok (runOn_cleanUp _ _ _)]
      rfl

variable {backend : Backend} {document : String} {between left : Workspace}

/-- A rendering that failed fails again on what it left. -/
theorem render_again_of_error {cause : ChartError}
    (failed : (backend.render document).runOn between = (.error cause, left)) :
    ∃ launches, (backend.render document).runOn left = (.error cause, { left with launches }) := by
  let job := RenderJob.ofDocument document
  rcases backend.runOn_render document between with
    ⟨_, launches, stopped, ran⟩ | ⟨_, _, ran⟩
  · cases ran.symm.trans failed
    have stoppedAgain := outcome_of_runStages job (backend.stages job) between launches
    rw [stopped] at stoppedAgain
    rcases backend.runOn_render document { between with launches } with
      ⟨_, launchesAgain, stoppedNow, ranAgain⟩ | ⟨_, succeededNow, _⟩
    · cases stoppedAgain.symm.trans stoppedNow
      exact ⟨launchesAgain, ranAgain⟩
    · cases stoppedAgain.symm.trans succeededNow
  · cases ran.symm.trans failed

/-- A rendering that succeeded succeeds again where every place is as it was left. -/
theorem render_again_of_ok {page : String} {other : Workspace}
    (rendered : (backend.render document).runOn between = (.ok page, left))
    (besides : left.SameBesideFiles other)
    (same : ∀ place, other.tree.entry? place = left.tree.entry? place) :
    ∃ again, (backend.render document).runOn other = (.ok page, again) ∧
      ∀ place, again.tree.entry? place = left.tree.entry? place := by
  let job := RenderJob.ofDocument document
  rcases backend.runOn_render document between with ⟨_, _, _, ran⟩ | ⟨launches, succeeded, ran⟩
  · cases ran.symm.trans rendered
  · cases ran.symm.trans rendered
    have directories : between.tree.SameDirectories other.tree := fun place => by
      rw [same place]
      exact between.tree.sameDirectories_withoutAll _ _ _ place
    have besidesBetween : between.SameBesideFiles other :=
      ⟨besides.here, besides.tools, besides.outcomes, besides.guarded⟩
    have succeededAgain := runStages_of_same besidesBetween directories succeeded
    rcases backend.runOn_render document other with ⟨_, _, stopped, _⟩ | ⟨_, _, ranAgain⟩
    · cases succeededAgain.symm.trans stopped
    · rw [ranAgain]
      refine ⟨_, rfl, ?_⟩
      dsimp only
      rw [besides.here, besides.guarded]
      exact FileTree.entry?_withoutAll_again same

end Backend

/-! ### The document -/

theorem RenderJob.leftover_plain : ∀ extension ∈ ["aux", "log", "dvi", "ps"],
    '/' ∉ extension.toList ∧ ∃ c, extension.toList.getLast? = some c ∧ c ≠ '.' := by
  simp

/-- No leftover stands where the document does. -/
theorem RenderJob.leftover_ne_document {base extension : String}
    (isLeftover : extension ∈ ["aux", "log", "dvi", "ps"]) {tree : FileTree} {start place : Place}
    (document : tree.spot start (base ++ ".tex") = .ok place) :
    tree.spot start ((ofDocument (base ++ ".tex")).output extension) ≠ .ok place := by
  intro leftover
  obtain ⟨free, c, ends, notDot⟩ := leftover_plain extension isLeftover
  obtain ⟨before, final, cut⟩ := PathName.exists_pieces base
  obtain ⟨whole, named⟩ := @pieces_extended _ _ _ cut ".tex" (by decide) 'x' rfl (by decide)
  obtain ⟨stem, _, sibling, siblingNamed, _⟩ := sibling_ofDocument cut free ends notDot
  obtain ⟨_, joined, _⟩ := PathName.pieces_join (ofDocument (base ++ ".tex")).directory
    siblingNamed.slashFree
  have last := FileTree.getLast?_of_spot whole named document
  rw [FileTree.getLast?_of_spot joined siblingNamed leftover, sibling] at last
  have backwards := congrArg List.reverse (String.ofList_injective (Option.some.inj last))
  rw [List.reverse_append, List.reverse_append] at backwards
  simp only [List.mem_cons, List.not_mem_nil, or_false] at isLeftover
  rcases isLeftover with rfl | rfl | rfl | rfl <;> simp at backwards

end TikzChart
