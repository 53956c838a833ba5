import TikzChart.Proofs.Files.Document
import TikzChart.Proofs.Files.Following
import TikzChart.Proofs.Files.Rendering

/-!
Rendering as a whole. The tools are started in their order, in the directory of the document, until
one of them is refused or fails (`Backend.Ended`); then the files are as they were. When all of them
have done their work, the leftovers that can be removed are gone and nothing else has changed
(`RenderJob.CleanedUp`). A leftover cannot be removed when its path name is too long to be looked up
or when the operating system refuses it.
-/

set_option autoImplicit false

namespace TikzChart

/-- A tool with its arguments. -/
abbrev Stage := String × List String

namespace Stage

def launchIn (place : Place) (stage : Stage) : Launch := ⟨stage.1, place, stage.2⟩

/-- The texts that the operating system is handed to start a tool in a directory. -/
def texts (directory : String) (stage : Stage) : List String := directory :: stage.1 :: stage.2

end Stage

namespace Workspace

/-- How a tool ends that is started for a job: with a status, or not started at all. It is not
started when a text cannot be handed over, or when there is no directory to start it in; otherwise
it ends as its launch in that directory does. -/
def ending (workspace : Workspace) (job : RenderJob) (stage : Stage) : Except OsError Nat :=
  if ∃ text ∈ stage.texts job.directory, '\x00' ∈ text.toList then .error .nulInLaunch
  else do
    let place ← workspace.tree.enter workspace.here job.directory
    workspace.launchStatus (stage.launchIn place)

variable {workspace : Workspace} {job : RenderJob} {stage : Stage}

theorem ending_eq_ok_iff {status : Nat} :
    workspace.ending job stage = .ok status ↔
      (∀ text ∈ stage.texts job.directory, '\x00' ∉ text.toList) ∧
        ∃ place, workspace.tree.enter workspace.here job.directory = .ok place ∧
          workspace.launchStatus (stage.launchIn place) = .ok status := by
  unfold ending
  split
  · next stray =>
      obtain ⟨text, member, hasNul⟩ := stray
      exact iff_of_false nofun fun both => both.1 text member hasNul
  · next clean =>
      rw [Outcome.bind_eq_ok_iff, and_iff_right]
      exact fun text member hasNul => clean ⟨text, member, hasNul⟩

theorem prepareLaunch_eq (workspace : Workspace) (job : RenderJob) (stage : Stage) :
    workspace.prepareLaunch job.directory stage.1 stage.2 =
      if ∃ text ∈ stage.texts job.directory, '\x00' ∈ text.toList then .error .nulInLaunch
      else
        (workspace.tree.enter workspace.here job.directory).bind fun place =>
          (workspace.launchStatus (stage.launchIn place)).bind fun status =>
            .ok (stage.launchIn place, status) := by
  have stray : (!(stage.texts job.directory).all isPassable) = true ↔
      ∃ text ∈ stage.texts job.directory, '\x00' ∈ text.toList := by
    rw [Bool.not_eq_true', List.all_eq_false]
    refine exists_congr fun text => and_congr_right fun _ => ?_
    simp [isPassable]
  exact if_congr stray rfl rfl

/-- A tool is started in the directory of the job, and what comes of it is how it ends. -/
theorem prepareLaunch_cases (workspace : Workspace) (job : RenderJob) (stage : Stage) :
    (∃ cause, workspace.prepareLaunch job.directory stage.1 stage.2 = .error cause ∧
        workspace.ending job stage = .error cause) ∨
      ∃ place status,
        workspace.prepareLaunch job.directory stage.1 stage.2 =
          .ok (stage.launchIn place, status) ∧
        workspace.tree.enter workspace.here job.directory = .ok place ∧
        workspace.ending job stage = .ok status := by
  rw [prepareLaunch_eq]
  unfold ending
  split
  · exact .inl ⟨.nulInLaunch, rfl, rfl⟩
  · cases workspace.tree.enter workspace.here job.directory with
    | error cause => exact .inl ⟨cause, rfl, rfl⟩
    | ok place =>
        dsimp only [Except.bind, bind]
        cases workspace.launchStatus (stage.launchIn place) with
        | error cause => exact .inl ⟨cause, rfl, rfl⟩
        | ok status => exact .inr ⟨place, status, rfl, rfl, rfl⟩

end Workspace

namespace Backend

/-! ### Running the tools -/

/-- How far a row of tools comes, given how each of them ends: the tools that are started, and the
outcome. -/
inductive Ended (ends : Stage → Except OsError Nat) :
    List Stage → List Stage → Except ChartError Unit → Prop
  | finished {stages : List Stage} (passed : ∀ stage ∈ stages, ends stage = .ok 0) :
    Ended ends stages stages (.ok ())
  | refused {before behind : List Stage} {stage : Stage} {cause : OsError}
    (passed : ∀ other ∈ before, ends other = .ok 0) (stopped : ends stage = .error cause) :
    Ended ends (before ++ stage :: behind) before (.error (.output (.toolLaunch stage.1 cause)))
  | failed {before behind : List Stage} {stage : Stage} {status : Nat}
    (passed : ∀ other ∈ before, ends other = .ok 0) (stopped : ends stage = .ok status)
    (nonzero : status ≠ 0) :
    Ended ends (before ++ stage :: behind) (before ++ [stage])
      (.error (.output (.toolFailed stage.1 status)))

section

variable {ends : Stage → Except OsError Nat} {stages launched : List Stage} {stage : Stage}
  {outcome : Except ChartError Unit}

theorem Ended.after (rest : Ended ends stages launched outcome) (passed : ends stage = .ok 0) :
    Ended ends (stage :: stages) (stage :: launched) outcome := by
  cases rest with
  | finished all => exact .finished (List.forall_mem_cons.mpr ⟨passed, all⟩)
  | refused before stopped =>
      exact .refused (List.forall_mem_cons.mpr ⟨passed, before⟩) stopped
  | failed before stopped nonzero =>
      exact .failed (List.forall_mem_cons.mpr ⟨passed, before⟩) stopped nonzero

theorem Ended.ok_iff (ended : Ended ends stages launched outcome) :
    outcome = .ok () ↔ ∀ stage ∈ stages, ends stage = .ok 0 := by
  cases ended with
  | finished all => exact iff_of_true rfl all
  | refused before stopped =>
      refine iff_of_false nofun fun all => ?_
      rw [all _ (by simp)] at stopped
      cases stopped
  | failed before stopped nonzero =>
      refine iff_of_false nofun fun all => ?_
      rw [all _ (by simp)] at stopped
      cases stopped
      exact nonzero rfl

/-- All tools are started when none of them stops the run. -/
theorem Ended.all_launched (ended : Ended ends stages launched outcome)
    (succeeded : outcome = .ok ()) : launched = stages := by
  cases ended with
  | finished all => rfl
  | refused before stopped => cases succeeded
  | failed before stopped nonzero => cases succeeded

end

/-- One launch after the other, by induction on the tools that are left. -/
theorem runOn_runStages (job : RenderJob) (stages : List Stage) (workspace : Workspace)
    {place : Place} (known : ∀ found,
      workspace.tree.enter workspace.here job.directory = .ok found → found = place) :
    ∃ launched outcome, Ended (workspace.ending job) stages launched outcome ∧
      (launched ≠ [] → workspace.tree.enter workspace.here job.directory = .ok place) ∧
      (runStages job stages).runOn workspace = (outcome,
        { workspace with
          launches := workspace.launches ++ launched.map (Stage.launchIn place) }) := by
  induction stages generalizing workspace with
  | nil => exact ⟨[], .ok (), .finished nofun, fun absent => absurd rfl absent, by simp [runStages]⟩
  | cons stage stages ih =>
      rw [runOn_runStages_cons]
      rcases workspace.prepareLaunch_cases job stage with
        ⟨cause, prepared, stopped⟩ | ⟨found, status, prepared, entered, ending⟩
      · rw [prepared]
        exact ⟨[], _, @Ended.refused _ [] stages _ _ nofun stopped,
          fun absent => absurd rfl absent, by simp⟩
      · rw [prepared]
        obtain rfl := known found entered
        dsimp only
        split
        · next passed =>
            obtain ⟨launched, outcome, ended, -, ran⟩ :=
              ih (workspace.record (stage.launchIn found)) known
            refine ⟨stage :: launched, outcome, ?_, fun _ => entered, ?_⟩
            · exact ended.after (ending.trans (congrArg Except.ok passed))
            · refine ran.trans ?_
              simp [Workspace.record]
        · next nonzero =>
            exact ⟨[stage], _, @Ended.failed _ [] stages _ _ nofun ending nonzero,
              fun _ => entered, rfl⟩

theorem file_mem_first (backend : Backend) (job : RenderJob) :
    ∃ stage ∈ backend.stages job, job.file ∈ stage.2 := by
  cases backend with
  | dvips typeset convert distill => exact ⟨_, List.mem_cons_self, by simp⟩
  | pdflatex program => exact ⟨_, List.mem_cons_self, by simp⟩

end Backend

/-! ### The files -/

namespace RenderJob

/-- A leftover that can be removed: there is a file, its path name is not too long, and its removal
is not refused. -/
def Removable (job : RenderJob) (extensions : List String) (place : Place) (workspace : Workspace)
    (spot : Place) : Prop :=
  ∃ extension ∈ extensions, place ++ [job.sibling extension] = spot ∧
    (job.output extension).utf8ByteSize < FileTree.maxPathSize ∧ workspace.guarded spot = false ∧
    ∃ content, workspace.tree.lookup place (job.sibling extension) = .ok (some (.file content))

/-- The leftovers that can be removed are gone, and nothing else has changed. -/
structure CleanedUp (job : RenderJob) (extensions : List String) (place : Place)
    (before : Workspace) (after : FileTree) : Prop where
  gone : ∀ spot, job.Removable extensions place before spot → after.entry? spot = none
  kept : ∀ spot, ¬job.Removable extensions place before spot →
    after.entry? spot = before.tree.entry? spot
  document : after.entry? (place ++ [job.file]) = before.tree.entry? (place ++ [job.file])
  page : after.entry? (place ++ [job.sibling "pdf"]) =
    before.tree.entry? (place ++ [job.sibling "pdf"])

variable {document : String} {name : List Char} (found : PathName.fileName? document = some name)
  (isTex : ".tex".toList <:+ name)

include found isTex

theorem not_removable {extensions : List String}
    (leftovers : extensions ⊆ ["aux", "log", "dvi", "ps"]) {place : Place} {workspace : Workspace}
    {other : String}
    (isKept : other ∈ [(ofDocument document).file, (ofDocument document).sibling "pdf"]) :
    ¬(ofDocument document).Removable extensions place workspace (place ++ [other]) := by
  rintro ⟨extension, member, same, -⟩
  have apart : ∀ extension ∈ ["aux", "log", "dvi", "ps"], ∀ ending ∈ [".tex", ".pdf"],
      ¬("." ++ extension).toList <:+ ending.toList ∧
        ¬ending.toList <:+ ("." ++ extension).toList := by decide
  have isOther : (ofDocument document).sibling extension = other :=
    (List.cons.inj (List.append_cancel_left same)).1
  rcases List.mem_cons.mp isKept with isFile | isPage
  · obtain ⟨differs, differsToo⟩ := apart extension (leftovers member) ".tex" (by simp)
    refine sibling_ne found differs differsToo ?_ isOther
    rwa [isFile, file_ofDocument found, @String.toList_ofList name]
  · obtain ⟨differs, differsToo⟩ := apart extension (leftovers member) ".pdf" (by simp)
    refine sibling_ne found differs differsToo ?_ isOther
    rw [List.mem_singleton.mp isPage, sibling_toList found]
    exact List.suffix_append _ _

omit isTex in
theorem nulFree_sibling (nulFree : '\x00' ∉ (ofDocument document).file.toList) {extension : String}
    (isLeftover : extension ∈ ["aux", "log", "dvi", "ps"]) :
    '\x00' ∉ ((ofDocument document).sibling extension).toList := by
  rw [file_ofDocument found, String.toList_ofList] at nulFree
  rw [sibling_toList found, List.mem_append, not_or]
  refine ⟨fun member => nulFree (PathName.mem_of_mem_stem member), ?_⟩
  have free : ∀ extension ∈ ["aux", "log", "dvi", "ps"], '\x00' ∉ ("." ++ extension).toList := by
    decide
  exact free extension isLeftover

section

variable {extensions : List String} (leftovers : extensions ⊆ ["aux", "log", "dvi", "ps"])
  {workspace : Workspace} {place : Place}
  (entered : workspace.tree.enter workspace.here (ofDocument document).directory = .ok place)
  (nulFree : '\x00' ∉ (ofDocument document).file.toList)

include leftovers entered nulFree

omit isTex in
theorem spot_leftover {extension : String} (member : extension ∈ extensions) (spot : Place) :
    workspace.tree.spot workspace.here ((ofDocument document).output extension) = .ok spot ↔
      ((ofDocument document).output extension).utf8ByteSize < FileTree.maxPathSize ∧
        (∃ found, workspace.tree.lookup place ((ofDocument document).sibling extension) =
          .ok found) ∧
        place ++ [(ofDocument document).sibling extension] = spot ∧
        workspace.tree.entry? spot ≠ some .directory := by
  obtain ⟨free, c, ends, notDot⟩ := leftover_plain extension (leftovers member)
  exact FileTree.spot_join entered (isName_sibling found free ends notDot)
    (nulFree_sibling found nulFree (leftovers member))

omit isTex in
/-- What cleaning up can remove are the files among the places that it comes to, but for those that
are guarded. -/
theorem removable_iff (spot : Place) :
    (ofDocument document).Removable extensions place workspace spot ↔
      ((∃ path ∈ extensions.map (ofDocument document).output,
        workspace.tree.spot workspace.here path = .ok spot) ∧ workspace.guarded spot = false) ∧
        ∃ content, workspace.tree.entry? spot = some (.file content) := by
  constructor
  · rintro ⟨extension, member, placed, short, free, content, looked⟩
    have there := (FileTree.lookup_eq_ok_iff.mp looked).2.2
    rw [placed] at there
    have isSpot := (spot_leftover found leftovers entered nulFree member spot).mpr
      ⟨short, ⟨_, looked⟩, placed, by rw [there]; nofun⟩
    exact ⟨⟨⟨_, List.mem_map.mpr ⟨extension, member, rfl⟩, isSpot⟩, free⟩, content, there⟩
  · rintro ⟨⟨⟨path, isOutput, isSpot⟩, free⟩, content, there⟩
    obtain ⟨extension, member, rfl⟩ := List.mem_map.mp isOutput
    obtain ⟨short, ⟨entry, looked⟩, placed, -⟩ :=
      (spot_leftover found leftovers entered nulFree member spot).mp isSpot
    have same := (FileTree.lookup_eq_ok_iff.mp looked).2.2
    rw [placed, there] at same
    exact ⟨extension, member, placed, short, free, content, same ▸ looked⟩

theorem cleanedUp_withoutAll :
    (ofDocument document).CleanedUp extensions place workspace
      (workspace.tree.withoutAll workspace.guarded workspace.here
        (extensions.map (ofDocument document).output)) := by
  have removable := removable_iff found leftovers entered nulFree
  have kept (spot : Place)
      (stays : ¬(ofDocument document).Removable extensions place workspace spot) :
      FileTree.entry? (workspace.tree.withoutAll workspace.guarded workspace.here
        (extensions.map (ofDocument document).output)) spot = workspace.tree.entry? spot := by
    rw [FileTree.entry?_withoutAll]
    split
    · next emptied =>
        -- nothing was at the place of a name that is no file
        obtain ⟨path, -, isSpot⟩ := emptied.1
        cases there : workspace.tree.entry? spot with
        | none => rfl
        | some node =>
            cases node with
            | directory => exact absurd there (FileTree.notDirectory_of_spot isSpot)
            | file content =>
                exact absurd ((removable spot).mpr ⟨emptied, content, there⟩) stays
    · rfl
  refine ⟨fun spot isRemovable => ?_, kept, ?_, ?_⟩
  · rw [FileTree.entry?_withoutAll, if_pos ((removable spot).mp isRemovable).1]
  · exact kept _ (not_removable found isTex leftovers (by simp))
  · exact kept _ (not_removable found isTex leftovers (by simp))

end

end RenderJob

namespace Backend

/-- An account of a rendering: the tools that were started and where, what was returned, and what
became of the files. -/
structure Account (backend : Backend) (job : RenderJob) (workspace : Workspace)
    (launched : List Stage) (place : Place) (result : Except ChartError String)
    (after : Workspace) : Prop where
  ended : Ended (workspace.ending job) (backend.stages job) launched (result.map fun _ => ())
  inDirectory : launched ≠ [] → workspace.tree.enter workspace.here job.directory = .ok place
  launches : after.launches = workspace.launches ++ launched.map (Stage.launchIn place)
  succeeds : (∃ page, result = .ok page) ↔
    ∀ stage ∈ backend.stages job, workspace.ending job stage = .ok 0
  untouched : ∀ cause, result = .error cause → after.tree = workspace.tree
  page : ∀ page, result = .ok page → page = job.output "pdf"
  cleaned : ∀ page, result = .ok page →
    job.CleanedUp backend.leftovers place workspace after.tree

theorem leftovers_subset (backend : Backend) :
    backend.leftovers ⊆ ["aux", "log", "dvi", "ps"] := by
  cases backend with
  | dvips typeset convert distill => exact List.Subset.refl _
  | pdflatex program => simp [leftovers]

theorem nulFree_of_launched (backend : Backend) {job : RenderJob} {workspace : Workspace}
    (all : ∀ stage ∈ backend.stages job, workspace.ending job stage = .ok 0) :
    '\x00' ∉ job.file.toList := by
  obtain ⟨stage, isStage, hasFile⟩ := backend.file_mem_first job
  obtain ⟨passable, -⟩ := Workspace.ending_eq_ok_iff.mp (all stage isStage)
  exact passable _ (List.mem_cons_of_mem _ (List.mem_cons_of_mem _ hasFile))

theorem account_of_render (backend : Backend) {document : String} (workspace : Workspace)
    {name : List Char} (found : PathName.fileName? document = some name)
    (isTex : ".tex".toList <:+ name) :
    ∃ launched place result after,
      (backend.render document).runOn workspace = (result, after) ∧
      backend.Account (.ofDocument document) workspace launched place result after := by
  let job := RenderJob.ofDocument document
  obtain ⟨place, known⟩ : ∃ place, ∀ found,
      workspace.tree.enter workspace.here job.directory = .ok found → found = place := by
    cases workspace.tree.enter workspace.here job.directory with
    | error cause => exact ⟨[], nofun⟩
    | ok place => exact ⟨place, fun _ same => (Except.ok.inj same).symm⟩
  obtain ⟨launched, outcome, ended, inDirectory, ran⟩ :=
    runOn_runStages job (backend.stages job) workspace known
  cases outcome with
  | error cause =>
      have stopped := Step.runOn_bind_error ran fun _ => do
        cleanUp job backend.leftovers
        pure (job.output "pdf")
      refine ⟨launched, place, .error cause, _, stopped, ended, inDirectory, rfl, ?_, ?_, nofun,
        nofun⟩
      · rw [← ended.ok_iff]
        exact iff_of_false nofun nofun
      · exact fun _ _ => rfl
  | ok done =>
      have all := ended.ok_iff.mp rfl
      have cleaned := Step.runOn_bind_ok ran fun _ => do
        cleanUp job backend.leftovers
        pure (job.output "pdf")
      rw [Step.runOn_bind_ok (runOn_cleanUp _ _ _)] at cleaned
      have entered : workspace.tree.enter workspace.here job.directory = .ok place := by
        obtain ⟨stage, isStage, -⟩ := backend.file_mem_first job
        refine inDirectory ?_
        rw [ended.all_launched rfl]
        exact List.ne_nil_of_mem isStage
      refine ⟨launched, place, .ok (job.output "pdf"), _, cleaned, ended, inDirectory, rfl, ?_,
        nofun, ?_, ?_⟩
      · exact iff_of_true ⟨_, rfl⟩ all
      · exact fun _ same => (Except.ok.inj same).symm
      · exact fun _ _ => RenderJob.cleanedUp_withoutAll found isTex backend.leftovers_subset entered
          (backend.nulFree_of_launched all)

end Backend

/-- The tools run in the directory of the document, on its file name and its stem, until the first
one that does not succeed; then no file has changed. When all succeed, the leftovers that can be
removed are gone, and everything else is as it was. -/
theorem rendering_stops_at_first_failure (backend : Backend) (document : String)
    (workspace : Workspace) (name : List Char) (found : PathName.fileName? document = some name)
    (isTex : ".tex".toList <:+ name) :
    let job := RenderJob.ofDocument document
    job.file = String.ofList name ∧
      (∀ base, base ≠ [] → name = base ++ ".tex".toList → job.stem = String.ofList base) ∧
      (∀ extension, job.sibling extension = job.stem ++ "." ++ extension) ∧
      PathName.SameUpToDot (PathName.join job.directory job.file) document ∧
      (backend.stages job, backend.leftovers) =
        (match backend with
        | .dvips typeset convert distill =>
          ([(typeset, ["-halt-on-error", job.file]), (convert, ["-q", job.sibling "dvi"]),
            (distill, [job.sibling "ps"])], ["aux", "log", "dvi", "ps"])
        | .pdflatex program =>
          ([(program, ["-halt-on-error", "-interaction=nonstopmode", job.file])],
            ["aux", "log"])) ∧
      ∃ launched place result after,
        (backend.render document).runOn workspace = (result, after) ∧
        backend.Account job workspace launched place result after := by
  intro job
  refine ⟨RenderJob.file_ofDocument found, ?_, fun _ => rfl, RenderJob.join_file_ofDocument found,
    ?_, backend.account_of_render workspace found isTex⟩
  · rintro base nonempty rfl
    have taken := @PathName.stem_extension base ['t', 'e', 'x'] (by decide)
    rw [if_neg nonempty] at taken
    exact (RenderJob.stem_of_fileName found).trans (congrArg String.ofList taken)
  · cases backend with
    | dvips typeset convert distill => rfl
    | pdflatex program => rfl

/-- A directory with a document and what an earlier run left. One of the tools is known by its path
name only, and one of the leftovers cannot be removed. -/
def workshop : Workspace :=
  { tree := ⟨[(["out"], .directory), (["out", "fig.v2.tex"], .file .empty),
      (["out", "fig.v2.aux"], .file .empty), (["out", "fig.v2.log"], .file .empty)]⟩
    tools := [("dvips", 0), ("ps2pdf", 0)]
    outcomes := fun launch => if launch.tool = "/opt/tex/latex" then some (.ok 0) else none
    guarded := fun place => place = ["out", "fig.v2.log"] }

theorem leftovers_removed_in_workshop :
    PathName.fileName? "out/fig.v2.tex" = some "fig.v2.tex".toList ∧
      ".tex".toList <:+ "fig.v2.tex".toList ∧
      ∃ after, ((Backend.dvips "/opt/tex/latex" "dvips" "ps2pdf").render "out/fig.v2.tex").runOn
          workshop = (.ok "out/fig.v2.pdf", after) ∧
        after.launches = [⟨"/opt/tex/latex", ["out"], ["-halt-on-error", "fig.v2.tex"]⟩,
          ⟨"dvips", ["out"], ["-q", "fig.v2.dvi"]⟩, ⟨"ps2pdf", ["out"], ["fig.v2.ps"]⟩] ∧
        after.tree.entry? ["out", "fig.v2.aux"] = none ∧
        after.tree.entry? ["out", "fig.v2.log"] = some (.file .empty) ∧
        after.tree.entry? ["out", "fig.v2.tex"] = some (.file .empty) := by
  have found : PathName.fileName? "out/fig.v2.tex" = some "fig.v2.tex".toList := by decide
  have isTex : ".tex".toList <:+ "fig.v2.tex".toList := by decide
  refine ⟨found, isTex, ?_⟩
  have isJob : RenderJob.ofDocument "out/fig.v2.tex" = ⟨"out", "fig.v2.tex", "fig.v2"⟩ := by decide
  obtain ⟨-, -, -, -, -, launched, place, result, after, ran, account⟩ :=
    rendering_stops_at_first_failure (.dvips "/opt/tex/latex" "dvips" "ps2pdf") "out/fig.v2.tex"
      workshop _ found isTex
  rw [isJob] at account
  obtain ⟨page, rfl⟩ := account.succeeds.mpr (by decide)
  have launchedAll := account.ended.all_launched rfl
  have isPlace : place = ["out"] := by
    have entered := account.inDirectory (launchedAll ▸ by simp [Backend.stages])
    have led : workshop.tree.enter workshop.here "out" = .ok ["out"] := by decide
    exact Except.ok.inj (entered.symm.trans led)
  subst isPlace
  have cleaned := account.cleaned page rfl
  obtain rfl := account.page page rfl
  refine ⟨after, ran, ?_, cleaned.gone _ ?_, (cleaned.kept _ ?_).trans (by decide),
    cleaned.document.trans (by decide)⟩
  · rw [account.launches, launchedAll]
    rfl
  · exact ⟨"aux", by simp [Backend.leftovers], by decide, by decide, by decide, .empty, by decide⟩
  · rintro ⟨-, -, -, -, free, -⟩
    exact absurd free (by decide)

/-! ### Path names that are too long -/

/-- A way into a directory, with many slashes, and out of it again. -/
def detour (slashes : Nat) : List Char := 'd' :: (List.replicate (slashes + 1) '/' ++ ['.', '.'])

section

variable (slashes : Nat)

theorem splitOn_detour :
    Text.splitOn '/' (detour slashes) = (['d'] :: List.replicate slashes []) ++ [['.', '.']] := by
  have behind : Text.splitOn '/' (List.replicate slashes '/' ++ ['.', '.']) =
      List.replicate slashes [] ++ [['.', '.']] := Text.splitOn_replicate '/' slashes ['.', '.']
  rw [List.cons_append, ← behind]
  exact @Text.splitOn_append_separator _ _ '/' ['d'] (by decide) _

theorem components_detour :
    PathName.components (String.ofList (detour slashes)) = [.name ['d'], .parent] := by
  have cut := splitOn_detour slashes
  rw [← String.toList_ofList (l := detour slashes)] at cut
  rw [PathName.components_eq_steps, PathName.parts_of_pieces cut (.inl (List.cons_ne_nil _ _))]
  simp [PathName.Parts.steps, PathName.Parts.front, PathName.Parts.entry,
    PathName.Parts.ofDirectory, PathName.isIdle, PathName.component]

theorem size_detour : (String.ofList (detour slashes)).utf8ByteSize = slashes + 4 := by
  have size (count : ℕ) : (String.ofList (List.replicate count '/')).utf8ByteSize = count := by
    induction count with
    | zero => rfl
    | succ count ih =>
        rw [List.replicate_succ, String.ofList_cons, String.utf8ByteSize_append, ih,
          String.utf8ByteSize_singleton, Nat.add_comm]
        rfl
  have letter : (String.singleton 'd').utf8ByteSize = 1 := by decide
  have dots : (String.ofList ['.', '.']).utf8ByteSize = 2 := by decide
  rw [detour, String.ofList_cons, String.ofList_append, String.utf8ByteSize_append,
    String.utf8ByteSize_append, size, letter, dots]
  omega

/-- The document that lies in the directory where the way started. -/
def distant : String := String.ofList (detour slashes ++ '/' :: "fig.tex".toList)

theorem pieces_distant :
    PathName.pieces (distant slashes) =
      Text.splitOn '/' (detour slashes) ++ "fig.tex".toList :: [] := by
  rw [PathName.pieces, distant, String.toList_ofList]
  exact Text.splitOn_concat _ (by decide)

theorem isName_figure : PathName.IsName "fig.tex".toList :=
  ⟨by decide, by decide, by decide⟩

theorem fileName?_distant : PathName.fileName? (distant slashes) = some "fig.tex".toList :=
  PathName.fileName?_of_pieces (pieces_distant slashes) isName_figure

theorem ofDocument_distant :
    RenderJob.ofDocument (distant slashes) =
      ⟨String.ofList (detour slashes), "fig.tex", "fig"⟩ := by
  have parent := PathName.parent?_of_name (pieces_distant slashes) isName_figure nofun
  have plain : (PathName.Parts.ofDirectory (Text.splitOn '/' (detour slashes))).trimmed =
      ⟨false, false, Text.splitOn '/' (detour slashes)⟩ := by
    rw [splitOn_detour, List.cons_append,
      PathName.Parts.ofDirectory_of_plain (by decide) (by decide), ← List.cons_append,
      PathName.Parts.trimmed, Text.dropTrailing_concat (by decide)]
  have text : (PathName.Parts.mk false false (Text.splitOn '/' (detour slashes))).text =
      String.ofList (detour slashes) :=
    congrArg String.ofList (Text.joinWith_splitOn '/' (detour slashes))
  rw [plain, text] at parent
  have nonempty : (String.ofList (detour slashes)).isEmpty = false := by
    rw [Bool.eq_false_iff, ne_eq, String.isEmpty_iff, ← String.toList_eq_nil_iff,
      String.toList_ofList]
    exact List.cons_ne_nil _ _
  have stem : PathName.stem "fig.tex".toList = "fig".toList := by decide
  unfold RenderJob.ofDocument
  rw [parent, fileName?_distant]
  dsimp only [Option.getD_some]
  rw [nonempty, stem, String.ofList_toList, String.ofList_toList]
  rfl

end

/-- A document beside a directory, and the record of an earlier run. -/
def desk : Workspace :=
  { tree := ⟨[(["d"], .directory), (["fig.tex"], .file .empty), (["fig.aux"], .file .empty)]⟩
    tools := [("pdflatex", 0)] }

theorem enter_detour {slashes : ℕ} (short : slashes + 4 < FileTree.maxPathSize) :
    desk.tree.enter desk.here (String.ofList (detour slashes)) = .ok [] := by
  refine FileTree.enter_eq_ok_iff.mpr ⟨⟨?_, ?_, ?_⟩, ?_⟩
  · rw [ne_eq, ← String.toList_eq_nil_iff, String.toList_ofList]
    exact List.cons_ne_nil _ _
  · rw [String.toList_ofList]
    simp [detour]
  · rwa [size_detour]
  · rw [components_detour]
    decide

theorem ending_distant {slashes : ℕ} (short : slashes + 4 < FileTree.maxPathSize) :
    ∀ stage ∈ (Backend.pdflatex "pdflatex").stages (.ofDocument (distant slashes)),
      desk.ending (.ofDocument (distant slashes)) stage = .ok 0 := by
  have passable : ∀ text ∈ ["pdflatex", "-halt-on-error", "-interaction=nonstopmode", "fig.tex"],
      '\x00' ∉ text.toList := by decide
  have known : desk.toolStatus [] "pdflatex" = .ok 0 := by decide
  have status (arguments : List String) :
      desk.launchStatus (Stage.launchIn [] ("pdflatex", arguments)) = .ok 0 :=
    (Workspace.launchStatus_of_none rfl).trans known
  rw [ofDocument_distant]
  intro stage member
  obtain rfl := List.mem_singleton.mp member
  refine Workspace.ending_eq_ok_iff.mpr
    ⟨List.forall_mem_cons.mpr ⟨?_, passable⟩, [], enter_detour short, status _⟩
  rw [String.toList_ofList]
  simp [detour]

theorem not_removable_distant {slashes : ℕ} (long : FileTree.maxPathSize ≤ slashes + 8)
    (extensions : List String) (place : Place) (workspace : Workspace) (spot : Place) :
    ¬(RenderJob.ofDocument (distant slashes)).Removable extensions place workspace spot := by
  rintro ⟨extension, -, -, short, -⟩
  rw [ofDocument_distant] at short
  have directory := size_detour slashes
  have name : "fig".utf8ByteSize + ".".utf8ByteSize = 4 := by decide
  unfold RenderJob.output RenderJob.sibling PathName.join at short
  dsimp only at short
  split at short
  · simp only [String.utf8ByteSize_append, directory] at short
    omega
  · simp only [String.utf8ByteSize_append, directory] at short
    omega

/-- A leftover stays where it is when the way to it is too long, although every tool succeeded. -/
theorem distant_leftover_stays :
    PathName.fileName? (distant 4088) = some "fig.tex".toList ∧
      ∃ page after,
        ((Backend.pdflatex "pdflatex").render (distant 4088)).runOn desk = (.ok page, after) ∧
        desk.tree.enter desk.here (RenderJob.ofDocument (distant 4088)).directory = .ok [] ∧
        desk.tree.lookup [] "fig.aux" = .ok (some (.file .empty)) ∧
        after.tree.lookup [] "fig.aux" = .ok (some (.file .empty)) := by
  have found := fileName?_distant 4088
  have short : 4088 + 4 < FileTree.maxPathSize := by decide
  have long : FileTree.maxPathSize ≤ 4088 + 8 := by decide
  have entered : desk.tree.enter desk.here (RenderJob.ofDocument (distant 4088)).directory =
      .ok [] := by
    rw [ofDocument_distant]
    exact enter_detour short
  obtain ⟨launched, place, result, after, ran, account⟩ :=
    (Backend.pdflatex "pdflatex").account_of_render desk found (by decide)
  obtain ⟨page, rfl⟩ := account.succeeds.mpr (ending_distant short)
  have there : desk.tree.lookup [] "fig.aux" = .ok (some (.file .empty)) := by decide
  refine ⟨found, page, after, ran, entered, there, ?_⟩
  have stays := (account.cleaned page rfl).kept ["fig.aux"] (not_removable_distant long _ _ _ _)
  obtain ⟨-, fits, present⟩ := FileTree.lookup_eq_ok_iff.mp there
  exact FileTree.lookup_eq_ok_iff.mpr ⟨FileTree.entry?_root _, fits, stays.trans present⟩

end TikzChart
