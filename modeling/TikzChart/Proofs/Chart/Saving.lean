import TikzChart.Proofs.Chart.StyleHistory
import TikzChart.Proofs.Files.Rendering

/-!
What saving a chart leaves in its files. A picture and a document are each written as a whole or not
at all, whatever the file held before, and no other place changes. A page is rendered from the
document that was written first, and the document stays. Saving a second time changes nothing.
-/

set_option autoImplicit false

namespace TikzChart

/-! ### One file -/

namespace Workspace

/-- The workspace with a file of the given content. -/
def withFile (workspace : Workspace) (place : Place) (content : ByteArray) : Workspace :=
  { workspace with tree := workspace.tree.put place (.file content) }

/-- The place that a path name leads to has got a file, and nothing else has changed. -/
structure Wrote (place : Place) (path : String) (content : ByteArray) (before after : Workspace) :
    Prop where
  read : after.read path = .ok content
  there : after.tree.entry? place = some (.file content)
  free : before.tree.entry? place ≠ some .directory
  elsewhere : ∀ other, other ≠ place → after.tree.entry? other = before.tree.entry? other
  surroundings : after = { before with tree := after.tree }

variable {workspace : Workspace} {place : Place} {path : String}
  (found : workspace.tree.spot workspace.here path = .ok place)

include found

theorem sameDirectories_withFile (content : ByteArray) :
    workspace.tree.SameDirectories (workspace.withFile place content).tree :=
  FileTree.sameDirectories_put (FileTree.notDirectory_of_spot found) content

theorem spot_withFile (content : ByteArray) :
    (workspace.withFile place content).tree.spot workspace.here path = .ok place :=
  (sameDirectories_withFile found content).spot found

theorem entry?_withFile (content : ByteArray) :
    (workspace.withFile place content).tree.entry? place = some (.file content) := by
  unfold withFile
  rw [workspace.tree.entry?_put place (FileTree.below_of_spot found), if_pos rfl]

theorem kept_withFile (content : ByteArray) :
    (workspace.withFile place content).tree.kept place true = content := by
  unfold FileTree.kept FileTree.content?
  rw [entry?_withFile found]
  rfl

theorem read_withFile (content : ByteArray) :
    (workspace.withFile place content).read path = .ok content := by
  refine (FileTree.read_of_spot (spot_withFile found content)).trans ?_
  unfold FileTree.content?
  rw [entry?_withFile found]

theorem wrote_withFile (content : ByteArray) :
    Wrote place path content workspace (workspace.withFile place content) where
  read := read_withFile found content
  there := entry?_withFile found content
  free := FileTree.notDirectory_of_spot found
  elsewhere := by
    intro other different
    by_cases root : other = []
    · rw [root]
      rfl
    · unfold withFile
      rw [workspace.tree.entry?_put place root, if_neg different]
  surroundings := rfl

omit found in
theorem Wrote.old_or_new {content : ByteArray} {after : Workspace}
    (wrote : Wrote place path content workspace after) (other : Place) :
    after.tree.entry? other = workspace.tree.entry? other ∨
      after.tree.entry? other = some (.file content) := by
  by_cases same : other = place
  · rw [same]
    exact .inr wrote.there
  · exact .inl (wrote.elsewhere other same)

omit found in
theorem withFile_withFile (first second : ByteArray) :
    (workspace.withFile place first).withFile place second = workspace.withFile place second := by
  unfold withFile
  dsimp only
  rw [FileTree.put_put]

/-- What is kept in front is what can be read before. -/
theorem kept_eq (append : Bool) :
    workspace.tree.kept place append =
      if append then (workspace.read path).toOption.getD .empty else .empty := by
  have read := FileTree.read_of_spot found
  change workspace.read path = _ at read
  rw [read]
  unfold FileTree.kept
  cases workspace.tree.content? place with
  | none => rfl
  | some content => rfl

end Workspace

/-- The step writes one file under a path name, unless the system refuses the name. -/
structure Work.Writes {α : Type} (work : Work α) (result : α) (path : String)
    (content : Workspace → ByteArray) : Prop where
  refused : ∀ workspace cause, workspace.tree.spot workspace.here path = .error cause →
    work.runOn workspace = (.error (.output (.write path cause)), workspace)
  written : ∀ workspace place, workspace.tree.spot workspace.here path = .ok place →
    ∃ after, work.runOn workspace = (.ok result, after) ∧
      Workspace.Wrote place path (content workspace) workspace after

namespace Work

theorem runOn_writeText (path text : String) (append : Bool) (workspace : Workspace) :
    (writeText path text append).runOn workspace =
      match workspace.tree.spot workspace.here path with
      | .error cause => (.error (.output (.write path cause)), workspace)
      | .ok place =>
        (.ok (), workspace.withFile place (workspace.tree.kept place append ++ text.toUTF8)) := by
  unfold writeText
  rw [Step.runOn_bind_ok (Step.runOn_get workspace), FileTree.write_eq]
  cases workspace.tree.spot workspace.here path with
  | error cause => rfl
  | ok place => rfl

theorem runOn_writeText_withFile {path : String} {workspace : Workspace} {place : Place}
    (found : workspace.tree.spot workspace.here path = .ok place) (content : ByteArray)
    (text : String) :
    (writeText path text true).runOn (workspace.withFile place content) =
      (.ok (), workspace.withFile place (content ++ text.toUTF8)) := by
  rw [runOn_writeText]
  have foundAgain : (workspace.withFile place content).tree.spot
      (workspace.withFile place content).here path = .ok place :=
    Workspace.spot_withFile found content
  rw [foundAgain]
  dsimp only
  rw [Workspace.kept_withFile found, Workspace.withFile_withFile]

/-- The step writes one file under a path name, always with the same content. -/
structure Overwrites {α : Type} (work : Work α) (result : α) (path : String)
    (content : ByteArray) : Prop where
  refused : ∀ workspace cause, workspace.tree.spot workspace.here path = .error cause →
    work.runOn workspace = (.error (.output (.write path cause)), workspace)
  written : ∀ workspace place, workspace.tree.spot workspace.here path = .ok place →
    work.runOn workspace = (.ok result, workspace.withFile place content)

namespace Overwrites

variable {α : Type} {work : Work α} {result : α} {path : String} {content : ByteArray}
  (overwrites : Overwrites work result path content)

include overwrites

theorem writes : Writes work result path fun _ => content where
  refused := overwrites.refused
  written := fun workspace place found =>
    ⟨_, overwrites.written workspace place found, Workspace.wrote_withFile found content⟩

theorem entry?_after (workspace : Workspace) (place : Place) :
    (work.runOn workspace).2.tree.entry? place = workspace.tree.entry? place ∨
      (work.runOn workspace).2.tree.entry? place = some (.file content) := by
  cases found : workspace.tree.spot workspace.here path with
  | error cause =>
      rw [overwrites.refused workspace cause found]
      exact .inl rfl
  | ok spot =>
      rw [overwrites.written workspace spot found]
      exact (Workspace.wrote_withFile found content).old_or_new place

/-- Doing it again changes nothing. -/
theorem again (workspace : Workspace) :
    work.runOn (work.runOn workspace).2 = work.runOn workspace := by
  cases found : workspace.tree.spot workspace.here path with
  | error cause => rw [overwrites.refused workspace cause found, overwrites.refused _ cause found]
  | ok place =>
      rw [overwrites.written workspace place found,
        overwrites.written _ place (Workspace.spot_withFile found content),
        Workspace.withFile_withFile]

end Overwrites

end Work

/-! ### Pictures and documents -/

/-- An open part is found before the file is touched. -/
theorem Canvas.runOn_save_of_open {canvas : Canvas} (isOpen : canvas.depth ≠ 0) (path : String)
    (append : Bool) (workspace : Workspace) :
    (canvas.save path append).runOn workspace =
      (.error (.unbalancedPicture canvas.depth), workspace) := by
  unfold save script
  rw [if_pos isOpen]
  rfl

theorem Canvas.runOn_save {canvas : Canvas} {script : String}
    (isScript : canvas.script = .ok script) (path : String) (append : Bool)
    (workspace : Workspace) :
    (canvas.save path append).runOn workspace =
      (Work.writeText path script append).runOn workspace := by
  unfold save
  rw [isScript]
  exact Step.runOn_bind_ok (Step.runOn_ofExcept _ _) _

/-- A picture follows what the file held, or takes its stead. -/
theorem Canvas.writes_save {canvas : Canvas} {script : String}
    (isScript : canvas.script = .ok script) (path : String) (append : Bool) :
    Work.Writes (canvas.save path append) () path fun workspace =>
      (if append then (workspace.read path).toOption.getD .empty else .empty) ++ script.toUTF8 := by
  constructor
  · intro workspace cause refused
    rw [Canvas.runOn_save isScript, Work.runOn_writeText, refused]
  · intro workspace place found
    refine ⟨_, ?_, Workspace.wrote_withFile found _⟩
    rw [Canvas.runOn_save isScript, Work.runOn_writeText, found]
    dsimp only
    rw [Workspace.kept_eq found]

namespace Chart

/-- The document of a chart. -/
def document (chart : Chart) : String :=
  Document.header chart.config ++ chart.canvas.writeAll ++ Document.footer

variable {chart : Chart} (closed : chart.canvas.depth = 0)

include closed

theorem overwrites_saveTikz (path : String) :
    Work.Overwrites (chart.saveTikz path) () path chart.canvas.writeAll.toUTF8 := by
  have isScript : chart.canvas.script = .ok chart.canvas.writeAll := script_of_closed closed
  constructor
  · intro workspace cause refused
    rw [saveTikz, Canvas.runOn_save isScript, Work.runOn_writeText, refused]
  · intro workspace place found
    rw [saveTikz, Canvas.runOn_save isScript, Work.runOn_writeText, found]
    dsimp only
    rw [FileTree.kept, if_neg Bool.false_ne_true, ByteArray.empty_append]

theorem overwrites_saveTex (base : String) :
    Work.Overwrites (chart.saveTex base) (OutputPaths.ofBase base).document
      (OutputPaths.ofBase base).document chart.document.toUTF8 := by
  have isScript : chart.canvas.script = .ok chart.canvas.writeAll := script_of_closed closed
  constructor
  · intro workspace cause refused
    unfold saveTex
    rw [if_neg (not_not_intro closed)]
    have header := Work.runOn_writeText (OutputPaths.ofBase base).document
      (Document.header chart.config) false workspace
    rw [refused] at header
    exact Step.runOn_bind_error header _
  · intro workspace place found
    unfold saveTex
    rw [if_neg (not_not_intro closed)]
    have header := Work.runOn_writeText (OutputPaths.ofBase base).document
      (Document.header chart.config) false workspace
    rw [found] at header
    dsimp only at header
    rw [FileTree.kept, if_neg Bool.false_ne_true, ByteArray.empty_append] at header
    have picture := Work.runOn_writeText_withFile found (Document.header chart.config).toUTF8
      chart.canvas.writeAll
    rw [← Canvas.runOn_save isScript] at picture
    have footer := Work.runOn_writeText_withFile found
      ((Document.header chart.config).toUTF8 ++ chart.canvas.writeAll.toUTF8) Document.footer
    rw [Step.runOn_bind_ok header, Step.runOn_bind_ok picture, Step.runOn_bind_ok footer]
    unfold document
    simp only [String.toUTF8_eq_toByteArray, String.toByteArray_append]
    rfl

end Chart

/-! ### Pages -/

section Rendering

variable {base : String} {workspace : Workspace} {place : Place}
  (found : workspace.tree.spot workspace.here (base ++ ".tex") = .ok place) (content : ByteArray)
  (backend : Backend)

include found

theorem Backend.document_stays :
    FileTree.entry? ((workspace.withFile place content).tree.withoutAll workspace.guarded
      workspace.here (backend.leftovers.map (RenderJob.ofDocument (base ++ ".tex")).output)) place =
        some (.file content) := by
  have isLeftover : ∀ extension ∈ backend.leftovers, extension ∈ ["aux", "log", "dvi", "ps"] := by
    cases backend with
    | dvips typeset convert distill => simp [Backend.leftovers]
    | pdflatex program => simp [Backend.leftovers]
  rw [FileTree.entry?_withoutAll, if_neg, Workspace.entry?_withFile found]
  rintro ⟨⟨path, member, led⟩, -⟩
  obtain ⟨extension, inLeftovers, rfl⟩ := List.mem_map.mp member
  exact RenderJob.leftover_ne_document (isLeftover extension inLeftovers)
    (Workspace.spot_withFile found content) led

/-- The document is there after it was rendered, and no other file is new. -/
theorem Backend.render_withFile {outcome : Except ChartError String} {after : Workspace}
    (rendered : (backend.render (base ++ ".tex")).runOn (workspace.withFile place content) =
      (outcome, after)) :
    (after.here = workspace.here ∧
      after.tree.spot workspace.here (base ++ ".tex") = .ok place ∧
      after.tree.entry? place = some (.file content)) ∧
    (∀ cause, outcome = .error cause → after.tree = (workspace.withFile place content).tree) ∧
    ∀ other, after.tree.entry? other = (workspace.withFile place content).tree.entry? other ∨
      after.tree.entry? other = none := by
  have written := Workspace.spot_withFile found content
  rcases backend.runOn_render (base ++ ".tex") (workspace.withFile place content) with
    ⟨_, _, _, ran⟩ | ⟨_, _, ran⟩
  · cases ran.symm.trans rendered
    exact ⟨⟨rfl, written, Workspace.entry?_withFile found content⟩, fun _ _ => rfl,
      fun _ => .inl rfl⟩
  · cases ran.symm.trans rendered
    refine ⟨⟨rfl, (FileTree.sameDirectories_withoutAll _ _ _ _).spot written,
      Backend.document_stays found content backend⟩, nofun, fun other => ?_⟩
    dsimp only
    rw [FileTree.entry?_withoutAll]
    split
    · exact .inr rfl
    · exact .inl rfl

end Rendering

namespace Chart

variable {chart : Chart} (closed : chart.canvas.depth = 0)

include closed

theorem runOn_savePdf_of_refused {base : String} {workspace : Workspace} {cause : OsError}
    (refused : workspace.tree.spot workspace.here (base ++ ".tex") = .error cause)
    (backend : Backend) :
    (chart.savePdf base backend).runOn workspace =
      (.error (.output (.write (base ++ ".tex") cause)), workspace) := by
  have saved := (chart.overwrites_saveTex closed base).refused workspace cause refused
  exact Step.runOn_bind_error saved _

/-- The document is complete before the tools are started. -/
theorem runOn_savePdf {base : String} {workspace : Workspace} {place : Place}
    (found : workspace.tree.spot workspace.here (base ++ ".tex") = .ok place) (backend : Backend) :
    (chart.savePdf base backend).runOn workspace =
      (backend.render (base ++ ".tex")).runOn
        (workspace.withFile place chart.document.toUTF8) := by
  have saved := (chart.overwrites_saveTex closed base).written workspace place found
  exact Step.runOn_bind_ok saved _

theorem entry?_after_savePdf (base : String) (backend : Backend) (workspace : Workspace)
    (place : Place) :
    let after := ((chart.savePdf base backend).runOn workspace).2
    after.tree.entry? place = workspace.tree.entry? place ∨ after.tree.entry? place = none ∨
      after.tree.entry? place = some (.file chart.document.toUTF8) := by
  dsimp only
  cases found : workspace.tree.spot workspace.here (base ++ ".tex") with
  | error cause =>
      rw [runOn_savePdf_of_refused closed found]
      exact .inl rfl
  | ok spot =>
      rw [runOn_savePdf closed found]
      cases rendered : (backend.render (base ++ ".tex")).runOn
          (workspace.withFile spot chart.document.toUTF8) with
      | mk outcome left =>
          obtain ⟨_, _, others⟩ := Backend.render_withFile found _ backend rendered
          dsimp only
          rcases others place with same | gone
          · rw [same]
            rcases (Workspace.wrote_withFile found _).old_or_new place with before | new
            · exact .inl before
            · exact .inr (.inr new)
          · exact .inr (.inl gone)

/-- Rendering again what was rendered has the same outcome, and every place is as it was. -/
theorem savePdf_again (base : String) (backend : Backend) (workspace : Workspace) :
    let once := (chart.savePdf base backend).runOn workspace
    let twice := (chart.savePdf base backend).runOn once.2
    twice.1 = once.1 ∧ ∀ place, twice.2.tree.entry? place = once.2.tree.entry? place := by
  dsimp only
  cases found : workspace.tree.spot workspace.here (base ++ ".tex") with
  | error cause =>
      rw [runOn_savePdf_of_refused closed found, runOn_savePdf_of_refused closed found]
      exact ⟨rfl, fun _ => rfl⟩
  | ok place =>
      rw [runOn_savePdf closed found]
      cases rendered : (backend.render (base ++ ".tex")).runOn
          (workspace.withFile place chart.document.toUTF8) with
      | mk outcome left =>
          obtain ⟨⟨here, foundLeft, there⟩, onError, _⟩ :=
            Backend.render_withFile found _ backend rendered
          rw [← here] at foundLeft
          dsimp only
          rw [runOn_savePdf closed foundLeft]
          cases outcome with
          | error cause =>
              have unchanged : left.tree.put place (.file chart.document.toUTF8) = left.tree := by
                rw [onError cause rfl]
                exact FileTree.put_put _ _ _ _
              have same : left.withFile place chart.document.toUTF8 = left := by
                unfold Workspace.withFile
                rw [unchanged]
              obtain ⟨launches, again⟩ := Backend.render_again_of_error rendered
              rw [same, again]
              exact ⟨rfl, fun _ => rfl⟩
          | ok page =>
              obtain ⟨again, renderedAgain, same⟩ := @Backend.render_again_of_ok _ _ _ _ _
                (left.withFile place chart.document.toUTF8) rendered ⟨rfl, rfl, rfl, rfl⟩
                (FileTree.entry?_put_self there)
              rw [renderedAgain]
              exact ⟨rfl, same⟩

end Chart

/-! ### Many saves -/

/-- One of the three ways to save a chart. -/
inductive Saving where
  | tikz (path : String)
  | tex (base : String)
  | pdf (base : String) (backend : Backend)

namespace Saving

def work (chart : Chart) : Saving → Work Unit
  | tikz path => chart.saveTikz path
  | tex base => do let _ ← chart.saveTex base
  | pdf base backend => do let _ ← chart.savePdf base backend

/-- What is written. -/
def text (chart : Chart) : Saving → String
  | tikz _ => chart.canvas.writeAll
  | tex _ => chart.document
  | pdf _ _ => chart.document

/-- Every place is as it was, has lost its file or holds what is saved. -/
theorem entry?_after {chart : Chart} (closed : chart.canvas.depth = 0) (saving : Saving)
    (workspace : Workspace) (place : Place) :
    let after := ((saving.work chart).runOn workspace).2
    after.tree.entry? place = workspace.tree.entry? place ∨ after.tree.entry? place = none ∨
      after.tree.entry? place = some (.file (saving.text chart).toUTF8) := by
  cases saving with
  | tikz path =>
      rcases (Chart.overwrites_saveTikz closed path).entry?_after workspace place with same | new
      · exact .inl same
      · exact .inr (.inr new)
  | tex base =>
      dsimp only [work]
      rw [Step.runOn_discard]
      rcases (Chart.overwrites_saveTex closed base).entry?_after workspace place with same | new
      · exact .inl same
      · exact .inr (.inr new)
  | pdf base backend =>
      dsimp only [work]
      rw [Step.runOn_discard]
      exact Chart.entry?_after_savePdf closed base backend workspace place

end Saving

/-- The workspace after a chart was saved in several ways, one after the other. -/
def Chart.savedAs (chart : Chart) (savings : List Saving) (workspace : Workspace) : Workspace :=
  Step.stateAfter (savings.map (Saving.work chart)) workspace

theorem Chart.entry?_after_saves {chart : Chart} (closed : chart.canvas.depth = 0)
    (savings : List Saving) (workspace : Workspace) (place : Place) :
    (chart.savedAs savings workspace).tree.entry? place = workspace.tree.entry? place ∨
      (chart.savedAs savings workspace).tree.entry? place = none ∨
      ∃ saving ∈ savings, (chart.savedAs savings workspace).tree.entry? place =
        some (.file (saving.text chart).toUTF8) := by
  refine @Step.stateAfter_induction _ _ (fun after : Workspace => after.tree.entry? place =
      workspace.tree.entry? place ∨ after.tree.entry? place = none ∨ ∃ saving ∈ savings,
        after.tree.entry? place = some (.file (saving.text chart).toUTF8)) _ _ (.inl rfl) ?_
  · intro step member between kept
    obtain ⟨saving, inSavings, rfl⟩ := List.mem_map.mp member
    rcases saving.entry?_after closed between place with same | gone | new
    · rw [same]
      exact kept
    · exact .inr (.inl gone)
    · exact .inr (.inr ⟨saving, inSavings, new⟩)

/-- Whatever was drawn on a chart and whatever was there before, saving writes exactly the script,
or the script in its document, which ends with the line `\end{document}`, under the name it is
given, and changes no other place but for leftovers that are removed. The document is complete
before it is rendered and stays when that fails. Saving again changes nothing. A picture on its own
is appended or written in the stead of what was there, and not at all while a part is open. -/
theorem saved_files_hold_the_picture (config : Config) (operations : List ChartOperation) :
    let chart := ({ config } : Chart).after operations
    (∃ script, chart.script = .ok script ∧
      chart.document = Document.header chart.config ++ script ++ "\\end\x7bdocument\x7d\n" ∧
      (∀ path, (chart.saveTikz path).Writes () path fun _ => script.toUTF8) ∧
      ∀ base, (chart.saveTex base).Writes (OutputPaths.ofBase base).document
        (OutputPaths.ofBase base).document fun _ => chart.document.toUTF8) ∧
    (∀ base backend workspace,
      let document := (OutputPaths.ofBase base).document
      (∀ cause, workspace.tree.spot workspace.here document = .error cause →
        (chart.savePdf base backend).runOn workspace =
          (.error (.output (.write document cause)), workspace)) ∧
      ∀ place, workspace.tree.spot workspace.here document = .ok place →
        ∃ between, (chart.saveTex base).runOn workspace = (.ok document, between) ∧
          (chart.savePdf base backend).runOn workspace =
            (backend.render document).runOn between ∧
          ∀ outcome after, (backend.render document).runOn between = (outcome, after) →
            after.read document = .ok chart.document.toUTF8 ∧
            (∀ cause, outcome = .error cause → after.tree = between.tree) ∧
            ∀ other, after.tree.entry? other = between.tree.entry? other ∨
              after.tree.entry? other = none) ∧
    (∀ savings workspace place,
      (chart.savedAs savings workspace).tree.entry? place = workspace.tree.entry? place ∨
      (chart.savedAs savings workspace).tree.entry? place = none ∨
      ∃ saving ∈ savings, (chart.savedAs savings workspace).tree.entry? place =
        some (.file (saving.text chart).toUTF8)) ∧
    (∀ (workspace : Workspace) (base : String) (backend : Backend),
      (chart.saveTikz base).runOn ((chart.saveTikz base).runOn workspace).2 =
        (chart.saveTikz base).runOn workspace ∧
      (chart.saveTex base).runOn ((chart.saveTex base).runOn workspace).2 =
        (chart.saveTex base).runOn workspace ∧
      let once := (chart.savePdf base backend).runOn workspace
      let twice := (chart.savePdf base backend).runOn once.2
      twice.1 = once.1 ∧ ∀ place, twice.2.tree.entry? place = once.2.tree.entry? place) ∧
    ∀ (canvas : Canvas) (path : String) (append : Bool),
      (∀ script, canvas.script = .ok script →
        (canvas.save path append).Writes () path fun workspace =>
          (if append then (workspace.read path).toOption.getD .empty else .empty)
            ++ script.toUTF8) ∧
      (canvas.depth ≠ 0 → ∀ workspace, (canvas.save path append).runOn workspace =
        (.error (.unbalancedPicture canvas.depth), workspace)) := by
  intro chart
  have closed : chart.canvas.depth = 0 := (Chart.sound_after config operations).closed
  refine ⟨⟨_, Chart.script_of_closed closed, rfl,
      fun path => (Chart.overwrites_saveTikz closed path).writes,
      fun base => (Chart.overwrites_saveTex closed base).writes⟩,
    ?_, Chart.entry?_after_saves closed, ?_, ?_⟩
  · intro base backend workspace document
    refine ⟨fun cause refused => Chart.runOn_savePdf_of_refused closed refused backend, ?_⟩
    intro place found
    refine ⟨_, (Chart.overwrites_saveTex closed base).written workspace place found,
      Chart.runOn_savePdf closed found backend, ?_⟩
    intro outcome after rendered
    obtain ⟨⟨here, foundAfter, there⟩, onError, others⟩ :=
      Backend.render_withFile found _ backend rendered
    refine ⟨?_, onError, others⟩
    rw [← here] at foundAfter
    refine (FileTree.read_of_spot foundAfter).trans ?_
    unfold FileTree.content?
    rw [there]
  · intro workspace base backend
    exact ⟨(Chart.overwrites_saveTikz closed base).again workspace,
      (Chart.overwrites_saveTex closed base).again workspace,
      Chart.savePdf_again closed base backend workspace⟩
  · intro canvas path append
    exact ⟨fun script isScript => Canvas.writes_save isScript path append,
      fun isOpen workspace => Canvas.runOn_save_of_open isOpen path append workspace⟩

/-- A directory in which something else bears the name of the document, and a tool that fails. -/
def usedDirectory : Workspace :=
  { tree := ⟨[(["out"], .directory), (["out", "fig.tex"], .file "old".toUTF8)]⟩
    tools := [("pdflatex", 1)] }

theorem document_in_used_directory :
    usedDirectory.tree.spot usedDirectory.here "out/fig.tex" = .ok ["out", "fig.tex"] ∧
    ∃ between after cause,
      ((({} : Chart).after growingChart).saveTex "out/fig").runOn usedDirectory =
        (.ok "out/fig.tex", between) ∧
      ((({} : Chart).after growingChart).savePdf "out/fig" (.pdflatex "pdflatex")).runOn
        usedDirectory = (.error cause, after) ∧
      after.tree = between.tree ∧
      after.read "out/fig.tex" = .ok (({} : Chart).after growingChart).document.toUTF8 := by
  have found : usedDirectory.tree.spot usedDirectory.here
      (OutputPaths.ofBase "out/fig").document = .ok ["out", "fig.tex"] := by decide +kernel
  have fails : (((({} : Chart).after growingChart).savePdf "out/fig"
      (.pdflatex "pdflatex")).runOn usedDirectory).1 =
        .error (.output (.toolFailed "pdflatex" 1)) := by decide +kernel
  obtain ⟨_, onPages, _⟩ := saved_files_hold_the_picture {} growingChart
  obtain ⟨between, saved, rendered, left⟩ :=
    (onPages "out/fig" (.pdflatex "pdflatex") usedDirectory).2 _ found
  have failed := Step.runOn_of_outcome fails
  obtain ⟨held, onError, _⟩ := left _ _ (rendered.symm.trans failed)
  exact ⟨found, between, _, _, saved, failed, onError _ rfl, held⟩

end TikzChart
