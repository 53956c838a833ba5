import TikzChart.CommandLine.Program
import TikzChart.Proofs.Data.Listing

/-!
Whole runs of the program. Loading, transforming and laying out look at the files and never change
them (`Early`), so a run that fails there leaves no trace. What is loaded is consistent, so a table
that is to be printed has all its values: once the header is out, the rest of it follows.
-/

set_option autoImplicit false

namespace TikzChart

/-- The causes of a run that had its chart and could not save it. -/
def ProgramError.isLate : ProgramError → Bool
  | save _ | rendering _ => true
  | _ => false

/-- What comes before anything is saved: it gives something good, or it fails early. -/
inductive Early {α : Type} (good : α → Prop) : Except ProgramError α → Prop
  | ok {value : α} (holds : good value) : Early good (.ok value)
  | error {cause : ProgramError} (early : cause.isLate = false) : Early good (.error cause)

namespace Early

variable {ε α β : Type} {good : α → Prop} {better : β → Prop}

theorem bind {first : Except ProgramError α} {next : α → Except ProgramError β}
    (early : Early good first) (continued : ∀ value, good value → Early better (next value)) :
    Early better (first >>= next) := by
  cases early with
  | ok holds => exact continued _ holds
  | error early => exact .error early

theorem mapError {outcome : Except ε α} {rename : ε → ProgramError}
    (early : ∀ cause, (rename cause).isLate = false)
    (holds : ∀ value, outcome = .ok value → good value) : Early good (outcome.mapError rename) := by
  cases outcome with
  | ok value => exact .ok (holds value rfl)
  | error cause => exact .error (early cause)

/-- Of some values nothing need be known. -/
theorem mapError_any {outcome : Except ε α} {rename : ε → ProgramError}
    (early : ∀ cause, (rename cause).isLate = false) :
    Early (fun _ => True) (outcome.mapError rename) := mapError early fun _ _ => trivial

theorem holds_of_ok {value : α} (early : Early good (.ok value)) : good value := by
  cases early with
  | ok holds => exact holds

theorem early_of_error {cause : ProgramError} (early : Early good (.error cause)) :
    cause.isLate = false := by
  cases early with
  | error early => exact early

end Early

/-! ### Loading and transforming -/

theorem Transform.consistent_of_result (transform : Transform) {table next : Table}
    (consistent : table.IsConsistent) (transformed : transform.step.resultOn table = .ok next) :
    next.IsConsistent := by
  have after := consistent.step transform
  unfold Step.resultOn at transformed
  rcases ran : transform.step.runOn table with ⟨outcome, changed⟩
  rw [ran] at transformed after
  cases outcome with
  | error cause => cases transformed
  | ok value =>
      cases transformed
      exact after

namespace Options

variable (options : Options) (workspace : Workspace)

theorem consistent_of_ignoreAll {names : List String} {table next : Table}
    (consistent : table.IsConsistent) (ignored : ignoreAll table names = .ok next) :
    next.IsConsistent := by
  induction names generalizing table with
  | nil =>
      cases ignored
      exact consistent
  | cons name names ih =>
      obtain ⟨between, first, rest⟩ := Outcome.bind_eq_ok_iff.mp ignored
      have here : between.IsConsistent :=
        Transform.consistent_of_result (.ignore name) consistent first
      exact ih here rest

theorem early_input : Early Table.IsConsistent (options.input workspace) := by
  unfold input
  split
  · next path _ =>
      refine .mapError (fun _ => rfl) fun table loaded => ?_
      exact Table.IsLoaded.consistent ⟨workspace, .inl ⟨path, loaded⟩⟩
  · split
    · exact .error rfl
    · refine .bind (.mapError_any fun _ => rfl) ?_
      intro inputs _
      refine .mapError (fun _ => rfl) fun table loaded => ?_
      exact Table.IsLoaded.consistent ⟨workspace, .inr ⟨inputs, loaded⟩⟩

/-- A transform that is left out unless it was asked for. -/
def wanted (asked : Option Transform) (rename : TableError → ProgramError) (table : Table) :
    Except ProgramError Table :=
  match asked with
  | some transform => (transform.step.resultOn table).mapError rename
  | none => .ok table

theorem early_wanted (asked : Option Transform) {rename : TableError → ProgramError}
    (early : ∀ cause, (rename cause).isLate = false) {table : Table}
    (consistent : table.IsConsistent) : Early Table.IsConsistent (wanted asked rename table) := by
  cases asked with
  | some transform =>
      exact .mapError early fun _ transformed =>
        Transform.consistent_of_result _ consistent transformed
  | none => exact .ok consistent

/-- Loading is a row of transforms, each of which may be left out. -/
theorem load_eq : options.load workspace = (do
    let table ← options.input workspace
    if table.keys.isEmpty then throw .noSharedKeys
    let table ← wanted (options.normalize.map .normalize) .table table
    let table ← wanted (options.sortBy.map .sortBy) .table table
    let table ← (ignoreAll table options.ignore).mapError .table
    let table ← wanted (if options.noMean then none else some (.appendGmean gmeanKey))
      .geometricMean table
    wanted (if options.amean then some (.appendAmean ameanKey) else none) .table table) := by
  unfold load
  cases options.normalize <;> cases options.sortBy <;> cases options.noMean <;>
    cases options.amean <;> rfl

theorem early_load : Early Table.IsConsistent (options.load workspace) := by
  rw [load_eq]
  refine (options.early_input workspace).bind fun table consistent => ?_
  by_cases empty : table.keys.isEmpty = true
  · rw [if_pos empty]
    exact .error rfl
  · rw [if_neg empty]
    refine .bind (early_wanted _ (fun _ => rfl) consistent) fun table consistent => ?_
    refine .bind (early_wanted _ (fun _ => rfl) consistent) fun table consistent => ?_
    refine .bind (.mapError (fun _ => rfl) fun _ => consistent_of_ignoreAll consistent) ?_
    intro table consistent
    refine .bind (early_wanted _ (fun _ => rfl) consistent) fun table consistent => ?_
    exact early_wanted _ (fun _ => rfl) consistent

/-! ### Laying out -/

theorem early_draw (table : Table) : Early (fun _ => True) (options.draw table) := by
  have bars : Early (fun _ => True) (options.drawBars table) := by
    refine .bind (.mapError_any fun _ => rfl) ?_
    intro rows _
    refine .bind (.mapError_any fun _ => rfl) ?_
    exact fun _ _ => .ok trivial
  have lines : Early (fun _ => True) (options.drawLines table) := by
    refine .bind (.mapError_any fun _ => rfl) ?_
    intro points _
    refine .bind (.mapError_any fun _ => rfl) ?_
    exact fun _ _ => .ok trivial
  unfold draw
  cases options.kind with
  | bars => exact bars.bind fun _ _ => .ok trivial
  | lines => exact lines.bind fun _ _ => .ok trivial

/-! ### Saving and printing -/

/-- The save operation of the chosen format is carried out and gives this path. -/
def Saves (chart : Chart) (path : String) (after : Workspace) : Prop :=
  match options.format with
  | .tikz =>
    (chart.saveTikz path).runOn workspace = (.ok (), after) ∧
      path = (OutputPaths.ofBase options.output).script
  | .tex => (chart.saveTex options.output).runOn workspace = (.ok path, after)
  | .pdf => (chart.savePdf options.output options.backend).runOn workspace = (.ok path, after)

/-- The save operation of the chosen format refuses. -/
def Refuses (chart : Chart) (cause : ChartError) (after : Workspace) : Prop :=
  match options.format with
  | .tikz =>
    (chart.saveTikz (OutputPaths.ofBase options.output).script).runOn workspace =
      (.error cause, after)
  | .tex => (chart.saveTex options.output).runOn workspace = (.error cause, after)
  | .pdf => (chart.savePdf options.output options.backend).runOn workspace = (.error cause, after)

variable {options workspace}

theorem saves_of_save {chart : Chart} {path : String} {after : Workspace}
    (saved : options.save chart workspace = (.ok path, after)) :
    options.Saves workspace chart path after := by
  unfold save at saved
  unfold Saves
  cases format : options.format with
  | tikz =>
      rw [format] at saved
      obtain ⟨outcome, rfl⟩ := Prod.ext_iff.mp saved
      obtain ⟨_, wrote, rfl⟩ := Outcome.map_eq_ok_iff.mp (Outcome.mapError_eq_ok_iff.mp outcome)
      exact ⟨Step.runOn_of_outcome wrote, rfl⟩
  | tex =>
      rw [format] at saved
      obtain ⟨outcome, rfl⟩ := Prod.ext_iff.mp saved
      exact Step.runOn_of_outcome (Outcome.mapError_eq_ok_iff.mp outcome)
  | pdf =>
      rw [format] at saved
      obtain ⟨outcome, rfl⟩ := Prod.ext_iff.mp saved
      exact Step.runOn_of_outcome (Outcome.mapError_eq_ok_iff.mp outcome)

theorem refuses_of_save {chart : Chart} {cause : ProgramError} {after : Workspace}
    (refused : options.save chart workspace = (.error cause, after)) :
    cause.isLate = true ∧ ∃ found, options.Refuses workspace chart found after := by
  unfold save at refused
  unfold Refuses
  cases format : options.format with
  | tikz =>
      rw [format] at refused
      obtain ⟨outcome, rfl⟩ := Prod.ext_iff.mp refused
      obtain ⟨found, unwritten, rfl⟩ := Outcome.mapError_eq_error_iff.mp outcome
      exact ⟨rfl, found, Step.runOn_of_outcome (Outcome.map_eq_error_iff.mp unwritten)⟩
  | tex =>
      rw [format] at refused
      obtain ⟨outcome, rfl⟩ := Prod.ext_iff.mp refused
      obtain ⟨found, unwritten, rfl⟩ := Outcome.mapError_eq_error_iff.mp outcome
      exact ⟨rfl, found, Step.runOn_of_outcome unwritten⟩
  | pdf =>
      rw [format] at refused
      obtain ⟨outcome, rfl⟩ := Prod.ext_iff.mp refused
      obtain ⟨found, unwritten, rfl⟩ := Outcome.mapError_eq_error_iff.mp outcome
      exact ⟨rfl, found, Step.runOn_of_outcome unwritten⟩

/-- A table whose values can be listed has a text unless too many decimals are asked for. -/
theorem text_or_tooManyDecimals {table : Table} {rows : List (List Binary64)} {digits : Nat}
    {header : Bool} (listed : table.rows = .ok rows) :
    (∃ text, table.text digits header = .ok text) ∨
      Table.maxDecimals < digits ∧
        table.text digits header = .error (.tooManyDecimals digits) := by
  cases result : table.text digits header with
  | ok text => exact .inl ⟨text, rfl⟩
  | error cause =>
      have refused := Outcome.map_eq_error_iff.mp result
      unfold Table.bodyText at refused
      rw [listed] at refused
      rcases Outcome.unless_eq_error_iff.mp refused with ⟨tooMany, rfl⟩ | ⟨_, impossible⟩
      · exact .inr ⟨tooMany.1, rfl⟩
      · cases impossible

/-- A consistent table is printed to its end, if so many decimals can be written at all. -/
theorem print_of_consistent {table : Table} (consistent : table.IsConsistent) :
    (∃ text, table.text options.round (!options.noHeader) = .ok text ∧
      options.print table = ⟨.done, text⟩) ∨
    Table.maxDecimals < options.round ∧ (options.print table).ending = .aborted := by
  obtain ⟨rows, listed, _⟩ := consistent.listed
  unfold print
  rcases text_or_tooManyDecimals listed with ⟨text, written⟩ | ⟨tooMany, refused⟩
  · exact .inl ⟨text, written, by rw [written]⟩
  · exact .inr ⟨tooMany, by rw [refused]⟩

/-! ### Runs -/

/-- All that can become of the options: a failure before anything is saved, a table that is
printed, or a chart that is saved or refused. -/
theorem run_cases (options : Options) (workspace : Workspace) :
    (∃ cause, cause.isLate = false ∧ options.run workspace = (⟨.failed cause, ""⟩, workspace)) ∨
    (∃ table, options.printTable = true ∧ options.load workspace = .ok table ∧
      options.run workspace = (options.print table, workspace)) ∨
    ∃ table chart, options.printTable = false ∧ options.load workspace = .ok table ∧
      options.draw table = .ok chart ∧
      ((∃ cause found after, cause.isLate = true ∧ options.Refuses workspace chart found after ∧
        options.run workspace = (⟨.failed cause, ""⟩, after)) ∨
      ∃ path after, options.Saves workspace chart path after ∧
        options.run workspace = (⟨.done, "Wrote " ++ path ++ "\n"⟩, after)) := by
  cases loaded : options.load workspace with
  | error cause =>
      have early := options.early_load workspace
      rw [loaded] at early
      exact .inl ⟨cause, early.early_of_error, by rw [run, loaded]⟩
  | ok table =>
      cases printing : options.printTable with
      | true =>
          refine .inr (.inl ⟨table, rfl, rfl, ?_⟩)
          rw [run, loaded]
          simp only [printing, if_true]
      | false =>
          cases drawn : options.draw table with
          | error cause =>
              have early := options.early_draw table
              rw [drawn] at early
              refine .inl ⟨cause, early.early_of_error, ?_⟩
              rw [run, loaded]
              simp only [printing, drawn, Bool.false_eq_true, if_false]
          | ok chart =>
              refine .inr (.inr ⟨table, chart, rfl, rfl, drawn, ?_⟩)
              rcases saved : options.save chart workspace with ⟨outcome, after⟩
              have ran : options.run workspace =
                  match outcome with
                  | .error cause => (⟨.failed cause, ""⟩, after)
                  | .ok path => (⟨.done, "Wrote " ++ path ++ "\n"⟩, after) := by
                rw [run, loaded]
                simp only [printing, drawn, saved, Bool.false_eq_true, if_false]
                cases outcome with
                | error cause => rfl
                | ok path => rfl
              cases outcome with
              | error cause =>
                  obtain ⟨late, found, refuses⟩ := refuses_of_save saved
                  exact .inl ⟨cause, found, after, late, refuses, ran⟩
              | ok path => exact .inr ⟨path, after, saves_of_save saved, ran⟩

theorem run_not_usage (usage : UsageError) : (options.run workspace).1.ending ≠ .usage usage := by
  rcases options.run_cases workspace with ⟨cause, _, ran⟩ | ⟨table, _, loaded, ran⟩ |
    ⟨table, chart, _, _, _, ⟨cause, found, after, _, _, ran⟩ | ⟨path, after, _, ran⟩⟩
  · simp [ran]
  · have consistent := (loaded ▸ options.early_load workspace).holds_of_ok
    rcases options.print_of_consistent consistent with
      ⟨text, _, printed⟩ | ⟨_, aborted⟩
    · simp [ran, printed]
    · simp [ran, aborted]
  · simp [ran]
  · simp [ran]

/-- A failure is silent. It came before anything was saved, or it was the chart that was refused. -/
theorem run_failed {cause : ProgramError}
    (failed : (options.run workspace).1.ending = .failed cause) :
    (options.run workspace).1.printed = "" ∧
      (cause.isLate = false → (options.run workspace).2 = workspace) ∧
      (cause.isLate = true → ∃ table chart found, options.load workspace = .ok table ∧
        options.draw table = .ok chart ∧
        options.Refuses workspace chart found (options.run workspace).2) := by
  rcases options.run_cases workspace with ⟨_, early, ran⟩ | ⟨table, _, loaded, ran⟩ |
    ⟨table, chart, _, loaded, drawn, ⟨_, found, after, late, refuses, ran⟩ | ⟨path, after, _, ran⟩⟩
  · rw [ran] at failed ⊢
    cases failed
    exact ⟨rfl, fun _ => rfl, fun late => absurd (early.symm.trans late) Bool.false_ne_true⟩
  · have consistent := (loaded ▸ options.early_load workspace).holds_of_ok
    rw [ran] at failed
    rcases options.print_of_consistent consistent with
      ⟨text, _, printed⟩ | ⟨_, aborted⟩
    · rw [printed] at failed
      cases failed
    · cases failed.symm.trans aborted
  · rw [ran] at failed ⊢
    cases failed
    exact ⟨rfl, fun early => absurd (early.symm.trans late) Bool.false_ne_true,
      fun _ => ⟨table, chart, found, loaded, drawn, refuses⟩⟩
  · rw [ran] at failed
    cases failed

/-- A chart run that ends well has saved its chart and tells where. -/
theorem run_drawing (drawing : options.printTable = false)
    (succeeded : (options.run workspace).1.status = 0) :
    ∃ table chart path, options.load workspace = .ok table ∧ options.draw table = .ok chart ∧
      options.Saves workspace chart path (options.run workspace).2 ∧
      (options.run workspace).1.printed = "Wrote " ++ path ++ "\n" := by
  rcases options.run_cases workspace with ⟨_, _, ran⟩ | ⟨_, printing, _, _⟩ |
    ⟨table, chart, _, loaded, drawn, ⟨_, _, _, _, _, ran⟩ | ⟨path, after, saves, ran⟩⟩
  · rw [ran] at succeeded
    cases succeeded
  · rw [drawing] at printing
    cases printing
  · rw [ran] at succeeded
    cases succeeded
  · rw [ran]
    exact ⟨table, chart, path, loaded, drawn, saves, rfl⟩

/-- A table that was loaded is printed to its end, and nothing else is done. -/
theorem run_printing (printing : options.printTable = true) {table : Table}
    (loaded : options.load workspace = .ok table) :
    (options.run workspace).2 = workspace ∧
      ((∃ text, table.text options.round (!options.noHeader) = .ok text ∧
        (options.run workspace).1 = ⟨.done, text⟩) ∨
      Table.maxDecimals < options.round ∧ (options.run workspace).1.ending = .aborted) := by
  have ran : options.run workspace = (options.print table, workspace) := by
    rw [run, loaded]
    simp only [printing, if_true]
  rw [ran]
  exact ⟨rfl, print_of_consistent (loaded ▸ options.early_load workspace).holds_of_ok⟩

end Options

theorem Program.run_of_options {arguments : List String} {options : Options}
    (parsed : Options.parse arguments = .ok options) (workspace : Workspace) :
    run arguments workspace = options.run workspace := by
  rw [run, parsed]

theorem Program.run_of_usage {arguments : List String} {usage : UsageError}
    (refused : Options.parse arguments = .error usage) (workspace : Workspace) :
    (run arguments workspace).1.ending = .usage usage ∧
      (run arguments workspace).2 = workspace ∧
      ((run arguments workspace).1.status ≠ 0 → (run arguments workspace).1.printed = "") := by
  unfold run
  rw [refused]
  cases usage with
  | displayHelp => exact ⟨rfl, rfl, fun failed => absurd rfl failed⟩
  | displayVersion => exact ⟨rfl, rfl, fun failed => absurd rfl failed⟩
  | _ => exact ⟨rfl, rfl, fun _ => rfl⟩

/-- A run that ends for a wrong command line, or fails before its chart is saved, changes no file,
starts no tool and prints nothing; whoever asks for help is shown it. A run that fails later had a
chart that was refused, and prints nothing either. A run that has drawn a chart and ends well prints
the path name that the save operation gave, and a table that was loaded is printed to its end. -/
theorem run_fails_cleanly (arguments : List String) (workspace : Workspace) :
    let outcome := (Program.run arguments workspace).1
    let after := (Program.run arguments workspace).2
    (∀ cause, outcome.ending = .usage cause →
      after = workspace ∧ (outcome.status ≠ 0 → outcome.printed = "")) ∧
    (∀ cause, outcome.ending = .failed cause → outcome.printed = "" ∧
      (cause.isLate = false → after = workspace) ∧
      (cause.isLate = true → ∃ options table chart found,
        Options.parse arguments = .ok options ∧ options.load workspace = .ok table ∧
        options.draw table = .ok chart ∧ options.Refuses workspace chart found after)) ∧
    (∀ options, Options.parse arguments = .ok options → options.printTable = false →
      outcome.status = 0 → ∃ table chart path, options.load workspace = .ok table ∧
        options.draw table = .ok chart ∧ options.Saves workspace chart path after ∧
        outcome.printed = "Wrote " ++ path ++ "\n") ∧
    ∀ options table, Options.parse arguments = .ok options → options.printTable = true →
      options.load workspace = .ok table → after = workspace ∧
        ((∃ text, table.text options.round (!options.noHeader) = .ok text ∧
          outcome = ⟨.done, text⟩) ∨
        Table.maxDecimals < options.round ∧ outcome.ending = .aborted) := by
  intro outcome after
  cases parsed : Options.parse arguments with
  | error usage =>
      obtain ⟨ending, unchanged, silent⟩ := Program.run_of_usage parsed workspace
      refine ⟨fun _ _ => ⟨unchanged, silent⟩, ?_, ?_, ?_⟩
      · intro cause failed
        cases failed.symm.trans ending
      · intro options impossible
        cases impossible
      · intro options table impossible
        cases impossible
  | ok options =>
      simp only [outcome, after, Program.run_of_options parsed workspace]
      refine ⟨?_, ?_, ?_, ?_⟩
      · intro usage ended
        exact absurd ended (Options.run_not_usage usage)
      · intro cause failed
        obtain ⟨silent, unchanged, refused⟩ := Options.run_failed failed
        refine ⟨silent, unchanged, fun late => ?_⟩
        exact ⟨options, (refused late).imp fun _ rest => rest.imp fun _ rest =>
          rest.imp fun _ rest => ⟨rfl, rest⟩⟩
      · intro found same drawing succeeded
        cases same
        exact Options.run_drawing drawing succeeded
      · intro found table same printing loaded
        cases same
        exact Options.run_printing printing loaded

end TikzChart
