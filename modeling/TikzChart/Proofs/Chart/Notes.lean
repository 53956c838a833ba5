import TikzChart.Proofs.Chart.Accepted
import TikzChart.Proofs.Chart.History
import TikzChart.Proofs.Picture.Comments

/-!
The comments of charts. All but those of the series have fixed notes, and those end in the label of
their series; so a drawing adds a note that spills exactly when one of its labels has a live line
behind its first one. What is drawn in between does not matter.
-/

set_option autoImplicit false

namespace TikzChart

open DrawCommand

variable {ending : LineEnding}

/-! ### Notes of commands -/

namespace Spotless

theorem append_iff {first second : List DrawCommand} :
    Spotless ending (first ++ second) ↔ Spotless ending first ∧ Spotless ending second := by
  unfold Spotless
  simp only [List.mem_append, or_imp, forall_and]

theorem comment_iff {note : String} :
    Spotless ending [comment note] ↔ Script.spill ending note = [] := by
  simp [Spotless]

theorem of_drawings {commands : List DrawCommand}
    (drawings : ∀ command ∈ commands, command.isComment = false) : Spotless ending commands := by
  intro note member
  cases drawings _ member

theorem flatten_iff {parts : List (List DrawCommand)} :
    Spotless ending parts.flatten ↔ ∀ part ∈ parts, Spotless ending part := by
  constructor
  · intro spotless part isPart note member
    exact spotless note (List.mem_flatten.mpr ⟨part, isPart, member⟩)
  · intro spotless note member
    obtain ⟨part, isPart, inPart⟩ := List.mem_flatten.mp member
    exact spotless part isPart note inPart

end Spotless

/-- The notes and beginnings of notes that a chart is drawn with. -/
def Script.fixedNotes : List String :=
  ["Plot title", "Plot x-label", "Plot y-label", "Y-Tics", "X-Tics", "X-Tics: Keys",
    "Legend for the keys", "WHITE BACKGROUND : ", "REAL STYLE : ", "Line: "]

theorem Script.unbroken_of_fixed (ending : LineEnding) :
    ∀ note ∈ fixedNotes, ∀ c ∈ note.toList, ending.ends c = false := by
  have unbroken : (fixedNotes.all fun note => note.toList.all fun c => !ending.ends c) = true := by
    cases ending with
    | feed => decide
    | feedOrReturn => decide
  intro note isFixed c member
  have every := List.all_eq_true.mp (List.all_eq_true.mp unbroken note isFixed) c member
  rwa [Bool.not_eq_true'] at every

/-- A fixed note in front of commands that are no comments. -/
theorem Spotless.titled {note : String} (isFixed : note ∈ Script.fixedNotes)
    {commands : List DrawCommand}
    (drawings : ∀ command ∈ commands, command.isComment = false) :
    Spotless ending (comment note :: commands) := by
  have silent := Script.spill_of_unbroken ending (Script.unbroken_of_fixed ending note isFixed)
  exact Spotless.append_iff.mpr ⟨Spotless.comment_iff.mpr silent, .of_drawings drawings⟩

/-- A note that ends in a label spills when the label does. -/
theorem Script.spill_labelled {start : String} (isFixed : start ∈ fixedNotes) (label : String) :
    spill ending (start ++ label) = spill ending label :=
  spill_append ending (unbroken_of_fixed ending start isFixed) label

/-! ### Parts of charts -/

theorem Chart.spotless_yTicCommands (config : Config) (tics : List (TicMark Float)) :
    Spotless ending (yTicCommands config tics) := by
  have drawings : ∀ command ∈ tics.flatMap (yTicCommandsAt config) ++ [blank],
      command.isComment = false := by
    simp +contextual [yTicCommandsAt, isComment, or_imp]
  exact .titled (by simp [Script.fixedNotes]) drawings

theorem Chart.spotless_xTicCommands (config : Config) (tics : List (TicMark Float)) :
    Spotless ending (xTicCommands config tics) := by
  have drawings : ∀ command ∈ tics.flatMap (xTicCommandsAt config) ++ [blank],
      command.isComment = false := by
    simp +contextual [xTicCommandsAt, isComment, or_imp]
  exact .titled (by simp [Script.fixedNotes]) drawings

theorem BarChart.spotless_keyCommands (chart : BarChart) (plan : BarPlan) (config : Config) :
    Spotless ending (chart.keyCommands plan config) := by
  have drawings : ∀ command ∈ chart.keys.mapIdx (keyCommand plan config) ++ [blank],
      command.isComment = false := by
    simp only [List.mem_append, List.mem_mapIdx, List.mem_singleton]
    rintro command (⟨position, _, rfl⟩ | rfl)
    · rfl
    · rfl
  exact .titled (by simp [Script.fixedNotes]) drawings

theorem Legend.spotless_last (sample : Sample) (labels : List String) (styles : List Style)
    (config : Config) : Spotless ending (last sample labels styles config) := by
  unfold last
  split
  · exact .of_drawings nofun
  · have drawings : ∀ command ∈ (ofLabels sample labels styles).commands config.legend,
        command.isComment = false := by
      intro command member
      obtain ⟨commands, ofEntry, inEntry⟩ := List.mem_flatten.mp member
      obtain ⟨position, _, rfl⟩ := List.mem_mapIdx.mp ofEntry
      simp only [entryCommands, List.mem_cons, List.not_mem_nil, or_false] at inEntry
      rcases inEntry with rfl | rfl
      · unfold sampleCommand
        cases (ofLabels sample labels styles).sample with
        | box => rfl
        | line => rfl
      · rfl
    rw [drawn_eq, List.singleton_append]
    refine .titled (by simp [Script.fixedNotes]) ?_
    simp only [List.mem_append, List.mem_cons, List.not_mem_nil, or_false]
    rintro command ((rfl | rfl | inEntries) | rfl)
    · rfl
    · rfl
    · exact drawings command inEntries
    · rfl

theorem DrawCommand.bars_drawings (lefts bottoms heights : List Float) (width : Float)
    (options : String) :
    ∀ command ∈ bars lefts bottoms heights width options, command.isComment = false := by
  intro command member
  obtain ⟨_, _, rfl⟩ := List.mem_map.mp member
  rfl

/-! ### Labels -/

/-- Some note spills when some label does; where there is no label, nothing spills. -/
theorem Script.spill_labels_iff {labels : List String} {count : ℕ}
    (fits : labels ≠ [] → labels.length = count) :
    (∀ position, position < count → spill ending (labels[position]?.getD "") = []) ↔
      ∀ label ∈ labels, spill ending label = [] := by
  constructor
  · intro silent label member
    obtain ⟨position, bound, rfl⟩ := List.mem_iff_getElem.mp member
    have here := silent position (fits (List.ne_nil_of_mem member) ▸ bound)
    rwa [List.getElem?_eq_getElem bound] at here
  · intro silent position _
    cases found : labels[position]? with
    | none =>
        cases ending with
        | feed => decide
        | feedOrReturn => decide
    | some label => exact silent label (List.mem_of_getElem? found)

theorem Spotless.flatten_mapIdx_iff {α : Type} {commands : ℕ → α → List DrawCommand}
    {labels : List String} {items : List α} (fits : labels ≠ [] → labels.length = items.length)
    (each : ∀ position item, Spotless ending (commands position item) ↔
      Script.spill ending (labels[position]?.getD "") = []) :
    Spotless ending (items.mapIdx commands).flatten ↔
      ∀ label ∈ labels, Script.spill ending label = [] := by
  rw [Spotless.flatten_iff, ← Script.spill_labels_iff fits]
  constructor
  · intro spotless position bound
    exact (each position items[position]).mp
      (spotless _ (List.mem_mapIdx.mpr ⟨position, bound, rfl⟩))
  · intro silent part isPart
    obtain ⟨position, bound, rfl⟩ := List.mem_mapIdx.mp isPart
    exact (each position items[position]).mpr (silent position bound)

theorem BarChart.spotless_seriesCommands_iff (chart : BarChart) (plan : BarPlan) (position : ℕ)
    (entry : List Float × Style) :
    Spotless ending (chart.seriesCommands plan position entry) ↔
      Script.spill ending (chart.legend[position]?.getD "") = [] := by
  have noNotes (options : String) : Spotless ending (bars (chart.lefts plan position) chart.bottoms
      (entry.1.map plan.scale.toPlot) plan.layout.bar options) :=
    .of_drawings (bars_drawings _ _ _ _ _)
  have gap : Spotless ending [blank] := .of_drawings (by simp [isComment])
  have behindGap (note : String) :
      Spotless ending [blank, comment note] ↔ Script.spill ending note = [] := by
    simp [Spotless]
  have white := @Script.spill_labelled ending "WHITE BACKGROUND : " (by simp [Script.fixedNotes])
  have styled := @Script.spill_labelled ending "REAL STYLE : " (by simp [Script.fixedNotes])
  unfold seriesCommands
  simp only [Spotless.append_iff, Spotless.comment_iff, behindGap, white, styled, noNotes, gap,
    true_and, and_true, and_self]

theorem LineChart.spotless_lineCommands_iff (chart : LineChart) (plan : LinePlan) (position : ℕ)
    (line : List (Float × Float) × Style) :
    Spotless ending (chart.lineCommands plan position line) ↔
      Script.spill ending (chart.legend[position]?.getD "") = [] := by
  have labelled := @Script.spill_labelled ending "Line: " (by simp [Script.fixedNotes])
  unfold lineCommands
  dsimp only
  rw [← List.singleton_append, Spotless.append_iff, Spotless.comment_iff, labelled]
  refine and_iff_left (.of_drawings ?_)
  cases chart.marked with
  | true => simp [isComment]
  | false => simp [isComment]

/-! ### Whole charts -/

/-- Labels, where there are any, are as many as the series under their styles. -/
theorem Chart.length_labels {α : Type} {labels : List String} {items : List α}
    {palette : Palette} {styles : List Style}
    (checked : checkLegend labels.length items.length = .ok ())
    (assigned : palette.assign items.length = .ok styles) (someLabels : labels ≠ []) :
    labels.length = (items.zip styles).length := by
  rw [List.length_zip, Palette.length_of_assign assigned, Nat.min_self]
  exact length_eq_of_checkLegend checked someLabels

theorem BarChart.Planned.spotless_iff {chart : BarChart} {config : Config} {plan : BarPlan}
    (planned : chart.Planned config plan) :
    Spotless ending (chart.body plan config
        ++ Legend.last .box chart.legend plan.styles config) ↔
      ∀ label ∈ chart.legend, Script.spill ending label = [] := by
  have fits := Chart.length_labels planned.legend planned.styles
  have frame : Spotless ending [Chart.frame config, blank] :=
    .of_drawings (by simp [Chart.frame, isComment])
  have gap : Spotless ending [blank] := .of_drawings (by simp [isComment])
  unfold body
  simp only [Spotless.append_iff, frame, gap, Chart.spotless_yTicCommands,
    chart.spotless_keyCommands, Legend.spotless_last, and_true, true_and]
  exact Spotless.flatten_mapIdx_iff fits (chart.spotless_seriesCommands_iff plan)

theorem LineChart.Planned.spotless_iff {chart : LineChart} {config : Config} {plan : LinePlan}
    (planned : chart.Planned config plan) :
    Spotless ending (chart.body plan config
        ++ Legend.last .line chart.legend plan.styles config) ↔
      ∀ label ∈ chart.legend, Script.spill ending label = [] := by
  have fits := Chart.length_labels planned.legend planned.styles
  have frame : Spotless ending [Chart.frame config] :=
    .of_drawings (by simp [Chart.frame, isComment])
  unfold body
  simp only [Spotless.append_iff, frame, Chart.spotless_yTicCommands, Chart.spotless_xTicCommands,
    Legend.spotless_last, and_true, true_and]
  exact Spotless.flatten_mapIdx_iff fits (chart.spotless_lineCommands_iff plan)

/-- An accepted bar chart adds a note that spills exactly when one of its labels does. -/
theorem BarChart.spotless_draw_iff {chart : BarChart} {start final : Chart}
    (accepted : chart.draw.runOn start = (.ok (), final)) :
    Spotless ending final.canvas.commands ↔
      Spotless ending start.canvas.commands ∧
        ∀ label ∈ chart.legend, Script.spill ending label = [] := by
  obtain ⟨plan, planned, commands⟩ := planned_of_draw accepted
  rw [commands, Spotless.append_iff, planned.spotless_iff]

theorem LineChart.spotless_draw_iff {chart : LineChart} {start final : Chart}
    (accepted : chart.draw.runOn start = (.ok (), final)) :
    Spotless ending final.canvas.commands ↔
      Spotless ending start.canvas.commands ∧
        ∀ label ∈ chart.legend, Script.spill ending label = [] := by
  obtain ⟨plan, planned, commands⟩ := planned_of_draw accepted
  rw [commands, Spotless.append_iff, planned.spotless_iff]

/-! ### Charts at every moment -/

/-- The labels that an operation brings along. -/
def ChartOperation.labels : ChartOperation → List String
  | bars chart => chart.legend
  | lines chart => chart.legend
  | _ => []

theorem ChartOperation.spotless_step (operation : ChartOperation) {chart : Chart}
    (spotless : Spotless ending chart.canvas.commands)
    (silent : ∀ label ∈ operation.labels, Script.spill ending label = []) :
    Spotless ending (operation.step.runOn chart).2.canvas.commands := by
  have titled {note : String} (isFixed : note ∈ Script.fixedNotes) (point : Point)
      (content : String) (font : FontSize) (options : String) :
      Spotless ending
        (chart.canvas.commands ++ [comment note, text point content font options]) := by
    exact Spotless.append_iff.mpr ⟨spotless, .titled isFixed (by simp [isComment])⟩
  cases operation with
  | configure change => exact spotless
  | setScale scale => exact spotless
  | title content placement => exact titled (by simp [Script.fixedNotes]) _ _ _ _
  | xLabel content placement => exact titled (by simp [Script.fixedNotes]) _ _ _ _
  | yLabel content placement => exact titled (by simp [Script.fixedNotes]) _ _ _ _
  | bars bars =>
      unfold ChartOperation.step
      cases outcome : (bars.draw.runOn chart).1 with
      | ok done => exact (bars.spotless_draw_iff (Step.runOn_of_ok outcome)).mpr ⟨spotless, silent⟩
      | error cause =>
          rw [bars.runOn_draw] at outcome ⊢
          rwa [Addition.drawOn_of_error outcome]
  | lines lines =>
      unfold ChartOperation.step
      cases outcome : (lines.draw.runOn chart).1 with
      | ok done => exact (lines.spotless_draw_iff (Step.runOn_of_ok outcome)).mpr ⟨spotless, silent⟩
      | error cause =>
          rw [lines.runOn_draw] at outcome ⊢
          rwa [Addition.drawOn_of_error outcome]

theorem Chart.spotless_after (config : Config) (operations : List ChartOperation)
    (silent : ∀ operation ∈ operations, ∀ label ∈ operation.labels,
      Script.spill ending label = []) :
    Spotless ending (({ config } : Chart).after operations).canvas.commands := by
  refine @Step.stateAfter_induction _ _
    (fun chart : Chart => Spotless ending chart.canvas.commands) _ _ ?_ ?_
  · exact .of_drawings nofun
  · intro step member chart spotless
    obtain ⟨operation, isOperation, rfl⟩ := List.mem_map.mp member
    exact operation.spotless_step spotless (silent operation isOperation)

/-- The script of a canvas and that of the canvas without its comments have the same live lines. -/
def Canvas.CommentsInert (ending : LineEnding) (canvas : Canvas) : Prop :=
  ∃ text bare, canvas.script = .ok text ∧ canvas.withoutComments.script = .ok bare ∧
    Script.live ending bare.toList = Script.live ending text.toList

theorem Canvas.commentsInert_iff {canvas : Canvas} (closed : canvas.depth = 0) :
    canvas.CommentsInert ending ↔ Spotless ending canvas.commands := by
  have script : canvas.script = .ok canvas.writeAll := if_neg (not_not_intro closed)
  have bare : canvas.withoutComments.script = .ok canvas.withoutComments.writeAll :=
    if_neg (not_not_intro closed)
  rw [← canvas.live_withoutComments_eq_iff ending]
  constructor
  · rintro ⟨_, _, isScript, isBare, same⟩
    cases script.symm.trans isScript
    cases bare.symm.trans isBare
    exact same
  · intro same
    exact ⟨_, _, script, bare, same⟩

/-- Comments are inert in a balanced picture exactly when no note has a live line behind its first
one; what they put into the script never takes a line away. In the comments of a chart, only the
labels of series can have such lines. -/
theorem comments_inert_unless_notes_spill (ending : LineEnding) :
    (∀ note : String, (∀ c ∈ note.toList, ending.ends c = false) →
      Script.spill ending note = []) ∧
    (∀ canvas : Canvas, canvas.depth = 0 →
      (canvas.CommentsInert ending ↔ Spotless ending canvas.commands) ∧
        (Script.live ending canvas.withoutComments.writeAll.toList).Sublist
          (Script.live ending canvas.writeAll.toList)) ∧
    (∀ (chart : BarChart) (start final : Chart), chart.draw.runOn start = (.ok (), final) →
      (Spotless ending final.canvas.commands ↔ Spotless ending start.canvas.commands ∧
        ∀ label ∈ chart.legend, Script.spill ending label = [])) ∧
    (∀ (chart : LineChart) (start final : Chart), chart.draw.runOn start = (.ok (), final) →
      (Spotless ending final.canvas.commands ↔ Spotless ending start.canvas.commands ∧
        ∀ label ∈ chart.legend, Script.spill ending label = [])) ∧
    ∀ (config : Config) (operations : List ChartOperation),
      (∀ operation ∈ operations, ∀ label ∈ operation.labels, Script.spill ending label = []) →
      (({ config } : Chart).after operations).canvas.CommentsInert ending := by
  refine ⟨fun note => Script.spill_of_unbroken ending, ?_, ?_, ?_, ?_⟩
  · intro canvas closed
    exact ⟨Canvas.commentsInert_iff closed, canvas.live_withoutComments_sublist ending⟩
  · intro chart start final accepted
    exact chart.spotless_draw_iff accepted
  · intro chart start final accepted
    exact chart.spotless_draw_iff accepted
  · intro config operations silent
    have closed := (Chart.sound_after config operations).closed
    exact (Canvas.commentsInert_iff closed).mpr (Chart.spotless_after config operations silent)

/-- A title and bars in two series; a comment mark in a name does no harm. -/
theorem labelled_bars_inert :
    (({} : Chart).after [.title "Run times" {}, .bars ⟨["gcc", "mcf"], [[1, 2], [3, 4]],
      ["base", "100% \\bf"], 0, 0, 0.3⟩]).canvas.CommentsInert .feedOrReturn := by
  have silent : ∀ label ∈ ["base", "100% \\bf"], Script.spill .feedOrReturn label = [] := by
    decide
  refine (comments_inert_unless_notes_spill .feedOrReturn).2.2.2.2 {} _ ?_
  exact List.forall_mem_cons.mpr ⟨nofun, List.forall_mem_cons.mpr ⟨silent, nofun⟩⟩

/-- A name of two lines, as a quoted field can hold it. -/
def brokenName : String := "base\n\\input\x7bother\x7d"

def brokenBars : BarChart := ⟨["gcc"], [[1]], [brokenName], 0, 0, 0.3⟩

/-- The second line of the name is live in the script, whether the name is a note on a canvas or the
label of a series. -/
theorem broken_name_escapes :
    ¬({ commands := [.comment brokenName] } : Canvas).CommentsInert .feed ∧
      (brokenBars.draw.runOn {}).1 = .ok () ∧
      ¬(({} : Chart).after [.bars brokenBars]).canvas.CommentsInert .feed := by
  have spills : Script.spill .feed brokenName ≠ [] := by decide
  have accepted : (brokenBars.draw.runOn {}).1 = .ok () := by decide +kernel
  refine ⟨?_, accepted, ?_⟩
  · rw [Canvas.commentsInert_iff rfl, Spotless.comment_iff]
    exact spills
  · have closed := (Chart.sound_after {} [.bars brokenBars]).closed
    rw [Canvas.commentsInert_iff closed]
    intro spotless
    have labels := (BarChart.spotless_draw_iff (Step.runOn_of_ok accepted)).mp spotless
    exact spills (labels.2 brokenName (by simp [brokenBars]))

end TikzChart
