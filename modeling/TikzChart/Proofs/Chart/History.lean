import TikzChart.Chart.Save
import TikzChart.Proofs.Chart.Drawn

/-!
Charts under any sequence of operations. An operation edits the configuration, sets the scale or a
label, or draws data, and it may be refused. `ChartOperation.grows` says once what any of them can
do to the styles and commands of a chart; everything that holds of a chart at every moment follows.
-/

set_option autoImplicit false

namespace TikzChart

/-- What can be done to a chart. Every setting is a change of the configuration. -/
inductive ChartOperation where
  | configure (change : Config → Config)
  | setScale (scale : Float)
  | title (content : String) (placement : Placement)
  | xLabel (content : String) (placement : Placement)
  | yLabel (content : String) (placement : Placement)
  | bars (chart : BarChart)
  | lines (chart : LineChart)

def ChartOperation.step : ChartOperation → Charting Unit
  | configure change => Charting.configure change
  | setScale scale => Chart.setScale scale
  | title content placement => Chart.title content placement
  | xLabel content placement => Chart.xLabel content placement
  | yLabel content placement => Chart.yLabel content placement
  | bars chart => chart.draw
  | lines chart => chart.draw

/-- The chart after operations, those that are refused among them. -/
def Chart.after (chart : Chart) (operations : List ChartOperation) : Chart :=
  Step.stateAfter (operations.map ChartOperation.step) chart

/-! ### One operation -/

/-- Styles and commands are only ever added, and what is added is well drawn. -/
structure Chart.Grows (before after : Chart) : Prop where
  depth : after.canvas.depth = before.canvas.depth
  styles : before.canvas.styles <+: after.canvas.styles
  distinct : (before.canvas.styles.map Style.name).Nodup →
    (after.canvas.styles.map Style.name).Nodup
  commands : ∃ added, after.canvas.commands = before.canvas.commands ++ added ∧
    WellDrawn after.canvas.styles added

namespace Chart.Grows

theorem of_same {before after : Chart} (styles : after.canvas.styles = before.canvas.styles)
    (commands : after.canvas.commands = before.canvas.commands)
    (depth : after.canvas.depth = before.canvas.depth) : before.Grows after where
  depth := depth
  styles := styles ▸ List.prefix_rfl
  distinct := fun distinct => styles ▸ distinct
  commands := ⟨[], by rw [commands, List.append_nil], WellDrawn.nil⟩

theorem of_plain {before : Chart} {added : List DrawCommand}
    (plain : ∀ command ∈ added, command.IsPlainIn before.canvas.styles) :
    before.Grows { before with canvas := before.canvas.append added } where
  depth := rfl
  styles := List.prefix_rfl
  distinct := id
  commands := ⟨added, rfl, WellDrawn.of_plain plain⟩

theorem of_addition {planned : Except ChartError Addition} {before : Chart}
    (well : ∀ addition, planned = .ok addition → WellDrawn addition.styles addition.commands) :
    before.Grows (Addition.drawOn planned before).2 := by
  unfold Addition.drawOn
  cases planned with
  | error cause => exact of_same rfl rfl rfl
  | ok addition =>
      dsimp only
      split
      · exact of_same rfl rfl rfl
      · exact
          { depth := rfl
            styles := Style.prefix_addMissing _ _
            distinct := Style.nodup_addMissing _ _
            commands := ⟨addition.commands, rfl,
              (well addition rfl).mono (Style.defined_addMissing _ _)⟩ }

end Chart.Grows

theorem ChartOperation.grows (operation : ChartOperation) (chart : Chart) :
    chart.Grows (operation.step.runOn chart).2 := by
  cases operation with
  | configure change => exact .of_same rfl rfl rfl
  | setScale scale => exact .of_same rfl rfl rfl
  | title content placement => exact .of_plain (by simp [Chart.titleCommands])
  | xLabel content placement => exact .of_plain (by simp [Chart.xLabelCommands])
  | yLabel content placement => exact .of_plain (by simp [Chart.yLabelCommands])
  | bars bars =>
      unfold ChartOperation.step
      rw [bars.runOn_draw]
      exact .of_addition fun addition accepted => BarChart.addition_wellDrawn accepted
  | lines lines =>
      unfold ChartOperation.step
      rw [lines.runOn_draw]
      exact .of_addition fun addition accepted => LineChart.addition_wellDrawn accepted

/-! ### All operations -/

/-- What holds of a chart at every moment. -/
structure Chart.IsSound (chart : Chart) : Prop where
  closed : chart.canvas.depth = 0
  distinct : (chart.canvas.styles.map Style.name).Nodup
  well : WellDrawn chart.canvas.styles chart.canvas.commands

theorem Chart.IsSound.step {before after : Chart} (sound : before.IsSound)
    (grows : before.Grows after) : after.IsSound where
  closed := grows.depth.trans sound.closed
  distinct := grows.distinct sound.distinct
  well := by
    obtain ⟨added, appended, well⟩ := grows.commands
    have kept : WellDrawn after.canvas.styles before.canvas.commands :=
      sound.well.mono fun style member => ⟨style, grows.styles.subset member, rfl⟩
    rw [appended]
    exact kept.append well

theorem Chart.sound_after (config : Config) (operations : List ChartOperation) :
    (({ config } : Chart).after operations).IsSound := by
  apply Step.stateAfter_induction
  · exact { closed := rfl, distinct := List.nodup_nil, well := WellDrawn.nil }
  · intro step member chart sound
    obtain ⟨operation, _, rfl⟩ := List.mem_map.mp member
    exact sound.step (operation.grows chart)

/-! ### Saving -/

theorem Work.output_of_writeText {path text : String} {append : Bool} {workspace : Workspace}
    {cause : ChartError}
    (failed : ((Work.writeText path text append).runOn workspace).1 = .error cause) :
    ∃ found, cause = .output found := by
  unfold Work.writeText at failed
  rw [Step.runOn_bind_ok (Step.runOn_get workspace)] at failed
  split at failed
  · cases failed
  · cases failed
    exact ⟨_, rfl⟩

namespace Chart

variable {chart : Chart} (closed : chart.canvas.depth = 0) {workspace : Workspace}
  {cause : ChartError}

include closed

theorem script_of_closed : chart.script = .ok chart.canvas.writeAll := by
  unfold script Canvas.script
  rw [if_neg (not_not_intro closed)]

/-- A picture without open parts is refused by the file system alone. -/
theorem output_of_save {path : String} {append : Bool}
    (failed : ((chart.canvas.save path append).runOn workspace).1 = .error cause) :
    ∃ found, cause = .output found := by
  unfold Canvas.save at failed
  rcases Step.error_of_bind failed with noScript | ⟨text, after, _, notWritten⟩
  · have script : chart.canvas.script = .ok chart.canvas.writeAll := script_of_closed closed
    rw [Step.runOn_ofExcept, script] at noScript
    cases noScript
  · exact Work.output_of_writeText notWritten

theorem output_of_saveTex {base : String}
    (failed : ((chart.saveTex base).runOn workspace).1 = .error cause) :
    ∃ found, cause = .output found := by
  unfold saveTex at failed
  rw [if_neg (not_not_intro closed)] at failed
  rcases Step.error_of_bind failed with noHeader | ⟨_, _, _, failed⟩
  · exact Work.output_of_writeText noHeader
  · rcases Step.error_of_bind failed with noPicture | ⟨_, _, _, failed⟩
    · exact output_of_save closed noPicture
    · rcases Step.error_of_bind failed with noFooter | ⟨_, _, _, failed⟩
      · exact Work.output_of_writeText noFooter
      · cases failed

end Chart

/-- At every moment in the life of a chart no part is open and parts are nested, so that neither the
script nor a file is refused for an open part; the next operation only adds to styles and commands;
no style name is defined twice; and every bar, line and sample is drawn in a defined style. -/
theorem chart_sound_at_every_moment (config : Config) (operations : List ChartOperation) :
    let chart := ({ config } : Chart).after operations
    (chart.canvas.depth = 0 ∧ Nested chart.canvas.commands ∧
      (∃ text, chart.script = .ok text) ∧
      ∀ workspace path depth,
        ((chart.saveTikz path).runOn workspace).1 ≠ .error (.unbalancedPicture depth) ∧
        ((chart.saveTex path).runOn workspace).1 ≠ .error (.unbalancedPicture depth)) ∧
    (∀ operation : ChartOperation,
      chart.canvas.commands <+: (operation.step.runOn chart).2.canvas.commands ∧
      chart.canvas.styles <+: (operation.step.runOn chart).2.canvas.styles) ∧
    (chart.canvas.styles.map Style.name).Nodup ∧
    DrawnIn chart.canvas.styles 0 chart.canvas.commands := by
  intro chart
  have sound : chart.IsSound := Chart.sound_after config operations
  refine ⟨⟨sound.closed, sound.well.nested, ⟨_, Chart.script_of_closed sound.closed⟩, ?_⟩, ?_,
    sound.distinct, sound.well.drawn⟩
  · intro workspace path depth
    constructor
    · intro failed
      obtain ⟨found, same⟩ := Chart.output_of_save sound.closed failed
      cases same
    · intro failed
      obtain ⟨found, same⟩ := Chart.output_of_saveTex sound.closed failed
      cases same
  · intro operation
    have grows := operation.grows chart
    obtain ⟨added, appended, _⟩ := grows.commands
    exact ⟨⟨added, appended.symm⟩, grows.styles⟩

end TikzChart
