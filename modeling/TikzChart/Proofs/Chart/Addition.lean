import Mathlib.Data.List.Nodup
import TikzChart.Chart.Bars
import TikzChart.Chart.Lines
import TikzChart.Proofs.Picture.Drawing

/-!
What a bar chart or a line chart adds to the chart that it is drawn on. A plan that has passed its
checks determines an `Addition`: the styles that it needs, the commands that it appends and the
configuration that it leaves behind. Drawing is then one decision. Either the plan or the style
table refuses, and nothing has happened, or the whole addition is carried out.
-/

set_option autoImplicit false

namespace TikzChart

/-! ### Style tables -/

/-- The style table with those of the styles whose names it lacks. -/
def Style.addMissing (table : List Style) : List Style → List Style
  | [] => table
  | style :: styles =>
    addMissing (if table.any (·.name == style.name) then table else table ++ [style]) styles

/-- The canvas with those of the styles whose names it lacks. -/
def Canvas.withStyles (canvas : Canvas) (styles : List Style) : Canvas :=
  { canvas with styles := Style.addMissing canvas.styles styles }

theorem Canvas.isSome_style? (canvas : Canvas) (name : String) :
    (canvas.style? name).isSome = canvas.styles.any (·.name == name) := by
  unfold Canvas.style?
  rw [Bool.eq_iff_iff, List.find?_isSome, List.any_eq_true]

namespace Style

variable (table styles : List Style)

theorem prefix_addMissing : table <+: addMissing table styles := by
  induction styles generalizing table with
  | nil => exact List.prefix_rfl
  | cons style styles ih =>
      unfold addMissing
      split
      · exact ih table
      · exact (List.prefix_append table [style]).trans (ih (table ++ [style]))

theorem nodup_addMissing (distinct : (table.map Style.name).Nodup) :
    ((addMissing table styles).map Style.name).Nodup := by
  induction styles generalizing table with
  | nil => exact distinct
  | cons style styles ih =>
      unfold addMissing
      cases taken : table.any (·.name == style.name) with
      | true => exact ih table distinct
      | false =>
          apply ih
          have fresh : style.name ∉ table.map Style.name := by
            intro inTable
            obtain ⟨other, member, named⟩ := List.mem_map.mp inTable
            have free := List.any_eq_false.mp taken other member
            rw [named] at free
            exact free (beq_self_eq_true _)
          rw [if_neg Bool.false_ne_true, List.map_append, List.map_singleton,
            ← List.concat_eq_append]
          exact distinct.concat fresh

/-- Afterwards every one of the names is defined. -/
theorem defined_addMissing :
    ∀ style ∈ styles, ∃ other ∈ addMissing table styles, other.name = style.name := by
  induction styles generalizing table with
  | nil => exact fun _ impossible => nomatch impossible
  | cons style styles ih =>
      unfold addMissing
      intro wanted member
      rcases List.mem_cons.mp member with rfl | inRest
      · cases taken : table.any (·.name == wanted.name) with
        | true =>
            obtain ⟨other, inTable, named⟩ := List.any_eq_true.mp taken
            exact ⟨other, (prefix_addMissing table styles).subset inTable, eq_of_beq named⟩
        | false =>
            have added := (prefix_addMissing (table ++ [wanted]) styles).subset
              (List.mem_append_right table List.mem_cons_self)
            exact ⟨wanted, added, rfl⟩
      · exact ih _ wanted inRest

end Style

namespace Chart

/-- Only a missing style is defined, so no definition is refused. -/
theorem runOn_defineMissing (styles : List Style) (canvas : Canvas) :
    (defineMissing styles).runOn canvas = (.ok (), canvas.withStyles styles) := by
  induction styles generalizing canvas with
  | nil => rfl
  | cons style styles ih =>
      unfold defineMissing
      rw [Step.runOn_bind_ok (Step.runOn_get canvas)]
      cases taken : (canvas.style? style.name).isSome with
      | true =>
          have inTable := canvas.isSome_style? style.name ▸ taken
          have notNone : ¬(canvas.style? style.name).isNone = true := by
            rw [← Option.not_isSome, taken]
            decide
          rw [if_neg notNone]
          change (defineMissing styles).runOn canvas = _
          rw [ih]
          simp only [Canvas.withStyles, Style.addMissing, inTable, if_true]
      | false =>
          have notInTable := canvas.isSome_style? style.name ▸ taken
          have isNone : (canvas.style? style.name).isNone = true := by
            rw [← Option.not_isSome, taken]
            rfl
          have defined := Drawing.runOn_defineStyle style canvas
          rw [taken, if_neg Bool.false_ne_true] at defined
          rw [if_pos isNone, Step.runOn_bind_ok defined, ih]
          simp only [Canvas.withStyles, Style.addMissing, notInTable, Bool.false_eq_true, if_false]

/-- Every name is checked before the first style is defined: a refusal changes nothing. -/
theorem runOn_ensureStyles (styles : List Style) (canvas : Canvas) :
    (ensureStyles styles).runOn canvas =
      match styles.find? (isTaken canvas) with
      | some style => (.error (.data (.duplicateStyle style.name)), canvas)
      | none => (.ok (), canvas.withStyles styles) := by
  unfold ensureStyles
  rw [Step.runOn_bind_ok (Step.runOn_get canvas)]
  cases styles.find? (isTaken canvas) with
  | some style => rfl
  | none => exact runOn_defineMissing styles canvas

end Chart

/-! ### Additions -/

/-- What a chart that has passed its checks brings along. -/
structure Addition where
  styles : List Style
  commands : List DrawCommand
  config : Config

/-- Draws on a chart what has been planned for it, all of it or nothing. -/
def Addition.drawOn (planned : Except ChartError Addition) (chart : Chart) :
    Except ChartError Unit × Chart :=
  match planned with
  | .error cause => (.error cause, chart)
  | .ok addition =>
    match addition.styles.find? (Chart.isTaken chart.canvas) with
    | some style => (.error (.data (.duplicateStyle style.name)), chart)
    | none =>
      (.ok (),
        { config := addition.config
          canvas := (chart.canvas.withStyles addition.styles).append addition.commands })

/-- All that can become of an addition. -/
theorem Addition.drawOn_cases (planned : Except ChartError Addition) (chart : Chart) :
    (∃ cause, drawOn planned chart = (.error cause, chart)) ∨
      ∃ addition, planned = .ok addition ∧
        addition.styles.find? (Chart.isTaken chart.canvas) = none ∧
        drawOn planned chart =
          (.ok (),
            { config := addition.config
              canvas := (chart.canvas.withStyles addition.styles).append addition.commands }) := by
  unfold drawOn
  cases planned with
  | error cause => exact .inl ⟨cause, rfl⟩
  | ok addition =>
      dsimp only
      cases found : addition.styles.find? (Chart.isTaken chart.canvas) with
      | some style => exact .inl ⟨_, rfl⟩
      | none => exact .inr ⟨addition, rfl, found, rfl⟩

/-- Nothing has happened when an addition is refused. -/
theorem Addition.drawOn_of_error {planned : Except ChartError Addition} {chart : Chart}
    {cause : ChartError} (refused : (drawOn planned chart).1 = .error cause) :
    (drawOn planned chart).2 = chart := by
  rcases drawOn_cases planned chart with ⟨_, drawn⟩ | ⟨_, _, _, drawn⟩
  · rw [drawn]
  · rw [drawn] at refused
    cases refused

/-- On a canvas without styles only the plan decides. -/
theorem Addition.outcome_drawOn {planned : Except ChartError Addition} {chart : Chart}
    (fresh : chart.canvas.styles = []) :
    (drawOn planned chart).1 = planned.map fun _ => () := by
  cases planned with
  | error cause => rfl
  | ok addition =>
      have free : addition.styles.find? (Chart.isTaken chart.canvas) = none := by
        rw [List.find?_eq_none]
        intro style _
        rw [Chart.isTaken, Canvas.style?, fresh, List.find?_nil]
        exact Bool.false_ne_true
      unfold drawOn
      dsimp only
      rw [free]
      rfl

namespace Charting

theorem runOn_onCanvas {α : Type} (drawing : Drawing α) (chart : Chart) :
    (onCanvas drawing).runOn chart =
      ((drawing.runOn chart.canvas).1, { chart with canvas := (drawing.runOn chart.canvas).2 }) :=
  rfl

theorem runOn_onCanvas_appends {drawing : Drawing Unit} {commands : List DrawCommand}
    (appends : drawing.Appends commands) (chart : Chart) :
    (onCanvas drawing).runOn chart =
      (.ok (), { chart with canvas := chart.canvas.append commands }) := by
  rw [runOn_onCanvas, appends chart.canvas]

@[simp] theorem runOn_configure (change : Config → Config) (chart : Chart) :
    (configure change).runOn chart = (.ok (), { chart with config := change chart.config }) := rfl

/-- A drawing whose last part cannot fail is decided by the style table. -/
theorem runOn_ensureStyles_then {styles : List Style} {drawing : Charting Unit}
    {chart finished : Chart}
    (finishes : drawing.runOn { chart with canvas := chart.canvas.withStyles styles } =
      (.ok (), finished)) :
    (onCanvas (Chart.ensureStyles styles) >>= fun _ => drawing).runOn chart =
      match styles.find? (Chart.isTaken chart.canvas) with
      | some style => (.error (.data (.duplicateStyle style.name)), chart)
      | none => (.ok (), finished) := by
  have ensured := runOn_onCanvas (Chart.ensureStyles styles) chart
  rw [Chart.runOn_ensureStyles] at ensured
  cases found : styles.find? (Chart.isTaken chart.canvas) with
  | some style =>
      rw [found] at ensured
      rw [Step.runOn_bind_error ensured]
  | none =>
      rw [found] at ensured
      rw [Step.runOn_bind_ok ensured, finishes]

end Charting

end TikzChart
