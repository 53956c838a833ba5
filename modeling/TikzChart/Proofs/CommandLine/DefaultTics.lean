import TikzChart.CommandLine.Program
import TikzChart.Proofs.Chart.TicSettings
import TikzChart.Proofs.Layout.DefaultStep

/-!
Tics that were not asked for. A chart of a normalized table has a step of a tenth, and data that
spans eighty of such units or more leaves no room for it; every other chart finds its own step.
Charts are refused for their tics only when everything else about them is settled, so it is the
scale of the values that tells which charts these are.
-/

set_option autoImplicit false

namespace TikzChart

/-- The causes of a run that could not lay out its chart because of the tics. -/
def ProgramError.isTooManyTics : ProgramError → Bool
  | barLayout cause => cause.isTooManyTics
  | lineLayout cause => cause.isTooManyTics
  | _ => false

namespace Options

variable {options : Options} {table : Table}

/-! ### What comes before the tics -/

def barChart (options : Options) (table : Table) (rows : List (List Binary64)) : BarChart where
  keys := table.keys
  series := rows.map (·.map Binary64.toFloat)
  legend := options.legend table
  base := options.valueBase
  top := options.valueCeiling
  padding := options.keyPadding

def lineChart (options : Options) (table : Table) (points : LinePoints) : LineChart where
  lines := points.lines.map (·.map fun (x, y) => (x.toFloat, y.toFloat))
  legend := options.legend table
  base := options.valueBase
  top := options.valueCeiling
  xTics := points.tics.map Binary64.toFloat
  padded := !options.noPadding
  marked := options.markers

/-- The scale of the vertical axis, when there is nothing but the tics that a chart could be refused
for. -/
def spread (options : Options) (table : Table) : Except ProgramError (LinearScale Float) :=
  let config := options.config.withTics ⟨none, none⟩
  match options.kind with
  | .bars => do
    let rows ← table.rows.mapError .table
    let plan ← ((options.barChart table rows).plan config).mapError .barLayout
    pure plan.scale
  | .lines => do
    let points ← (LinePoints.ofTable table options.xTicsStep).mapError .table
    let plan ← ((options.lineChart table points).plan config).mapError .lineLayout
    pure plan.yScale

def layoutFailure (options : Options) (cause : LayoutError Float) : ProgramError :=
  match options.kind with
  | .bars => .barLayout (.layout cause)
  | .lines => .lineLayout (.layout cause)

def ticsOn (options : Options) (scale : LinearScale Float) :
    Except (LayoutError Float) (List (TicMark Float)) :=
  yTics scale options.config.yTics.tics options.config.height options.config.ceiling

/-- What becomes of a drawing, with the chart dropped, when its tics come last. -/
theorem outcome_of_drawing {α β : Type} {listing : Except ProgramError α}
    {drawing : α → Except ChartError Unit × Chart} {plan : α → Except ChartError β}
    {scaleOf : β → LinearScale Float} {rename : ChartError → ProgramError}
    (outcome : ∀ listed, (drawing listed).1 = (do
      let planned ← plan listed
      let _ ← (options.ticsOn (scaleOf planned)).mapError .layout
      pure ())) :
    Except.map (fun _ => ()) (do
      let listed ← listing
      (drawing listed).1.mapError rename
      pure (drawing listed).2) = (do
        let scale ← listing >>= fun listed =>
          (plan listed).mapError rename >>= fun planned => pure (scaleOf planned)
        let _ ← (options.ticsOn scale).mapError fun cause => rename (.layout cause)
        pure ()) := by
  simp only [bind_assoc, pure_bind]
  refine Outcome.map_bind.trans (bind_congr fun listed => Outcome.map_bind_pure.trans ?_)
  rw [outcome, Outcome.mapError_bind]
  refine bind_congr fun planned => ?_
  rw [Outcome.mapError_bind, Outcome.mapError_mapError]
  rfl

theorem drawBars_outcome (isBars : options.kind = .bars) :
    (options.drawBars table).map (fun _ => ()) = (do
      let scale ← options.spread table
      let _ ← (options.ticsOn scale).mapError options.layoutFailure
      pure ()) := by
  unfold spread layoutFailure
  rw [isBars]
  exact outcome_of_drawing fun rows => (options.barChart table rows).outcome_draw options.chart rfl

theorem drawLines_outcome (isLines : options.kind = .lines) :
    (options.drawLines table).map (fun _ => ()) = (do
      let scale ← options.spread table
      let _ ← (options.ticsOn scale).mapError options.layoutFailure
      pure ()) := by
  unfold spread layoutFailure
  rw [isLines]
  exact outcome_of_drawing fun points =>
    (options.lineChart table points).outcome_draw options.chart rfl

theorem draw_outcome : (options.draw table).map (fun _ => ()) = (do
    let scale ← options.spread table
    let _ ← (options.ticsOn scale).mapError options.layoutFailure
    pure ()) := by
  -- labels are put on whatever was drawn
  have labelled (drawn : Except ProgramError Chart) :
      (drawn >>= fun chart => pure (options.drawLabels.runOn chart).2).map (fun _ => ()) =
        drawn.map fun _ => () := by
    cases drawn with
    | error cause => rfl
    | ok chart => rfl
  unfold draw
  cases kind : options.kind with
  | bars => exact (labelled _).trans (drawBars_outcome kind)
  | lines => exact (labelled _).trans (drawLines_outcome kind)

/-- A chart of a table is refused without regard to its tics, or its tics do not fit. -/
theorem draw_error_iff {cause : ProgramError} : options.draw table = .error cause ↔
    options.spread table = .error cause ∨
      ∃ scale, options.spread table = .ok scale ∧
        ∃ refusal, options.ticsOn scale = .error refusal ∧ options.layoutFailure refusal = cause := by
  rw [← Outcome.map_eq_error_iff, draw_outcome, Outcome.bind_eq_error_iff]
  refine or_congr Iff.rfl (exists_congr fun scale => and_congr Iff.rfl ?_)
  rw [Outcome.bind_eq_error_iff, Outcome.mapError_eq_error_iff]
  refine or_iff_left ?_
  rintro ⟨_, _, impossible⟩
  cases impossible

theorem spread_error {cause : ProgramError} (failed : options.spread table = .error cause) :
    cause.isTooManyTics = false := by
  unfold spread at failed
  cases kind : options.kind with
  | bars =>
      simp only [kind, Outcome.bind_eq_error_iff, Outcome.mapError_eq_error_iff] at failed
      rcases failed with ⟨_, _, rfl⟩ | ⟨_, _, ⟨_, refused, rfl⟩ | ⟨_, _, impossible⟩⟩
      · rfl
      · exact BarChart.plan_error_of_none refused
      · cases impossible
  | lines =>
      simp only [kind, Outcome.bind_eq_error_iff, Outcome.mapError_eq_error_iff] at failed
      rcases failed with ⟨_, _, rfl⟩ | ⟨_, _, ⟨_, refused, rfl⟩ | ⟨_, _, impossible⟩⟩
      · rfl
      · exact LineChart.plan_error_of_none refused
      · cases impossible

theorem isTooManyTics_layoutFailure {cause : LayoutError Float} :
    (options.layoutFailure cause).isTooManyTics = (ChartError.layout cause).isTooManyTics := by
  unfold layoutFailure
  cases options.kind with
  | bars => rfl
  | lines => rfl

/-- The values that a chart of the table shows. -/
def plotted (options : Options) (table : Table) : Except TableError (List (List Float)) :=
  match options.kind with
  | .bars => table.rows.map (·.map (·.map Binary64.toFloat))
  | .lines =>
    (LinePoints.ofTable table options.xTicsStep).map fun points =>
      points.lines.map (·.map fun point => point.2.toFloat)

theorem spread_ok {scale : LinearScale Float} (found : options.spread table = .ok scale) :
    ∃ values, options.plotted table = .ok values ∧
      deriveScale (.ofRows values) options.valueBase options.valueCeiling options.config.height
        options.config.ceiling = .ok scale := by
  unfold spread at found
  unfold plotted
  cases kind : options.kind with
  | bars =>
      simp only [kind, Outcome.bind_eq_ok_iff, Outcome.mapError_eq_ok_iff] at found
      obtain ⟨rows, listed, plan, planned, same⟩ := found
      cases same
      exact ⟨_, congrArg (Except.map _) listed, (BarChart.planned_of_plan planned).scale⟩
  | lines =>
      simp only [kind, Outcome.bind_eq_ok_iff, Outcome.mapError_eq_ok_iff] at found
      obtain ⟨points, listed, plan, planned, same⟩ := found
      cases same
      have derived := (LineChart.planned_of_plan planned).yScale
      have ordinates : (options.lineChart table points).lines.map (·.map Prod.snd) =
          points.lines.map (·.map fun point => point.2.toFloat) := by
        simp only [lineChart, List.map_map, Function.comp_def]
      rw [ordinates] at derived
      exact ⟨_, congrArg (Except.map _) listed, derived⟩

/-! ### What the tics were set to -/

/-- The configuration without the step and the count that were asked for. -/
def ticless (options : Options) : Config :=
  let labelled := fun (config : Config) font =>
    ((config.withTitleFont font).withXLabelFont font).withYLabelFont font
  ({} : Config).withDimensions (options.width.getD 0) (options.height.getD 0)
    |> apply Config.withCeiling options.ceiling
    |> apply (fun config shift => config.withLegendShift shift.1 shift.2) options.legendShift
    |> apply (fun config font => (config.withXTicFont font).withYTicFont font) options.ticFont
    |> apply labelled options.labelFont

theorem apply_withTics {α : Type} {change : Config → α → Config} {tics : TicSettings Float}
    (commutes : ∀ config value,
      change (config.withTics tics) value = (change config value).withTics tics)
    (value : Option α) (config : Config) :
    apply change value (config.withTics tics) = (apply change value config).withTics tics := by
  cases value with
  | none => rfl
  | some value => exact commutes config value

theorem apply_tics {config : Config} (untouched : config.withTics ⟨none, none⟩ = config)
    (step : Option Float) (count : Option ℕ) :
    apply Config.withTicCount count (apply Config.withTicStep step config) =
      config.withTics ⟨step, count⟩ := by
  rw [← untouched]
  cases step with
  | none =>
      cases count with
      | none => rfl
      | some count => rfl
  | some step =>
      cases count with
      | none => rfl
      | some count => rfl

theorem config_eq :
    options.config = options.ticless.withTics ⟨options.chosenTicStep, options.ticCount⟩ := by
  let sized := ({} : Config).withDimensions (options.width.getD 0) (options.height.getD 0)
  have untouched : (apply Config.withCeiling options.ceiling sized).withTics ⟨none, none⟩ =
      apply Config.withCeiling options.ceiling sized :=
    (apply_withTics (fun _ _ => rfl) options.ceiling sized).symm
  unfold config ticless
  dsimp only
  rw [apply_tics untouched, apply_withTics fun _ _ => rfl, apply_withTics fun _ _ => rfl,
    apply_withTics fun _ _ => rfl]

theorem spread_of_count (count : ℕ) :
    { options with ticCount := some count }.spread table = options.spread table := by
  have same : { options with ticCount := some count }.config.withTics ⟨none, none⟩ =
      options.config.withTics ⟨none, none⟩ := by
    rw [config_eq, config_eq]
    rfl
  unfold spread
  rw [same]
  rfl

/-- Neither the tics nor what they depend on besides the data was asked for. -/
structure LeavesTics (options : Options) : Prop where
  noStep : options.ticStep = none
  noCount : options.ticCount = none
  noHeight : options.height = none
  noCeiling : options.ceiling = none

theorem apply_keeps {α β : Type} {change : Config → α → Config} (part : Config → β)
    (keeps : ∀ config value, part (change config value) = part config) (value : Option α)
    (config : Config) : part (apply change value config) = part config := by
  cases value with
  | none => rfl
  | some value => exact keeps config value

theorem LeavesTics.heights (leaves : options.LeavesTics) :
    options.config.height = 100 ∧ options.config.ceiling = 0.8 := by
  let heights : Config → Float × Float := fun config => (config.height, config.ceiling)
  have kept : heights options.ticless = (100, 0.8) := by
    -- neither the fonts nor the place of the legend matter
    rw [ticless, apply_keeps heights, apply_keeps heights, apply_keeps heights, leaves.noHeight,
      leaves.noCeiling]
    · rfl
    · exact fun _ shift => rfl
    · exact fun _ ticFont => rfl
    · exact fun _ labelFont => rfl
  rw [config_eq]
  exact Prod.mk.inj kept

theorem LeavesTics.tics (leaves : options.LeavesTics) : options.config.yTics.tics =
    ⟨if options.normalize.isSome then some 0.1 else none, none⟩ := by
  rw [config_eq, leaves.noCount, chosenTicStep, leaves.noStep, leaves.noCount, Option.isNone_none,
    Bool.and_true]
  rfl

/-- The values to plot, with the base and the top that were asked for, are spread over eighty or
more. -/
def SpreadsWide (options : Options) (table : Table) : Prop :=
  ∃ values, options.plotted table = .ok values ∧
    (NumericTree.ofRows values).SpansEighty options.valueBase options.valueCeiling

theorem LeavesTics.exceeds_iff (leaves : options.LeavesTics) {scale : LinearScale Float}
    (found : options.spread table = .ok scale) :
    options.config.yTics.tics.Exceeds scale options.config.height ↔
      options.normalize ≠ none ∧ options.SpreadsWide table := by
  obtain ⟨values, listed, derived⟩ := spread_ok found
  obtain ⟨height, ceiling⟩ := leaves.heights
  rw [height, ceiling] at derived
  rw [height, leaves.tics]
  cases options.normalize with
  | none => exact iff_of_false id fun both => both.1 rfl
  | some baseline =>
      rw [and_iff_right (Option.some_ne_none baseline)]
      refine (exceeds_tenth_iff_spansEighty derived).trans ⟨fun wide => ⟨values, listed, wide⟩, ?_⟩
      rintro ⟨_, same, wide⟩
      cases listed.symm.trans same
      exact wide

end Options

/-- When neither the step nor the count of the tics is given, nor the height or its share for the
data, a chart is refused for its tics only when its table is normalized, which sets the tics a tenth
apart, and the plotted values with base and top spread over eighty or more. Such a chart is refused
for its tics, or for a cause that no count of tics would help. -/
theorem default_tics_refused_only_when_wide (options : Options) (table : Table)
    (leaves : options.LeavesTics) :
    (∀ cause, options.draw table = .error cause → cause.isTooManyTics = true →
      options.normalize ≠ none ∧ options.SpreadsWide table) ∧
    (options.normalize ≠ none → options.SpreadsWide table →
      ∃ cause, options.draw table = .error cause ∧ (cause.isTooManyTics = true ∨
        ∀ count, { options with ticCount := some count }.draw table = .error cause)) := by
  constructor
  · intro cause failed tooMany
    rcases Options.draw_error_iff.mp failed with unspread | ⟨scale, found, _, refused, _⟩
    · rw [Options.spread_error unspread] at tooMany
      cases tooMany
    · exact (leaves.exceeds_iff found).mp (exceeds_of_yTics_error refused)
  · intro normalized wide
    -- without a scale it is not the tics that are to blame
    cases found : options.spread table with
    | error cause =>
        refine ⟨cause, Options.draw_error_iff.mpr (.inl found), .inr fun count => ?_⟩
        exact Options.draw_error_iff.mpr (.inl ((Options.spread_of_count count).trans found))
    | ok scale =>
        obtain ⟨step, refused⟩ := yTics_of_exceeds ((leaves.exceeds_iff found).mpr ⟨normalized, wide⟩)
        refine ⟨_, Options.draw_error_iff.mpr (.inr ⟨scale, found, _, refused, rfl⟩), .inl ?_⟩
        rw [Options.isTooManyTics_layoutFailure]
        rfl

/-- A thousand times as much as the baseline. -/
def wideRuns : Workspace :=
  { tree := ⟨[(["runs.csv"], .file "key,base,new\ngcc,1,1000\n".toUTF8)]⟩ }

def wideTable : Table :=
  { keys := ["gcc"]
    data := ⟨[("base", .ofList [("gcc", .ofFloat 1)]), ("new", .ofList [("gcc", .ofFloat 1000)])]⟩ }

/-- The table of wide runs is refused when it is normalized, and else not for its tics. -/
theorem wideTable_refused :
    ({ normalize := some "base" } : Options).LeavesTics ∧
    ({ normalize := some "base" } : Options).SpreadsWide wideTable ∧
    (∃ cause, ({ normalize := some "base" } : Options).draw wideTable = .error cause ∧
      (cause.isTooManyTics = true ∨ ∀ count,
        ({ normalize := some "base", ticCount := some count } : Options).draw wideTable =
          .error cause)) ∧
    ∀ cause, ({} : Options).draw wideTable = .error cause → ¬cause.isTooManyTics = true := by
  have leaves : ({ normalize := some "base" } : Options).LeavesTics := ⟨rfl, rfl, rfl, rfl⟩
  have wide : ({ normalize := some "base" } : Options).SpreadsWide wideTable :=
    ⟨[[1], [1000]], by decide +kernel, 1, 1000, by decide +kernel, by decide +kernel⟩
  have plain : ({} : Options).LeavesTics := ⟨rfl, rfl, rfl, rfl⟩
  refine ⟨leaves, wide, ?_, ?_⟩
  · exact (default_tics_refused_only_when_wide _ wideTable leaves).2 (by decide) wide
  · intro cause failed tooMany
    exact ((default_tics_refused_only_when_wide _ wideTable plain).1 cause failed tooMany).1 rfl

/-- A run with no option about tics that is refused for its tics. -/
theorem wideRuns_refused :
    (Program.run ["--table", "runs.csv", "--normalize", "base", "--no-mean"] wideRuns).1.ending =
      .failed (.barLayout (.layout (.tooManyTics 0.1 1000))) := by
  decide +kernel

end TikzChart
