import TikzChart.Layout.Scale

/-!
Reference marks along the axes. The vertical axis has a step and a count, each of which may be
fixed or left to be derived; `resolveTics` settles both and refuses more than `maxTicCount`
marks. The marks of the horizontal axis are values chosen by the caller.
-/

set_option autoImplicit false

namespace TikzChart

def defaultTicCount : Nat := 10

def maxTicCount : Nat := 1000

structure TicSettings (α : Type) where
  step : Option α
  count : Option Nat
deriving DecidableEq, Repr

structure TicMark (α : Type) where
  value : α
  position : α
deriving DecidableEq, Repr

variable {α : Type} [PlotNumber α]

/-- One more than the number of steps that fit into the height. A step that is no positive number
gives no tics. -/
def countForStep (scale : LinearScale α) (step height : α) : Except (LayoutError α) Nat :=
  if PlotNumber.isNaN step || PlotNumber.lessOrEqual step PlotNumber.zero then .ok 0
  else
    let spaces := PlotNumber.floor (height / (scale.factor * step))
    if PlotNumber.isNaN spaces || PlotNumber.less spaces PlotNumber.zero then .ok 0
    else if PlotNumber.lessOrEqual (PlotNumber.ofNat maxTicCount) spaces then
      .error (.tooManyTics step maxTicCount)
    else .ok (PlotNumber.toNat spaces + 1)

def stepForCount (scale : LinearScale α) (count : Nat) (fraction : α) : α :=
  PlotNumber.roundToHundredths ((scale.high - scale.low) / (PlotNumber.ofNat count * fraction))

def resolveTics (scale : LinearScale α) (settings : TicSettings α) (height fraction : α) :
    Except (LayoutError α) (α × Nat) := do
  let (step, count) ← match settings.step, settings.count with
    | some step, some count => pure (step, count)
    | none, count =>
      let count := count.getD defaultTicCount
      pure (stepForCount scale count fraction, count)
    | some step, none => pure (step, ← countForStep scale step height)
  if maxTicCount < count then .error (.tooManyTics step maxTicCount) else pure (step, count)

def ticAt (scale : LinearScale α) (step : α) (index : Nat) : TicMark α :=
  let rise := PlotNumber.ofNat index * step
  ⟨scale.low + rise, linearScale rise PlotNumber.zero scale.factor⟩

/-- The marks of the vertical axis, from the first step up; none for a step that is not a positive
finite number. -/
def yTics (scale : LinearScale α) (settings : TicSettings α) (height fraction : α) :
    Except (LayoutError α) (List (TicMark α)) := do
  let (step, count) ← resolveTics scale settings height fraction
  if PlotNumber.lessOrEqual step PlotNumber.zero || !PlotNumber.isFinite step then pure []
  else pure ((List.range' 1 (count - 1)).map (ticAt scale step))

def xTics (scale : LinearScale α) (values : List α) : List (TicMark α) :=
  values.map fun value => ⟨value, scale.toPlot value⟩

end TikzChart
