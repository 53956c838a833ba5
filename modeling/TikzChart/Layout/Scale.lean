import TikzChart.Layout.Tree

/-!
The affine map from values to positions on the page. `LinearScale.fit` stretches an interval of
values over an extent and refuses an interval that has no usable scale; `deriveScale` does so
for everything that one chart plots on its vertical axis.
-/

set_option autoImplicit false

namespace TikzChart

inductive LayoutError (α : Type) where
  | noValues
  | degenerateRange (low high : α)
  | tooManyTics (step : α) (limit : Nat)
deriving DecidableEq, Repr

/-- `offset + (value - low) * factor`, for values from `low` to `high`. -/
structure LinearScale (α : Type) where
  low : α
  high : α
  factor : α
  offset : α
deriving DecidableEq, Repr

variable {α : Type} [PlotNumber α]

def linearScale (value low factor : α) : α := (value - low) * factor

namespace LinearScale

def fit (low high extent : α) : Except (LayoutError α) (LinearScale α) :=
  if PlotNumber.equal high low then .error (.degenerateRange low high)
  else
    let factor := extent / (high - low)
    if PlotNumber.isFinite factor then .ok ⟨low, high, factor, PlotNumber.zero⟩
    else .error (.degenerateRange low high)

def withOffset (scale : LinearScale α) (offset : α) : LinearScale α := { scale with offset }

def toPlot (scale : LinearScale α) (value : α) : α :=
  scale.offset + linearScale value scale.low scale.factor

def apply (scale : LinearScale α) (values : NumericTree α) : NumericTree α :=
  values.map scale.toPlot

end LinearScale

/-- The scale of a chart: from the smallest of `base` and the values to the largest of `top` and the
values, over the given fraction of the height. -/
def deriveScale (values : NumericTree α) (base top height fraction : α) :
    Except (LayoutError α) (LinearScale α) :=
  match values.range with
  | none => .error .noValues
  | some (low, high) =>
    LinearScale.fit (PlotNumber.minimum base low) (PlotNumber.maximum top high) (height * fraction)

end TikzChart
