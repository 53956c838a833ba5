import TikzChart.Layout.PlotNumber

/-!
The horizontal layout of grouped bars. The width is divided into one slot a key; a fraction of
each slot stays empty, half of it on either side, and the rest is shared evenly by the series.
-/

set_option autoImplicit false

namespace TikzChart

structure BarLayout (α : Type) where
  slot : α
  bar : α
  gap : α
deriving DecidableEq, Repr

namespace BarLayout

variable {α : Type} [PlotNumber α]

/-- Shares a width among `keys` slots of `series` bars each; `padding` is the empty fraction. -/
def divide (width padding : α) (keys series : Nat) : BarLayout α :=
  let slot := width / PlotNumber.ofNat keys
  { slot
    bar := slot * (PlotNumber.ofNat 1 - padding) / PlotNumber.ofNat series
    gap := padding * slot / PlotNumber.ofNat 2 }

def left (layout : BarLayout α) (series key : Nat) : α :=
  PlotNumber.ofNat key * layout.slot + layout.gap + PlotNumber.ofNat series * layout.bar

def middle (layout : BarLayout α) (key : Nat) : α :=
  PlotNumber.ofNat key * layout.slot + layout.slot / PlotNumber.ofNat 2

end BarLayout

end TikzChart
