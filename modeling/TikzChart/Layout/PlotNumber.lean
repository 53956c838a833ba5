import TikzChart.Decimal.Dyadic

/-!
The numbers that a layout is computed with. The formulas of the layout are written once, over
`PlotNumber`, and are read twice: over floats when a chart is drawn, and over the rationals when the
geometry itself is studied. Comparisons are Boolean because a NaN makes the order of floats partial.
-/

set_option autoImplicit false

namespace TikzChart

class PlotNumber (α : Type) extends Add α, Sub α, Mul α, Div α where
  ofNat : Nat → α
  equal : α → α → Bool
  less : α → α → Bool
  isNaN : α → Bool
  isFinite : α → Bool
  /-- The nearest whole number, a half away from zero. -/
  round : α → α
  floor : α → α
  toNat : α → Nat

namespace PlotNumber

variable {α : Type} [PlotNumber α]

def zero : α := ofNat 0

def lessOrEqual (x y : α) : Bool := less x y || equal x y

/-- The smaller value; a NaN gives way to the other one, and of two equal values the second
stays. -/
def minimum (x y : α) : α := if less x y || isNaN y then x else y

/-- The larger value; a NaN gives way to the other one, and of two equal values the second stays. -/
def maximum (x y : α) : α := if less y x || isNaN y then x else y

def roundToHundredths (x : α) : α := round (x * ofNat 100) / ofNat 100

end PlotNumber

instance : PlotNumber Float where
  ofNat := Float.ofNat
  equal x y := x == y
  less x y := decide (x < y)
  isNaN := Float.isNaN
  isFinite := Float.isFinite
  round := Whole.round
  floor := Whole.floor
  toNat := Whole.toNat

def roundRat (x : Rat) : Rat :=
  if x < 0 then -(((1 / 2 - x).floor : Int) : Rat) else ((x + 1 / 2).floor : Int)

instance : PlotNumber Rat where
  ofNat n := n
  equal x y := decide (x = y)
  less x y := decide (x < y)
  isNaN _ := false
  isFinite _ := true
  round := roundRat
  floor x := (x.floor : Int)
  toNat x := x.floor.toNat

end TikzChart
