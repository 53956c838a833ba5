import TikzChart.Decimal.Shortest

/-!
Lengths, points and displacements as TikZ writes them. All lengths are millimetres, measured
from the lower left corner of the frame.
-/

set_option autoImplicit false

namespace TikzChart

/-- A number in a script: at most six decimals, no trailing zeros and never a negative zero. -/
def numberText (x : Float) : String :=
  if x.isFinite then
    let rounded := Whole.round (x * 1e6) / 1e6
    if rounded == 0 then "0" else Decimal.plainText rounded
  else Decimal.nonFiniteText x

/-- The two coordinates in parentheses, in millimetres. -/
def pairText (x y : Float) : String :=
  "(" ++ numberText x ++ "mm, " ++ numberText y ++ "mm)"

structure Point where
  x : Float
  y : Float
deriving DecidableEq, Repr

namespace Point

def origin : Point := ⟨0, 0⟩

def offset (point : Point) (dx dy : Float) : Point := ⟨point.x + dx, point.y + dy⟩

def text (point : Point) : String := pairText point.x point.y

end Point

/-- A displacement from the point before it. -/
structure Shift where
  dx : Float
  dy : Float
deriving DecidableEq, Repr

def Shift.text (shift : Shift) : String := "++" ++ pairText shift.dx shift.dy

end TikzChart
