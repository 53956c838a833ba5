import TikzChart.ChartError

/-!
The built-in palettes and the styles they give to the series of a chart. Series get the
directives of a palette in order; the name of a style is the stem of its palette and the
position of its series.
-/

set_option autoImplicit false

namespace TikzChart

/-- A named drawing style; the directive is written to TikZ as it stands. -/
structure Style where
  name : String
  directive : String
deriving DecidableEq, Repr

inductive Palette where
  | bars
  | twoBars
  | threeBars
  | lines
deriving DecidableEq, Repr

namespace Palette

/-- What the names of the styles begin with. -/
def stem : Palette → String
  | bars => "bar-style"
  | twoBars => "bar-style"
  | threeBars => "bar-style"
  | lines => "line-style"

/-- The directives in the order in which series get them. -/
def directives : Palette → List String
  | bars =>
    ["fill=black!60", "fill=black!100", "fill=black!0", "pattern=north west lines", "fill=black!40",
      "pattern=north east lines", "pattern=crosshatch", "pattern=crosshatch dots", "fill=black!20",
      "pattern=horizontal lines", "fill=black!80"]
  | twoBars => ["fill=black!30", "fill=black!100"]
  | threeBars => ["fill=black!0", "pattern=crosshatch", "fill=black!100"]
  | lines =>
    ["black!40,semithick", "densely dotted,thick", "dashed,thick", "black,thick",
      "black!60,semithick", "densely dashed,thick", "red", "blue"]

def capacity (palette : Palette) : Nat := palette.directives.length

/-- The name of the style at a position, counted from 0; names count from 1, in 64-bit words. -/
def styleName (palette : Palette) (position : Nat) : String :=
  palette.stem ++ "-" ++ toString (UInt64.ofNat position + 1).toNat

/-- The styles for `count` series, in series order. -/
def assign (palette : Palette) (count : Nat) : Except DataError (List Style) :=
  if palette.capacity < count then .error (.insufficientStyles count palette.capacity)
  else .ok ((palette.directives.take count).mapIdx fun position directive =>
    ⟨palette.styleName position, directive⟩)

/-- Two or three series of bars have palettes of their own. -/
def forBars (series : Nat) : Palette :=
  match series with
  | 2 => twoBars
  | 3 => threeBars
  | _ => bars

end Palette

def assignBars (series : Nat) : Except DataError (List Style) :=
  (Palette.forBars series).assign series

def assignLines (series : Nat) : Except DataError (List Style) := Palette.lines.assign series

end TikzChart
