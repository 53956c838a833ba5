import TikzChart.ChartError
import TikzChart.Palette
import TikzChart.Picture.Command
import TikzChart.Step

/-!
The canvas: a table of named styles and the commands drawn so far, with the number of parts that are
still open. Drawing only ever appends. A `Drawing` is a step that changes a canvas and may fail.
-/

set_option autoImplicit false

namespace TikzChart

structure Canvas where
  styles : List Style := []
  commands : List DrawCommand := []
  depth : Nat := 0
  scale : Float := 1
deriving DecidableEq, Repr

abbrev Drawing (α : Type) := Step ChartError Canvas α

namespace Canvas

def style? (canvas : Canvas) (name : String) : Option Style :=
  canvas.styles.find? (·.name == name)

def append (canvas : Canvas) (commands : List DrawCommand) : Canvas :=
  { canvas with commands := canvas.commands ++ commands }

def heading (canvas : Canvas) : List String :=
  ["\\begin" ++ Text.braced "tikzpicture" ++ "[scale=" ++ numberText canvas.scale ++ "]", "",
    DrawCommand.rule, "% List of available styles", DrawCommand.rule]
  ++ canvas.styles.map fun style =>
    "\\tikzset" ++ Text.braced (style.name ++ "/.style=" ++ Text.braced style.directive) ++ ";"

def pieces (canvas : Canvas) : List String :=
  canvas.heading ++ [""] ++ canvas.commands.map DrawCommand.write
    ++ ["", "\\end" ++ Text.braced "tikzpicture"]

/-- The picture as text, whether or not parts are open. -/
def writeAll (canvas : Canvas) : String :=
  String.join (canvas.pieces.map (· ++ "\n"))

def script (canvas : Canvas) : Except ChartError String :=
  if canvas.depth ≠ 0 then .error (.unbalancedPicture canvas.depth) else .ok canvas.writeAll

end Canvas

namespace Drawing

def draw (commands : List DrawCommand) : Drawing Unit := modify (·.append commands)

def setScale (scale : Float) : Drawing Unit := modify ({ · with scale })

def defineStyle (style : Style) : Drawing Unit := do
  if ((← get).style? style.name).isSome then throw (.data (.duplicateStyle style.name))
  modify fun canvas => { canvas with styles := canvas.styles ++ [style] }

def barSet (lefts bottoms heights : List Float) (width : Float) (options : String) :
    Drawing Unit := do
  if lefts.length ≠ bottoms.length ∨ lefts.length ≠ heights.length then
    let mismatched :=
      (decide (bottoms.length ≠ lefts.length)).toNat
        + (decide (heights.length ≠ lefts.length)).toNat
    throw (.data (.seriesLengthMismatch lefts.length mismatched))
  draw ((lefts.zip (bottoms.zip heights)).map fun (left, bottom, height) =>
    .rectangle ⟨left, bottom⟩ width height options)

def openPart (point : Point) (options : String) : Drawing Unit := do
  modify fun canvas => { canvas with depth := canvas.depth + 1 }
  draw [.openPart point options]

def closePart : Drawing Unit := do
  if (← get).depth = 0 then throw (.unbalancedPicture 0)
  modify fun canvas => { canvas with depth := canvas.depth - 1 }
  draw [.closePart]

end Drawing

end TikzChart
