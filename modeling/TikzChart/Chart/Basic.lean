import TikzChart.Picture.Legend

/-!
A chart under construction: its configuration and the canvas that it is drawn on. Labels are set
relative to the frame. `Charting` steps change a chart and may fail.
-/

set_option autoImplicit false

namespace TikzChart

structure Chart where
  config : Config := {}
  canvas : Canvas := {}
deriving DecidableEq, Repr

abbrev Charting (α : Type) := Step ChartError Chart α

namespace Charting

def onCanvas {α : Type} (drawing : Drawing α) : Charting α := ExceptT.mk fun chart =>
  let (outcome, canvas) := drawing.runOn chart.canvas
  (outcome, { chart with canvas })

def configure (change : Config → Config) : Charting Unit :=
  modify fun chart => { chart with config := change chart.config }

end Charting

structure Placement where
  xshift : Float := 0
  yshift : Float := 0
  /-- The configured font when there is none. -/
  font : Option FontSize := none
  options : String := ""
deriving DecidableEq, Repr

namespace Config

/-- Sets the size of the plot; a zero leaves a dimension as it is. -/
def withDimensions (config : Config) (width height : Float) : Config :=
  { config with
    width := if width != 0 then width else config.width
    height := if height != 0 then height else config.height }

def withMargins (config : Config) (margins : Margins) : Config := { config with margins }

def withTicStep (config : Config) (step : Float) : Config :=
  { config with
    yTics := { config.yTics with tics := { config.yTics.tics with step := some step } } }

def withTicCount (config : Config) (count : Nat) : Config :=
  { config with
    yTics := { config.yTics with tics := { config.yTics.tics with count := some count } } }

def withTicShift (config : Config) (shift : Float) : Config :=
  { config with yTics := { config.yTics with shift } }

def withCeiling (config : Config) (ceiling : Float) : Config := { config with ceiling }

def withLegendShift (config : Config) (xshift yshift : Float) : Config :=
  { config with legend := { config.legend with xshift, yshift } }

def withYTicFont (config : Config) (font : FontSize) : Config :=
  { config with yTics := { config.yTics with font } }

def withXTicFont (config : Config) (font : FontSize) : Config :=
  { config with xTics := { config.xTics with font } }

def withTitleFont (config : Config) (font : FontSize) : Config :=
  { config with title := { config.title with font } }

def withXLabelFont (config : Config) (font : FontSize) : Config :=
  { config with xLabel := { config.xLabel with font } }

def withYLabelFont (config : Config) (font : FontSize) : Config :=
  { config with yLabel := { config.yLabel with font } }

end Config

namespace Chart

def titleCommands (config : Config) (content : String) (placement : Placement) :
    List DrawCommand :=
  let x := config.width / 2 + config.title.xshift + placement.xshift
  let y := config.height + config.title.yshift + placement.yshift
  [.comment "Plot title",
    .text ⟨x, y⟩ content (placement.font.getD config.title.font) placement.options]

def xLabelCommands (config : Config) (content : String) (placement : Placement) :
    List DrawCommand :=
  let x := config.width / 2 + config.xLabel.xshift + placement.xshift
  let y := config.xLabel.yshift + placement.yshift
  [.comment "Plot x-label",
    .text ⟨x, y⟩ content (placement.font.getD config.xLabel.font) placement.options]

def yLabelCommands (config : Config) (content : String) (placement : Placement) :
    List DrawCommand :=
  let x := config.yLabel.xshift + placement.xshift
  let y := config.height / 2 + config.yLabel.yshift + placement.yshift
  [.comment "Plot y-label",
    .text ⟨x, y⟩ content (placement.font.getD config.yLabel.font)
      (DrawCommand.joinOptions "[rotate=90]" placement.options)]

def title (content : String) (placement : Placement) : Charting Unit := do
  Charting.onCanvas (Drawing.draw (titleCommands (← get).config content placement))

def xLabel (content : String) (placement : Placement) : Charting Unit := do
  Charting.onCanvas (Drawing.draw (xLabelCommands (← get).config content placement))

def yLabel (content : String) (placement : Placement) : Charting Unit := do
  Charting.onCanvas (Drawing.draw (yLabelCommands (← get).config content placement))

/-- The scale that the whole picture is drawn at; the page is sized without it. -/
def setScale (scale : Float) : Charting Unit := Charting.onCanvas (Drawing.setScale scale)

/-- A legend is either absent or has one label a series. -/
def checkLegend (labels series : Nat) : Except ChartError Unit :=
  if 0 < labels ∧ labels ≠ series then .error (.data (.legendCountMismatch labels series))
  else .ok ()

def isTaken (canvas : Canvas) (style : Style) : Bool :=
  match canvas.style? style.name with
  | some existing => existing.directive != style.directive
  | none => false

def defineMissing : List Style → Drawing Unit
  | [] => pure ()
  | style :: styles => do
    if ((← get).style? style.name).isNone then Drawing.defineStyle style
    defineMissing styles

/-- Defines styles, unless one of their names already has another meaning. Every name is checked
before the first one is defined. -/
def ensureStyles (styles : List Style) : Drawing Unit := do
  match styles.find? (isTaken (← get)) with
  | some style => throw (.data (.duplicateStyle style.name))
  | none => defineMissing styles

def yTicCommandsAt (config : Config) (tic : TicMark Float) : List DrawCommand :=
  [.lineBy ⟨0, tic.position⟩ ⟨-config.yTics.size, 0⟩ "",
    .lineBy ⟨0, tic.position⟩ ⟨config.width, 0⟩ "[thin,densely dotted]",
    .text ⟨config.yTics.shift, tic.position⟩ (numberText tic.value) config.yTics.font "[left]"]

def yTicCommands (config : Config) (tics : List (TicMark Float)) : List DrawCommand :=
  [.comment "Y-Tics"] ++ tics.flatMap (yTicCommandsAt config) ++ [.blank]

def xTicCommandsAt (config : Config) (tic : TicMark Float) : List DrawCommand :=
  [.lineBy ⟨tic.position, 0⟩ ⟨0, -config.xTics.size⟩ "",
    .text ⟨tic.position, config.xTics.shift - 3⟩ (numberText tic.value) config.xTics.font ""]

def xTicCommands (config : Config) (tics : List (TicMark Float)) : List DrawCommand :=
  [.comment "X-Tics"] ++ tics.flatMap (xTicCommandsAt config) ++ [.blank]

def frame (config : Config) : DrawCommand := .rectangle Point.origin config.width config.height ""

end Chart

end TikzChart
