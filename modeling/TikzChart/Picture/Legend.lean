import TikzChart.Config
import TikzChart.Picture.Canvas

/-!
The legend: a framed part of the picture with one entry a series. An entry is a sample of the
style, a box for bars and a short line for lines, and the label to the right of it. Entries are
stacked from the bottom up in reverse, so that the first series is on top.
-/

set_option autoImplicit false

namespace TikzChart

inductive Sample where
  | box
  | line
deriving DecidableEq, Repr

structure Legend where
  sample : Sample
  entries : List (String × Style)
deriving DecidableEq, Repr

namespace Legend

/-- Pairs labels with styles by position; what is left over on either side is dropped. -/
def ofLabels (sample : Sample) (labels : List String) (styles : List Style) : Legend :=
  ⟨sample, labels.zip styles⟩

/-- The distance from the entry to its text; a line sample is twice as wide as a box. -/
def textShift (layout : LegendLayout) : Sample → Float
  | .box => layout.textXshift
  | .line => layout.textXshift + layout.boxWidth

def entryCorner (layout : LegendLayout) (height : Nat) : Point :=
  ⟨layout.entryXshift, layout.entryYshift + Float.ofNat height * layout.entryHeight⟩

def sampleCommand (layout : LegendLayout) (sample : Sample) (corner : Point) (style : Style) :
    DrawCommand :=
  match sample with
  | .box => .rectangle corner layout.boxWidth layout.boxHeight ("[style=" ++ style.name ++ "]")
  | .line =>
    .lineBy (corner.offset 0 (layout.boxHeight / 2)) ⟨layout.boxWidth * 2, 0⟩
      ("[" ++ style.name ++ "]")

def entryCommands (layout : LegendLayout) (sample : Sample) (height : Nat)
    (entry : String × Style) : List DrawCommand :=
  let corner := entryCorner layout height
  [sampleCommand layout sample corner entry.2,
    .text (corner.offset (textShift layout sample) layout.textYshift) entry.1 layout.font "[right]"]

def commands (legend : Legend) (layout : LegendLayout) : List DrawCommand :=
  (legend.entries.reverse.mapIdx (entryCommands layout legend.sample)).flatten

def draw (legend : Legend) (config : Config) : Drawing Unit := do
  let (x, y) := config.legendAnchor
  Drawing.draw [.comment "Legend for the keys"]
  Drawing.openPart ⟨x, y⟩ "[fill=white,draw]"
  Drawing.draw [.text Point.origin "" .normalSize ""]
  Drawing.draw (legend.commands config.legend)
  Drawing.closePart

end Legend

end TikzChart
