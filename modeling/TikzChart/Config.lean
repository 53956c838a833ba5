import TikzChart.FontSize
import TikzChart.Layout.Tic

/-!
The layout settings of a chart: sizes, margins, shifts and fonts, all lengths in millimetres. The
defaults are those of a new chart.
-/

set_option autoImplicit false

namespace TikzChart

structure Margins where
  left : Float := 10
  right : Float := 10
  top : Float := 10
  bottom : Float := 10
deriving DecidableEq, Repr

/-- Where a free-standing label sits relative to its anchor, and its font. -/
structure LabelLayout where
  xshift : Float
  yshift : Float
  font : FontSize := .normalSize
deriving DecidableEq, Repr

/-- Tics of the vertical axis: length of the mark and offset of its label to the left. -/
structure YTicLayout where
  tics : TicSettings Float := ⟨none, none⟩
  size : Float := 2
  shift : Float := -3
  font : FontSize := .small
deriving DecidableEq, Repr

/-- Tics and category labels of the horizontal axis: offset of the labels below the frame. -/
structure XTicLayout where
  shift : Float := -1
  size : Float := 2
  font : FontSize := .small
deriving DecidableEq, Repr

/-- The legend: its own shift, and the layout of its entries. -/
structure LegendLayout where
  xshift : Float := 0
  yshift : Float := 0
  entryXshift : Float := 1
  entryYshift : Float := 1
  entryHeight : Float := 4
  textXshift : Float := 3
  textYshift : Float := 1
  boxWidth : Float := 2
  boxHeight : Float := 2
  font : FontSize := .scriptSize
deriving DecidableEq, Repr

structure Config where
  width : Float := 200
  height : Float := 100
  margins : Margins := {}
  /-- The share of the height that the range of the data is stretched over. -/
  ceiling : Float := 0.8
  yTics : YTicLayout := {}
  xTics : XTicLayout := {}
  title : LabelLayout := ⟨0, 10, .normalSize⟩
  xLabel : LabelLayout := ⟨0, -15, .normalSize⟩
  /-- Room for the x label when the page is sized. -/
  xLabelHeight : Float := 0
  yLabel : LabelLayout := ⟨-15, 0, .normalSize⟩
  /-- Room for the y label when the page is sized. -/
  yLabelWidth : Float := 10
  legend : LegendLayout := {}
  /-- Space between the frame and the outermost points of a line chart. -/
  xPadding : Float := 15
deriving DecidableEq, Repr

namespace Config

/-- The corner of the legend: 20 left of the right edge and 5 below the top, and then its shift. -/
def legendAnchor (config : Config) : Float × Float :=
  (config.width - 20 + config.legend.xshift, config.height - 5 + config.legend.yshift)

def paperWidth (config : Config) : Float :=
  config.width + (config.margins.left + config.margins.right) - config.yLabel.xshift
    + config.yLabelWidth

def paperHeight (config : Config) : Float :=
  config.height + config.margins.top + 2 * config.title.yshift - config.xLabel.yshift
    + config.xLabelHeight + config.margins.bottom

end Config

end TikzChart
