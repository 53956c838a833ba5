import TikzChart.Chart.Basic
import TikzChart.Chart.Document
import TikzChart.Files.Render

/-!
Writing charts to files: the bare picture, the picture in a document, and the rendered page. A
picture with an open part is never written, and nothing is written before that is known.
-/

set_option autoImplicit false

namespace TikzChart

def Canvas.save (canvas : Canvas) (path : String) (append : Bool) : Work Unit := do
  let script ← Step.ofExcept canvas.script
  Work.writeText path script append

namespace Chart

def script (chart : Chart) : Except ChartError String := chart.canvas.script

def saveTikz (chart : Chart) (path : String) : Work Unit := chart.canvas.save path false

def saveTex (chart : Chart) (base : String) : Work String := do
  if chart.canvas.depth ≠ 0 then throw (.unbalancedPicture chart.canvas.depth)
  let path := (OutputPaths.ofBase base).document
  Work.writeText path (Document.header chart.config) false
  chart.canvas.save path true
  Work.writeText path Document.footer true
  pure path

def savePdf (chart : Chart) (base : String) (backend : Backend) : Work String := do
  let document ← chart.saveTex base
  backend.render document

end Chart

end TikzChart
