import TikzChart.Config
import TikzChart.Geometry

/-!
The files that belong to a chart and the small document that a picture is wrapped in. All file
names are made from one base name by adding to its end, so that dots in it are kept.
-/

set_option autoImplicit false

namespace TikzChart

structure OutputPaths where
  script : String
  document : String
  rendered : String
deriving DecidableEq, Repr

/-- The bare picture under the base name itself, the document and the rendered page beside it. -/
def OutputPaths.ofBase (base : String) : OutputPaths := ⟨base, base ++ ".tex", base ++ ".pdf"⟩

namespace Document

open Text

def header (config : Config) : String :=
  let margins := config.margins
  "\\documentclass[12pt,dvipsnames]" ++ braced "article" ++ "\n\n"
  ++ "\\usepackage" ++ braced "tikz" ++ "\n"
  ++ "\\usetikzlibrary" ++ braced "patterns" ++ "\n"
  ++ "\\usetikzlibrary" ++ braced "calc" ++ "\n\n"
  ++ "\\usepackage" ++ braced "fullpage" ++ "\n"
  ++ "\\usepackage" ++ braced "color" ++ "\n"
  ++ "\\usepackage[top=" ++ numberText margins.top ++ "mm,left=" ++ numberText margins.left
  ++ "mm,right=" ++ numberText margins.right ++ "mm,bottom=" ++ numberText margins.bottom
  ++ "mm]" ++ braced "geometry" ++ "\n"
  ++ "\\setlength" ++ braced "\\paperwidth"
  ++ braced (numberText config.paperWidth ++ "mm") ++ "\n"
  ++ "\\setlength" ++ braced "\\paperheight"
  ++ braced (numberText config.paperHeight ++ "mm") ++ "\n"
  ++ "\\begin" ++ braced "document" ++ "\n"

def footer : String := "\\end" ++ braced "document" ++ "\n"

end Document

end TikzChart
