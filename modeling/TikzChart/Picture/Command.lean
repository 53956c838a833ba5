import TikzChart.FontSize
import TikzChart.Geometry

/-!
Drawing commands and their text. A picture is a sequence of commands whose coordinates are
already in plot units; each command has one written form.
-/

set_option autoImplicit false

namespace TikzChart

inductive DrawCommand where
  | text (point : Point) (content : String) (font : FontSize) (options : String)
  | line (start finish : Point) (options : String)
  | lineBy (start : Point) (shift : Shift) (options : String)
  | rectangle (corner : Point) (width height : Float) (options : String)
  /-- A line through the points in order. -/
  | path (points : List Point) (options : String)
  /-- A filled circle at each point and no line. -/
  | marks (points : List Point) (options : String)
  | comment (note : String)
  | blank
  | openPart (point : Point) (options : String)
  | closePart
deriving DecidableEq, Repr

namespace DrawCommand

def markRadius : Float := 1

def rule : String :=
  "% ------------------------------------------------------------------------------"

/-- The command word and its options; no options leave no trace. -/
def head (word options : String) : String :=
  if options.isEmpty then "\\" ++ word ++ " " else "\\" ++ word ++ " " ++ options ++ " "

def joinOptions (first second : String) : String :=
  if first.isEmpty then second
  else if second.isEmpty then first
  else first ++ " " ++ second

def write : DrawCommand → String
  | text point content font options =>
    head "node" options ++ "at " ++ point.text ++ " "
      ++ Text.braced (font.switch ++ " " ++ content) ++ ";"
  | line start finish options => head "draw" options ++ start.text ++ " -- " ++ finish.text ++ ";"
  | lineBy start shift options => head "draw" options ++ start.text ++ " -- " ++ shift.text ++ ";"
  | rectangle corner width height options =>
    head "draw" options ++ corner.text ++ " rectangle " ++ (Shift.mk width height).text ++ ";"
  | path points options =>
    head "draw" options ++ " -- ".intercalate (points.map Point.text) ++ ";"
  | marks points options =>
    head "draw" (joinOptions "[fill=black]" options)
      ++ " ".intercalate (points.map fun point =>
        point.text ++ " circle (" ++ numberText markRadius ++ "pt)") ++ ";"
  | comment note => "\n" ++ rule ++ "\n% " ++ note ++ "\n" ++ rule ++ "\n"
  | blank => ""
  | openPart point options =>
    head "node" (joinOptions options "[inner sep=2pt]") ++ "at " ++ point.text
      ++ " \x7b \\begin" ++ Text.braced "tikzpicture"
  | closePart => "\\end" ++ Text.braced "tikzpicture" ++ " \x7d;"

end DrawCommand

end TikzChart
