import TikzChart.Picture.Legend

/-!
Runs of drawing steps. Each basic step has one lemma that gives its outcome and the canvas it
leaves behind. Most drawings cannot fail and leave the style table alone: `Drawing.Appends` says
so and names the commands they append. A legend is such a drawing although it opens a part,
because it closes the part again.
-/

set_option autoImplicit false

namespace TikzChart

namespace Canvas

@[simp] theorem commands_append (canvas : Canvas) (commands : List DrawCommand) :
    (canvas.append commands).commands = canvas.commands ++ commands := rfl

@[simp] theorem styles_append (canvas : Canvas) (commands : List DrawCommand) :
    (canvas.append commands).styles = canvas.styles := rfl

@[simp] theorem depth_append (canvas : Canvas) (commands : List DrawCommand) :
    (canvas.append commands).depth = canvas.depth := rfl

@[simp] theorem append_nil (canvas : Canvas) : canvas.append [] = canvas := by
  unfold append
  rw [List.append_nil]

@[simp] theorem append_append (canvas : Canvas) (first second : List DrawCommand) :
    (canvas.append first).append second = canvas.append (first ++ second) := by
  unfold append
  rw [List.append_assoc]

end Canvas

/-- The rectangles of a set of bars. -/
def DrawCommand.bars (lefts bottoms heights : List Float) (width : Float) (options : String) :
    List DrawCommand :=
  (lefts.zip (bottoms.zip heights)).map fun (left, bottom, height) =>
    .rectangle ⟨left, bottom⟩ width height options

namespace Drawing

/-! ### The basic steps -/

@[simp] theorem runOn_draw (commands : List DrawCommand) (canvas : Canvas) :
    (draw commands).runOn canvas = (.ok (), canvas.append commands) := rfl

@[simp] theorem runOn_setScale (scale : Float) (canvas : Canvas) :
    (setScale scale).runOn canvas = (.ok (), { canvas with scale }) := rfl

theorem runOn_defineStyle (style : Style) (canvas : Canvas) :
    (defineStyle style).runOn canvas =
      if (canvas.style? style.name).isSome then
        (.error (.data (.duplicateStyle style.name)), canvas)
      else (.ok (), { canvas with styles := canvas.styles ++ [style] }) := by
  unfold defineStyle
  rw [Step.runOn_bind_ok (Step.runOn_get canvas)]
  by_cases taken : (canvas.style? style.name).isSome = true
  · rw [if_pos taken, if_pos taken]
    rfl
  · rw [if_neg taken, if_neg taken]
    rfl

theorem runOn_barSet_of_lengths {lefts bottoms heights : List Float}
    (sameBottoms : lefts.length = bottoms.length) (sameHeights : lefts.length = heights.length)
    (width : Float) (options : String) (canvas : Canvas) :
    (barSet lefts bottoms heights width options).runOn canvas =
      (.ok (), canvas.append (DrawCommand.bars lefts bottoms heights width options)) := by
  have noMismatch : ¬(lefts.length ≠ bottoms.length ∨ lefts.length ≠ heights.length) := by
    simp [sameBottoms, ← sameHeights]
  unfold barSet
  rw [if_neg noMismatch]
  rfl

@[simp] theorem runOn_openPart (point : Point) (options : String) (canvas : Canvas) :
    (openPart point options).runOn canvas =
      (.ok (), { canvas.append [.openPart point options] with depth := canvas.depth + 1 }) := rfl

theorem runOn_closePart_of_open {canvas : Canvas} (isOpen : canvas.depth ≠ 0) :
    closePart.runOn canvas =
      (.ok (), { canvas.append [.closePart] with depth := canvas.depth - 1 }) := by
  unfold closePart
  rw [Step.runOn_bind_ok (Step.runOn_get canvas), if_neg isOpen]
  rfl

/-! ### Drawings that only append -/

/-- The drawing succeeds on every canvas, and all it does is to append the commands. -/
def Appends (drawing : Drawing Unit) (commands : List DrawCommand) : Prop :=
  ∀ canvas : Canvas, drawing.runOn canvas = (.ok (), canvas.append commands)

theorem appends_pure : Appends (pure ()) [] := by
  intro canvas
  rw [Canvas.append_nil]
  rfl

theorem appends_draw (commands : List DrawCommand) : Appends (draw commands) commands :=
  runOn_draw commands

theorem appends_barSet {lefts bottoms heights : List Float}
    (sameBottoms : lefts.length = bottoms.length) (sameHeights : lefts.length = heights.length)
    (width : Float) (options : String) :
    Appends (barSet lefts bottoms heights width options)
      (DrawCommand.bars lefts bottoms heights width options) :=
  runOn_barSet_of_lengths sameBottoms sameHeights width options

theorem Appends.andThen {first second : Drawing Unit}
    {firstCommands secondCommands : List DrawCommand}
    (firstAppends : Appends first firstCommands) (secondAppends : Appends second secondCommands) :
    Appends (first >>= fun _ => second) (firstCommands ++ secondCommands) := by
  intro canvas
  rw [Step.runOn_bind_ok (firstAppends canvas), secondAppends, Canvas.append_append]

end Drawing

namespace Legend

/-- Everything that the legend draws: a part with a text at its origin and then the entries. -/
def drawn (legend : Legend) (config : Config) : List DrawCommand :=
  [.comment "Legend for the keys",
    .openPart ⟨config.legendAnchor.1, config.legendAnchor.2⟩ "[fill=white,draw]",
    .text Point.origin "" .normalSize ""] ++ legend.commands config.legend ++ [.closePart]

/-- A legend is always drawn to its end: the part that it closes is its own. -/
theorem appends_draw (legend : Legend) (config : Config) :
    Drawing.Appends (legend.draw config) (legend.drawn config) := by
  intro canvas
  unfold draw
  simp only [Step.runOn_bind, Drawing.runOn_draw, Drawing.runOn_openPart]
  rw [Drawing.runOn_closePart_of_open (by simp)]
  simp [drawn, Canvas.append]

end Legend

end TikzChart
