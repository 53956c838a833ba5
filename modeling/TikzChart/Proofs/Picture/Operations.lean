import TikzChart.Proofs.Chart.Addition
import TikzChart.Proofs.Picture.Balanced

/-!
A canvas under any sequence of operations, those that it refuses among them. An operation is refused
for one of three causes and then leaves the canvas alone; otherwise it appends the commands that it
draws and the style that it defines. The number of open parts therefore counts what is not closed
yet, and a script exists exactly when the commands are balanced.
-/

set_option autoImplicit false

namespace TikzChart

/-- What can be done to a canvas. -/
inductive CanvasOperation where
  | defineStyle (style : Style)
  | text (point : Point) (content : String) (font : FontSize) (options : String)
  | comment (note : String)
  | blank
  | line (start finish : Point) (options : String)
  | lineBy (start : Point) (shift : Shift) (options : String)
  | rectangle (corner : Point) (width height : Float) (options : String)
  | path (points : List Point) (marked : Bool) (options : String)
  | barSet (lefts bottoms heights : List Float) (width : Float) (options : String)
  | openPart (point : Point) (options : String)
  | closePart
  | setScale (scale : Float)

namespace CanvasOperation

def step : CanvasOperation → Drawing Unit
  | defineStyle style => Drawing.defineStyle style
  | text point content font options => Drawing.draw [.text point content font options]
  | comment note => Drawing.draw [.comment note]
  | blank => Drawing.draw [.blank]
  | line start finish options => Drawing.draw [.line start finish options]
  | lineBy start shift options => Drawing.draw [.lineBy start shift options]
  | rectangle corner width height options =>
    Drawing.draw [.rectangle corner width height options]
  | path points marked options =>
    Drawing.draw [if marked then .marks points options else .path points options]
  | barSet lefts bottoms heights width options =>
    Drawing.barSet lefts bottoms heights width options
  | openPart point options => Drawing.openPart point options
  | closePart => Drawing.closePart
  | setScale scale => Drawing.setScale scale

/-- The cause for which a canvas refuses the operation, if it does. -/
def refusal? (canvas : Canvas) : CanvasOperation → Option ChartError
  | defineStyle style =>
    if (canvas.style? style.name).isSome then some (.data (.duplicateStyle style.name)) else none
  | barSet lefts bottoms heights _ _ =>
    if lefts.length = bottoms.length ∧ lefts.length = heights.length then none
    else
      some (.data (.seriesLengthMismatch lefts.length
        ((decide (bottoms.length ≠ lefts.length)).toNat
          + (decide (heights.length ≠ lefts.length)).toNat)))
  | closePart => if canvas.depth = 0 then some (.unbalancedPicture 0) else none
  | _ => none

/-- The commands that the operation appends when it is accepted. -/
def drawn : CanvasOperation → List DrawCommand
  | text point content font options => [.text point content font options]
  | comment note => [.comment note]
  | blank => [.blank]
  | line start finish options => [.line start finish options]
  | lineBy start shift options => [.lineBy start shift options]
  | rectangle corner width height options => [.rectangle corner width height options]
  | path points marked options => [if marked then .marks points options else .path points options]
  | barSet lefts bottoms heights width options =>
    DrawCommand.bars lefts bottoms heights width options
  | openPart point options => [.openPart point options]
  | closePart => [.closePart]
  | defineStyle _ | setScale _ => []

/-- The style that the operation appends when it is accepted. -/
def defined : CanvasOperation → List Style
  | defineStyle style => [style]
  | _ => []

def depthAfter (depth : Nat) : CanvasOperation → Nat
  | openPart _ _ => depth + 1
  | closePart => depth - 1
  | _ => depth

def scaleAfter (scale : Float) : CanvasOperation → Float
  | setScale changed => changed
  | _ => scale

/-- The canvas after the operation has been accepted. -/
def perform (operation : CanvasOperation) (canvas : Canvas) : Canvas where
  styles := canvas.styles ++ operation.defined
  commands := canvas.commands ++ operation.drawn
  depth := operation.depthAfter canvas.depth
  scale := operation.scaleAfter canvas.scale

end CanvasOperation

/-- The canvas after operations, those that are refused among them. -/
def Canvas.after (canvas : Canvas) (operations : List CanvasOperation) : Canvas :=
  Step.stateAfter (operations.map CanvasOperation.step) canvas

/-! ### One operation -/

theorem Drawing.runOn_barSet_of_mismatch {lefts bottoms heights : List Float}
    (mismatch : ¬(lefts.length = bottoms.length ∧ lefts.length = heights.length)) (width : Float)
    (options : String) (canvas : Canvas) :
    (barSet lefts bottoms heights width options).runOn canvas =
      (.error (.data (.seriesLengthMismatch lefts.length
        ((decide (bottoms.length ≠ lefts.length)).toNat
          + (decide (heights.length ≠ lefts.length)).toNat))), canvas) := by
  unfold barSet
  rw [if_pos (by omega)]
  rfl

theorem Drawing.runOn_closePart_of_closed {canvas : Canvas} (closed : canvas.depth = 0) :
    closePart.runOn canvas = (.error (.unbalancedPicture 0), canvas) := by
  unfold closePart
  rw [Step.runOn_bind_ok (Step.runOn_get canvas), if_pos closed]
  rfl

/-- An operation is performed as a whole, or it is refused and nothing has happened. -/
theorem CanvasOperation.runOn_step (operation : CanvasOperation) (canvas : Canvas) :
    operation.step.runOn canvas =
      match operation.refusal? canvas with
      | some cause => (.error cause, canvas)
      | none => (.ok (), operation.perform canvas) := by
  -- all that only draws is `Canvas.append`; three operations have a check of their own
  cases operation with
  | defineStyle style =>
      rw [step, Drawing.runOn_defineStyle, refusal?]
      split <;> simp only [perform, defined, drawn, depthAfter, scaleAfter, List.append_nil]
  | barSet lefts bottoms heights width options =>
      rw [step, refusal?]
      by_cases same : lefts.length = bottoms.length ∧ lefts.length = heights.length
      · rw [if_pos same, Drawing.runOn_barSet_of_lengths same.1 same.2]
        simp only [perform, defined, drawn, depthAfter, scaleAfter, List.append_nil, Canvas.append]
      · rw [if_neg same, Drawing.runOn_barSet_of_mismatch same]
  | closePart =>
      rw [step, refusal?]
      by_cases closed : canvas.depth = 0
      · rw [if_pos closed, Drawing.runOn_closePart_of_closed closed]
      · rw [if_neg closed, Drawing.runOn_closePart_of_open closed]
        simp only [perform, defined, drawn, depthAfter, scaleAfter, List.append_nil, Canvas.append]
  | openPart point options =>
      rw [step, Drawing.runOn_openPart]
      simp only [refusal?, perform, defined, drawn, depthAfter, scaleAfter, List.append_nil,
        Canvas.append]
  | setScale scale =>
      rw [step, Drawing.runOn_setScale]
      simp only [refusal?, perform, defined, drawn, depthAfter, scaleAfter, List.append_nil]
  | _ =>
      simp only [step, Drawing.runOn_draw, refusal?, perform, defined, drawn, depthAfter,
        scaleAfter, List.append_nil, Canvas.append]

theorem CanvasOperation.after_step (operation : CanvasOperation) (canvas : Canvas) :
    (operation.step.runOn canvas).2 = canvas ∨
      operation.refusal? canvas = none ∧
        (operation.step.runOn canvas).2 = operation.perform canvas := by
  rw [operation.runOn_step]
  cases operation.refusal? canvas with
  | some cause => exact .inl rfl
  | none => exact .inr ⟨rfl, rfl⟩

/-- What every accepted operation keeps holds after any number of operations. -/
theorem Canvas.after_induction {invariant : Canvas → Prop} {canvas : Canvas}
    (start : invariant canvas)
    (kept : ∀ operation canvas, CanvasOperation.refusal? canvas operation = none →
      invariant canvas → invariant (operation.perform canvas))
    (operations : List CanvasOperation) : invariant (canvas.after operations) := by
  apply Step.stateAfter_induction start
  intro step member canvas holds
  obtain ⟨operation, _, rfl⟩ := List.mem_map.mp member
  rcases operation.after_step canvas with unchanged | ⟨accepted, performed⟩
  · rwa [unchanged]
  · rw [performed]
    exact kept operation canvas accepted holds

/-! ### Bars -/

namespace DrawCommand

variable {lefts bottoms heights : List Float} (sameBottoms : lefts.length = bottoms.length)
  (sameHeights : lefts.length = heights.length) (width : Float) (options : String)

include sameBottoms sameHeights

theorem length_bars : (bars lefts bottoms heights width options).length = lefts.length := by
  rw [bars, List.length_map, List.length_zip, List.length_zip]
  omega

theorem getElem?_bars {position : Nat} (inside : position < lefts.length) :
    (bars lefts bottoms heights width options)[position]? =
      some (.rectangle ⟨lefts[position], bottoms[position]⟩ width heights[position] options) := by
  have counted := length_bars sameBottoms sameHeights width options
  rw [List.getElem?_eq_getElem (counted ▸ inside)]
  simp only [bars, List.getElem_map, List.getElem_zip]

end DrawCommand

theorem DrawCommand.flat_of_mem_bars {lefts bottoms heights : List Float} {width : Float}
    {options : String} : ∀ command ∈ bars lefts bottoms heights width options, command.IsFlat := by
  intro command member
  obtain ⟨_, _, rfl⟩ := List.mem_map.mp member
  exact ⟨rfl, rfl⟩

/-! ### Open parts and style names -/

/-- The depth moves by the parts that the operation opens and closes, and there is one to close. -/
theorem CanvasOperation.depth_perform {operation : CanvasOperation} {canvas : Canvas}
    (accepted : operation.refusal? canvas = none) :
    (operation.perform canvas).depth + closings operation.drawn =
        canvas.depth + openings operation.drawn ∧
      closings operation.drawn ≤ canvas.depth := by
  cases operation with
  | closePart =>
      have isOpen : canvas.depth ≠ 0 := by
        intro closed
        rw [refusal?, if_pos closed] at accepted
        cases accepted
      change canvas.depth - 1 + 1 = canvas.depth + 0 ∧ 1 ≤ canvas.depth
      omega
  | openPart point options => exact ⟨rfl, Nat.zero_le _⟩
  | barSet lefts bottoms heights width options =>
      have flat : ∀ command ∈ DrawCommand.bars lefts bottoms heights width options,
          command.IsFlat := DrawCommand.flat_of_mem_bars
      have noOpening := openings_of_flat flat
      have noClosing := closings_of_flat flat
      simp only [drawn, perform, depthAfter]
      omega
  | path points marked options =>
      cases marked with
      | true => exact ⟨rfl, Nat.zero_le _⟩
      | false => exact ⟨rfl, Nat.zero_le _⟩
  | _ => exact ⟨rfl, Nat.zero_le _⟩

/-- What holds of a canvas at every moment: it counts its open parts, closes none that it has not
opened, and defines no name twice. -/
structure Canvas.IsCounted (canvas : Canvas) : Prop where
  ahead : ∀ beginning, beginning <+: canvas.commands → closings beginning ≤ openings beginning
  depth : closings canvas.commands + canvas.depth = openings canvas.commands
  distinct : (canvas.styles.map Style.name).Nodup

theorem CanvasOperation.isCounted_perform {operation : CanvasOperation} {canvas : Canvas}
    (accepted : operation.refusal? canvas = none) (counted : canvas.IsCounted) :
    (operation.perform canvas).IsCounted where
  ahead := by
    intro beginning isBeginning
    rcases isPrefix_append isBeginning with old | ⟨more, inDrawn, rfl⟩
    · exact counted.ahead beginning old
    · have fewer : closings more ≤ closings operation.drawn := inDrawn.sublist.countP_le
      have closable := (depth_perform accepted).2
      have depth := counted.depth
      rw [closings_append, openings_append]
      omega
  depth := by
    have moved := (depth_perform accepted).1
    have depth := counted.depth
    change closings (canvas.commands ++ _) + _ = openings (canvas.commands ++ _)
    rw [closings_append, openings_append]
    omega
  distinct := by
    cases operation with
    | defineStyle style =>
        have fresh : style.name ∉ canvas.styles.map Style.name := by
          intro taken
          obtain ⟨other, member, named⟩ := List.mem_map.mp taken
          have isTaken : (canvas.style? style.name).isSome = true := by
            rw [canvas.isSome_style?]
            exact List.any_eq_true.mpr ⟨other, member, beq_iff_eq.mpr named⟩
          rw [refusal?, if_pos isTaken] at accepted
          cases accepted
        rw [perform, defined, List.map_append, List.map_singleton, ← List.concat_eq_append]
        exact counted.distinct.concat fresh
    | _ => simpa only [perform, defined, List.append_nil] using counted.distinct

theorem Canvas.isCounted_after (operations : List CanvasOperation) :
    (({} : Canvas).after operations).IsCounted := by
  have start : ({} : Canvas).IsCounted :=
    { ahead := fun _ isBeginning => by rw [List.prefix_nil.mp isBeginning]; exact Nat.le_refl _
      depth := rfl
      distinct := List.nodup_nil }
  exact Canvas.after_induction start
    (fun _ _ accepted counted => CanvasOperation.isCounted_perform accepted counted) operations

/-- A style that is found under a name is found there ever after. -/
theorem Canvas.style?_after {canvas : Canvas} {name : String} {style : Style}
    (found : canvas.style? name = some style) (operations : List CanvasOperation) :
    (canvas.after operations).style? name = some style := by
  refine @Canvas.after_induction (fun canvas => canvas.style? name = some style) canvas found ?_
    operations
  intro operation canvas _ found
  unfold Canvas.style? at found ⊢
  rw [CanvasOperation.perform, List.find?_append, found]
  rfl

/-! ### Scripts -/

theorem Canvas.exists_script_iff {canvas : Canvas} :
    (∃ text, canvas.script = .ok text) ↔ canvas.depth = 0 := by
  unfold script
  by_cases closed : canvas.depth = 0
  · rw [if_neg (not_not_intro closed)]
    exact iff_of_true ⟨_, rfl⟩ closed
  · rw [if_pos closed]
    exact iff_of_false (fun ⟨_, impossible⟩ => nomatch impossible) closed

theorem Canvas.IsCounted.depth_eq_zero_iff {canvas : Canvas} (counted : canvas.IsCounted) :
    canvas.depth = 0 ↔ Nested canvas.commands := by
  have depth := counted.depth
  constructor
  · intro closed
    exact { ahead := counted.ahead, settled := by omega }
  · intro nested
    have settled := nested.settled
    omega

/-- At every moment in the life of a canvas its depth is the number of parts opened and not closed,
and no beginning of the commands closes more than it opens; no name is defined twice and a style
stays what it is; the next operation is refused for the cause that `refusal?` names and changes
nothing, or it appends what it draws and defines, which for bars is one rectangle at each position;
and there is a script if and only if the commands are balanced. -/
theorem canvas_counted_at_every_moment (operations : List CanvasOperation) :
    let canvas := ({} : Canvas).after operations
    (closings canvas.commands + canvas.depth = openings canvas.commands ∧
      ∀ beginning, beginning <+: canvas.commands → closings beginning ≤ openings beginning) ∧
    ((canvas.styles.map Style.name).Nodup ∧
      ∀ name style later, canvas.style? name = some style →
        (canvas.after later).style? name = some style) ∧
    (∀ operation : CanvasOperation,
      (∃ cause, operation.refusal? canvas = some cause ∧
        operation.step.runOn canvas = (.error cause, canvas)) ∨
      ∃ after, operation.refusal? canvas = none ∧ operation.step.runOn canvas = (.ok (), after) ∧
        after.commands = canvas.commands ++ operation.drawn ∧
        after.styles = canvas.styles ++ operation.defined) ∧
    (∀ (lefts bottoms heights : List Float) (width : Float) (options : String)
      (sameBottoms : lefts.length = bottoms.length) (sameHeights : lefts.length = heights.length),
      let bars := (CanvasOperation.barSet lefts bottoms heights width options).drawn
      bars.length = lefts.length ∧
        ∀ position (inside : position < lefts.length), bars[position]? =
          some (.rectangle ⟨lefts[position], bottoms[position]⟩ width heights[position] options)) ∧
    ((∃ text, canvas.script = .ok text) ↔ Balanced canvas.commands) := by
  intro canvas
  have counted : canvas.IsCounted := Canvas.isCounted_after operations
  refine ⟨⟨counted.depth, counted.ahead⟩, ⟨counted.distinct, ?_⟩, ?_, ?_, ?_⟩
  · intro name style later found
    exact Canvas.style?_after found later
  · intro operation
    have ran := operation.runOn_step canvas
    cases refused : operation.refusal? canvas with
    | some cause =>
        rw [refused] at ran
        exact .inl ⟨cause, rfl, ran⟩
    | none =>
        rw [refused] at ran
        exact .inr ⟨_, rfl, ran, rfl, rfl⟩
  · intro lefts bottoms heights width options sameBottoms sameHeights
    exact ⟨DrawCommand.length_bars sameBottoms sameHeights width options,
      fun position inside => DrawCommand.getElem?_bars sameBottoms sameHeights width options inside⟩
  · rw [Canvas.exists_script_iff, counted.depth_eq_zero_iff, nested_iff_balanced]

end TikzChart
