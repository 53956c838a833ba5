import TikzChart.Proofs.Picture.Drawing
import TikzChart.Proofs.Picture.Nesting

/-!
Selections from a picture: the commands outside all parts, those inside a part, and those of one
kind or with given options. What a chart appends is flat but for one part at its end.
-/

set_option autoImplicit false

namespace TikzChart

namespace DrawCommand

def isRectangle : DrawCommand → Bool
  | rectangle _ _ _ _ => true
  | _ => false

/-- The points of a line, or of the marks in its stead. -/
def points? : DrawCommand → Option (List Point)
  | path points _ => some points
  | marks points _ => some points
  | _ => none

def options? : DrawCommand → Option String
  | text _ _ _ options => some options
  | line _ _ options => some options
  | lineBy _ _ options => some options
  | rectangle _ _ _ options => some options
  | path _ options => some options
  | marks _ options => some options
  | openPart _ options => some options
  | comment _ => none
  | blank => none
  | closePart => none

end DrawCommand

/-- Draws points, by a line or by marks. -/
def DrawCommand.isPlotted (command : DrawCommand) : Bool := command.points?.isSome

/-- The lines of a picture, each with its points in order. -/
def plottedLines (commands : List DrawCommand) : List (List Point) :=
  commands.filterMap DrawCommand.points?

def drawnWith (options : String) (commands : List DrawCommand) : List DrawCommand :=
  commands.filter fun command => command.options? == some options

/-! ### Outside and inside parts -/

/-- The commands inside a part, or else those outside all parts, when `depth` parts are open before
the first one. The commands that open and close parts are neither. -/
def standing (inside : Bool) : Nat → List DrawCommand → List DrawCommand
  | _, [] => []
  | depth, command :: rest =>
    if command.opensPart then standing inside (depth + 1) rest
    else if command.closesPart then standing inside (depth - 1) rest
    else if decide (0 < depth) = inside then command :: standing inside depth rest
    else standing inside depth rest

def outsideParts (commands : List DrawCommand) : List DrawCommand := standing false 0 commands

def insideParts (commands : List DrawCommand) : List DrawCommand := standing true 0 commands

section

variable {body content : List DrawCommand} (flat : ∀ command ∈ body, command.IsFlat)

include flat

theorem standing_append (inside : Bool) (depth : Nat) (rest : List DrawCommand) :
    standing inside depth (body ++ rest) =
      (if decide (0 < depth) = inside then body else []) ++ standing inside depth rest := by
  induction body with
  | nil =>
      rw [ite_self]
      rfl
  | cons command body ih =>
      obtain ⟨opensNone, closesNone⟩ := flat command List.mem_cons_self
      rw [List.cons_append, standing, opensNone, closesNone,
        ih fun other member => flat other (List.mem_cons_of_mem _ member)]
      by_cases here : decide (0 < depth) = inside
      · simp only [here, Bool.false_eq_true, if_false, if_true, List.cons_append]
      · simp only [here, Bool.false_eq_true, if_false]

theorem outsideParts_of_flat : outsideParts body = body := by
  have split := standing_append flat false 0 []
  rw [List.append_nil] at split
  exact split.trans (List.append_nil body)

theorem insideParts_of_flat : insideParts body = [] := by
  have split := standing_append flat true 0 []
  rw [List.append_nil] at split
  exact split

variable (contentFlat : ∀ command ∈ content, command.IsFlat) (point : Point) (options : String)

include contentFlat

/-- Behind the body stands one part. -/
theorem standing_append_part (inside : Bool) :
    standing inside 0 (body ++ ([.openPart point options] ++ content ++ [.closePart])) =
      (if inside then [] else body) ++ (if inside then content else []) := by
  rw [standing_append flat, List.append_assoc, List.singleton_append, standing,
    if_pos (show DrawCommand.opensPart (.openPart point options) = true from rfl),
    standing_append contentFlat]
  cases inside <;> simp [standing, DrawCommand.opensPart, DrawCommand.closesPart]

theorem outsideParts_append_part :
    outsideParts (body ++ ([.openPart point options] ++ content ++ [.closePart])) = body :=
  (standing_append_part flat contentFlat point options false).trans (List.append_nil body)

theorem insideParts_append_part :
    insideParts (body ++ ([.openPart point options] ++ content ++ [.closePart])) = content :=
  standing_append_part flat contentFlat point options true

end

/-! ### Selections of lists of lists -/

theorem map_mapIdx {α β γ : Type} (f : Nat → α → β) (g : β → γ) (entries : List α) :
    (entries.mapIdx f).map g = entries.mapIdx fun position entry => g (f position entry) := by
  apply List.ext_getElem?
  intro position
  rw [List.getElem?_map, List.getElem?_mapIdx, List.getElem?_mapIdx, Option.map_map]
  rfl

theorem flatten_mapIdx_singleton {α β : Type} (f : Nat → α → β) (entries : List α) :
    (entries.mapIdx fun position entry => [f position entry]).flatten = entries.mapIdx f := by
  rw [← map_mapIdx f fun command => [command]]
  exact List.flatMap_singleton' _

theorem filterMap_mapIdx {α β γ : Type} {make : Nat → α → β} {pick : β → Option γ} {shown : α → γ}
    (picked : ∀ position entry, pick (make position entry) = some (shown entry))
    (entries : List α) : (entries.mapIdx make).filterMap pick = entries.map shown := by
  induction entries generalizing make with
  | nil => rfl
  | cons entry entries ih =>
      rw [List.mapIdx_cons, List.filterMap_cons_some (picked 0 entry), List.map_cons,
        ih fun position => picked (position + 1)]

theorem filter_flatten_mapIdx {α : Type} (keeps : DrawCommand → Bool)
    (block : Nat → α → List DrawCommand) (entries : List α) :
    (entries.mapIdx block).flatten.filter keeps =
      (entries.mapIdx fun position entry => (block position entry).filter keeps).flatten := by
  rw [List.filter_flatten, map_mapIdx]

theorem countP_flatten_mapIdx {α : Type} (counts : DrawCommand → Bool)
    (block : Nat → α → List DrawCommand) (entries : List α) {count : Nat}
    (each : ∀ (position : Nat) (bound : position < entries.length),
      (block position entries[position]).countP counts = count) :
    (entries.mapIdx block).flatten.countP counts = entries.length * count := by
  have same : (entries.mapIdx block).map (List.countP counts) =
      List.replicate entries.length count := by
    rw [map_mapIdx, List.mapIdx_eq_replicate_iff]
    exact each
  rw [List.countP_flatten, same, List.sum_replicate_nat]

/-- Only the block at one position has something to select. -/
theorem flatten_mapIdx_of_position {α β : Type} (block : Nat → α → List β) {entries : List α}
    {chosen : Nat} (bound : chosen < entries.length) :
    (entries.mapIdx fun position entry =>
      if position = chosen then block position entry else []).flatten =
        block chosen entries[chosen] := by
  induction entries generalizing block chosen with
  | nil => exact absurd bound (Nat.not_lt_zero chosen)
  | cons entry entries ih =>
      rw [List.mapIdx_cons, List.flatten_cons]
      -- The chosen block is the first one and all behind it are empty, or it is among those behind.
      cases chosen with
      | zero =>
          have others : (entries.mapIdx fun position other =>
              if position + 1 = 0 then block (position + 1) other else []) =
                List.replicate entries.length [] := by
            rw [List.mapIdx_eq_replicate_iff]
            exact fun position within => if_neg (Nat.succ_ne_zero position)
          rw [others, if_pos rfl, List.flatten_replicate_nil, List.append_nil]
          rfl
      | succ chosen =>
          have rest := ih (fun position => block (position + 1)) (Nat.lt_of_succ_lt_succ bound)
          simp only [Nat.add_right_cancel_iff, Nat.zero_ne_add_one, if_false, List.nil_append]
          exact rest

end TikzChart
