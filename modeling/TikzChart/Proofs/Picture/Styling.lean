import TikzChart.Picture.Legend
import TikzChart.Proofs.Picture.Drawing
import TikzChart.Proofs.Picture.Nesting

/-!
Which styles a picture uses. Bars and boxes name a style by key in their options, lines, marks and
line samples by its name alone. Tics are lines too but have no style; what tells them from samples
is that samples stand inside a part.
-/

set_option autoImplicit false

namespace TikzChart

/-- The options name one of the styles after the given words. -/
def NamesStyle (styles : List Style) (words options : String) : Prop :=
  ∃ style ∈ styles, options = words ++ style.name ++ "]"

theorem NamesStyle.mono {styles more : List Style} {words options : String}
    (names : NamesStyle styles words options)
    (defined : ∀ style ∈ styles, ∃ other ∈ more, other.name = style.name) :
    NamesStyle more words options := by
  obtain ⟨style, member, same⟩ := names
  obtain ⟨other, inMore, sameName⟩ := defined style member
  exact ⟨other, inMore, by rw [same, sameName]⟩

namespace DrawCommand

/-- A command that draws data does so in one of the styles. Outside parts there are also the frame,
which has no options, and the white bars behind the styled ones. -/
def IsDrawnIn (styles : List Style) (inPart : Bool) : DrawCommand → Prop
  | .rectangle _ _ _ options =>
    NamesStyle styles "[style=" options ∨ inPart = false ∧ (options = "" ∨ options = "[fill=white]")
  | .path _ options => NamesStyle styles "[" options
  | .marks _ options => NamesStyle styles "[" options
  | .lineBy _ _ options => inPart = true → NamesStyle styles "[" options
  | _ => True

theorem IsDrawnIn.mono {styles more : List Style} {inPart : Bool} {command : DrawCommand}
    (drawn : command.IsDrawnIn styles inPart)
    (defined : ∀ style ∈ styles, ∃ other ∈ more, other.name = style.name) :
    command.IsDrawnIn more inPart := by
  cases command with
  | rectangle corner width height options =>
      rcases drawn with named | plain
      · exact .inl (named.mono defined)
      · exact .inr plain
  | path points options => exact NamesStyle.mono drawn defined
  | marks points options => exact NamesStyle.mono drawn defined
  | lineBy start shift options => exact fun inside => (drawn inside).mono defined
  | _ => trivial

/-- A flat command outside every part that needs none but the given styles. -/
def IsPlainIn (styles : List Style) (command : DrawCommand) : Prop :=
  command.IsFlat ∧ command.IsDrawnIn styles false

end DrawCommand

/-- Every command is drawn in the styles, when `depth` parts are open before the first one. -/
def DrawnIn (styles : List Style) (depth : Nat) (commands : List DrawCommand) : Prop :=
  ∀ before command after, commands = before ++ command :: after →
    command.IsDrawnIn styles (decide (closings before < depth + openings before))

namespace DrawnIn

variable {styles : List Style} {depth : Nat} {first second commands : List DrawCommand}

theorem mono {more : List Style} (drawn : DrawnIn styles depth commands)
    (defined : ∀ style ∈ styles, ∃ other ∈ more, other.name = style.name) :
    DrawnIn more depth commands := by
  intro before command after split
  exact (drawn before command after split).mono defined

theorem of_flat (flat : ∀ command ∈ commands, command.IsFlat)
    (drawn : ∀ command ∈ commands, command.IsDrawnIn styles (decide (0 < depth))) :
    DrawnIn styles depth commands := by
  intro before command after split
  have beforeFlat : ∀ other ∈ before, other.IsFlat := by
    intro other member
    exact flat other (split ▸ List.mem_append_left _ member)
  have atDepth := drawn command (split ▸ List.mem_append_right _ List.mem_cons_self)
  rw [closings_of_flat beforeFlat, openings_of_flat beforeFlat, Nat.add_zero]
  exact atDepth

theorem singleton {command : DrawCommand}
    (drawn : command.IsDrawnIn styles (decide (0 < depth))) : DrawnIn styles depth [command] := by
  intro before other after split
  cases before with
  | nil =>
      obtain ⟨same, _⟩ := List.cons.inj split
      rw [← same]
      exact drawn
  | cons head before =>
      have lengths := congrArg List.length split
      simp only [List.length_cons, List.length_nil, List.length_append] at lengths
      omega

/-- The second list is drawn at the depth at which the first one ends. -/
theorem append (firstDrawn : DrawnIn styles depth first) {next : Nat}
    (ends : next + closings first = depth + openings first)
    (secondDrawn : DrawnIn styles next second) : DrawnIn styles depth (first ++ second) := by
  intro before command after split
  rcases List.append_eq_append_iff.mp split with ⟨more, same, tail⟩ | ⟨more, same, tail⟩
  · have sameDepth : decide (closings before < depth + openings before) =
        decide (closings more < next + openings more) := by
      rw [same, closings_append, openings_append]
      apply decide_eq_decide.mpr
      omega
    rw [sameDepth]
    exact secondDrawn more command after tail
  · cases more with
    | nil =>
        have sameDepth : decide (closings before < depth + openings before) =
            decide (closings [] < next + openings []) := by
          rw [List.append_nil] at same
          rw [← same]
          apply decide_eq_decide.mpr
          change _ ↔ 0 < next + 0
          omega
        rw [sameDepth]
        exact secondDrawn [] command after tail.symm
    | cons head more =>
        obtain ⟨sameHead, rest⟩ := List.cons.inj tail
        exact firstDrawn before command more (by rw [same, sameHead])

end DrawnIn

/-- Nested commands that are drawn in the styles. -/
structure WellDrawn (styles : List Style) (commands : List DrawCommand) : Prop where
  nested : Nested commands
  drawn : DrawnIn styles 0 commands

namespace WellDrawn

variable {styles : List Style} {first second commands : List DrawCommand}

theorem of_plain (plain : ∀ command ∈ commands, command.IsPlainIn styles) :
    WellDrawn styles commands where
  nested := Nested.of_flat fun command member => (plain command member).1
  drawn := DrawnIn.of_flat (fun command member => (plain command member).1)
    fun command member => (plain command member).2

theorem nil : WellDrawn styles [] := of_plain fun _ member => nomatch member

theorem append (firstWell : WellDrawn styles first) (secondWell : WellDrawn styles second) :
    WellDrawn styles (first ++ second) where
  nested := firstWell.nested.append secondWell.nested
  drawn := firstWell.drawn.append (by rw [firstWell.nested.settled]) secondWell.drawn

theorem mono {more : List Style} (well : WellDrawn styles commands)
    (defined : ∀ style ∈ styles, ∃ other ∈ more, other.name = style.name) :
    WellDrawn more commands where
  nested := well.nested
  drawn := well.drawn.mono defined

end WellDrawn

end TikzChart
