import TikzChart.Picture.Command

/-!
Parts of a picture inside one another. Commands are nested when no beginning of them closes more
parts than it opens, and all of them together close as many as they open.
-/

set_option autoImplicit false

namespace TikzChart

def DrawCommand.opensPart : DrawCommand → Bool
  | .openPart _ _ => true
  | _ => false

def DrawCommand.closesPart : DrawCommand → Bool
  | .closePart => true
  | _ => false

/-- Neither opens nor closes a part. -/
def DrawCommand.IsFlat (command : DrawCommand) : Prop :=
  command.opensPart = false ∧ command.closesPart = false

def openings (commands : List DrawCommand) : Nat := commands.countP DrawCommand.opensPart

def closings (commands : List DrawCommand) : Nat := commands.countP DrawCommand.closesPart

structure Nested (commands : List DrawCommand) : Prop where
  ahead : ∀ beginning, beginning <+: commands → closings beginning ≤ openings beginning
  settled : closings commands = openings commands

theorem openings_append (first second : List DrawCommand) :
    openings (first ++ second) = openings first + openings second := List.countP_append

theorem closings_append (first second : List DrawCommand) :
    closings (first ++ second) = closings first + closings second := List.countP_append

theorem openings_of_flat {commands : List DrawCommand}
    (flat : ∀ command ∈ commands, command.IsFlat) : openings commands = 0 := by
  rw [openings, List.countP_eq_zero]
  intro command member
  rw [(flat command member).1]
  decide

theorem closings_of_flat {commands : List DrawCommand}
    (flat : ∀ command ∈ commands, command.IsFlat) : closings commands = 0 := by
  rw [closings, List.countP_eq_zero]
  intro command member
  rw [(flat command member).2]
  decide

/-- A beginning of two lists ends in the first of them or in the second. -/
theorem isPrefix_append {α : Type} {beginning first second : List α}
    (isBeginning : beginning <+: first ++ second) :
    beginning <+: first ∨ ∃ more, more <+: second ∧ beginning = first ++ more := by
  obtain ⟨rest, whole⟩ := isBeginning
  rcases List.append_eq_append_iff.mp whole with ⟨more, same, _⟩ | ⟨more, same, tail⟩
  · exact .inl ⟨more, same.symm⟩
  · exact .inr ⟨more, ⟨rest, tail.symm⟩, same⟩

namespace Nested

theorem of_flat {commands : List DrawCommand} (flat : ∀ command ∈ commands, command.IsFlat) :
    Nested commands where
  ahead := by
    intro beginning isBeginning
    have closesNone := closings_of_flat fun command member =>
      flat command (isBeginning.subset member)
    omega
  settled := by rw [closings_of_flat flat, openings_of_flat flat]

theorem nil : Nested [] := of_flat fun _ member => nomatch member

theorem append {first second : List DrawCommand} (firstNested : Nested first)
    (secondNested : Nested second) : Nested (first ++ second) where
  ahead := by
    intro beginning isBeginning
    rcases isPrefix_append isBeginning with inFirst | ⟨more, inSecond, same⟩
    · exact firstNested.ahead beginning inFirst
    · have behind := secondNested.ahead more inSecond
      have settled := firstNested.settled
      rw [same, closings_append, openings_append]
      omega
  settled := by
    rw [closings_append, openings_append, firstNested.settled, secondNested.settled]

/-- A part around nested commands. -/
theorem part {commands : List DrawCommand} (nested : Nested commands) (point : Point)
    (options : String) : Nested ([.openPart point options] ++ commands ++ [.closePart]) where
  ahead := by
    intro beginning isBeginning
    have opens : openings [.openPart point options] = 1 := rfl
    have closesNot : closings [.openPart point options] = 0 := rfl
    rcases isPrefix_append isBeginning with inside | ⟨last, atEnd, same⟩
    · rcases isPrefix_append inside with opening | ⟨more, inMiddle, same⟩
      · have closesNone := opening.countP_le (p := DrawCommand.closesPart)
        change closings beginning ≤ closings [.openPart point options] at closesNone
        omega
      · have behind := nested.ahead more inMiddle
        rw [same, closings_append, openings_append]
        omega
    · have lastCloses := atEnd.countP_le (p := DrawCommand.closesPart)
      change closings last ≤ 1 at lastCloses
      have settled := nested.settled
      rw [same]
      simp only [closings_append, openings_append]
      omega
  settled := by
    have settled := nested.settled
    simp only [closings_append, openings_append]
    change 0 + closings commands + 1 = 1 + openings commands + 0
    omega

end Nested

end TikzChart
