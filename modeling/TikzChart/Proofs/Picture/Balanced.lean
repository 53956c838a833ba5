import TikzChart.Proofs.Picture.Nesting

/-!
Balanced commands, built up from parts that hold balanced commands themselves. Counting finds
exactly these: commands are nested if and only if they are balanced.
-/

set_option autoImplicit false

namespace TikzChart

/-- Every part that is opened is closed again, and so is every part inside it. -/
inductive Balanced : List DrawCommand → Prop
  | nil : Balanced []
  | flat {command : DrawCommand} {rest : List DrawCommand} (isFlat : command.IsFlat)
    (balanced : Balanced rest) : Balanced (command :: rest)
  | part {inside rest : List DrawCommand} (point : Point) (options : String)
    (balancedInside : Balanced inside) (balanced : Balanced rest) :
    Balanced ([.openPart point options] ++ inside ++ [.closePart] ++ rest)

theorem Balanced.nested {commands : List DrawCommand} (balanced : Balanced commands) :
    Nested commands := by
  induction balanced with
  | nil => exact Nested.nil
  | @flat command rest isFlat _ ih =>
      have single : Nested [command] := Nested.of_flat (by simpa using isFlat)
      exact single.append ih
  | part point options _ _ nestedInside ih =>
      exact (nestedInside.part point options).append ih

/-- Behind so many open parts the commands close all of them in the end, and never one more. -/
structure Settles (depth : Nat) (commands : List DrawCommand) : Prop where
  ahead : ∀ beginning, beginning <+: commands → closings beginning ≤ depth + openings beginning
  settled : closings commands = depth + openings commands

theorem Nested.settles {commands : List DrawCommand} (nested : Nested commands) :
    Settles 0 commands where
  ahead := by simpa using nested.ahead
  settled := by simpa using nested.settled

namespace Settles

variable {depth : Nat} {command : DrawCommand} {rest : List DrawCommand}

theorem depth_of_nil (settles : Settles depth []) : depth = 0 := by
  have settled := settles.settled
  simp only [closings, openings, List.countP_nil] at settled
  omega

/-- What is left to do behind a command, whatever it is. -/
theorem tail (settles : Settles depth (command :: rest)) (after : Nat)
    (counted : after + closings [command] = depth + openings [command]) : Settles after rest where
  ahead := by
    intro beginning isBeginning
    have before := settles.ahead (command :: beginning)
      (List.cons_prefix_cons.mpr ⟨rfl, isBeginning⟩)
    rw [← List.singleton_append, closings_append, openings_append] at before
    omega
  settled := by
    have before := settles.settled
    rw [← List.singleton_append, closings_append, openings_append] at before
    omega

theorem behind_flat (settles : Settles depth (command :: rest)) (isFlat : command.IsFlat) :
    Settles depth rest := by
  have noOpening : openings [command] = 0 := openings_of_flat (by simpa using isFlat)
  have noClosing : closings [command] = 0 := closings_of_flat (by simpa using isFlat)
  exact settles.tail depth (by omega)

theorem not_closed (settles : Settles 0 (.closePart :: rest)) : False := by
  have first := settles.ahead [.closePart] ⟨rest, rfl⟩
  change 1 ≤ 0 + 0 at first
  omega

end Settles

theorem DrawCommand.flat_or_open_or_close (command : DrawCommand) :
    command.IsFlat ∨ (∃ point options, command = .openPart point options) ∨
      command = .closePart := by
  cases command with
  | openPart point options => exact .inr (.inl ⟨point, options, rfl⟩)
  | closePart => exact .inr (.inr rfl)
  | _ => exact .inl ⟨rfl, rfl⟩

/-- The innermost open part is closed behind balanced commands. -/
theorem Settles.exists_close {depth : Nat} {commands : List DrawCommand}
    (settles : Settles (depth + 1) commands) :
    ∃ inside rest, commands = inside ++ [.closePart] ++ rest ∧ Balanced inside ∧
      Settles depth rest := by
  -- an opening in front makes the search go through the parts behind it one after the other
  induction size : commands.length using Nat.strongRecOn generalizing depth commands with
  | ind size ih =>
      cases commands with
      | nil =>
          have none := settles.depth_of_nil
          omega
      | cons command rest =>
          rw [List.length_cons] at size
          rcases command.flat_or_open_or_close with isFlat | ⟨point, options, rfl⟩ | rfl
          · obtain ⟨inside, behind, rfl, balanced, settled⟩ :=
              ih rest.length (by omega) (settles.behind_flat isFlat) rfl
            exact ⟨command :: inside, behind, rfl, .flat isFlat balanced, settled⟩
          · obtain ⟨first, between, rfl, balancedFirst, settledBetween⟩ :=
              ih rest.length (by omega) (settles.tail (depth + 1 + 1) rfl) rfl
            simp only [List.length_append] at size
            obtain ⟨second, behind, rfl, balancedSecond, settled⟩ :=
              ih between.length (by omega) settledBetween rfl
            refine ⟨[.openPart point options] ++ first ++ [.closePart] ++ second, behind, ?_,
              .part point options balancedFirst balancedSecond, settled⟩
            simp only [List.append_assoc, List.cons_append, List.nil_append]
          · exact ⟨[], rest, rfl, .nil, settles.tail depth rfl⟩

theorem Settles.balanced {commands : List DrawCommand} (settles : Settles 0 commands) :
    Balanced commands := by
  induction size : commands.length using Nat.strongRecOn generalizing commands with
  | ind size ih =>
      cases commands with
      | nil => exact .nil
      | cons command rest =>
          rw [List.length_cons] at size
          rcases command.flat_or_open_or_close with isFlat | ⟨point, options, rfl⟩ | rfl
          · exact .flat isFlat (ih rest.length (by omega) (settles.behind_flat isFlat) rfl)
          · obtain ⟨inside, behind, rfl, balancedInside, settled⟩ :=
              (settles.tail (0 + 1) rfl).exists_close
            simp only [List.length_append] at size
            have balanced := ih behind.length (by omega) settled rfl
            have part := Balanced.part point options balancedInside balanced
            simpa only [List.append_assoc, List.cons_append, List.nil_append] using part
          · exact settles.not_closed.elim

theorem nested_iff_balanced {commands : List DrawCommand} :
    Nested commands ↔ Balanced commands :=
  ⟨fun nested => nested.settles.balanced, Balanced.nested⟩

end TikzChart
