import TikzChart.Picture.Canvas

/-!
Comments in a script. What counts are its live lines, those that are neither blank nor a comment
(`Script.live`). A comment adds none of them, unless its note has several lines: those behind the
first one are written as they are (`Script.spill`). A canvas draws the same with and without its
comments exactly when none of its notes spills.
-/

set_option autoImplicit false

namespace TikzChart

/-- What ends a line: a line feed, and for some readers a carriage return as well. -/
inductive LineEnding where
  | feed
  | feedOrReturn
deriving DecidableEq, Repr

def LineEnding.ends : LineEnding → Char → Bool
  | feed, c => c == '\n'
  | feedOrReturn, c => c == '\n' || c == '\r'

theorem LineEnding.ends_feed (ending : LineEnding) : ending.ends '\n' = true := by
  cases ending with
  | feed => rfl
  | feedOrReturn => rfl

namespace Script

variable (ending : LineEnding)

def lines (text : List Char) : List (List Char) := text.splitOnP ending.ends

/-- A line that draws nothing: it is blank or starts with a comment mark. -/
def isSilent (line : List Char) : Bool := line.all Text.isBlank || line.head? == some '%'

def live (text : List Char) : List (List Char) := (lines ending text).filter (!isSilent ·)

/-- The live lines of a note behind its first line. -/
def spill (note : String) : List (List Char) := (lines ending note.toList).tail.filter (!isSilent ·)

theorem live_append_feed (text rest : List Char) :
    live ending (text ++ '\n' :: rest) = live ending text ++ live ending rest := by
  unfold live lines
  rw [List.splitOnP_append_cons _ _ ending.ends_feed, List.filter_append]

@[simp] theorem live_nil : live ending [] = [] := rfl

/-- Text in front of a note makes its first line longer and leaves the others alone. -/
theorem tail_lines_append {start : List Char} (unbroken : ∀ c ∈ start, ending.ends c = false)
    (text : List Char) : (lines ending (start ++ text)).tail = (lines ending text).tail := by
  induction start with
  | nil => rfl
  | cons c start ih =>
      obtain ⟨here, behind⟩ := List.forall_mem_cons.mp unbroken
      have first := List.splitOnP_cons_eq_if_modifyHead (p := ending.ends) c (start ++ text)
      rw [here, if_neg Bool.false_ne_true] at first
      exact (congrArg List.tail first).trans (List.tail_modifyHead.trans (ih behind))

theorem spill_append {start : String} (unbroken : ∀ c ∈ start.toList, ending.ends c = false)
    (note : String) : spill ending (start ++ note) = spill ending note := by
  unfold spill
  rw [String.toList_append, tail_lines_append ending unbroken]

theorem spill_of_unbroken {note : String} (unbroken : ∀ c ∈ note.toList, ending.ends c = false) :
    spill ending note = [] := by
  unfold spill lines
  rw [List.splitOnP_eq_singleton unbroken]
  rfl

/-! ### Comments -/

theorem live_rule : live ending DrawCommand.rule.toList = [] := by
  cases ending with
  | feed => decide
  | feedOrReturn => decide

theorem live_marked (note : String) :
    live ending ('%' :: ' ' :: note.toList) = spill ending note := by
  have unbroken : ∀ c ∈ ['%', ' '], ending.ends c = false := by
    rw [List.forall_mem_cons, List.forall_mem_singleton]
    cases ending with
    | feed => decide
    | feedOrReturn => decide
  have mark := List.splitOnP_cons_eq_if_modifyHead (p := ending.ends) '%' (' ' :: note.toList)
  rw [unbroken '%' (by simp), if_neg Bool.false_ne_true] at mark
  have tail := tail_lines_append ending unbroken note.toList
  unfold live spill
  rw [← tail]
  unfold lines
  rw [List.cons_append, List.singleton_append, mark]
  cases List.splitOnP ending.ends (' ' :: note.toList) with
  | nil => rfl
  | cons line rest =>
      rw [List.modifyHead_cons, List.tail_cons, List.filter_cons_of_neg]
      simp [isSilent]

theorem live_comment (note : String) :
    live ending (DrawCommand.comment note).write.toList = spill ending note := by
  have text : (DrawCommand.comment note).write.toList =
      [] ++ '\n' :: (DrawCommand.rule.toList ++ '\n' :: ('%' :: ' ' :: note.toList
        ++ '\n' :: (DrawCommand.rule.toList ++ '\n' :: []))) := by
    simp [DrawCommand.write]
  rw [text, live_append_feed, live_append_feed, live_append_feed, live_append_feed, live_rule,
    live_marked]
  simp

end Script

def DrawCommand.isComment : DrawCommand → Bool
  | .comment _ => true
  | _ => false

/-- None of the notes spills. -/
def Spotless (ending : LineEnding) (commands : List DrawCommand) : Prop :=
  ∀ note, DrawCommand.comment note ∈ commands → Script.spill ending note = []

/-! ### Leaving items out -/

section

variable {α β : Type} (keeps : α → Bool) (each : α → List β)

theorem flatMap_filter_sublist (items : List α) :
    ((items.filter keeps).flatMap each).Sublist (items.flatMap each) := by
  induction items with
  | nil => exact List.nil_sublist _
  | cons item items ih =>
      by_cases kept : keeps item = true
      · rw [List.filter_cons_of_pos kept, List.flatMap_cons, List.flatMap_cons]
        exact ih.append_left _
      · rw [List.filter_cons_of_neg kept, List.flatMap_cons]
        exact ih.trans (List.sublist_append_right _ _)

/-- Nothing is lost by leaving items out exactly when they contribute nothing. -/
theorem flatMap_filter_eq_iff (items : List α) :
    (items.filter keeps).flatMap each = items.flatMap each ↔
      ∀ item ∈ items, keeps item = false → each item = [] := by
  induction items with
  | nil => simp
  | cons item items ih =>
      rw [List.forall_mem_cons, ← ih]
      by_cases kept : keeps item = true
      · rw [List.filter_cons_of_pos kept, List.flatMap_cons, List.flatMap_cons,
          List.append_cancel_left_eq, kept, and_iff_right nofun]
      · rw [List.filter_cons_of_neg kept, List.flatMap_cons]
        have shorter := (flatMap_filter_sublist keeps each items).length_le
        constructor
        · intro same
          have lengths := congrArg List.length same
          rw [List.length_append] at lengths
          have nothing : each item = [] := List.length_eq_zero_iff.mp (by omega)
          rw [nothing, List.nil_append] at same
          exact ⟨fun _ => nothing, same⟩
        · rintro ⟨nothing, same⟩
          rw [nothing (Bool.not_eq_true _ ▸ kept), List.nil_append, same]

end

namespace Canvas

open Script

def withoutComments (canvas : Canvas) : Canvas :=
  { canvas with commands := canvas.commands.filter (!·.isComment) }

theorem live_join (ending : LineEnding) (pieces : List String) :
    live ending (String.join (pieces.map (· ++ "\n"))).toList =
      pieces.flatMap fun piece => live ending piece.toList := by
  induction pieces with
  | nil => rfl
  | cons piece pieces ih =>
      have first : (piece ++ "\n" ++ String.join (pieces.map (· ++ "\n"))).toList =
          piece.toList ++ '\n' :: (String.join (pieces.map (· ++ "\n"))).toList := by
        simp
      rw [List.map_cons, String.join_cons, first, live_append_feed, ih]
      rfl

/-- The live lines of a script, command by command. -/
theorem live_writeAll (ending : LineEnding) (canvas : Canvas) :
    live ending canvas.writeAll.toList =
      (canvas.heading.flatMap fun piece => live ending piece.toList)
        ++ ((canvas.commands.flatMap fun command => live ending command.write.toList)
          ++ live ending ("\\end" ++ Text.braced "tikzpicture").toList) := by
  unfold writeAll pieces
  rw [live_join]
  simp [List.flatMap_append, List.flatMap_map]

theorem live_withoutComments_sublist (ending : LineEnding) (canvas : Canvas) :
    (live ending canvas.withoutComments.writeAll.toList).Sublist
      (live ending canvas.writeAll.toList) := by
  rw [live_writeAll, live_writeAll]
  exact ((flatMap_filter_sublist _ _ _).append_right _).append_left _

theorem live_withoutComments_eq_iff (ending : LineEnding) (canvas : Canvas) :
    live ending canvas.withoutComments.writeAll.toList = live ending canvas.writeAll.toList ↔
      Spotless ending canvas.commands := by
  have same : canvas.withoutComments.heading = canvas.heading := rfl
  rw [live_writeAll, live_writeAll, same, List.append_cancel_left_eq, List.append_cancel_right_eq]
  change (canvas.commands.filter _).flatMap _ = _ ↔ _
  rw [flatMap_filter_eq_iff]
  constructor
  · intro nothing note member
    rw [← live_comment]
    exact nothing _ member rfl
  · intro spotless command member isComment
    cases command with
    | comment note =>
        rw [live_comment]
        exact spotless note member
    | _ => cases isComment

end Canvas

end TikzChart
