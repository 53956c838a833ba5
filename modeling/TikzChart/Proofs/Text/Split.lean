import Mathlib.Data.List.DropRight
import TikzChart.Text.Blank

/-!
Texts cut at a separator. The pieces are the only ones that are free of the separator and give the
text when separators are put between them; what is added to the text goes to the last piece or,
behind a separator, becomes a piece of its own.
-/

set_option autoImplicit false

namespace TikzChart.Text

variable {α : Type}

@[simp] theorem joinWith_singleton (separator piece : List α) :
    joinWith separator [piece] = piece := rfl

theorem joinWith_cons {separator piece : List α} {pieces : List (List α)}
    (more : pieces ≠ []) :
    joinWith separator (piece :: pieces) = piece ++ separator ++ joinWith separator pieces := by
  cases pieces with
  | nil => exact absurd rfl more
  | cons next pieces => rfl

theorem joinWith_concat {separator : List α} {before : List (List α)} (nonempty : before ≠ [])
    (last : List α) :
    joinWith separator (before ++ [last]) = joinWith separator before ++ separator ++ last := by
  induction before with
  | nil => exact absurd rfl nonempty
  | cons piece before ih =>
      by_cases more : before = []
      · rw [more]
        rfl
      · rw [List.cons_append, joinWith_cons (by simp), ih more, joinWith_cons more]
        simp only [List.append_assoc]

/-- Text at the end of the last piece. -/
theorem joinWith_concat_append (separator : List α) (before : List (List α))
    (last tail : List α) :
    joinWith separator (before ++ [last ++ tail]) =
      joinWith separator (before ++ [last]) ++ tail := by
  cases before with
  | nil => rfl
  | cons piece before =>
      rw [joinWith_concat (List.cons_ne_nil _ _), joinWith_concat (List.cons_ne_nil _ _)]
      simp only [List.append_assoc]

variable [DecidableEq α] {separator : α}

theorem splitOn_ne_nil (separator : α) (text : List α) : splitOn separator text ≠ [] := by
  cases text with
  | nil => exact List.cons_ne_nil _ _
  | cons c rest =>
      unfold splitOn
      split
      · exact List.cons_ne_nil _ _
      · split
        · exact List.cons_ne_nil _ _
        · exact List.cons_ne_nil _ _

theorem splitOn_separator (rest : List α) :
    splitOn separator (separator :: rest) = [] :: splitOn separator rest := by
  rw [splitOn, if_pos rfl]

theorem splitOn_replicate (separator : α) (count : ℕ) (rest : List α) :
    splitOn separator (List.replicate count separator ++ rest) =
      List.replicate count [] ++ splitOn separator rest := by
  induction count with
  | zero => rfl
  | succ count ih =>
      rw [List.replicate_succ, List.cons_append, splitOn_separator, ih]
      rfl

theorem splitOn_cons_of_ne {c : α} (different : c ≠ separator) {rest piece : List α}
    {pieces : List (List α)} (split : splitOn separator rest = piece :: pieces) :
    splitOn separator (c :: rest) = (c :: piece) :: pieces := by
  rw [splitOn, if_neg different, split]

/-- Nothing is lost by cutting. -/
theorem joinWith_splitOn (separator : α) (text : List α) :
    joinWith [separator] (splitOn separator text) = text := by
  induction text with
  | nil => rfl
  | cons c rest ih =>
      obtain ⟨piece, pieces, split⟩ := List.exists_cons_of_ne_nil
        (splitOn_ne_nil separator rest)
      by_cases same : c = separator
      · rw [same, splitOn_separator, joinWith_cons (splitOn_ne_nil separator rest), ih]
        rfl
      · rw [splitOn_cons_of_ne same split]
        rw [split] at ih
        cases pieces with
        | nil => exact congrArg (c :: ·) ih
        | cons next pieces => exact congrArg (c :: ·) ih

theorem not_mem_of_mem_splitOn {text piece : List α} (member : piece ∈ splitOn separator text) :
    separator ∉ piece := by
  induction text generalizing piece with
  | nil =>
      rw [splitOn, List.mem_singleton] at member
      rw [member]
      exact List.not_mem_nil
  | cons c rest ih =>
      by_cases same : c = separator
      · rw [same, splitOn_separator] at member
        rcases List.mem_cons.mp member with rfl | inRest
        · exact List.not_mem_nil
        · exact ih inRest
      · obtain ⟨first, others, split⟩ := List.exists_cons_of_ne_nil
          (splitOn_ne_nil separator rest)
        rw [splitOn_cons_of_ne same split] at member
        rw [split] at ih
        rcases List.mem_cons.mp member with rfl | inOthers
        · have behind : separator ∉ first := ih List.mem_cons_self
          simp [behind, Ne.symm same]
        · exact ih (List.mem_cons_of_mem first inOthers)

theorem splitOn_of_not_mem {text : List α} (absent : separator ∉ text) :
    splitOn separator text = [text] := by
  induction text with
  | nil => rfl
  | cons c rest ih =>
      rw [List.mem_cons, not_or] at absent
      exact splitOn_cons_of_ne (Ne.symm absent.1) (ih absent.2)

/-- A separator behind a piece cuts the piece off. -/
theorem splitOn_append_separator {piece : List α} (absent : separator ∉ piece) (rest : List α) :
    splitOn separator (piece ++ separator :: rest) = piece :: splitOn separator rest := by
  induction piece with
  | nil => exact splitOn_separator rest
  | cons c piece ih =>
      rw [List.mem_cons, not_or] at absent
      exact splitOn_cons_of_ne (Ne.symm absent.1) (ih absent.2)

theorem splitOn_joinWith {pieces : List (List α)} (nonempty : pieces ≠ [])
    (absent : ∀ piece ∈ pieces, separator ∉ piece) :
    splitOn separator (joinWith [separator] pieces) = pieces := by
  induction pieces with
  | nil => exact absurd rfl nonempty
  | cons piece pieces ih =>
      obtain ⟨here, behind⟩ := List.forall_mem_cons.mp absent
      by_cases more : pieces = []
      · rw [more]
        exact splitOn_of_not_mem here
      · rw [joinWith_cons more, List.append_assoc, List.singleton_append,
          splitOn_append_separator here, ih more behind]

/-! ### Longer texts -/

theorem splitOn_append {text tail last : List α} {before : List (List α)}
    (split : splitOn separator text = before ++ [last]) (absent : separator ∉ tail) :
    splitOn separator (text ++ tail) = before ++ [last ++ tail] := by
  have free : ∀ piece ∈ before ++ [last], separator ∉ piece :=
    fun piece member => not_mem_of_mem_splitOn (split ▸ member)
  rw [← joinWith_splitOn separator text, split, ← joinWith_concat_append]
  apply splitOn_joinWith (by simp)
  intro piece member
  rcases List.mem_append.mp member with inBefore | isLast
  · exact free piece (List.mem_append_left _ inBefore)
  · have freeLast : separator ∉ last := free last (by simp)
    rw [List.mem_singleton.mp isLast]
    simp [freeLast, absent]

theorem splitOn_concat {piece : List α} (text : List α) (absent : separator ∉ piece) :
    splitOn separator (text ++ separator :: piece) = splitOn separator text ++ [piece] := by
  have whole : text ++ separator :: piece =
      joinWith [separator] (splitOn separator text ++ [piece]) := by
    rw [joinWith_concat (splitOn_ne_nil separator text), joinWith_splitOn, List.append_assoc,
      List.singleton_append]
  rw [whole]
  apply splitOn_joinWith (by simp)
  intro other member
  rcases List.mem_append.mp member with inText | isPiece
  · exact not_mem_of_mem_splitOn inText
  · rw [List.mem_singleton.mp isPiece]
    exact absent

/-- Something stands behind the last separator unless the text is empty or ends with one. -/
theorem last_ne_nil_iff {text last : List α} {before : List (List α)}
    (split : splitOn separator text = before ++ [last]) :
    last ≠ [] ↔ ∃ c, text.getLast? = some c ∧ c ≠ separator := by
  have whole : text = joinWith [separator] (before ++ [last]) := by
    rw [← split, joinWith_splitOn]
  have free : separator ∉ last := not_mem_of_mem_splitOn (split ▸ List.mem_append_right _ (by simp))
  rcases List.eq_nil_or_concat last with rfl | ⟨front, c, rfl⟩
  · cases before with
    | nil => simp [whole]
    | cons piece before =>
        rw [whole, joinWith_concat (List.cons_ne_nil _ _)]
        simp
  · have differs : c ≠ separator := by
      intro same
      rw [same] at free
      exact free (by simp)
    rw [List.concat_eq_append] at whole ⊢
    rw [whole, joinWith_concat_append]
    simp [differs]

end TikzChart.Text
