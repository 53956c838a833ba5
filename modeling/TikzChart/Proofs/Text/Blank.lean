import Mathlib.Data.List.DropRight
import TikzChart.Text.Blank

/-!
Trimmed texts: no blank stands at either end. Trimming twice is trimming once, and neither a word
nor any other text without blanks is changed by it.
-/

set_option autoImplicit false

namespace TikzChart.Text

theorem dropTrailing_eq_rdropWhile {α : Type} (test : α → Bool) (text : List α) :
    dropTrailing test text = text.rdropWhile test := rfl

theorem trimChars_of_no_blank {text : List Char} (noBlank : ∀ c ∈ text, isBlank c = false) :
    trimChars text = text := by
  have front : text.dropWhile isBlank = text := by
    apply List.dropWhile_eq_self_iff.mpr
    intro nonempty
    rw [noBlank _ (List.getElem_mem nonempty)]
    exact Bool.false_ne_true
  rw [trimChars, front, dropTrailing_eq_rdropWhile]
  apply List.rdropWhile_eq_self_iff.mpr
  intro nonempty
  rw [noBlank _ (List.getLast_mem nonempty)]
  exact Bool.false_ne_true

theorem trimChars_trimChars (text : List Char) : trimChars (trimChars text) = trimChars text := by
  have front : (trimChars text).dropWhile isBlank = trimChars text := by
    apply List.dropWhile_eq_self_iff.mpr
    intro nonempty
    -- What trimming the end leaves begins as before, and that was no blank.
    obtain ⟨cut, same⟩ : trimChars text <+: text.dropWhile isBlank := List.rdropWhile_prefix ..
    have longer : 0 < (text.dropWhile isBlank).length := by
      rw [← same, List.length_append]
      omega
    have notBlank := List.dropWhile_eq_self_iff.mp
      (List.dropWhile_idempotent isBlank text) longer
    have first : (trimChars text)[0] = (text.dropWhile isBlank)[0] := by
      simp only [← same, List.getElem_append_left nonempty]
    rw [first]
    exact notBlank
  rw [trimChars, front, trimChars, dropTrailing_eq_rdropWhile, dropTrailing_eq_rdropWhile]
  exact List.rdropWhile_idempotent isBlank _

theorem trim_trim (text : String) : trim (trim text) = trim text := by
  unfold trim
  rw [String.toList_ofList, trimChars_trimChars]

theorem trim_of_no_blank {text : String} (noBlank : ∀ c ∈ text.toList, isBlank c = false) :
    trim text = text := by
  rw [trim, trimChars_of_no_blank noBlank, String.ofList_toList]

theorem no_blank_of_mem_words {text word : List Char} (member : word ∈ words text) :
    ∀ c ∈ word, isBlank c = false := by
  induction text generalizing word with
  | nil => cases member
  | cons c rest ih =>
      unfold words at member
      cases blank : isBlank c with
      | true =>
          rw [blank, if_pos rfl] at member
          exact ih member
      | false =>
          rw [blank, if_neg Bool.false_ne_true] at member
          have single : ∀ d ∈ [c], isBlank d = false := by
            intro d isC
            rw [List.mem_singleton.mp isC, blank]
          split at member
          · rw [List.mem_singleton.mp member]
            exact single
          · split at member
            · rcases List.mem_cons.mp member with rfl | inRest
              · exact single
              · exact ih inRest
            · split at member
              · rw [List.mem_singleton.mp member]
                exact single
              · next word' others found =>
                  rw [found] at ih
                  rcases List.mem_cons.mp member with rfl | inOthers
                  · exact List.forall_mem_cons.mpr ⟨blank, ih List.mem_cons_self⟩
                  · exact ih (List.mem_cons_of_mem word' inOthers)

/-! ### Words in a text -/

/-- A word: characters, none of them blank. -/
def IsWord (word : List Char) : Prop := word ≠ [] ∧ ∀ c ∈ word, isBlank c = false

instance (word : List Char) : Decidable (IsWord word) :=
  decidable_of_iff (word ≠ [] ∧ (word.all fun c => !isBlank c) = true) (by simp [IsWord])

/-- Nothing, or text that begins with a blank. -/
def IsParted (text : List Char) : Prop := ∀ c ∈ text.head?, isBlank c = true

instance (text : List Char) : Decidable (IsParted text) :=
  decidable_of_iff (text.head?.all isBlank = true) (by cases text <;> simp [IsParted])

theorem words_of_blank {c : Char} (blank : isBlank c = true) (rest : List Char) :
    words (c :: rest) = words rest := by
  conv_lhs => unfold words
  rw [if_pos blank]

theorem words_append_of_blank {blanks : List Char} (blank : ∀ c ∈ blanks, isBlank c = true)
    (rest : List Char) : words (blanks ++ rest) = words rest := by
  induction blanks with
  | nil => rfl
  | cons c blanks ih =>
      obtain ⟨here, behind⟩ := List.forall_mem_cons.mp blank
      rw [List.cons_append, words_of_blank here, ih behind]

theorem words_last {c : Char} (solid : isBlank c = false) {rest : List Char}
    (parted : IsParted rest) : words (c :: rest) = [c] :: words rest := by
  conv_lhs => unfold words
  rw [if_neg (Bool.eq_false_iff.mp solid)]
  cases rest with
  | nil => rfl
  | cons next rest => exact if_pos (parted next rfl)

theorem words_inside {c next : Char} (solid : isBlank c = false) (nextSolid : isBlank next = false)
    {rest word : List Char} {others : List (List Char)}
    (found : words (next :: rest) = word :: others) :
    words (c :: next :: rest) = (c :: word) :: others := by
  conv_lhs => unfold words
  rw [if_neg (Bool.eq_false_iff.mp solid)]
  dsimp only
  rw [if_neg (Bool.eq_false_iff.mp nextSolid), found]

/-- The word at the head of a text. -/
theorem words_append {word rest : List Char} (isWord : IsWord word) (parted : IsParted rest) :
    words (word ++ rest) = word :: words rest := by
  obtain ⟨nonempty, solid⟩ := isWord
  induction word with
  | nil => exact absurd rfl nonempty
  | cons c word ih =>
      obtain ⟨here, behind⟩ := List.forall_mem_cons.mp solid
      cases word with
      | nil => exact words_last here parted
      | cons next word =>
          exact words_inside here (behind next List.mem_cons_self)
            (ih (List.cons_ne_nil _ _) behind)

theorem IsParted.dropTrailing {text : List Char} (parted : IsParted text) :
    IsParted (dropTrailing isBlank text) := by
  obtain ⟨cut, same⟩ : Text.dropTrailing isBlank text <+: text := List.rdropWhile_prefix ..
  intro c begins
  apply parted
  rw [← same, List.head?_append, Option.mem_def.mp begins]
  rfl

/-! ### Blanks around a text -/

theorem trimChars_of_blank {text : List Char} (blank : ∀ c ∈ text, isBlank c = true) :
    trimChars text = [] := by
  rw [trimChars, List.dropWhile_eq_nil_iff.mpr blank]
  rfl

/-- Text that begins and ends with a character that is not blank stays, and so does what follows it
up to the blanks at the end. -/
theorem trimChars_between {indent text tail : List Char} {first last : Char}
    (blank : ∀ c ∈ indent, isBlank c = true) (begins : text.head? = some first)
    (firstSolid : isBlank first = false) (ends : text.getLast? = some last)
    (lastSolid : isBlank last = false) :
    trimChars (indent ++ (text ++ tail)) = text ++ dropTrailing isBlank tail := by
  have front : (text ++ tail).dropWhile isBlank = text ++ tail := by
    cases text with
    | nil => cases begins
    | cons c text =>
        cases begins
        rw [List.cons_append, List.dropWhile_cons, if_neg (Bool.eq_false_iff.mp firstSolid)]
  have back : text.reverse.dropWhile isBlank = text.reverse := by
    rw [← List.head?_reverse] at ends
    cases reversed : text.reverse with
    | nil => rfl
    | cons c behind =>
        rw [reversed] at ends
        cases ends
        rw [List.dropWhile_cons, if_neg (Bool.eq_false_iff.mp lastSolid)]
  rw [trimChars, List.dropWhile_append_of_pos blank, front, dropTrailing, dropTrailing,
    List.reverse_append, List.dropWhile_append]
  split
  · next nothing =>
      rw [back, List.reverse_reverse, List.isEmpty_iff.mp nothing, List.reverse_nil,
        List.append_nil]
  · rw [List.reverse_append, List.reverse_reverse]

theorem trimChars_append_blank {c : Char} (blank : isBlank c = true) (text : List Char) :
    trimChars (text ++ [c]) = trimChars text := by
  rw [trimChars, trimChars, List.dropWhile_append]
  split
  · next nothing =>
      rw [List.dropWhile_cons, if_pos blank, List.isEmpty_iff.mp nothing, List.dropWhile_nil]
  · rw [dropTrailing_eq_rdropWhile, dropTrailing_eq_rdropWhile,
      List.rdropWhile_concat_pos isBlank _ c blank]

/-! ### Two words in a text -/

theorem trimChars_pair {indent first gap second tail : List Char}
    (indented : ∀ c ∈ indent, isBlank c = true) (firstIsWord : IsWord first)
    (secondIsWord : IsWord second) :
    trimChars (indent ++ (first ++ (gap ++ second) ++ tail)) =
      first ++ (gap ++ second) ++ dropTrailing isBlank tail := by
  obtain ⟨firstNonempty, firstSolid⟩ := firstIsWord
  obtain ⟨secondNonempty, secondSolid⟩ := secondIsWord
  obtain ⟨c, rest, rfl⟩ := List.exists_cons_of_ne_nil firstNonempty
  have ends : (c :: rest ++ (gap ++ second)).getLast? = some (second.getLast secondNonempty) := by
    rw [← List.append_assoc, List.getLast?_append_of_ne_nil _ secondNonempty,
      List.getLast?_eq_some_getLast]
  exact trimChars_between indented rfl (firstSolid c List.mem_cons_self) ends
    (secondSolid _ (List.getLast_mem secondNonempty))

theorem words_pair {first gap second tail : List Char} (firstIsWord : IsWord first)
    (apart : gap ≠ []) (blank : ∀ c ∈ gap, isBlank c = true) (secondIsWord : IsWord second)
    (parted : IsParted tail) :
    words (first ++ (gap ++ second) ++ tail) = first :: second :: words tail := by
  obtain ⟨between, gapRest, rfl⟩ := List.exists_cons_of_ne_nil apart
  have gapParted : IsParted (between :: gapRest ++ (second ++ tail)) := by
    intro c begins
    cases begins
    exact blank between List.mem_cons_self
  rw [List.append_assoc, List.append_assoc, words_append firstIsWord gapParted,
    words_append_of_blank blank, words_append secondIsWord parted]

end TikzChart.Text
