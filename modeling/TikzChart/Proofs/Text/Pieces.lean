import TikzChart.Proofs.Text.Blank
import TikzChart.Proofs.Text.Split

/-!
What the lines, the words and the trimmed form of a text are, as relations between a text and its
pieces: how the pieces and what stands between them make up the text. Each relation determines the
pieces, and they are those that cutting the text gives (`hasLines_iff`, `hasWords_iff`,
`trims_iff`).
-/

set_option autoImplicit false

namespace TikzChart.Text

/-! ### Lines -/

/-- The lines of a text. A line feed ends a line, along with a carriage return right before it; what
stands behind the last line feed is a line as well, unless it is empty. -/
inductive HasLines : List Char → List (List Char) → Prop
  | nothing : HasLines [] []
  | last {line : List Char} (nonempty : line ≠ []) (whole : '\n' ∉ line) : HasLines line [line]
  | ended {line rest : List Char} {lines : List (List Char)} (whole : '\n' ∉ line)
      (noReturn : line.getLast? ≠ some '\r') (behind : HasLines rest lines) :
      HasLines (line ++ '\n' :: rest) (line :: lines)
  | returned {line rest : List Char} {lines : List (List Char)} (whole : '\n' ∉ line)
      (behind : HasLines rest lines) : HasLines (line ++ '\r' :: '\n' :: rest) (line :: lines)

theorem lines_of_not_mem {line : List Char} (nonempty : line ≠ []) (whole : '\n' ∉ line) :
    lines line = [line] := by
  rw [lines, splitOn_of_not_mem whole]
  obtain ⟨c, rest, rfl⟩ := List.exists_cons_of_ne_nil nonempty
  rfl

theorem lines_append_feed {line : List Char} (whole : '\n' ∉ line) (rest : List Char) :
    lines (line ++ '\n' :: rest) =
      (if line.getLast? = some '\r' then line.dropLast else line) :: lines rest := by
  have more := splitOn_ne_nil '\n' rest
  rw [lines, lines, splitOn_append_separator whole, List.dropLast_cons_of_ne_nil more,
    List.getLast?_cons_of_ne_nil more, List.map_cons]
  split
  · rfl
  · rfl
  · rfl

theorem HasLines.lines_eq {text : List Char} {found : List (List Char)}
    (hasLines : HasLines text found) : lines text = found := by
  induction hasLines with
  | nothing => rfl
  | last nonempty whole => exact lines_of_not_mem nonempty whole
  | ended whole noReturn behind ih => rw [lines_append_feed whole, if_neg noReturn, ih]
  | @returned line rest found whole behind ih =>
      have alsoWhole : '\n' ∉ line ++ ['\r'] := by simp [whole]
      rw [List.append_cons, lines_append_feed alsoWhole, if_pos List.getLast?_concat,
        List.dropLast_concat, ih]

/-- A text that is put together from pieces has lines. -/
theorem exists_hasLines_joinWith {pieces : List (List Char)}
    (whole : ∀ piece ∈ pieces, '\n' ∉ piece) :
    ∃ found, HasLines (joinWith ['\n'] pieces) found := by
  induction pieces with
  | nil => exact ⟨_, .nothing⟩
  | cons piece pieces ih =>
      obtain ⟨here, behind⟩ := List.forall_mem_cons.mp whole
      by_cases more : pieces = []
      · rw [more, joinWith_singleton]
        by_cases empty : piece = []
        · rw [empty]
          exact ⟨_, .nothing⟩
        · exact ⟨_, .last empty here⟩
      · obtain ⟨found, hasLines⟩ := ih behind
        rw [joinWith_cons more, List.append_assoc, List.singleton_append]
        by_cases returns : piece.getLast? = some '\r'
        · obtain ⟨line, rfl⟩ := List.getLast?_eq_some_iff.mp returns
          have wholeLine : '\n' ∉ line := fun inside => here (List.mem_append_left _ inside)
          rw [List.append_assoc]
          exact ⟨_, .returned wholeLine hasLines⟩
        · exact ⟨_, .ended here returns hasLines⟩

theorem hasLines_iff {text : List Char} {found : List (List Char)} :
    HasLines text found ↔ lines text = found := by
  refine ⟨HasLines.lines_eq, ?_⟩
  rintro rfl
  have whole : ∀ piece ∈ splitOn '\n' text, '\n' ∉ piece :=
    fun _ member => not_mem_of_mem_splitOn member
  obtain ⟨found, hasLines⟩ := exists_hasLines_joinWith whole
  rw [joinWith_splitOn] at hasLines
  rwa [hasLines.lines_eq]

/-! ### Words -/

/-- The words of a text, in their order, with blanks between them. -/
inductive HasWords : List Char → List (List Char) → Prop
  | nothing {text : List Char} (blank : ∀ c ∈ text, isBlank c = true) : HasWords text []
  | word {indent word rest : List Char} {words : List (List Char)}
      (blank : ∀ c ∈ indent, isBlank c = true) (isWord : IsWord word) (parted : IsParted rest)
      (behind : HasWords rest words) : HasWords (indent ++ (word ++ rest)) (word :: words)

theorem HasWords.first {word rest : List Char} {words : List (List Char)} (isWord : IsWord word)
    (parted : IsParted rest) (behind : HasWords rest words) :
    HasWords (word ++ rest) (word :: words) :=
  HasWords.word (List.forall_mem_nil _) isWord parted behind

theorem HasWords.words_eq {text : List Char} {found : List (List Char)}
    (hasWords : HasWords text found) : words text = found := by
  induction hasWords with
  | @nothing text blank =>
      rw [← List.append_nil text, words_append_of_blank blank]
      rfl
  | word blank isWord parted behind ih =>
      rw [words_append_of_blank blank, words_append isWord parted, ih]

theorem HasWords.cons_blank {c : Char} {text : List Char} {found : List (List Char)}
    (blank : isBlank c = true) (hasWords : HasWords text found) : HasWords (c :: text) found := by
  cases hasWords with
  | nothing allBlank => exact .nothing (List.forall_mem_cons.mpr ⟨blank, allBlank⟩)
  | @word indent word rest _ indented isWord parted behind =>
      have allIndented : ∀ d ∈ c :: indent, isBlank d = true :=
        List.forall_mem_cons.mpr ⟨blank, indented⟩
      exact HasWords.word allIndented isWord parted behind

/-- A character in front of a word belongs to the word. -/
theorem HasWords.cons_solid {c next : Char} {text : List Char} {found : List (List Char)}
    (solid : isBlank c = false) (nextSolid : isBlank next = false)
    (hasWords : HasWords (next :: text) found) : ∃ more, HasWords (c :: next :: text) more := by
  generalize whole : next :: text = rest at hasWords
  cases hasWords with
  | nothing allBlank =>
      rw [allBlank next (whole ▸ List.mem_cons_self)] at nextSolid
      cases nextSolid
  | @word indent word rest _ indented isWord parted behind =>
      cases indent with
      | nil =>
          have longer : IsWord (c :: word) :=
            ⟨List.cons_ne_nil _ _, List.forall_mem_cons.mpr ⟨solid, isWord.2⟩⟩
          exact ⟨_, HasWords.first longer parted behind⟩
      | cons first indent =>
          cases whole
          rw [indented next List.mem_cons_self] at nextSolid
          cases nextSolid

theorem exists_hasWords (text : List Char) : ∃ found, HasWords text found := by
  induction text with
  | nil => exact ⟨[], .nothing nofun⟩
  | cons c rest ih =>
      obtain ⟨found, hasWords⟩ := ih
      cases blank : isBlank c with
      | true => exact ⟨found, hasWords.cons_blank blank⟩
      | false =>
          have single : IsWord [c] := ⟨List.cons_ne_nil _ _, List.forall_mem_singleton.mpr blank⟩
          cases rest with
          | nil =>
              have parted : IsParted [] := nofun
              exact ⟨_, HasWords.first single parted hasWords⟩
          | cons next rest =>
              cases nextBlank : isBlank next with
              | false => exact hasWords.cons_solid blank nextBlank
              | true =>
                  have parted : IsParted (next :: rest) := by
                    intro first begins
                    cases begins
                    exact nextBlank
                  exact ⟨_, HasWords.first single parted hasWords⟩

theorem hasWords_iff {text : List Char} {found : List (List Char)} :
    HasWords text found ↔ words text = found := by
  refine ⟨HasWords.words_eq, ?_⟩
  rintro rfl
  obtain ⟨found, hasWords⟩ := exists_hasWords text
  rwa [hasWords.words_eq]

/-! ### Trimmed texts -/

/-- A text without the blanks at its two ends. -/
structure Trims (text content : List Char) : Prop where
  between : ∃ indent tail, text = indent ++ (content ++ tail) ∧
    (∀ c ∈ indent, isBlank c = true) ∧ ∀ c ∈ tail, isBlank c = true
  begins : ∀ c ∈ content.head?, isBlank c = false
  ends : ∀ c ∈ content.getLast?, isBlank c = false

theorem Trims.trimChars_eq {text content : List Char} (trims : Trims text content) :
    trimChars text = content := by
  obtain ⟨⟨indent, tail, rfl, indented, trailed⟩, begins, ends⟩ := trims
  cases content with
  | nil =>
      apply trimChars_of_blank
      exact List.forall_mem_append.mpr ⟨indented, trailed⟩
  | cons first content =>
      have last := List.getLast?_eq_some_getLast (List.cons_ne_nil first content)
      rw [trimChars_between indented rfl (begins first rfl) last (ends _ last),
        dropTrailing_eq_rdropWhile, List.rdropWhile_eq_nil_iff.mpr trailed, List.append_nil]

theorem trims_trimChars (text : List Char) : Trims text (trimChars text) where
  between := by
    refine ⟨text.takeWhile isBlank, (text.dropWhile isBlank).rtakeWhile isBlank, ?_, ?_, ?_⟩
    · rw [trimChars, dropTrailing_eq_rdropWhile, List.rdropWhile_append_rtakeWhile,
        List.takeWhile_append_dropWhile]
    · exact fun _ member => List.mem_takeWhile_imp member
    · exact fun _ member => List.mem_rtakeWhile_imp member
  begins := by
    intro c begins
    obtain ⟨cut, same⟩ : trimChars text <+: text.dropWhile isBlank := List.rdropWhile_prefix ..
    have first : (text.dropWhile isBlank).head? = some c := by
      rw [← same, List.head?_append, Option.mem_def.mp begins]
      rfl
    have solid := List.head?_dropWhile_not isBlank text
    rwa [first] at solid
  ends := by
    intro c ends
    have nonempty : trimChars text ≠ [] := by
      intro empty
      rw [empty] at ends
      cases ends
    rw [List.getLast?_eq_some_getLast nonempty] at ends
    cases ends
    exact Bool.eq_false_iff.mpr (List.rdropWhile_last_not isBlank _ nonempty)

theorem trims_iff {text content : List Char} : Trims text content ↔ trimChars text = content := by
  refine ⟨Trims.trimChars_eq, ?_⟩
  rintro rfl
  exact trims_trimChars text

end TikzChart.Text
