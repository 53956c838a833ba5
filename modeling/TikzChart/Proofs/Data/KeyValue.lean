import TikzChart.Proofs.Data.KeyValueGrammar

/-!
Spellings of data in key-value form, and what is read from them. A line may be indented, more
columns may follow the value, and lines that tell nothing may stand anywhere (`KeyValue.Tells`). The
series that is read is that of the data, whatever the spelling and the order of the lines
(`KeyValue.read_spelled`).
-/

set_option autoImplicit false

namespace TikzChart

/-- A key and a value with the text that the value has in a file. -/
structure Datum where
  key : String
  text : String
  value : Binary64
  keyIsWord : Text.IsWord key.toList := by decide +kernel
  keyNoMark : key.toList.head? ≠ some '#' := by decide +kernel
  textIsWord : Text.IsWord text.toList := by decide +kernel
  reads : Numeral.read text = .ok value

/-- The entry that a datum makes in a series. -/
def Datum.entry (datum : Datum) : String × Binary64 := (datum.key, datum.value)

namespace KeyValue

/-! ### Lines -/

/-- What a line tells. Blanks alone tell nothing, and neither does a comment. -/
inductive Tells : List Char → Option Datum → Prop
  | blank (line : List Char) (blank : line.all Text.isBlank = true := by decide +kernel) :
      Tells line none
  | comment (indent rest : List Char)
      (indented : indent.all Text.isBlank = true := by decide +kernel) :
      Tells (indent ++ '#' :: rest) none
  | datum (indent gap columns : List Char) (datum : Datum)
      (indented : indent.all Text.isBlank = true := by decide +kernel)
      (apart : gap ≠ [] := by decide +kernel)
      (gapBlank : gap.all Text.isBlank = true := by decide +kernel)
      (parted : Text.IsParted columns := by decide +kernel) :
      Tells (indent ++ (datum.key.toList ++ (gap ++ datum.text.toList) ++ columns)) (some datum)

/-- A line is read as what it tells. -/
theorem readLine_told {line : List Char} {told : Option Datum} (tells : Tells line told)
    (number : Nat) : readLine number line = .ok (told.map Datum.entry) := by
  cases tells with
  | blank _ blank =>
      refine readLine_eq_none_iff.mpr fun fields has => ?_
      exact (hasFields_iff.mp has).1 (Text.trimChars_of_blank (List.all_eq_true.mp blank))
  | comment indent rest indented =>
      refine readLine_eq_none_iff.mpr fun fields has => (hasFields_iff.mp has).2.1 ?_
      have solid : Text.isBlank '#' = false := by decide
      have trimmed : Text.trimChars (indent ++ (['#'] ++ rest)) =
          ['#'] ++ Text.dropTrailing Text.isBlank rest :=
        Text.trimChars_between (List.all_eq_true.mp indented) rfl solid rfl solid
      rw [List.singleton_append] at trimmed
      rw [trimmed]
      rfl
  | datum indent gap columns datum indented apart gapBlank parted =>
      obtain ⟨first, keyRest, key⟩ := List.exists_cons_of_ne_nil datum.keyIsWord.1
      have trimmed := @Text.trimChars_pair _ _ gap _ columns (List.all_eq_true.mp indented)
        datum.keyIsWord datum.textIsWord
      have words := Text.words_pair datum.keyIsWord apart (List.all_eq_true.mp gapBlank)
        datum.textIsWord parted.dropTrailing
      have has := hasFields_iff.mpr ⟨?_, ?_, trimmed ▸ words⟩
      · refine readLine_eq_some_iff.mpr ⟨_, _, _, has, String.ofList_toList, ?_⟩
        rw [String.ofList_toList, datum.reads]
        rfl
      · rw [trimmed, key]
        exact List.cons_ne_nil _ _
      · have noMark := datum.keyNoMark
        rw [key] at noMark
        rw [trimmed, key]
        exact noMark

theorem readLines_told {lines : List (List Char)} {told : List (Option Datum)}
    (tells : List.Forall₂ Tells lines told) (before : Series Binary64) (number : Nat) :
    readLines before number lines =
      .ok ((told.reduceOption.map Datum.entry).foldl
        (fun series entry => series.insert entry.1 entry.2) before) := by
  induction tells generalizing before number with
  | nil => rfl
  | @cons line first lines told tellsFirst tells ih =>
      rw [readLines, readLine_told tellsFirst number]
      cases first with
      | none => exact ih before (number + 1)
      | some datum => exact ih (before.insert datum.key datum.value) (number + 1)

/-! ### Texts -/

theorem sameStart_of_trimmed {line other : List Char}
    (same : Text.trimChars line = Text.trimChars other) : SameStart line other := by
  intro start
  simp only [hasFields_iff, same]

theorem readLines_of_trimmed {first second : List (List Char)}
    (same : first.map Text.trimChars = second.map Text.trimChars) (before : Series Binary64)
    (number : Nat) : readLines before number first = readLines before number second := by
  rw [← List.forall₂_eq_eq_eq, List.forall₂_map_left_iff, List.forall₂_map_right_iff] at same
  exact readLines_of_sameStart (same.imp fun _ _ => sameStart_of_trimmed) before number

theorem readLines_append_blank (before : Series Binary64) (number : Nat)
    (lines : List (List Char)) :
    readLines before number (lines ++ [[]]) = readLines before number lines := by
  induction lines generalizing before number with
  | nil => rfl
  | cons line lines ih =>
      rw [List.cons_append, readLines, readLines]
      split
      · rfl
      · exact ih before (number + 1)
      · exact ih _ (number + 1)

/-- A line loses at most a carriage return at its end when it is cut out of a text. -/
theorem trimChars_cut (line : List Char) :
    Text.trimChars (if line.getLast? = some '\r' then line.dropLast else line) =
      Text.trimChars line := by
  split
  · next ends =>
      obtain ⟨front, rfl⟩ := List.getLast?_eq_some_iff.mp ends
      rw [List.dropLast_concat, Text.trimChars_append_blank (by decide)]
  · rfl

theorem readLines_lines {lines : List (List Char)} (whole : ∀ line ∈ lines, '\n' ∉ line)
    (before : Series Binary64) (number : Nat) :
    readLines before number (Text.lines (Text.joinWith ['\n'] lines)) =
      readLines before number lines := by
  rcases List.eq_nil_or_concat lines with rfl | ⟨front, last, rfl⟩
  · rfl
  · rw [List.concat_eq_append] at whole ⊢
    have cut : ((front.map fun line =>
        if line.getLast? = some '\r' then line.dropLast else line).map Text.trimChars) =
        front.map Text.trimChars := by
      rw [List.map_map]
      exact List.map_congr_left fun line _ => trimChars_cut line
    rw [Text.lines, Text.splitOn_joinWith (by simp) whole, List.getLast?_concat,
      List.dropLast_concat]
    cases last with
    | nil =>
        rw [readLines_append_blank]
        exact readLines_of_trimmed cut before number
    | cons c last =>
        apply readLines_of_trimmed
        rw [List.map_append, List.map_append, cut]

/-- The texts of data: lines that tell the data in some order. -/
def Spells (data : List Datum) (text : List Char) : Prop :=
  ∃ lines told, text = Text.joinWith ['\n'] lines ∧ (∀ line ∈ lines, '\n' ∉ line) ∧
    List.Forall₂ Tells lines told ∧ told.reduceOption.Perm data

/-- Data of distinct keys is read from each of its texts. -/
theorem read_spelled {data : List Datum} {text : List Char} (spells : Spells data text)
    (distinct : (data.map Datum.key).Nodup) :
    read text = .ok (.ofList (data.map Datum.entry)) := by
  obtain ⟨lines, told, rfl, whole, tells, perm⟩ := spells
  have distinctEntries : ((told.reduceOption.map Datum.entry).map Prod.fst).Nodup := by
    rw [List.map_map]
    exact (perm.map Datum.key).nodup_iff.mpr distinct
  rw [read, readLines_lines whole, readLines_told tells, ← Series.ofList,
    Series.ofList_perm (perm.map Datum.entry) distinctEntries]

end KeyValue

end TikzChart
