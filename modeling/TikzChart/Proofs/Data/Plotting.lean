import TikzChart.Proofs.Data.Listing
import TikzChart.Proofs.Data.Positions
import TikzChart.Proofs.Data.Reachable

/-!
Tables as lines. A consistent table is plotted at its numbers (`ofTable_of_numbers`) or at its
indices (`ofTable_of_word`), and each of these says which tics and which lines there are. What the
lines of all series share, and which points they have, follows from that.
-/

set_option autoImplicit false

namespace TikzChart

open LinePoints

namespace Table

variable {table : Table}

/-- Every data category is a number. -/
def IsNumeric (table : Table) : Prop := ∀ key ∈ table.dataKeys, (number? key).isSome = true

instance (table : Table) : Decidable table.IsNumeric := inferInstanceAs (Decidable (∀ _ ∈ _, _))

/-- The numbers that the data categories are. -/
def numbers (table : Table) : List Binary64 := table.dataKeys.filterMap number?

theorem exists_word (words : ¬table.IsNumeric) : ∃ key ∈ table.dataKeys, number? key = none := by
  unfold IsNumeric at words
  push Not at words
  obtain ⟨key, member, noNumber⟩ := words
  exact ⟨key, member, Option.not_isSome_iff_eq_none.mp noNumber⟩

/-! ### Tables as lines -/

namespace IsConsistent

variable (consistent : table.IsConsistent)

include consistent

theorem along_eq {keys : List String} (known : ∀ key ∈ keys, key ∈ table.keys)
    (positions tics : List Binary64) :
    along table keys positions tics = .ok
      { tics := dropRepeats tics
        lines := table.data.series.map fun named =>
          ordered positions (keys.filterMap named.2.get?) } := by
  unfold along
  rw [consistent.aligned_eq known]
  exact congrArg (fun lines => Except.ok (LinePoints.mk (dropRepeats tics) lines)) List.map_map

theorem ofTable_of_numbers (numeric : table.IsNumeric) (filled : table.dataKeys ≠ []) (step : ℕ) :
    ofTable table step = .ok
      { tics := dropRepeats (table.numbers.mergeSort Binary64.totalLe)
        lines := table.data.series.map fun named =>
          ordered table.numbers (table.dataKeys.filterMap named.2.get?) } := by
  have isNumbers : numbers? table.dataKeys = some table.numbers := numbers?_of_isSome numeric
  have known : ∀ key ∈ table.dataKeys, key ∈ table.keys := fun _ => List.mem_of_mem_take
  have along := consistent.along_eq known table.numbers
    (table.numbers.mergeSort Binary64.totalLe)
  cases numbers : table.numbers with
  | nil =>
      -- numbers are as many as data categories, and there are some
      have lengths := length_filterMap numeric
      rw [← Table.numbers, numbers] at lengths
      exact absurd (List.length_eq_zero_iff.mp lengths.symm) filled
  | cons first rest =>
      rw [numbers] at isNumbers along
      unfold ofTable
      rw [isNumbers]
      exact along

theorem ofTable_of_word (word : ∃ key ∈ table.dataKeys, number? key = none) {step : ℕ}
    (apart : step ≠ 0) :
    ofTable table step = .ok
      { tics := dropRepeats (indexTics table.keys.length step)
        lines := table.data.series.map fun named =>
          ordered ((List.range table.keys.length).map ofIndex)
            (table.keys.filterMap named.2.get?) } := by
  unfold ofTable
  rw [numbers?_of_none word]
  dsimp only
  rw [if_neg apart]
  exact consistent.along_eq (fun _ member => member) _ _

end IsConsistent

theorem ofTable_zero (word : ∃ key ∈ table.dataKeys, number? key = none) :
    ofTable table 0 = .error .zeroTicStep := by
  unfold ofTable
  rw [numbers?_of_none word]
  exact if_pos rfl

/-! ### Points -/

/-- The lines have a point for each data category, at the number that it is. -/
structure IsPlottedByNumber (table : Table) (points : LinePoints) : Prop where
  lines : List.Forall₂ (fun named line =>
    (line.map fun point => (some point.1, some point.2)).Perm
      (table.dataKeys.map fun key => (number? key, named.2.get? key)))
    table.data.series points.lines
  tics : (∀ key ∈ table.dataKeys, (number? key).any Binary64.isNaN = false) →
    points.TicsAtPoints

/-- The lines have a point for each category, at its index, and there are tics at every so many of
the indices. Indices beyond `2 ^ 53` are rounded, and may be one tic then. -/
structure IsPlottedByIndex (table : Table) (step : ℕ) (points : LinePoints) : Prop where
  lines : List.Forall₂ (fun named line =>
    line.map (fun point => (point.1, some point.2)) =
      table.keys.mapIdx fun index key => (ofIndex index, named.2.get? key))
    table.data.series points.lines
  ascending : points.tics.Pairwise fun first second => first.toFloat < second.toFloat
  tics : ∀ tic, tic ∈ points.tics ↔
    ∃ index < table.keys.length, step ∣ index ∧ ofIndex index = tic
  few : table.keys.length ≤ 2 ^ 53 →
    points.tics = ((List.range table.keys.length).filter (· % step == 0)).map ofIndex

namespace IsConsistent

variable (consistent : table.IsConsistent)

include consistent

theorem map_fst_of_mem_lines {keys : List String} (known : ∀ key ∈ keys, key ∈ table.keys)
    {positions : List Binary64} (complete : positions.length = keys.length)
    {line : List (Binary64 × Binary64)}
    (member : line ∈ table.data.series.map fun named =>
      ordered positions (keys.filterMap named.2.get?)) :
    line.map Prod.fst = positions.mergeSort Binary64.totalLe := by
  obtain ⟨named, inTable, rfl⟩ := List.mem_map.mp member
  apply map_fst_ordered
  rw [complete, length_filterMap fun key inKeys => consistent.isSome_get? inTable (known key inKeys)]

theorem plotted_by_number (numeric : table.IsNumeric) :
    table.IsPlottedByNumber
      { tics := dropRepeats (table.numbers.mergeSort Binary64.totalLe)
        lines := table.data.series.map fun named =>
          ordered table.numbers (table.dataKeys.filterMap named.2.get?) } where
  lines := by
    refine List.forall₂_map_right_iff.mpr (List.forall₂_same.mpr fun named member => ?_)
    have all : ∀ key ∈ table.dataKeys, (named.2.get? key).isSome = true := fun key inData =>
      consistent.isSome_get? member (List.mem_of_mem_take inData)
    rw [← map_zip_filterMap numeric all]
    exact (ordered_perm table.numbers _).map _
  tics := by
    intro noNaN
    refine ticsAtPoints_of_positions ?_ (pairwise_mergeSort_totalLe table.numbers)
      fun line member => consistent.map_fst_of_mem_lines (fun _ => List.mem_of_mem_take)
        (length_filterMap numeric) member
    intro position member
    obtain ⟨key, inData, isNumber⟩ := List.mem_filterMap.mp (List.mem_mergeSort.mp member)
    have noNaN := noNaN key inData
    rw [isNumber] at noNaN
    exact noNaN

theorem plotted_by_index (step : ℕ) :
    table.IsPlottedByIndex step
      { tics := dropRepeats (indexTics table.keys.length step)
        lines := table.data.series.map fun named =>
          ordered ((List.range table.keys.length).map ofIndex)
            (table.keys.filterMap named.2.get?) } where
  lines := by
    refine List.forall₂_map_right_iff.mpr (List.forall₂_same.mpr fun named member => ?_)
    have all : ∀ key ∈ table.keys, (named.2.get? key).isSome = true := fun key inKeys =>
      consistent.isSome_get? member inKeys
    have inOrder : ((List.range table.keys.length).map ofIndex).Pairwise
        fun first second => first.totalLe second = true :=
      List.pairwise_map.mpr (List.pairwise_lt_range.imp fun less => totalLe_ofIndex less.le)
    -- indices ascend, also when they are rounded, so the points keep their order
    rw [ordered_of_pairwise inOrder]
    calc (((List.range table.keys.length).map ofIndex).zip (table.keys.filterMap named.2.get?)).map
          (Prod.map id some)
        = ((List.range table.keys.length).map ofIndex).zip (table.keys.map named.2.get?) := by
          rw [← List.zip_map_right, map_some_filterMap all]
      _ = table.keys.mapIdx fun index key => (ofIndex index, named.2.get? key) := by
          apply List.ext_getElem
          · simp
          · intro index _ _
            simp
  ascending := indexTics_ascending _ step
  tics := fun _ => mem_dropRepeats_indexTics.trans mem_indexTics
  few := fun few => dropRepeats_indexTics few step

end IsConsistent

end Table

/-- The lines of a table that can be reached and has a category are refused when a data category is
no number and tics are wanted at no distance. Otherwise there is a line for each series, all of them
along the same positions: at the numbers that the data categories are, or at the indices of all
categories if one of the data categories is no number. -/
theorem plotted_at_categories {table : Table} (reachable : table.IsReachable)
    (nonempty : table.keys ≠ []) (step : ℕ) :
    (¬table.IsNumeric ∧ step = 0 → ofTable table step = .error .zeroTicStep) ∧
    (¬(¬table.IsNumeric ∧ step = 0) → ∃ points, ofTable table step = .ok points ∧
      points.lines ≠ [] ∧ points.SharePositions ∧
      (table.IsNumeric → table.IsPlottedByNumber points) ∧
      (¬table.IsNumeric → table.IsPlottedByIndex step points)) := by
  have consistent := reachable.consistent
  obtain ⟨dataKeys, series⟩ := reachable.filled nonempty
  constructor
  · rintro ⟨words, rfl⟩
    exact Table.ofTable_zero (Table.exists_word words)
  · intro accepted
    by_cases numeric : table.IsNumeric
    · refine ⟨_, consistent.ofTable_of_numbers numeric dataKeys step, ?_, ?_, ?_, ?_⟩
      · exact fun none => series (List.map_eq_nil_iff.mp none)
      · exact ⟨_, pairwise_mergeSort_totalLe table.numbers, fun line =>
          consistent.map_fst_of_mem_lines (fun _ => List.mem_of_mem_take) (length_filterMap numeric)⟩
      · exact fun _ => consistent.plotted_by_number numeric
      · exact fun words => absurd numeric words
    · have apart : step ≠ 0 := fun zero => accepted ⟨numeric, zero⟩
      refine ⟨_, consistent.ofTable_of_word (Table.exists_word numeric) apart, ?_, ?_, ?_, ?_⟩
      · exact fun none => series (List.map_eq_nil_iff.mp none)
      · refine ⟨_, pairwise_mergeSort_totalLe ((List.range table.keys.length).map ofIndex),
          fun line => consistent.map_fst_of_mem_lines (fun _ => id) ?_⟩
        rw [List.length_map, List.length_range]
      · exact fun isNumeric => absurd isNumeric numeric
      · exact fun _ => consistent.plotted_by_index step

/-- Categories that are numbers, both zeros and an infinity among them. -/
def cores : Workspace :=
  { tree := ⟨[(["cores.csv"], .file
      "key,base,opt\n1,3,4\n10,5,inf\n2,7,8\n-0,1,nan\n0,9,6\ninf,2,2\n".toUTF8)]⟩ }

def coresTable : Table :=
  { keys := ["-0", "0", "1", "10", "2", "inf"]
    data := ⟨[
      ("base", .ofList [("-0", .ofFloat 1), ("0", .ofFloat 9), ("1", .ofFloat 3), ("10", .ofFloat 5),
        ("2", .ofFloat 7), ("inf", .ofFloat 2)]),
      ("opt", .ofList [("-0", .ofMagnitude false Binary64.nanMagnitude), ("0", .ofFloat 6),
        ("1", .ofFloat 4), ("10", .ofMagnitude false Binary64.infinityMagnitude), ("2", .ofFloat 8),
        ("inf", .ofFloat 2)])]⟩ }

/-- The mean has no number but is no data category. Words are refused without a distance, and have
every second index as a tic otherwise. -/
theorem coresTable_plotted :
    let numbers := coresTable.after [.appendAmean "amean"]
    let words := measuredTable.after dividedAndSummarized
    (numbers.IsReachable ∧ numbers.keys ≠ [] ∧ ∃ points, ofTable numbers 0 = .ok points ∧
      points.lines.length = 2 ∧ numbers.IsPlottedByNumber points ∧ points.TicsAtPoints) ∧
    words.IsReachable ∧ words.keys ≠ [] ∧ ofTable words 0 = .error .zeroTicStep ∧
      ∃ points, ofTable words 2 = .ok points ∧ points.tics = [.ofFloat 0, .ofFloat 2] := by
  intro numbers words
  have loaded : coresTable.IsLoaded := ⟨cores, .inl ⟨"cores.csv", by decide +kernel⟩⟩
  have reachable : numbers.IsReachable := .of_loaded loaded _
  have some : numbers.keys ≠ [] := by decide +kernel
  have numeric : numbers.IsNumeric := by decide +kernel
  have size : numbers.data.series.length = 2 := by decide +kernel
  have noNaN : ∀ key ∈ numbers.dataKeys, (number? key).any Binary64.isNaN = false := by
    decide +kernel
  have wordsLoaded : measuredTable.IsLoaded := ⟨measured, .inl ⟨"ipc.csv", by decide +kernel⟩⟩
  have wordsReachable : words.IsReachable := .of_loaded wordsLoaded _
  have someWords : words.keys ≠ [] := by decide +kernel
  have notNumeric : ¬words.IsNumeric := by decide +kernel
  have three : words.keys.length = 3 := by decide +kernel
  obtain ⟨points, plotted, _, _, byNumber, _⟩ :=
    (plotted_at_categories reachable some 0).2 fun both => both.1 numeric
  obtain ⟨wordPoints, wordsPlotted, _, _, _, byIndex⟩ :=
    (plotted_at_categories wordsReachable someWords 2).2 fun both => nomatch both.2
  have isPlotted := byNumber numeric
  have tics := (byIndex notNumeric).few (by rw [three]; norm_num)
  rw [three] at tics
  refine ⟨⟨reachable, some, points, plotted, isPlotted.lines.length_eq.symm.trans size, isPlotted,
    isPlotted.tics noNaN⟩, wordsReachable, someWords,
    (plotted_at_categories wordsReachable someWords 0).1 ⟨notNumeric, rfl⟩,
    wordPoints, wordsPlotted, tics.trans ?_⟩
  decide +kernel

end TikzChart
