import TikzChart.Proofs.Data.Accepted
import TikzChart.Proofs.Data.Loading

/-!
Tables that can be reached: loaded, and transformed any number of times. What accepted transforms
keep holds of all of them. They are consistent, and one that has a category has a data category and
a series.
-/

set_option autoImplicit false

namespace TikzChart.Table

variable {table : Table}

/-- A table that was loaded and then transformed, some of the transforms being refused maybe. -/
def IsReachable (table : Table) : Prop :=
  ∃ (loaded : Table) (transforms : List Transform),
    loaded.IsLoaded ∧ loaded.after transforms = table

/-! ### Data categories after a transform -/

theorem dataKeys_withSummary (table : Table) (key : String) (summary : List Float → Float)
    (columns : List (List Binary64)) :
    (table.withSummary key summary columns).dataKeys = table.dataKeys := by
  unfold withSummary dataKeys
  rw [List.length_append, List.length_singleton, Nat.add_sub_add_right]
  exact List.take_append_of_le_length (Nat.sub_le _ _)

theorem IsConsistent.dataKeys_sortedBy (consistent : table.IsConsistent) (values : List Binary64) :
    (table.sortedBy values).dataKeys =
      ((values.zip table.dataKeys).mergeSort fun first second =>
        first.1.totalLe second.1).map Prod.snd := by
  unfold sortedBy
  rw [dataKeys, List.length_append, consistent.length_summaryKeys, Nat.add_sub_cancel]
  exact List.take_left

theorem keys_sortedBy_perm {values : List Binary64}
    (complete : values.length = table.dataKeys.length) :
    (table.sortedBy values).keys.Perm table.keys := by
  have sorted := (sortedKeys_perm complete).append_right table.summaryKeys
  rw [table.dataKeys_append_summaryKeys] at sorted
  exact sorted

/-! ### Accepted transforms one after the other -/

theorem IsConsistent.given {next : Table} {transform : Transform} (consistent : table.IsConsistent)
    (gives : transform.Gives table next) : next.IsConsistent := by
  have kept := consistent.step transform
  rw [Transform.accepted_iff.mpr gives] at kept
  exact kept

/-- What every accepted transform of a consistent table keeps holds after any transforms. -/
theorem IsConsistent.after_induction {transforms : List Transform}
    (consistent : table.IsConsistent) (invariant : Table → Prop) (start : invariant table)
    (kept : ∀ transform ∈ transforms, ∀ {current next : Table}, current.IsConsistent →
      invariant current → transform.Gives current next → invariant next) :
    invariant (table.after transforms) := by
  have both : (table.after transforms).IsConsistent ∧ invariant (table.after transforms) := by
    refine @Step.stateAfter_induction _ _ (fun current =>
      current.IsConsistent ∧ invariant current) _ _ ⟨consistent, start⟩ ?_
    rintro step member current ⟨here, holds⟩
    obtain ⟨transform, inTransforms, rfl⟩ := List.mem_map.mp member
    refine ⟨here.step transform, ?_⟩
    rcases transform.run current with ⟨cause, ran, _⟩ | ⟨next, ran, _⟩
    · rw [ran]
      exact holds
    · rw [ran]
      exact kept transform inTransforms here holds (Transform.accepted_iff.mp ran)
  exact both.2

/-! ### Reachable tables -/

/-- There is a data category, and a series to have a value for it. -/
structure IsFilled (table : Table) : Prop where
  dataKeys : table.dataKeys ≠ []
  series : table.data.series ≠ []

theorem filled_of_loaded (loaded : table.IsLoaded) (nonempty : table.keys ≠ []) :
    table.IsFilled := by
  have isData : table.dataKeys = table.keys := by
    have parts := table.dataKeys_append_summaryKeys
    rw [loaded.no_summaryKeys, List.append_nil] at parts
    exact parts
  refine ⟨isData ▸ nonempty, ?_⟩
  obtain ⟨data, _, _, rfl⟩ := loaded.restricted
  obtain ⟨key, member⟩ := List.exists_mem_of_ne_nil _ nonempty
  have some := (DataSet.mem_commonKeys.mp member).1
  exact fun none => some (List.map_eq_nil_iff.mp none)

theorem series_withSummary_ne_nil {key : String} {summary : List Float → Float}
    {columns : List (List Binary64)} (complete : columns.length = table.data.series.length)
    (some : table.data.series ≠ []) :
    (table.withSummary key summary columns).data.series ≠ [] := by
  intro none
  have names : (table.withSummary key summary columns).names = [] := List.map_eq_nil_iff.mpr none
  rw [names_withSummary complete] at names
  exact some (List.map_eq_nil_iff.mp names)

theorem series_erase_ne_nil {name : String} (present : name ∈ table.names)
    (several : table.data.size ≠ 1) : (table.data.erase name).series ≠ [] := by
  have sizes := DataSet.size_erase present
  intro none
  have isEmpty : (table.data.erase name).size = 0 := List.length_eq_zero_iff.mpr none
  omega

theorem IsConsistent.filled_of_given {next : Table} {transform : Transform}
    (consistent : table.IsConsistent) (filled : table.keys ≠ [] → table.IsFilled)
    (gives : transform.Gives table next) (nonempty : next.keys ≠ []) : next.IsFilled := by
  have known (some : table.dataKeys ≠ []) : table.IsFilled := by
    apply filled
    intro none
    rw [dataKeys, none, List.take_nil] at some
    exact some rfl
  cases gives with
  | normalize present divisible =>
      obtain ⟨dataKeys, series⟩ := filled nonempty
      exact ⟨dataKeys, fun none => series (List.map_eq_nil_iff.mp none)⟩
  | sortBy present listed =>
      -- a sort moves the data categories but loses none
      have complete := Series.length_ordered listed
      have some : table.keys ≠ [] := fun none =>
        nonempty (none ▸ keys_sortedBy_perm complete).eq_nil
      obtain ⟨dataKeys, series⟩ := filled some
      refine ⟨fun none => dataKeys ?_, series⟩
      rw [consistent.dataKeys_sortedBy] at none
      exact (none ▸ sortedKeys_perm complete).nil_eq.symm
  | appendAmean some fresh listed =>
      exact ⟨table.dataKeys_withSummary _ _ _ ▸ some,
        series_withSummary_ne_nil (DataSet.length_aligned listed) (known some).series⟩
  | appendGmean positive some fresh listed =>
      exact ⟨table.dataKeys_withSummary _ _ _ ▸ some,
        series_withSummary_ne_nil (DataSet.length_aligned listed) (known some).series⟩
  | ignore present several =>
      exact ⟨(filled nonempty).dataKeys, series_erase_ne_nil present several⟩

namespace IsReachable

theorem of_loaded (loaded : table.IsLoaded) (transforms : List Transform) :
    (table.after transforms).IsReachable := ⟨table, transforms, loaded, rfl⟩

theorem consistent (reachable : table.IsReachable) : table.IsConsistent := by
  obtain ⟨loaded, transforms, isLoaded, rfl⟩ := reachable
  exact isLoaded.consistent.after transforms

theorem filled (reachable : table.IsReachable) (nonempty : table.keys ≠ []) : table.IsFilled := by
  obtain ⟨loaded, transforms, isLoaded, rfl⟩ := reachable
  -- a mean is appended behind data categories only, and no transform takes the last series out
  refine isLoaded.consistent.after_induction (fun current => current.keys ≠ [] → current.IsFilled)
    (filled_of_loaded isLoaded) ?_ nonempty
  intro transform _ current next consistent before gives
  exact consistent.filled_of_given before gives

end IsReachable

end TikzChart.Table
