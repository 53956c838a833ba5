import TikzChart.Proofs.Data.Means

/-!
Tables without one of their series. A transform changes every series on its own and looks at no
other one than those that it names, so a series that it does not name can as well be taken out
before it (`Transform.Gives.exchange`).
-/

set_option autoImplicit false

namespace TikzChart

def Transform.series? : Transform → Option String
  | normalize baseline => some baseline
  | sortBy name => some name
  | ignore name => some name
  | _ => none

theorem Transform.resultOn_eq_ok_iff {transform : Transform} {table next : Table} :
    transform.step.resultOn table = .ok next ↔ transform.Gives table next := by
  rw [← Transform.accepted_iff, Step.resultOn]
  rcases transform.run table with ⟨cause, ran, _⟩ | ⟨changed, ran, _⟩
  · rw [ran]
    exact iff_of_false (fun impossible => nomatch impossible) fun impossible => nomatch impossible
  · rw [ran]
    constructor
    · intro same
      rw [Except.ok.inj same]
    · intro same
      exact congrArg Except.ok (Prod.mk.inj same).2

namespace Table

variable {table next : Table} {name : String}

def without (table : Table) (name : String) : Table :=
  { table with data := table.data.erase name }

/-! ### Transforms of what is left -/

theorem without_dividedBy (table : Table) (base : Series Binary64) (name : String) :
    (table.dividedBy base).without name = (table.without name).dividedBy base :=
  congrArg (fun data => { table with data }) (DataSet.erase_mapSeries _ _ _)

theorem without_extendedBy (table : Table) (key : String) (summary : List Float → Float)
    (name : String) :
    (table.extendedBy key summary).without name = (table.without name).extendedBy key summary :=
  congrArg (fun data => { table.extendedBy key summary with data }) (DataSet.erase_mapSeries _ _ _)

theorem without_comm (table : Table) {first second : String} (different : first ≠ second) :
    (table.without first).without second = (table.without second).without first :=
  congrArg (fun data => { table with data }) (DataSet.erase_comm _ different)

/-- Values that have a logarithm still have one when a series is taken out. -/
theorem IsConsistent.hasNotPositive_of_without (consistent : table.IsConsistent)
    {keys : List String} (low : (table.without name).HasNotPositive keys) :
    table.HasNotPositive keys := by
  obtain ⟨other, named, key, known, isLow⟩ := low
  obtain ⟨series, left⟩ := Option.isSome_iff_exists.mp (DataSet.isSome_get?.mpr named)
  have present := DataSet.get?_of_get?_erase consistent.namesDistinct left
  refine ⟨other, DataSet.isSome_get?.mp (present ▸ rfl), key, known, ?_⟩
  rw [value?_of_get? left] at isLow
  rw [value?_of_get? present]
  exact isLow

theorem IsConsistent.refusesMean_of_without (consistent : table.IsConsistent) {mean : Mean}
    {key : String} (refuses : (table.without name).RefusesMean mean key) :
    table.RefusesMean mean key := by
  rcases refuses with nothing | taken | ⟨geometric, low | low⟩
  · exact .inl nothing
  · exact .inr (.inl taken)
  · exact .inr (.inr ⟨geometric, .inl (consistent.hasNotPositive_of_without low)⟩)
  · exact .inr (.inr ⟨geometric, .inr (consistent.hasNotPositive_of_without low)⟩)

end Table

namespace Transform.Gives

variable {table next last : Table} {transform : Transform} {name : String}

theorem ignore_iff :
    (Transform.ignore name).Gives table next ↔
      name ∈ table.names ∧ table.data.size ≠ 1 ∧ table.without name = next := by
  constructor
  · intro gives
    cases gives with
    | ignore present several => exact ⟨present, several, rfl⟩
  · rintro ⟨present, several, rfl⟩
    exact .ignore present several

theorem mean_without (consistent : table.IsConsistent) (mean : Mean) {key : String}
    (gives : (mean.append key).Gives table next) (name : String) :
    (mean.append key).Gives (table.without name) (next.without name) := by
  obtain ⟨accepts, rfl⟩ := (Mean.gives_iff consistent).mp gives
  refine (Mean.gives_iff (consistent.ignored name)).mpr ⟨?_, ?_⟩
  · exact fun refuses => accepts (consistent.refusesMean_of_without refuses)
  · exact (table.without_extendedBy key mean.of name).symm

/-- What a transform does to a table it does to what is left of the table, too. -/
theorem without (consistent : table.IsConsistent) (gives : transform.Gives table next)
    (spares : transform.series? ≠ some name) (present : name ∈ next.names)
    (several : next.data.size ≠ 1) :
    transform.Gives (table.without name) (next.without name) := by
  cases gives with
  | @normalize baseline base named divisible =>
      have other : baseline ≠ name := fun same => spares (congrArg some same)
      rw [Table.without_dividedBy]
      exact .normalize ((DataSet.get?_erase_other other).trans named) divisible
  | @sortBy sorting series values named listed =>
      have other : sorting ≠ name := fun same => spares (congrArg some same)
      have named : (table.without name).data.get? sorting = some series :=
        (DataSet.get?_erase_other other).trans named
      exact .sortBy named listed
  | appendAmean filled fresh listed =>
      exact mean_without consistent .arithmetic (.appendAmean filled fresh listed) name
  | appendGmean positive filled fresh listed =>
      exact mean_without consistent .geometric (.appendGmean positive filled fresh listed) name
  | @ignore ignored named severalBefore =>
      have other : ignored ≠ name := fun same => spares (congrArg some same)
      have both : name ∈ table.names := (DataSet.mem_names_erase_other other.symm).mp present
      refine ignore_iff.mpr ⟨(DataSet.mem_names_erase_other other).mpr named, ?_,
        table.without_comm other.symm⟩
      -- as many are left whichever of the two is taken out
      have left := DataSet.size_erase both
      have leftOther := DataSet.size_erase named
      change (table.data.erase ignored).size ≠ 1 at several
      change (table.data.erase name).size ≠ 1
      omega

/-- Transforms take out the series that they name, and no other ones. -/
theorem present_before (gives : transform.Gives table next) (present : name ∈ next.names)
    (several : next.data.size ≠ 1) : name ∈ table.names ∧ table.data.size ≠ 1 := by
  have same (names : next.names = table.names) : name ∈ table.names ∧ table.data.size ≠ 1 := by
    have sizes := congrArg List.length names
    rw [Table.names, Table.names, DataSet.names, DataSet.names, List.length_map,
      List.length_map] at sizes
    exact ⟨names ▸ present, fun single => several (sizes.trans single)⟩
  cases gives with
  | normalize named divisible => exact same (table.data.names_mapSeries _)
  | sortBy named listed => exact same rfl
  | appendAmean filled fresh listed =>
      exact same (Table.names_withSummary (DataSet.length_aligned listed))
  | appendGmean positive filled fresh listed =>
      exact same (Table.names_withSummary (DataSet.length_aligned listed))
  | ignore named severalBefore =>
      exact ⟨(List.eraseP_sublist.map Prod.fst).subset present, severalBefore⟩

/-- A series that a transform does not name can be taken out before it. -/
theorem exchange (consistent : table.IsConsistent) (gives : transform.Gives table next)
    (spares : transform.series? ≠ some name) (dropped : (Transform.ignore name).Gives next last) :
    ∃ left, (Transform.ignore name).Gives table left ∧ transform.Gives left last := by
  obtain ⟨present, several, rfl⟩ := ignore_iff.mp dropped
  obtain ⟨presentBefore, severalBefore⟩ := gives.present_before present several
  exact ⟨_, ignore_iff.mpr ⟨presentBefore, severalBefore, rfl⟩,
    gives.without consistent spares present several⟩

end Transform.Gives

end TikzChart
