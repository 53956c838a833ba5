import TikzChart.Proofs.Data.Reachable
import TikzChart.Proofs.Rounding.TotalOrder

/-!
Tables divided by one of their series. The series to divide by is taken before anything is divided,
so it makes no difference where it stands among the others; every category of a series is divided
once, means included. A divisor that is zero, whatever its sign, refuses the whole division.
-/

set_option autoImplicit false

namespace TikzChart

namespace Table

/-! ### One series -/

/-- One step of a division. -/
def divideAt (base series : Series Binary64) (key : String) : Series Binary64 :=
  match series.get? key, base.get? key with
  | some value, some divisor => series.insert key (value.div divisor)
  | _, _ => series

theorem divideSeries_cons (base series : Series Binary64) (key : String) (keys : List String) :
    divideSeries base (key :: keys) series = divideSeries base keys (divideAt base series key) :=
  rfl

variable {base series : Series Binary64} {key : String} {keys : List String}

theorem get?_divideAt_self {value divisor : Binary64} (found : series.get? key = some value)
    (divided : base.get? key = some divisor) :
    (divideAt base series key).get? key = some (value.div divisor) := by
  rw [divideAt, found, divided, Series.get?_insert, if_pos rfl]

theorem get?_divideAt_other {other : String} (different : other ≠ key) :
    (divideAt base series key).get? other = series.get? other := by
  unfold divideAt
  split
  · rw [Series.get?_insert, if_neg different]
  · rfl

theorem get?_divideSeries_other (absent : key ∉ keys) :
    (divideSeries base keys series).get? key = series.get? key := by
  induction keys generalizing series with
  | nil => rfl
  | cons divided keys ih =>
      obtain ⟨different, absentBehind⟩ := List.ne_and_not_mem_of_not_mem_cons absent
      rw [divideSeries_cons, ih absentBehind, get?_divideAt_other different]

theorem get?_divideSeries {value divisor : Binary64} (distinct : keys.Nodup) (member : key ∈ keys)
    (found : series.get? key = some value) (divided : base.get? key = some divisor) :
    (divideSeries base keys series).get? key = some (value.div divisor) := by
  induction keys generalizing series with
  | nil => cases member
  | cons first keys ih =>
      obtain ⟨fresh, distinctBehind⟩ := List.nodup_cons.mp distinct
      rw [divideSeries_cons]
      -- the key is divided here and never again, or left alone here
      by_cases same : key = first
      · subst same
        rw [get?_divideSeries_other fresh]
        exact get?_divideAt_self found divided
      · apply ih distinctBehind ((List.mem_cons.mp member).resolve_left same)
        rw [get?_divideAt_other same, found]

/-! ### All series -/

variable {table : Table} {baseline : String}

/-- The series to divide by is absent, or one of its values is a zero. -/
def LacksDivisor (table : Table) (baseline : String) : Prop :=
  baseline ∉ table.names ∨
    ∃ key ∈ table.keys, (table.value? baseline key).any (fun value => value.toFloat == 0) = true

instance (table : Table) (baseline : String) : Decidable (table.LacksDivisor baseline) :=
  inferInstanceAs (Decidable (_ ∨ _))

theorem lacksDivisor_of_absent (absent : table.data.get? baseline = none) :
    table.LacksDivisor baseline := by
  refine .inl fun named => ?_
  have found := DataSet.isSome_get?.mpr named
  rw [absent] at found
  cases found

theorem lacksDivisor_iff {base : Series Binary64} (present : table.data.get? baseline = some base) :
    table.LacksDivisor baseline ↔ ∃ key ∈ table.keys, (base.get? key).any Binary64.isZero = true := by
  have named : baseline ∈ table.names := DataSet.isSome_get?.mp (present ▸ rfl)
  have isZero : Binary64.isZero = fun value => value.toFloat == 0 :=
    funext fun value => Bool.eq_iff_iff.mpr Binary64.isZero_iff
  unfold LacksDivisor
  rw [or_iff_right (not_not_intro named), isZero]
  simp only [value?_of_get? present]

theorem value?_dividedBy (table : Table) (base : Series Binary64) (name key : String) :
    (table.dividedBy base).value? name key =
      (table.data.get? name).bind fun series => (divideSeries base table.keys series).get? key := by
  unfold value? dividedBy
  dsimp only
  rw [DataSet.get?_mapSeries, Option.bind_map]
  rfl

theorem IsConsistent.value?_dividedBy (consistent : table.IsConsistent) {base : Series Binary64}
    (present : table.data.get? baseline = some base) {name key : String} (named : name ∈ table.names)
    (known : key ∈ table.keys) :
    ∃ value divisor, table.value? name key = some value ∧ table.value? baseline key = some divisor ∧
      (table.dividedBy base).value? name key = some (value.div divisor) := by
  obtain ⟨series, isSeries⟩ := Option.isSome_iff_exists.mp (DataSet.isSome_get?.mpr named)
  obtain ⟨value, found⟩ := consistent.exists_value named known
  obtain ⟨divisor, divided⟩ :=
    consistent.exists_value (DataSet.isSome_get?.mp (by rw [present]; rfl)) known
  refine ⟨value, divisor, found, divided, ?_⟩
  rw [value?_of_get? isSeries] at found
  rw [value?_of_get? present] at divided
  rw [Table.value?_dividedBy, isSeries, Option.bind_some]
  exact get?_divideSeries consistent.keysDistinct known found divided

theorem refused_of_lacksDivisor (lacks : table.LacksDivisor baseline) :
    ∃ cause, (TableStep.normalize baseline).runOn table = (.error cause, table) := by
  rcases TableStep.run_normalize table baseline with ⟨cause, ran, _⟩ | ⟨next, ran, _⟩
  · exact ⟨cause, ran⟩
  · cases TableStep.normalize_accepted_iff.mp ran with
    | normalize present divisible =>
        obtain ⟨key, known, isZero⟩ := (lacksDivisor_iff present).mp lacks
        rw [divisible key known] at isZero
        cases isZero

theorem accepted_of_divisor (divisor : ¬table.LacksDivisor baseline) :
    ∃ base, table.data.get? baseline = some base ∧
      (TableStep.normalize baseline).runOn table = (.ok (), table.dividedBy base) := by
  cases present : table.data.get? baseline with
  | none => exact absurd (lacksDivisor_of_absent present) divisor
  | some base =>
      refine ⟨base, rfl, TableStep.normalize_accepted_iff.mpr (.normalize present ?_)⟩
      intro key known
      exact Bool.eq_false_iff.mpr fun isZero =>
        divisor ((lacksDivisor_iff present).mpr ⟨key, known, isZero⟩)

theorem normalize_of_perm {reordered : Table} (keys : reordered.keys = table.keys)
    (perm : reordered.data.series.Perm table.data.series) (distinct : table.names.Nodup) :
    ((TableStep.normalize baseline).runOn reordered).1 =
        ((TableStep.normalize baseline).runOn table).1 ∧
      ∀ name key, ((TableStep.normalize baseline).runOn reordered).2.value? name key =
        ((TableStep.normalize baseline).runOn table).2.value? name key := by
  have same := DataSet.get?_of_perm perm distinct
  have unchanged (name key : String) : reordered.value? name key = table.value? name key := by
    rw [value?, same, value?]
  rw [TableStep.runOn_normalize, TableStep.runOn_normalize, same, keys]
  cases table.data.get? baseline with
  | none => exact ⟨rfl, unchanged⟩
  | some base =>
      dsimp only
      cases table.keys.find? fun key => (base.get? key).any Binary64.isZero with
      | some key => exact ⟨rfl, unchanged⟩
      | none =>
          refine ⟨rfl, fun name key => ?_⟩
          rw [Table.value?_dividedBy, Table.value?_dividedBy, same, keys]

end Table

/-- A table that can be reached is divided by one of its series unless that is absent or has a zero
of either sign for a category, means included; then it is left as it is. Otherwise every value is
divided by what the series to divide by had before, and nothing else is changed. The order of the
series makes no difference. -/
theorem divided_by_what_it_was {table : Table} (reachable : table.IsReachable) (baseline : String) :
    (table.LacksDivisor baseline →
      ∃ cause, (TableStep.normalize baseline).runOn table = (.error cause, table)) ∧
    (¬table.LacksDivisor baseline →
      ∃ divided, (TableStep.normalize baseline).runOn table = (.ok (), divided) ∧
        divided.keys = table.keys ∧ divided.names = table.names ∧
        divided.summaries = table.summaries ∧
        ∀ name ∈ table.names, ∀ key ∈ table.keys, ∃ value divisor,
          table.value? name key = some value ∧ table.value? baseline key = some divisor ∧
          divided.value? name key = some (value.div divisor)) ∧
    ∀ others, others.Perm table.data.series →
      let reordered : Table := { table with data := ⟨others⟩ }
      ((TableStep.normalize baseline).runOn reordered).1 =
          ((TableStep.normalize baseline).runOn table).1 ∧
        ∀ name key, ((TableStep.normalize baseline).runOn reordered).2.value? name key =
          ((TableStep.normalize baseline).runOn table).2.value? name key := by
  have consistent := reachable.consistent
  refine ⟨Table.refused_of_lacksDivisor, ?_, ?_⟩
  · intro divisor
    obtain ⟨base, present, ran⟩ := Table.accepted_of_divisor divisor
    refine ⟨_, ran, rfl, DataSet.names_mapSeries _ _, rfl, ?_⟩
    intro name named key known
    exact consistent.value?_dividedBy present named known
  · intro others perm
    exact Table.normalize_of_perm rfl perm consistent.namesDistinct

/-- The series to divide by stands between the others, one of which has a negative zero. -/
def timed : Workspace :=
  { tree := ⟨[(["runs.csv"], .file "key,first,base,last\ngcc,3,2,-0\nlbm,1,4,inf\n".toUTF8)]⟩ }

def timedTable : Table :=
  { keys := ["gcc", "lbm"]
    data := ⟨[
      ("first", .ofList [("gcc", .ofFloat 3), ("lbm", .ofFloat 1)]),
      ("base", .ofList [("gcc", .ofFloat 2), ("lbm", .ofFloat 4)]),
      ("last", .ofList [("gcc", .ofMagnitude true 0),
        ("lbm", .ofMagnitude false Binary64.infinityMagnitude)])]⟩ }

/-- Means are divided by the mean, and the last series cannot be divided by. -/
theorem timedTable_divided :
    let table := timedTable.after [.appendAmean "amean"]
    table.IsReachable ∧
    (∃ cause, (TableStep.normalize "last").runOn table = (.error cause, table)) ∧
    ∃ divided, (TableStep.normalize "base").runOn table = (.ok (), divided) ∧
      divided.keys = ["gcc", "lbm", "amean"] ∧
      divided.value? "base" "amean" = some (.ofFloat 1) ∧
      divided.value? "last" "gcc" = some (.ofMagnitude true 0) := by
  intro table
  have loaded : timedTable.IsLoaded := ⟨timed, .inl ⟨"runs.csv", by decide +kernel⟩⟩
  have reachable : table.IsReachable := .of_loaded loaded _
  have zero : table.LacksDivisor "last" := by decide +kernel
  have nonzero : ¬table.LacksDivisor "base" := by decide +kernel
  have refused := (divided_by_what_it_was reachable "last").1 zero
  obtain ⟨divided, ran, keys, _, _, all⟩ := (divided_by_what_it_was reachable "base").2.1 nonzero
  have quotient {name key : String} (named : name ∈ table.names) (known : key ∈ table.keys)
      {value divisor : Binary64} (found : table.value? name key = some value)
      (foundDivisor : table.value? "base" key = some divisor) :
      divided.value? name key = some (value.div divisor) := by
    obtain ⟨_, _, same, sameDivisor, isQuotient⟩ := all name named key known
    cases same.symm.trans found
    cases sameDivisor.symm.trans foundDivisor
    exact isQuotient
  have mean : table.value? "base" "amean" = some (.ofFloat 3) := by decide +kernel
  have last : table.value? "last" "gcc" = some (.ofMagnitude true 0) := by decide +kernel
  have base : table.value? "base" "gcc" = some (.ofFloat 2) := by decide +kernel
  have categories : table.keys = ["gcc", "lbm", "amean"] := by decide +kernel
  refine ⟨reachable, refused, divided, ran, keys.trans categories, ?_, ?_⟩
  · rw [quotient (by decide +kernel) (by decide +kernel) mean mean]
    decide +kernel
  · rw [quotient (by decide +kernel) (by decide +kernel) last base]
    decide +kernel

end TikzChart
