import TikzChart.Proofs.Data.Listing
import TikzChart.Proofs.Data.Reachable

/-!
Means. A mean that is appended to a consistent table is computed series by series from the data
categories (`Mean.gives_iff`). Means stand behind the data categories and take none of them away, so
whichever of them are appended, the next one is computed from the same values.
-/

set_option autoImplicit false

namespace TikzChart

/-- The means that can be appended to a table. -/
inductive Mean where
  | arithmetic
  | geometric
deriving DecidableEq, Repr

namespace Mean

def of : Mean → List Float → Float
  | arithmetic => Table.arithmeticMean
  | geometric => Table.geometricMean

def append : Mean → String → Transform
  | arithmetic => .appendAmean
  | geometric => .appendGmean

def appendAll (means : List (Mean × String)) : List Transform :=
  means.map fun mean => mean.1.append mean.2

end Mean

namespace Table

variable {table : Table}

/-! ### Values without a logarithm -/

/-- Some series has a value under one of the categories that is zero or less. -/
def HasNotPositive (table : Table) (keys : List String) : Prop :=
  ∃ name ∈ table.names, ∃ key ∈ keys,
    (table.value? name key).any (fun value => value.toFloat ≤ 0) = true

instance (table : Table) (keys : List String) : Decidable (table.HasNotPositive keys) :=
  inferInstanceAs (Decidable (∃ name ∈ table.names, ∃ key ∈ keys, _))

theorem firstNotPositive?_eq_none_iff {keys : List String} {series : Series Binary64} :
    firstNotPositive? keys series = none ↔
      ∀ key ∈ keys, (series.get? key).any (fun value => value.toFloat ≤ 0) = false := by
  unfold firstNotPositive?
  rw [List.findSome?_eq_none_iff]
  refine forall₂_congr fun key _ => ?_
  cases series.get? key with
  | none => exact iff_of_true rfl rfl
  | some value =>
      by_cases low : value.toFloat ≤ 0 <;> simp [low]

theorem IsConsistent.anyNotPositive?_eq_none_iff (consistent : table.IsConsistent) :
    table.anyNotPositive? = none ↔ ¬table.HasNotPositive table.keys := by
  unfold anyNotPositive?
  rw [List.findSome?_eq_none_iff]
  constructor
  · rintro none ⟨name, named, key, known, low⟩
    obtain ⟨series, present⟩ := Option.isSome_iff_exists.mp (DataSet.isSome_get?.mpr named)
    have first := Option.map_eq_none_iff.mp (none _ (DataSet.mem_of_get? present))
    rw [value?_of_get? present, firstNotPositive?_eq_none_iff.mp first key known] at low
    cases low
  · intro positive named member
    rw [Option.map_eq_none_iff, firstNotPositive?_eq_none_iff]
    intro key known
    have present := DataSet.get?_of_mem consistent.namesDistinct member
    refine Bool.eq_false_iff.mpr fun low => positive ⟨named.1, ?_, key, known, ?_⟩
    · exact List.mem_map_of_mem member
    · rw [value?_of_get? present]
      exact low

/-! ### One mean -/

/-- The values of a series under the data categories, in the order of these. -/
def dataValues (table : Table) (name : String) : List Binary64 :=
  table.dataKeys.filterMap (table.value? name)

/-- The table with a summary of the data categories behind the categories that it has. -/
def extendedBy (table : Table) (key : String) (summary : List Float → Float) : Table :=
  { keys := table.keys ++ [key]
    data := table.data.mapSeries fun _ series =>
      series.insert key (.ofFloat (summary ((table.dataKeys.filterMap series.get?).map
        Binary64.toFloat)))
    summaries := table.summaries + 1 }

/-- There is nothing to take a mean of, the name is taken, or the mean is geometric and a value has
no logarithm, be it under a data category or under a mean. -/
def RefusesMean (table : Table) (mean : Mean) (key : String) : Prop :=
  table.dataKeys = [] ∨ key ∈ table.keys ∨
    mean = .geometric ∧ (table.HasNotPositive table.dataKeys ∨
      table.HasNotPositive table.summaryKeys)

instance (table : Table) (mean : Mean) (key : String) : Decidable (table.RefusesMean mean key) :=
  inferInstanceAs (Decidable (_ ∨ _))

theorem hasNotPositive_keys_iff : table.HasNotPositive table.keys ↔
    table.HasNotPositive table.dataKeys ∨ table.HasNotPositive table.summaryKeys := by
  unfold HasNotPositive
  rw [← table.dataKeys_append_summaryKeys]
  simp only [List.mem_append, or_and_right, exists_or, and_or_left]

theorem mem_keys_of_mem_dataKeys {key : String} (known : key ∈ table.dataKeys) :
    key ∈ table.keys :=
  List.mem_of_mem_take known

theorem IsConsistent.aligned_dataKeys (consistent : table.IsConsistent) :
    table.data.aligned table.dataKeys =
      .ok (table.data.series.map fun named => table.dataKeys.filterMap named.2.get?) :=
  consistent.aligned_eq fun _ => mem_keys_of_mem_dataKeys

/-- The columns that are summarized are those of the series that they are written to. -/
theorem withSummary_eq (table : Table) (key : String) (summary : List Float → Float) :
    table.withSummary key summary
      (table.data.series.map fun named => table.dataKeys.filterMap named.2.get?) =
        table.extendedBy key summary := by
  have paired := List.zip_map' (f := id) (l := table.data.series)
    (g := fun named => table.dataKeys.filterMap named.2.get?)
  rw [List.map_id] at paired
  unfold withSummary extendedBy DataSet.mapSeries
  rw [paired, List.map_map]
  rfl

end Table

/-- A mean is appended unless the table refuses it. -/
theorem Mean.gives_iff {table next : Table} (consistent : table.IsConsistent) {mean : Mean}
    {key : String} : (mean.append key).Gives table next ↔
      ¬table.RefusesMean mean key ∧ table.extendedBy key mean.of = next := by
  unfold Table.RefusesMean
  rw [← Table.hasNotPositive_keys_iff, ← Table.withSummary_eq]
  constructor
  · intro gives
    cases mean with
    | arithmetic =>
        cases gives with
        | appendAmean filled fresh listed =>
            cases consistent.aligned_dataKeys.symm.trans listed
            refine ⟨?_, rfl⟩
            rintro (nothing | taken | ⟨impossible, _⟩)
            · exact filled nothing
            · exact fresh taken
            · cases impossible
    | geometric =>
        cases gives with
        | appendGmean positive filled fresh listed =>
            cases consistent.aligned_dataKeys.symm.trans listed
            refine ⟨?_, rfl⟩
            rintro (nothing | taken | ⟨_, low⟩)
            · exact filled nothing
            · exact fresh taken
            · exact consistent.anyNotPositive?_eq_none_iff.mp positive low
  · rintro ⟨accepted, rfl⟩
    have filled : table.dataKeys ≠ [] := fun nothing => accepted (.inl nothing)
    have fresh : key ∉ table.keys := fun taken => accepted (.inr (.inl taken))
    cases mean with
    | arithmetic => exact .appendAmean filled fresh consistent.aligned_dataKeys
    | geometric =>
        have positive := consistent.anyNotPositive?_eq_none_iff.mpr fun low =>
          accepted (.inr (.inr ⟨rfl, low⟩))
        exact .appendGmean positive filled fresh consistent.aligned_dataKeys

/-! ### What a mean leaves alone -/

namespace Table

/-- One more category stands last. Under it every series has a summary of its values under the data
categories; these are the ones of before, and nothing else has changed. -/
structure IsExtendedBy (table : Table) (summary : List Float → Float) (key : String)
    (next : Table) : Prop where
  keys : next.keys = table.keys ++ [key]
  dataKeys : next.dataKeys = table.dataKeys
  summaries : next.summaries = table.summaries + 1
  names : next.names = table.names
  listed : ∀ name ∈ table.names,
    (table.dataValues name).map some = table.dataKeys.map (table.value? name)
  value : ∀ name ∈ table.names, next.value? name key =
    some (.ofFloat (summary ((table.dataValues name).map Binary64.toFloat)))
  others : ∀ name other, other ≠ key → next.value? name other = table.value? name other

variable {table next : Table} {key : String}

theorem value?_extendedBy (table : Table) (key : String) (summary : List Float → Float)
    (name other : String) :
    (table.extendedBy key summary).value? name other =
      (table.data.get? name).bind fun series =>
        if other = key then
          some (.ofFloat (summary ((table.dataKeys.filterMap series.get?).map Binary64.toFloat)))
        else series.get? other := by
  unfold value? extendedBy
  dsimp only
  rw [DataSet.get?_mapSeries, Option.bind_map]
  simp only [Function.comp_def, Series.get?_insert]

theorem dataKeys_extendedBy (table : Table) (key : String) (summary : List Float → Float) :
    (table.extendedBy key summary).dataKeys = table.dataKeys := by
  rw [← withSummary_eq, dataKeys_withSummary]

theorem IsConsistent.isExtendedBy (consistent : table.IsConsistent)
    (summary : List Float → Float) (key : String) :
    table.IsExtendedBy summary key (table.extendedBy key summary) where
  keys := rfl
  dataKeys := table.dataKeys_extendedBy key summary
  summaries := rfl
  names := table.data.names_mapSeries _
  listed := by
    intro name named
    apply map_some_filterMap
    intro other known
    obtain ⟨value, found⟩ := consistent.exists_value named (mem_keys_of_mem_dataKeys known)
    rw [found, Option.isSome_some]
  value := by
    intro name named
    obtain ⟨series, present⟩ := Option.isSome_iff_exists.mp (DataSet.isSome_get?.mpr named)
    have values : table.dataValues name = table.dataKeys.filterMap series.get? :=
      List.filterMap_congr fun other _ => value?_of_get? present other
    rw [value?_extendedBy, present, Option.bind_some, if_pos rfl, values]
  others := by
    intro name other different
    rw [value?_extendedBy, value?]
    simp only [if_neg different]

/-! ### Means one after the other -/

/-- The table has the series and data categories of a base, and the values that stand there. -/
structure Keeps (base table : Table) : Prop where
  names : table.names = base.names
  dataKeys : table.dataKeys = base.dataKeys
  keys : ∀ key ∈ base.keys, key ∈ table.keys
  values : ∀ name, ∀ key ∈ base.keys, table.value? name key = base.value? name key

namespace Keeps

variable {base : Table}

theorem refl (table : Table) : table.Keeps table where
  names := rfl
  dataKeys := rfl
  keys := fun _ known => known
  values := fun _ _ _ => rfl

theorem extended {summary : List Float → Float} (kept : base.Keeps table)
    (extended : table.IsExtendedBy summary key next) (fresh : key ∉ table.keys) :
    base.Keeps next where
  names := extended.names.trans kept.names
  dataKeys := extended.dataKeys.trans kept.dataKeys
  keys := by
    intro other known
    rw [extended.keys]
    exact List.mem_append_left _ (kept.keys other known)
  values := by
    intro name other known
    have different : other ≠ key := fun same => fresh (same ▸ kept.keys other known)
    rw [extended.others name other different, kept.values name other known]

theorem dataValues_eq (kept : base.Keeps table) (name : String) :
    table.dataValues name = base.dataValues name := by
  unfold dataValues
  rw [kept.dataKeys]
  exact List.filterMap_congr fun other known =>
    kept.values name other (mem_keys_of_mem_dataKeys known)

end Keeps

theorem IsConsistent.keeps_of_appendAll (consistent : table.IsConsistent)
    (means : List (Mean × String)) : table.Keeps (table.after (Mean.appendAll means)) := by
  refine consistent.after_induction table.Keeps (.refl table) ?_
  intro transform member current next isConsistent kept gives
  obtain ⟨⟨mean, key⟩, _, rfl⟩ := List.mem_map.mp member
  obtain ⟨accepted, rfl⟩ := (Mean.gives_iff isConsistent).mp gives
  exact kept.extended (isConsistent.isExtendedBy mean.of key) fun taken =>
    accepted (.inr (.inl taken))

end Table

/-- Means never feed on means. A mean is refused and changes nothing when there is no data category,
when its name is taken, or when it is geometric and a value is not positive; otherwise it stands
last, computed for every series from the data categories in their order. The arithmetic mean is the
sum of the values by their number, the geometric mean the exponential of that of their logarithms;
sums run from left to right and begin with a negative zero. Whichever means are appended before it
or after it, the values under it are the means of what the table had to begin with. -/
theorem means_of_data_categories {table : Table} (reachable : table.IsReachable) (mean : Mean)
    (key : String) :
    let summary : List Float → Float := fun values =>
      match mean with
      | .arithmetic => values.foldl (· + ·) (-0.0) / Float.ofNat values.length
      | .geometric =>
        Float.exp ((values.map Float.log).foldl (· + ·) (-0.0) / Float.ofNat values.length)
    (table.RefusesMean mean key →
      ∃ cause, (mean.append key).step.runOn table = (.error cause, table)) ∧
    (¬table.RefusesMean mean key →
      ∃ next, (mean.append key).step.runOn table = (.ok (), next) ∧
        table.IsExtendedBy summary key next) ∧
    ∀ (before behind : List (Mean × String)) (next : Table),
      (mean.append key).step.runOn (table.after (Mean.appendAll before)) = (.ok (), next) →
        ∀ name ∈ table.names, (next.after (Mean.appendAll behind)).value? name key =
          some (.ofFloat (summary ((table.dataValues name).map Binary64.toFloat))) := by
  intro summary
  have computed : mean.of = summary := by cases mean <;> rfl
  rw [← computed]
  have consistent := reachable.consistent
  refine ⟨?_, ?_, ?_⟩
  · intro refuses
    rcases (mean.append key).run table with ⟨cause, ran, _⟩ | ⟨next, ran, _⟩
    · exact ⟨cause, ran⟩
    · exact absurd refuses ((Mean.gives_iff consistent).mp (Transform.accepted_iff.mp ran)).1
  · intro accepts
    exact ⟨_, Transform.accepted_iff.mpr ((Mean.gives_iff consistent).mpr ⟨accepts, rfl⟩),
      consistent.isExtendedBy mean.of key⟩
  · intro before behind next ran name named
    have kept := consistent.keeps_of_appendAll before
    have between := consistent.after (Mean.appendAll before)
    have gives := Transform.accepted_iff.mp ran
    obtain ⟨_, rfl⟩ := (Mean.gives_iff between).mp gives
    have extended := between.isExtendedBy mean.of key
    have stays := (between.given gives).keeps_of_appendAll behind
    rw [stays.values name key (extended.keys ▸ List.mem_append_right _ List.mem_cons_self),
      extended.value name (kept.names ▸ named), kept.dataValues_eq]

/-- Two categories and two series; one of the series has a value that is no positive number in the
first file, and none in the second. -/
def summed : Workspace :=
  { tree := ⟨[(["runs.csv"], .file "key,base,opt\ngcc,2,1\nlbm,4,-1\n".toUTF8),
      (["fixed.csv"], .file "key,base,opt\ngcc,2,1\nlbm,4,8\n".toUTF8)]⟩ }

def summedTable (last : Float) : Table :=
  { keys := ["gcc", "lbm"]
    data := ⟨[("base", .ofList [("gcc", .ofFloat 2), ("lbm", .ofFloat 4)]),
      ("opt", .ofList [("gcc", .ofFloat 1), ("lbm", .ofFloat last)])]⟩ }

/-- Behind another mean, and with a third one behind it, a mean is that of the two data categories,
be it arithmetic or geometric. A geometric mean of the first file is refused. -/
theorem summedTable_means :
    ((summedTable (-1)).IsReachable ∧ (summedTable 8).IsReachable) ∧
    (∃ cause,
      (TableStep.appendGmean "mean").runOn (summedTable (-1)) = (.error cause, summedTable (-1))) ∧
    (∃ next, (TableStep.appendAmean "mean").runOn (summedTable (-1)) = (.ok (), next) ∧
      next.keys = ["gcc", "lbm", "mean"]) ∧
    (∃ next, (TableStep.appendAmean "again").runOn
        ((summedTable (-1)).after (Mean.appendAll [(.arithmetic, "mean")])) = (.ok (), next) ∧
      (next.after (Mean.appendAll [(.arithmetic, "third")])).value? "base" "again" =
        some (.ofFloat 3)) ∧
    ∃ next, (TableStep.appendGmean "gmean").runOn
        ((summedTable 8).after (Mean.appendAll [(.arithmetic, "mean")])) = (.ok (), next) ∧
      (next.after (Mean.appendAll [(.arithmetic, "third")])).value? "opt" "gmean" =
        some (.ofFloat (Float.exp ((-0.0 + Float.log 1 + Float.log 8) / 2))) := by
  have loaded : (summedTable (-1)).IsLoaded := ⟨summed, .inl ⟨"runs.csv", by decide +kernel⟩⟩
  have loadedFixed : (summedTable 8).IsLoaded := ⟨summed, .inl ⟨"fixed.csv", by decide +kernel⟩⟩
  have reachable : (summedTable (-1)).IsReachable := .of_loaded loaded []
  have reachableFixed : (summedTable 8).IsReachable := .of_loaded loadedFixed []
  have noLogarithm : (summedTable (-1)).RefusesMean .geometric "mean" := by decide +kernel
  have accepts : ¬(summedTable (-1)).RefusesMean .arithmetic "mean" := by decide +kernel
  have acceptsAgain :
      ¬((summedTable (-1)).after (Mean.appendAll [(.arithmetic, "mean")])).RefusesMean .arithmetic
        "again" := by
    decide +kernel
  have acceptsGeometric :
      ¬((summedTable 8).after (Mean.appendAll [(.arithmetic, "mean")])).RefusesMean .geometric
        "gmean" := by
    decide +kernel
  have values : ((summedTable 8).dataValues "opt").map Binary64.toFloat = [1, 8] := by
    decide +kernel
  obtain ⟨next, ran, extended⟩ :=
    (means_of_data_categories reachable .arithmetic "mean").2.1 accepts
  obtain ⟨again, ranAgain, _⟩ := (means_of_data_categories
    (.of_loaded loaded (Mean.appendAll [(.arithmetic, "mean")])) .arithmetic "again").2.1
      acceptsAgain
  obtain ⟨geometric, ranGeometric, _⟩ := (means_of_data_categories
    (.of_loaded loadedFixed (Mean.appendAll [(.arithmetic, "mean")])) .geometric "gmean").2.1
      acceptsGeometric
  refine ⟨⟨reachable, reachableFixed⟩,
    (means_of_data_categories reachable .geometric "mean").1 noLogarithm,
    ⟨next, ran, extended.keys⟩, ⟨again, ranAgain, ?_⟩, geometric, ranGeometric, ?_⟩
  · rw [(means_of_data_categories reachable .arithmetic "again").2.2 _ _ again ranAgain "base"
      (by decide +kernel)]
    decide +kernel
  · rw [(means_of_data_categories reachableFixed .geometric "gmean").2.2 _ _ geometric ranGeometric
      "opt" (by decide +kernel), values]
    rfl

end TikzChart
