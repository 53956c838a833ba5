import TikzChart.Proofs.Data.Series

/-!
What a data set holds after series are added to it, which keys its series share, and when the values
of all series can be listed.
-/

set_option autoImplicit false

namespace TikzChart.DataSet

variable {α : Type} {data : DataSet α}

theorem isSome_get? {name : String} : (data.get? name).isSome = true ↔ name ∈ data.names :=
  Series.lookup_isSome name data.series

theorem mem_of_get? {name : String} {series : Series α} (found : data.get? name = some series) :
    (name, series) ∈ data.series := by
  obtain ⟨entries⟩ := data
  unfold get? at found
  induction entries with
  | nil => cases found
  | cons named rest ih =>
      dsimp only at found
      rw [List.lookup_cons] at found
      by_cases same : name = named.1
      · rw [beq_iff_eq.mpr same] at found
        cases found
        rw [same]
        exact List.mem_cons_self
      · rw [beq_eq_false_iff_ne.mpr same] at found
        exact List.mem_cons_of_mem named (ih found)

theorem get?_of_mem {name : String} {series : Series α} (distinct : data.names.Nodup)
    (member : (name, series) ∈ data.series) : data.get? name = some series := by
  obtain ⟨found, isFound⟩ :=
    Option.isSome_iff_exists.mp (isSome_get?.mpr (List.mem_map_of_mem member))
  cases List.inj_on_of_nodup_map distinct (mem_of_get? isFound) member rfl
  exact isFound

theorem get?_mapSeries {β : Type} (data : DataSet α) (change : String → Series α → Series β)
    (name : String) : (data.mapSeries change).get? name = (data.get? name).map (change name) := by
  obtain ⟨entries⟩ := data
  unfold mapSeries get?
  dsimp only
  induction entries with
  | nil => rfl
  | cons named rest ih =>
      rw [List.map_cons, List.lookup_cons, List.lookup_cons]
      by_cases same : name = named.1
      · rw [beq_iff_eq.mpr same, same]
        rfl
      · rw [beq_eq_false_iff_ne.mpr same]
        exact ih

theorem names_mapSeries {β : Type} (data : DataSet α) (change : String → Series α → Series β) :
    (data.mapSeries change).names = data.names :=
  List.map_map

/-- Where a series stands makes no difference to what its name leads to. -/
theorem get?_of_perm {other : DataSet α} (perm : other.series.Perm data.series)
    (distinct : data.names.Nodup) (name : String) : other.get? name = data.get? name := by
  have otherDistinct : other.names.Nodup := (perm.map Prod.fst).nodup_iff.mpr distinct
  apply Option.ext
  intro series
  constructor
  · intro found
    exact get?_of_mem distinct (perm.mem_iff.mp (mem_of_get? found))
  · intro found
    exact get?_of_mem otherDistinct (perm.mem_iff.mpr (mem_of_get? found))

/-! ### Adding series -/

theorem insert_eq_ok_iff {name : String} {series : Series α} {after : DataSet α} :
    data.insert name series = .ok after ↔
      name ∉ data.names ∧ ⟨data.series ++ [(name, series)]⟩ = after := by
  unfold insert
  by_cases taken : (data.get? name).isSome = true
  · rw [if_pos taken]
    constructor
    · intro impossible
      cases impossible
    · intro both
      exact absurd (isSome_get?.mp taken) both.1
  · rw [if_neg taken, and_iff_right fun member => taken (isSome_get?.mpr member)]
    rw [Except.ok.injEq]

theorem nodup_names_empty : (empty : DataSet α).names.Nodup := List.nodup_nil

/-- Names stay distinct when a series is added. -/
theorem nodup_insert {name : String} {series : Series α} {after : DataSet α}
    (distinct : data.names.Nodup) (added : data.insert name series = .ok after) :
    after.names.Nodup := by
  obtain ⟨fresh, rfl⟩ := insert_eq_ok_iff.mp added
  unfold names at fresh ⊢
  rw [List.map_append, List.map_singleton, ← List.concat_eq_append]
  exact distinct.concat fresh

theorem nodup_insertAll {named : List (String × Series α)} {after : DataSet α}
    (distinct : data.names.Nodup) (added : data.insertAll named = .ok after) :
    after.names.Nodup := by
  induction named generalizing data with
  | nil =>
      cases added
      exact distinct
  | cons first rest ih =>
      obtain ⟨next, inserted, addedRest⟩ := Outcome.bind_eq_ok_iff.mp added
      exact ih (nodup_insert distinct inserted) addedRest

theorem series_insertAll {named : List (String × Series α)} {after : DataSet α}
    (added : data.insertAll named = .ok after) : after.series = data.series ++ named := by
  induction named generalizing data with
  | nil =>
      cases added
      exact (List.append_nil _).symm
  | cons first rest ih =>
      obtain ⟨next, inserted, addedRest⟩ := Outcome.bind_eq_ok_iff.mp added
      rw [ih addedRest, ← (insert_eq_ok_iff.mp inserted).2, List.append_assoc]
      rfl

/-- Series under distinct names that are not taken are all added. -/
theorem insertAll_of_nodup {named : List (String × Series α)}
    (distinct : (data.names ++ named.map Prod.fst).Nodup) :
    data.insertAll named = .ok ⟨data.series ++ named⟩ := by
  induction named generalizing data with
  | nil => rw [insertAll, List.append_nil]
  | cons first rest ih =>
      have fresh : first.1 ∉ data.names := by
        intro member
        exact (List.nodup_append.mp distinct).2.2 first.1 member first.1 List.mem_cons_self rfl
      have inserted : data.insert first.1 first.2 = .ok ⟨data.series ++ [first]⟩ :=
        insert_eq_ok_iff.mpr ⟨fresh, rfl⟩
      have next : (names ⟨data.series ++ [first]⟩ ++ rest.map Prod.fst).Nodup := by
        unfold names at distinct ⊢
        rw [List.map_append, List.map_singleton, List.append_assoc]
        exact distinct
      rw [insertAll, inserted]
      have addedRest := ih next
      rw [List.append_assoc] at addedRest
      exact addedRest

/-! ### Taking series out -/

theorem erase_mapSeries {β : Type} (data : DataSet α) (change : String → Series α → Series β)
    (name : String) : (data.mapSeries change).erase name = (data.erase name).mapSeries change := by
  unfold mapSeries erase
  rw [List.eraseP_map]
  rfl

theorem get?_erase_other {name other : String} (different : other ≠ name) :
    (data.erase name).get? other = data.get? other := by
  obtain ⟨entries⟩ := data
  unfold erase get?
  dsimp only
  induction entries with
  | nil => rfl
  | cons named rest ih =>
      rw [List.eraseP_cons, List.lookup_cons]
      by_cases erased : named.1 = name
      · rw [beq_iff_eq.mpr erased, erased, beq_eq_false_iff_ne.mpr different]
        rfl
      · rw [beq_eq_false_iff_ne.mpr erased, cond_false, List.lookup_cons, ih]

theorem mem_names_erase_other {name other : String} (different : other ≠ name) :
    other ∈ (data.erase name).names ↔ other ∈ data.names := by
  rw [← isSome_get?, ← isSome_get?, get?_erase_other different]

/-- A name that still leads to a series leads to the one of before. -/
theorem get?_of_get?_erase {name other : String} {series : Series α} (distinct : data.names.Nodup)
    (found : (data.erase name).get? other = some series) : data.get? other = some series :=
  get?_of_mem distinct (List.mem_of_mem_eraseP (mem_of_get? found))

theorem erase_comm (data : DataSet α) {first second : String} (different : first ≠ second) :
    (data.erase first).erase second = (data.erase second).erase first := by
  unfold erase
  refine congrArg DataSet.mk (List.eraseP_comm fun named _ => ?_)
  rw [beq_iff_eq, beq_iff_eq, ← not_and_or]
  exact fun both => different (both.1.symm.trans both.2)

theorem size_erase {name : String} (present : name ∈ data.names) :
    (data.erase name).size + 1 = data.size := by
  obtain ⟨named, member, rfl⟩ := List.mem_map.mp present
  have shorter := List.length_eraseP_of_mem (p := (·.1 == named.1)) member (beq_self_eq_true _)
  have some := List.length_pos_of_mem member
  change (data.series.eraseP (·.1 == named.1)).length + 1 = data.series.length
  omega

/-! ### Common keys -/

theorem mem_commonKeys {key : String} :
    key ∈ data.commonKeys ↔
      data.series ≠ [] ∧ ∀ named ∈ data.series, named.2.contains key = true := by
  unfold commonKeys
  cases data.series with
  | nil => simp only [List.not_mem_nil, ne_eq, not_true_eq_false, false_and]
  | cons first rest =>
      rw [List.mem_filter, List.all_eq_true, List.forall_mem_cons, Series.contains_iff_mem_keys,
        and_iff_right (List.cons_ne_nil first rest)]

theorem ascending_commonKeys (data : DataSet α) : data.commonKeys.Pairwise (· < ·) := by
  unfold commonKeys
  cases data.series with
  | nil => exact .nil
  | cons first rest => exact first.2.ascending_keys.filter _

theorem nodup_commonKeys (data : DataSet α) : data.commonKeys.Nodup :=
  data.ascending_commonKeys.imp String.ne_of_lt

/-! ### Listing -/

theorem aligned_eq_ok_iff {keys : List String} {rows : List (List α)} :
    data.aligned keys = .ok rows ↔
      rows.map (List.map some) = data.series.map fun named => keys.map named.2.get? := by
  rw [aligned, Outcome.mapM_eq_ok_iff, eq_comm, ← List.forall₂_eq_eq_eq,
    List.forall₂_map_left_iff, List.forall₂_map_right_iff]
  simp only [Series.ordered_eq_ok_iff, @eq_comm _ (List.map some _)]

/-- A series that lacks a key is reported with this key: the first series that lacks one, and the
first key that it lacks. -/
theorem aligned_eq_error_iff {keys : List String} {cause : DataError} :
    data.aligned keys = .error cause ↔
      ∃ before named behind, data.series = before ++ named :: behind ∧
        (∀ other ∈ before, ∀ key ∈ keys, other.2.contains key = true) ∧
        named.2.ordered named.1 keys = .error cause := by
  rw [aligned, Outcome.mapM_eq_error_iff]
  simp only [Series.exists_ordered_iff]

/-- The values of all series can be listed by keys that all of them have. -/
theorem aligned_of_contained {keys : List String}
    (contained : ∀ named ∈ data.series, ∀ key ∈ keys, named.2.contains key = true) :
    ∃ rows, data.aligned keys = .ok rows ∧
      rows.map (List.map some) = data.series.map fun named => keys.map named.2.get? := by
  cases listed : data.aligned keys with
  | ok rows => exact ⟨rows, rfl, aligned_eq_ok_iff.mp listed⟩
  | error cause =>
      obtain ⟨before, named, behind, split, -, failed⟩ := aligned_eq_error_iff.mp listed
      obtain ⟨key, member, lacking⟩ := Series.lacking_of_ordered_error failed
      rw [contained named (by simp [split]) key member] at lacking
      cases lacking

theorem lacking_of_aligned_error {keys : List String} {cause : DataError}
    (failed : data.aligned keys = .error cause) :
    ∃ named ∈ data.series, ∃ key ∈ keys, named.2.contains key = false := by
  obtain ⟨before, named, behind, split, -, failed⟩ := aligned_eq_error_iff.mp failed
  exact ⟨named, by simp [split], Series.lacking_of_ordered_error failed⟩

theorem length_aligned {keys : List String} {rows : List (List α)}
    (listed : data.aligned keys = .ok rows) : rows.length = data.series.length := by
  have lengths := congrArg List.length (aligned_eq_ok_iff.mp listed)
  rwa [List.length_map, List.length_map] at lengths

end TikzChart.DataSet
