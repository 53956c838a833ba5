import Mathlib.Data.List.Induction
import TikzChart.Proofs.Data.DataSet

/-!
Data sets under any sequence of edits. A name is taken once: its series goes back to one insertion,
and the series stand in the order of these insertions (`DataSet.InInsertionOrder`). What a list of
keys lists of the series, or which series and key are reported, is said in `DataSet.Aligns`.
-/

set_option autoImplicit false

namespace TikzChart.DataSet

variable {α : Type} {data : DataSet α}

/-- A change of a data set. -/
inductive Edit (α : Type) where
  | insert (name : String) (series : Series α)
  | erase (name : String)
  | modify (name : String) (change : Series α → Series α)

/-- The data set after an edit. An insertion that is refused changes nothing. -/
def Edit.perform (data : DataSet α) : Edit α → DataSet α
  | insert name series =>
    match data.insert name series with
    | .ok after => after
    | .error _ => data
  | erase name => data.erase name
  | modify name change => data.modify name change

/-- The data set after edits of an empty one. -/
def after (edits : List (Edit α)) : DataSet α := edits.foldl Edit.perform empty

theorem after_concat (edits : List (Edit α)) (edit : Edit α) :
    after (edits ++ [edit]) = edit.perform (after edits) :=
  List.foldl_concat _ _ _ _

/-! ### One edit -/

theorem insert_of_taken {name : String} (taken : name ∈ data.names) (series : Series α) :
    data.insert name series = .error (.duplicateSeries name) := by
  unfold insert
  rw [if_pos (isSome_get?.mpr taken)]

theorem insert_of_fresh {name : String} (fresh : name ∉ data.names) (series : Series α) :
    data.insert name series = .ok ⟨data.series ++ [(name, series)]⟩ :=
  insert_eq_ok_iff.mpr ⟨fresh, rfl⟩

theorem perform_insert_of_taken {name : String} (taken : name ∈ data.names) (series : Series α) :
    (Edit.insert name series).perform data = data := by
  rw [Edit.perform, insert_of_taken taken]

theorem names_perform_insert {name : String} (fresh : name ∉ data.names) (series : Series α) :
    ((Edit.insert name series).perform data).names = data.names ++ [name] := by
  rw [Edit.perform, insert_of_fresh fresh]
  exact List.map_append

theorem modify_eq_mapSeries (data : DataSet α) (name : String) (change : Series α → Series α) :
    data.modify name change =
      data.mapSeries fun other series => if other = name then change series else series := by
  unfold modify mapSeries
  refine congrArg mk (List.map_congr_left fun named _ => ?_)
  dsimp only
  by_cases same : named.1 = name
  · rw [if_pos same, if_pos same]
  · rw [if_neg same, if_neg same]

/-- Under distinct names only one series can be taken out. -/
theorem series_erase (distinct : data.names.Nodup) (name : String) :
    (data.erase name).series = data.series.filter fun named => named.1 != name := by
  obtain ⟨series⟩ := data
  unfold erase
  unfold names at distinct
  dsimp only at distinct ⊢
  induction series with
  | nil => rfl
  | cons named rest ih =>
      obtain ⟨fresh, distinctRest⟩ := List.nodup_cons.mp distinct
      rw [List.eraseP_cons, List.filter_cons]
      by_cases erased : named.1 = name
      · have others : ∀ other ∈ rest, (other.1 != name) = true := by
          intro other member
          rw [bne_iff_ne, ← erased]
          exact fun same => fresh (same ▸ List.mem_map_of_mem member)
        rw [beq_iff_eq.mpr erased, erased, bne_self_eq_false, if_neg Bool.false_ne_true,
          List.filter_eq_self.mpr others]
        rfl
      · rw [beq_eq_false_iff_ne.mpr erased, bne_iff_ne.mpr erased, if_pos rfl, ← ih distinctRest]
        rfl

theorem names_erase (distinct : data.names.Nodup) (name : String) :
    (data.erase name).names = data.names.filter (· != name) := by
  unfold names
  rw [series_erase distinct, List.filter_map]
  rfl

/-! ### The series under the names -/

/-- What an edit changes about the series that names lead to. -/
def Edit.onMap (map : String → Option (Series α)) (edit : Edit α) (other : String) :
    Option (Series α) :=
  match edit with
  | insert name series => if other = name then some ((map name).getD series) else map other
  | erase name => if other = name then none else map other
  | modify name change => if other = name then (map name).map change else map other

theorem get?_erase_self (distinct : data.names.Nodup) (name : String) :
    (data.erase name).get? name = none := by
  rw [← Option.not_isSome_iff_eq_none, isSome_get?, names_erase distinct, List.mem_filter,
    bne_self_eq_false]
  exact fun impossible => Bool.false_ne_true impossible.2

theorem get?_perform (distinct : data.names.Nodup) (edit : Edit α) (other : String) :
    (edit.perform data).get? other = edit.onMap data.get? other := by
  cases edit with
  | insert name series =>
      rw [Edit.onMap]
      by_cases taken : name ∈ data.names
      · obtain ⟨held, found⟩ := Option.isSome_iff_exists.mp (isSome_get?.mpr taken)
        rw [perform_insert_of_taken taken, found]
        split
        · next same => rw [same, found, Option.getD_some]
        · rfl
      · have absent : data.get? name = none :=
          Option.not_isSome_iff_eq_none.mp fun found => taken (isSome_get?.mp found)
        rw [Edit.perform, insert_of_fresh taken, absent, Option.getD_none]
        unfold get? at absent ⊢
        dsimp only
        rw [List.lookup_append, List.lookup_cons, List.lookup_nil]
        by_cases same : other = name
        · rw [same, absent, beq_self_eq_true, if_pos rfl]
          rfl
        · rw [beq_eq_false_iff_ne.mpr same, if_neg same, Option.or_none]
  | erase name =>
      rw [Edit.perform, Edit.onMap]
      split
      · next same => rw [same, get?_erase_self distinct]
      · next different => exact get?_erase_other different
  | modify name change =>
      rw [Edit.perform, Edit.onMap, modify_eq_mapSeries, get?_mapSeries]
      split
      · next same => rw [same]
      · exact Option.map_id'

/-! ### The order of the series -/

/-- The series of a name goes back to the insertion at this time: the name was free then, and it has
not been taken out since. -/
structure HeldSince (edits : List (Edit α)) (name : String) (time : Nat) : Prop where
  inserted : ∃ series, edits[time]? = some (.insert name series)
  free : name ∉ (after (edits.take time)).names
  kept : ∀ later, time < later → edits[later]? ≠ some (.erase name)

/-- The names of a data set are those that are held, each of them once and in the order of the times
since when. -/
structure InInsertionOrder (edits : List (Edit α)) (data : DataSet α) : Prop where
  distinct : data.names.Nodup
  ordered : ∃ held : List (String × Nat), held.map Prod.fst = data.names ∧
    held.Pairwise (fun first second => first.2 < second.2) ∧
    ∀ entry ∈ held, HeldSince edits entry.1 entry.2
  complete : ∀ name time, HeldSince edits name time → name ∈ data.names

section

variable {edits : List (Edit α)} {edit : Edit α} {name : String} {time : Nat}

theorem HeldSince.time_lt (held : HeldSince edits name time) : time < edits.length := by
  obtain ⟨series, inserted⟩ := held.inserted
  exact (List.getElem?_eq_some_iff.mp inserted).1

theorem HeldSince.concat (held : HeldSince edits name time) (kept : edit ≠ .erase name) :
    HeldSince (edits ++ [edit]) name time where
  inserted := by
    rw [List.getElem?_append_left held.time_lt]
    exact held.inserted
  free := by
    rw [List.take_append_of_le_length (Nat.le_of_lt held.time_lt)]
    exact held.free
  kept := by
    intro later behind
    by_cases inside : later < edits.length
    · rw [List.getElem?_append_left inside]
      exact held.kept later behind
    · rw [List.getElem?_append_right (Nat.le_of_not_lt inside), List.getElem?_singleton]
      split
      · exact fun same => kept (Option.some.inj same)
      · exact fun impossible => nomatch impossible

theorem heldSince_inserted (fresh : name ∉ (after edits).names) (series : Series α) :
    HeldSince (edits ++ [.insert name series]) name edits.length where
  inserted := ⟨series, List.getElem?_concat_length⟩
  free := by rwa [List.take_left]
  kept := by
    intro later behind
    rw [List.getElem?_eq_none (by rw [List.length_append, List.length_singleton]; omega)]
    exact fun impossible => nomatch impossible

/-- A name that is held was held before the last edit already, unless the last edit has inserted it.
-/
theorem HeldSince.cases_concat (held : HeldSince (edits ++ [edit]) name time) :
    (HeldSince edits name time ∧ edit ≠ .erase name) ∨
      name ∉ (after edits).names ∧ ∃ series, edit = .insert name series := by
  obtain ⟨series, inserted⟩ := held.inserted
  rcases Nat.lt_or_ge time edits.length with before | last
  · refine .inl ⟨⟨⟨series, ?_⟩, ?_, ?_⟩, ?_⟩
    · rwa [List.getElem?_append_left before] at inserted
    · have free := held.free
      rwa [List.take_append_of_le_length (Nat.le_of_lt before)] at free
    · intro later behind
      by_cases inside : later < edits.length
      · have kept := held.kept later behind
        rwa [List.getElem?_append_left inside] at kept
      · rw [List.getElem?_eq_none (Nat.le_of_not_lt inside)]
        exact fun impossible => nomatch impossible
    · intro erased
      apply held.kept edits.length before
      rw [List.getElem?_concat_length, erased]
  · have isLast : time = edits.length := by
      have inside := held.time_lt
      rw [List.length_append, List.length_singleton] at inside
      omega
    subst isLast
    have free := held.free
    rw [List.take_left] at free
    rw [List.getElem?_concat_length] at inserted
    exact .inr ⟨free, series, Option.some.inj inserted⟩

end

section

variable {edits : List (Edit α)}

/-- An edit that leaves the names and takes none of them out. -/
theorem InInsertionOrder.of_same_names (order : InInsertionOrder edits data) {edit : Edit α}
    {next : DataSet α} (same : next.names = data.names)
    (keeps : ∀ name ∈ data.names, edit ≠ .erase name)
    (fresh : ∀ name series, edit = .insert name series → name ∈ data.names) :
    InInsertionOrder (edits ++ [edit]) next where
  distinct := same ▸ order.distinct
  ordered := by
    obtain ⟨held, names, ascending, since⟩ := order.ordered
    refine ⟨held, names.trans same.symm, ascending, ?_⟩
    intro entry member
    exact (since entry member).concat (keeps entry.1 (names ▸ List.mem_map_of_mem member))
  complete := by
    intro name time held
    rw [same]
    rcases held.cases_concat with ⟨before, -⟩ | ⟨-, series, inserted⟩
    · exact order.complete name time before
    · exact fresh name series inserted

theorem InInsertionOrder.inserted (order : InInsertionOrder edits (after edits)) {name : String}
    (fresh : name ∉ (after edits).names) (series : Series α) :
    InInsertionOrder (edits ++ [.insert name series])
      ((Edit.insert name series).perform (after edits)) where
  distinct := by
    rw [names_perform_insert fresh, ← List.concat_eq_append]
    exact order.distinct.concat fresh
  ordered := by
    obtain ⟨held, names, ascending, since⟩ := order.ordered
    refine ⟨held ++ [(name, edits.length)], ?_, ?_, ?_⟩
    · rw [names_perform_insert fresh, ← names, List.map_append, List.map_singleton]
    · apply List.pairwise_append.mpr
      refine ⟨ascending, List.pairwise_singleton _ _, ?_⟩
      intro entry member last isLast
      rw [List.mem_singleton.mp isLast]
      exact (since entry member).time_lt
    · intro entry member
      rcases List.mem_append.mp member with before | last
      · exact (since entry before).concat nofun
      · rw [List.mem_singleton.mp last]
        exact heldSince_inserted fresh series
  complete := by
    intro other time held
    rw [names_perform_insert fresh, List.mem_append, List.mem_singleton]
    rcases held.cases_concat with ⟨before, -⟩ | ⟨-, _, same⟩
    · exact .inl (order.complete other time before)
    · cases same
      exact .inr rfl

theorem InInsertionOrder.erased (order : InInsertionOrder edits data) (name : String) :
    InInsertionOrder (edits ++ [.erase name]) (data.erase name) where
  distinct := by
    rw [names_erase order.distinct]
    exact order.distinct.filter _
  ordered := by
    obtain ⟨held, names, ascending, since⟩ := order.ordered
    refine ⟨held.filter (·.1 != name), ?_, ascending.filter _, ?_⟩
    · rw [names_erase order.distinct, ← names, List.filter_map]
      rfl
    · intro entry member
      obtain ⟨inHeld, other⟩ := List.mem_filter.mp member
      refine (since entry inHeld).concat fun same => bne_iff_ne.mp other ?_
      cases same
      rfl
  complete := by
    intro other time held
    rcases held.cases_concat with ⟨before, kept⟩ | ⟨-, _, impossible⟩
    · rw [names_erase order.distinct, List.mem_filter, bne_iff_ne]
      exact ⟨order.complete other time before, fun same => kept (same ▸ rfl)⟩
    · cases impossible

theorem inInsertionOrder_after (edits : List (Edit α)) :
    InInsertionOrder edits (after edits) := by
  induction edits using List.reverseRecOn with
  | nil =>
      refine ⟨List.nodup_nil, ⟨[], rfl, .nil, List.forall_mem_nil _⟩, ?_⟩
      intro name time held
      exact absurd held.time_lt (Nat.not_lt_zero time)
  | append_singleton edits edit order =>
      rw [after_concat]
      cases edit with
      | insert name series =>
          by_cases taken : name ∈ (after edits).names
          · rw [perform_insert_of_taken taken]
            refine order.of_same_names rfl (fun _ _ => nofun) ?_
            intro other _ same
            cases same
            exact taken
          · exact order.inserted taken series
      | erase name => exact order.erased name
      | modify name change =>
          exact order.of_same_names
            (by rw [Edit.perform, modify_eq_mapSeries, names_mapSeries]) (fun _ _ => nofun) nofun

end

theorem get?_after (edits : List (Edit α)) :
    (after edits).get? = edits.foldl Edit.onMap fun _ => none := by
  induction edits using List.reverseRecOn with
  | nil => rfl
  | append_singleton edits edit ih =>
      rw [after_concat, List.foldl_concat, ← ih]
      exact funext (get?_perform (inInsertionOrder_after edits).distinct edit)

/-! ### Listing by keys -/

/-- The first series that lacks a key of a list, and the first key that it lacks. -/
def FirstLacking (data : DataSet α) (keys : List String) (name key : String) : Prop :=
  ∃ before series behind earlier later, data.series = before ++ (name, series) :: behind ∧
    keys = earlier ++ key :: later ∧
    (∀ named ∈ before, ∀ other ∈ keys, named.2.contains other = true) ∧
    (∀ other ∈ earlier, series.contains other = true) ∧ series.contains key = false

/-- What comes of listing the series by keys: the values of every series under every key, or the
first series that lacks one of them. -/
structure Aligns (data : DataSet α) (keys : List String) : Prop where
  listed : ∀ rows, data.aligned keys = .ok rows ↔
    rows.map (List.map some) = data.series.map fun named => keys.map named.2.get?
  succeeds : (∃ rows, data.aligned keys = .ok rows) ↔
    ∀ named ∈ data.series, ∀ key ∈ keys, named.2.contains key = true
  fails : ∀ cause, data.aligned keys = .error cause ↔
    ∃ name key, data.FirstLacking keys name key ∧ cause = .missingValue name key

theorem aligns (data : DataSet α) (keys : List String) : data.Aligns keys where
  listed _ := aligned_eq_ok_iff
  succeeds := by
    constructor
    · rintro ⟨rows, listed⟩ named member
      have found := List.mem_map_of_mem (f := fun named => keys.map named.2.get?) member
      rw [← aligned_eq_ok_iff.mp listed] at found
      obtain ⟨row, -, same⟩ := List.mem_map.mp found
      have inOrder : named.2.ordered named.1 keys = .ok row := Series.ordered_eq_ok_iff.mpr same
      exact Series.exists_ordered_iff.mp ⟨row, inOrder⟩
    · intro contained
      obtain ⟨rows, listed, -⟩ := aligned_of_contained contained
      exact ⟨rows, listed⟩
  fails cause := by
    rw [aligned_eq_error_iff]
    constructor
    · rintro ⟨before, ⟨name, series⟩, behind, split, complete, failed⟩
      obtain ⟨earlier, key, later, cut, passed, lacks, reported⟩ :=
        Series.ordered_eq_error_iff.mp failed
      exact ⟨name, key, ⟨before, series, behind, earlier, later, split, cut, complete, passed, lacks⟩,
        reported⟩
    · rintro ⟨name, key, ⟨before, series, behind, earlier, later, split, cut, complete, passed,
        lacks⟩, reported⟩
      exact ⟨before, (name, series), behind, split, complete,
        Series.ordered_eq_error_iff.mpr ⟨earlier, key, later, cut, passed, lacks, reported⟩⟩

theorem aligned_commonKeys (data : DataSet α) :
    ∃ rows, data.aligned data.commonKeys = .ok rows :=
  (data.aligns data.commonKeys).succeeds.mpr fun named member _ common =>
    (mem_commonKeys.mp common).2 named member

/-- After any edits a data set is a map from names to series in the order of their insertion, and
its series are listed by keys without a value standing under a key that is not its own. -/
theorem edited_data_set_is_ordered_map (edits : List (Edit α)) :
    InInsertionOrder edits (after edits) ∧
    (after edits).get? = edits.foldl Edit.onMap (fun _ => none) ∧
    (∀ name series, name ∈ (after edits).names →
      (after edits).insert name series = .error (.duplicateSeries name) ∧
        after (edits ++ [.insert name series]) = after edits) ∧
    (∀ name series, name ∉ (after edits).names →
      (after edits).insert name series = .ok ⟨(after edits).series ++ [(name, series)]⟩) ∧
    (∀ name, ((after edits).erase name).series =
      (after edits).series.filter fun named => named.1 != name) ∧
    ((after edits).commonKeys.Pairwise (· < ·) ∧
      ∀ key, key ∈ (after edits).commonKeys ↔ (after edits).series ≠ [] ∧
        ∀ named ∈ (after edits).series, named.2.contains key = true) ∧
    (∀ keys, (after edits).Aligns keys) ∧
    ∃ rows, (after edits).aligned (after edits).commonKeys = .ok rows := by
  have order := inInsertionOrder_after edits
  refine ⟨order, get?_after edits, ?_, fun name series fresh => insert_of_fresh fresh series,
    series_erase order.distinct, ⟨ascending_commonKeys _, fun _ => mem_commonKeys⟩,
    fun keys => aligns _ keys, aligned_commonKeys _⟩
  intro name series taken
  refine ⟨insert_of_taken taken series, ?_⟩
  rw [after_concat, perform_insert_of_taken taken]

/-- A name that was taken out and is inserted anew comes last. -/
example : (after [.insert "a" .empty, .insert "b" .empty, .insert "a" .empty, .erase "a",
    .insert "a" .empty] : DataSet Nat).names = ["b", "a"] := by decide

end TikzChart.DataSet
