import Mathlib.Data.List.Nodup
import TikzChart.Data.DataSet
import TikzChart.Proofs.Outcome

/-!
What a key leads to in a series. Putting a value under a key changes what that key leads to and
nothing else; filtering takes keys away and leaves the others what they lead to. A series has each
of its keys once, and the keys are all that can be asked for in vain or not (`Series.HasKeys`).
-/

set_option autoImplicit false

namespace TikzChart.Series

variable {α β : Type} {series : Series α} {key : String} {value : α}

/-! ### Looking up -/

theorem lookup_insertEntry_self (entries : List (String × α)) :
    (insertEntry key value entries).lookup key = some value := by
  induction entries with
  | nil => exact List.lookup_cons_self
  | cons entry rest ih =>
      rw [insertEntry]
      split
      · exact List.lookup_cons_self
      · split
        · exact List.lookup_cons_self
        · next different =>
            rw [List.lookup_cons, beq_eq_false_iff_ne.mpr different]
            exact ih

theorem lookup_insertEntry_other {other : String} (different : other ≠ key)
    (entries : List (String × α)) :
    (insertEntry key value entries).lookup other = entries.lookup other := by
  have notKey : (other == key) = false := beq_eq_false_iff_ne.mpr different
  induction entries with
  | nil => rw [insertEntry, List.lookup_cons, notKey]
  | cons entry rest ih =>
      rw [insertEntry]
      split
      · rw [List.lookup_cons, notKey]
      · split
        · next same => rw [List.lookup_cons, List.lookup_cons, ← same, notKey]
        · rw [List.lookup_cons, List.lookup_cons, ih]

theorem get?_insert (series : Series α) (key other : String) (value : α) :
    (series.insert key value).get? other =
      if other = key then some value else series.get? other := by
  by_cases same : other = key
  · rw [if_pos same, same]
    exact lookup_insertEntry_self series.entries
  · rw [if_neg same]
    exact lookup_insertEntry_other same series.entries

theorem lookup_filter (test : String → Bool) (key : String) (entries : List (String × α)) :
    (entries.filter fun entry => test entry.1).lookup key =
      if test key then entries.lookup key else none := by
  induction entries with
  | nil => simp only [List.filter_nil, List.lookup_nil, ite_self]
  | cons entry rest ih =>
      rw [List.filter_cons, List.lookup_cons]
      by_cases same : key = entry.1
      · subst same
        rw [beq_self_eq_true]
        cases passes : test entry.1 with
        | true => rw [if_pos rfl, if_pos rfl, List.lookup_cons, beq_self_eq_true]
        | false => rw [if_neg Bool.false_ne_true, ih, passes, if_neg Bool.false_ne_true,
            if_neg Bool.false_ne_true]
      · rw [beq_eq_false_iff_ne.mpr same]
        split
        · rw [List.lookup_cons, beq_eq_false_iff_ne.mpr same]
          exact ih
        · exact ih

theorem get?_filterKeys (series : Series α) (test : String → Bool) (key : String) :
    (series.filterKeys test).get? key = if test key then series.get? key else none :=
  lookup_filter test key series.entries

/-! ### Keys -/

theorem lookup_isSome (key : String) (entries : List (String × α)) :
    (entries.lookup key).isSome = true ↔ key ∈ entries.map Prod.fst := by
  induction entries with
  | nil => simp only [List.lookup_nil, Option.isSome_none, Bool.false_eq_true, List.map_nil,
      List.not_mem_nil]
  | cons entry rest ih =>
      rw [List.lookup_cons, List.map_cons, List.mem_cons]
      by_cases same : key = entry.1
      · rw [beq_iff_eq.mpr same, or_iff_left_of_imp fun _ => same]
        exact iff_of_true rfl same
      · rw [beq_eq_false_iff_ne.mpr same, or_iff_right same]
        exact ih

theorem contains_iff_mem_keys : series.contains key = true ↔ key ∈ series.keys :=
  lookup_isSome key series.entries

theorem contains_iff_get? : series.contains key = true ↔ ∃ value, series.get? key = some value :=
  Option.isSome_iff_exists

theorem contains_insert {other : String} :
    (series.insert key value).contains other = true ↔
      other = key ∨ series.contains other = true := by
  unfold contains
  rw [get?_insert]
  by_cases same : other = key
  · rw [if_pos same]
    exact iff_of_true rfl (.inl same)
  · rw [if_neg same, or_iff_right same]

theorem contains_filterKeys {test : String → Bool} :
    (series.filterKeys test).contains key = true ↔
      test key = true ∧ series.contains key = true := by
  unfold contains
  rw [get?_filterKeys]
  cases test key with
  | true => rw [if_pos rfl, and_iff_right rfl]
  | false => rw [if_neg Bool.false_ne_true]; simp only [Option.isSome_none, Bool.false_eq_true,
      false_and]

theorem ascending_keys (series : Series α) : series.keys.Pairwise (· < ·) :=
  List.pairwise_map.mpr series.ascending

/-! ### Equal series -/

theorem lookup_of_below {entries : List (String × α)}
    (below : ∀ entry ∈ entries, key < entry.1) : entries.lookup key = none := by
  apply List.lookup_eq_none_iff.mpr
  intro entry member
  exact bne_iff_ne.mpr (String.ne_of_lt (below entry member))

/-- No key that is found lies below the first one. -/
theorem not_below_head {entry : String × α} {rest : List (String × α)}
    (ascending : (entry :: rest).Pairwise fun first second => first.1 < second.1)
    (found : (entry :: rest).lookup key = some value) : ¬key < entry.1 := by
  intro below
  have absent : (entry :: rest).lookup key = none := by
    apply lookup_of_below
    intro other member
    rcases List.mem_cons.mp member with rfl | inRest
    · exact below
    · exact String.lt_trans below ((List.pairwise_cons.mp ascending).1 other inRest)
  rw [absent] at found
  cases found

theorem lookup_head (entry : String × α) (rest : List (String × α)) :
    (entry :: rest).lookup entry.1 = some entry.2 := by
  rw [List.lookup_cons, beq_self_eq_true]

theorem entries_eq_of_lookup {first second : List (String × α)}
    (firstAscending : first.Pairwise fun entry next => entry.1 < next.1)
    (secondAscending : second.Pairwise fun entry next => entry.1 < next.1)
    (same : ∀ key, first.lookup key = second.lookup key) : first = second := by
  induction first generalizing second with
  | nil =>
      cases second with
      | nil => rfl
      | cons other others =>
          have absent := (same other.1).trans (lookup_head other others)
          cases absent
  | cons entry rest ih =>
      cases second with
      | nil =>
          have absent := (same entry.1).symm.trans (lookup_head entry rest)
          cases absent
      | cons other others =>
          have inSecond := (same entry.1).symm.trans (lookup_head entry rest)
          have inFirst := (same other.1).trans (lookup_head other others)
          have sameKey : entry.1 = other.1 :=
            String.le_antisymm (String.not_lt.mp (not_below_head firstAscending inFirst))
              (String.not_lt.mp (not_below_head secondAscending inSecond))
          have sameEntry : entry = other := by
            rw [sameKey, lookup_head] at inSecond
            exact Prod.ext sameKey (Option.some.inj inSecond.symm)
          subst sameEntry
          obtain ⟨restBelow, restAscending⟩ := List.pairwise_cons.mp firstAscending
          obtain ⟨othersBelow, othersAscending⟩ := List.pairwise_cons.mp secondAscending
          refine congrArg (entry :: ·) (ih restAscending othersAscending ?_)
          intro key
          by_cases head : key = entry.1
          · rw [head, lookup_of_below restBelow, lookup_of_below othersBelow]
          · have behind := same key
            rw [List.lookup_cons, List.lookup_cons, beq_eq_false_iff_ne.mpr head] at behind
            exact behind

/-- Series are equal when every key leads to the same in both. -/
theorem eq_of_get? {first second : Series α} (same : ∀ key, first.get? key = second.get? key) :
    first = second :=
  eq_of_entries (entries_eq_of_lookup first.ascending second.ascending same)

/-! ### Series of entries -/

theorem insert_comm {entry other : String × α} (agree : entry.1 = other.1 → entry = other)
    (series : Series α) :
    (series.insert entry.1 entry.2).insert other.1 other.2 =
      (series.insert other.1 other.2).insert entry.1 entry.2 := by
  by_cases same : entry.1 = other.1
  · rw [agree same]
  · apply eq_of_get?
    intro key
    simp only [get?_insert]
    by_cases first : key = entry.1
    · have notSecond : key ≠ other.1 := fun second => same (first.symm.trans second)
      rw [if_neg notSecond, if_pos first, if_pos first]
    · rw [if_neg first, if_neg first]

/-- The order of the entries makes no difference when no key has two values. -/
theorem ofList_perm {entries others : List (String × α)} (perm : entries.Perm others)
    (distinct : (entries.map Prod.fst).Nodup) : ofList entries = ofList others := by
  apply perm.foldl_eq'
  intro entry member other otherMember series
  exact insert_comm (List.inj_on_of_nodup_map distinct member otherMember) series

/-- The last entry of a key counts. -/
theorem get?_foldl_insert_last (entries : List (String × α)) (before : Series α) (key : String) :
    (entries.foldl (fun series entry => series.insert entry.1 entry.2) before).get? key =
      (entries.reverse.lookup key).or (before.get? key) := by
  induction entries generalizing before with
  | nil => rfl
  | cons entry entries ih =>
      rw [List.foldl_cons, ih, get?_insert, List.reverse_cons, List.lookup_append,
        Option.or_assoc, List.lookup_cons, List.lookup_nil]
      by_cases same : key = entry.1
      · rw [if_pos same, beq_iff_eq.mpr same]
        rfl
      · rw [if_neg same, beq_eq_false_iff_ne.mpr same]
        rfl

/-- A key has the value of the last item that makes an entry of the key. -/
theorem get?_ofList_filterMap {ι : Type} {entryOf : ι → Option (String × α)} {items : List ι} :
    (ofList (items.filterMap entryOf)).get? key = some value ↔
      ∃ before item behind, items = before ++ item :: behind ∧ entryOf item = some (key, value) ∧
        ∀ later ∈ behind, ∀ other, entryOf later ≠ some (key, other) := by
  have nothing : (empty : Series α).get? key = none := rfl
  rw [ofList, get?_foldl_insert_last, nothing, Option.or_none, List.lookup_eq_some_iff,
    ← List.filterMap_reverse]
  constructor
  · rintro ⟨later, earlier, split, others⟩
    obtain ⟨behind, rest, cut, isLater, isRest⟩ := List.filterMap_eq_append_iff.mp split
    obtain ⟨silent, item, before, cutRest, noEntries, entry, -⟩ :=
      List.filterMap_eq_cons_iff.mp isRest
    refine ⟨before.reverse, item, (behind ++ silent).reverse, ?_, entry, ?_⟩
    · rw [List.reverse_eq_iff.mp cut, cutRest, List.reverse_append, List.reverse_append,
        List.reverse_append, List.reverse_cons, List.append_assoc, List.append_assoc]
      rfl
    · intro last member other hasEntry
      rw [List.mem_reverse, List.mem_append] at member
      rcases member with inBehind | inSilent
      · have inLater : (key, other) ∈ later := by
          rw [← isLater]
          exact List.mem_filterMap.mpr ⟨last, inBehind, hasEntry⟩
        exact bne_iff_ne.mp (others _ inLater) rfl
      · rw [noEntries last inSilent] at hasEntry
        cases hasEntry
  · rintro ⟨before, item, behind, rfl, entry, others⟩
    refine ⟨behind.reverse.filterMap entryOf, before.reverse.filterMap entryOf, ?_, ?_⟩
    · rw [List.reverse_append, List.reverse_cons, List.append_assoc, List.singleton_append,
        List.filterMap_append, List.filterMap_cons_some entry]
    · rintro ⟨name, other⟩ member
      obtain ⟨later, inBehind, hasEntry⟩ := List.mem_filterMap.mp member
      refine bne_iff_ne.mpr fun same => others later (List.mem_reverse.mp inBehind) other ?_
      rw [hasEntry, same]

theorem contains_ofList_filterMap {ι : Type} {entryOf : ι → Option (String × α)} {items : List ι} :
    (ofList (items.filterMap entryOf)).contains key = true ↔
      ∃ item ∈ items, ∃ value, entryOf item = some (key, value) := by
  have nothing : (empty : Series α).get? key = none := rfl
  rw [contains, ofList, get?_foldl_insert_last, nothing, Option.or_none, lookup_isSome,
    List.map_reverse, List.mem_reverse, List.mem_map]
  constructor
  · rintro ⟨⟨name, value⟩, member, rfl⟩
    obtain ⟨item, inItems, entry⟩ := List.mem_filterMap.mp member
    exact ⟨item, inItems, value, entry⟩
  · rintro ⟨item, inItems, value, entry⟩
    exact ⟨(key, value), List.mem_filterMap.mpr ⟨item, inItems, entry⟩, rfl⟩

theorem get?_foldl_insert {entries : List (String × α)} (distinct : (entries.map Prod.fst).Nodup)
    (before : Series α) (key : String) :
    (entries.foldl (fun series entry => series.insert entry.1 entry.2) before).get? key =
      (entries.lookup key).or (before.get? key) := by
  induction entries generalizing before with
  | nil => rfl
  | cons entry entries ih =>
      obtain ⟨fresh, distinctRest⟩ := List.nodup_cons.mp distinct
      rw [List.foldl_cons, ih distinctRest, get?_insert, List.lookup_cons]
      by_cases same : key = entry.1
      · have absent : entries.lookup key = none := by
          rw [← Option.not_isSome_iff_eq_none, lookup_isSome, same]
          exact fresh
        rw [if_pos same, absent, beq_iff_eq.mpr same]
        rfl
      · rw [if_neg same, beq_eq_false_iff_ne.mpr same]

theorem get?_ofList {entries : List (String × α)} (distinct : (entries.map Prod.fst).Nodup)
    (key : String) : (ofList entries).get? key = entries.lookup key := by
  have nothing : (empty : Series α).get? key = none := rfl
  rw [ofList, get?_foldl_insert distinct, nothing, Option.or_none]

/-! ### Growing restrictions -/

theorem filterKeys_nil (series : Series α) :
    series.filterKeys ([] : List String).contains = empty := by
  apply eq_of_get?
  intro key
  rw [get?_filterKeys]
  rfl

theorem contains_concat {keys : List String} {other : String} :
    (keys ++ [key]).contains other = (keys.contains other || other == key) := by
  rw [List.contains_append, List.contains_cons, List.contains_nil, Bool.or_false]

/-- One more key, which the series has. -/
theorem filterKeys_concat_of_some (keys : List String) (found : series.get? key = some value) :
    series.filterKeys (keys ++ [key]).contains =
      (series.filterKeys keys.contains).insert key value := by
  apply eq_of_get?
  intro other
  rw [get?_insert, get?_filterKeys, get?_filterKeys, contains_concat]
  by_cases same : other = key
  · rw [if_pos same, same, beq_self_eq_true, Bool.or_true, if_pos rfl, found]
  · rw [if_neg same, beq_eq_false_iff_ne.mpr same, Bool.or_false]

/-- One more key, which the series does not have. -/
theorem filterKeys_concat_of_none (keys : List String) (absent : series.get? key = none) :
    series.filterKeys (keys ++ [key]).contains = series.filterKeys keys.contains := by
  apply eq_of_get?
  intro other
  rw [get?_filterKeys, get?_filterKeys, contains_concat]
  by_cases same : other = key
  · rw [same, absent, ite_self, ite_self]
  · rw [beq_eq_false_iff_ne.mpr same, Bool.or_false]

/-- All keys, and maybe more. -/
theorem filterKeys_of_contained {keys : List String}
    (all : ∀ key, series.contains key = true → key ∈ keys) :
    series.filterKeys keys.contains = series := by
  apply eq_of_get?
  intro key
  rw [get?_filterKeys]
  split
  · rfl
  · next absent =>
      cases found : series.get? key with
      | none => rfl
      | some value =>
          exact absurd (List.contains_iff_mem.mpr (all key (contains_iff_get?.mpr ⟨value, found⟩)))
            absent

/-! ### Changed values -/

theorem get?_map (series : Series α) (change : α → β) (key : String) :
    (series.map change).get? key = (series.get? key).map change := by
  have mapped (entries : List (String × α)) :
      (entries.map fun entry => (entry.1, change entry.2)).lookup key =
        (entries.lookup key).map change := by
    induction entries with
    | nil => rfl
    | cons entry rest ih =>
        rw [List.map_cons, List.lookup_cons, List.lookup_cons]
        split
        · rfl
        · exact ih
  exact mapped series.entries

theorem contains_map (series : Series α) (change : α → β) (key : String) :
    (series.map change).contains key = series.contains key := by
  rw [contains, get?_map, Option.isSome_map, contains]

/-! ### Shared keys -/

/-- The keys of the series are those of a list. -/
def HasKeys (series : Series α) (keys : List String) : Prop :=
  ∀ key, series.contains key = true ↔ key ∈ keys

theorem HasKeys.insert_new {keys : List String} (has : series.HasKeys keys) :
    (series.insert key value).HasKeys (keys ++ [key]) := by
  intro other
  rw [contains_insert, has other, List.mem_append, List.mem_singleton, or_comm]

theorem HasKeys.perm {keys others : List String} (has : series.HasKeys keys)
    (perm : others.Perm keys) : series.HasKeys others := by
  intro key
  rw [has key, perm.mem_iff]

/-! ### Values in order -/

/-- The value under a key; that there is none is reported under a name. -/
def require (series : Series α) (name key : String) : Except DataError α :=
  (series.get? key).elim (.error (.missingValue name key)) .ok

theorem require_eq_ok_iff {name : String} :
    series.require name key = .ok value ↔ series.get? key = some value := by
  unfold require
  cases series.get? key with
  | none => exact iff_of_false nofun nofun
  | some found => rw [Option.elim_some, Except.ok.injEq, Option.some.injEq]

theorem require_eq_error_iff {name : String} {cause : DataError} :
    series.require name key = .error cause ↔
      series.contains key = false ∧ cause = .missingValue name key := by
  unfold require contains
  cases series.get? key with
  | none =>
      rw [Option.elim_none, Except.error.injEq, Option.isSome_none, eq_self, true_and, eq_comm]
  | some found => exact iff_of_false nofun fun impossible => nomatch impossible.1

theorem ordered_eq_mapM (series : Series α) (name : String) (keys : List String) :
    series.ordered name keys = keys.mapM (series.require name) := by
  induction keys with
  | nil => rfl
  | cons key keys ih =>
      rw [ordered, List.mapM_cons, ← ih, require]
      cases series.get? key with
      | none => rfl
      | some value =>
          cases series.ordered name keys with
          | error cause => rfl
          | ok values => rfl

theorem ordered_eq_ok_iff {name : String} {keys : List String} {values : List α} :
    series.ordered name keys = .ok values ↔ values.map some = keys.map series.get? := by
  rw [ordered_eq_mapM, Outcome.mapM_eq_ok_iff, eq_comm, ← List.forall₂_eq_eq_eq,
    List.forall₂_map_left_iff, List.forall₂_map_right_iff]
  simp only [require_eq_ok_iff]

/-- Only a key without a value keeps the values from being listed, and the first such key is
reported. -/
theorem ordered_eq_error_iff {name : String} {keys : List String} {cause : DataError} :
    series.ordered name keys = .error cause ↔
      ∃ before key behind, keys = before ++ key :: behind ∧
        (∀ other ∈ before, series.contains other = true) ∧
        series.contains key = false ∧ cause = .missingValue name key := by
  rw [ordered_eq_mapM, Outcome.mapM_eq_error_iff]
  simp only [require_eq_ok_iff, require_eq_error_iff, contains_iff_get?]

/-- The values of keys that a series has. -/
theorem ordered_of_contained (name : String) {keys : List String}
    (contained : ∀ key ∈ keys, series.contains key = true) :
    ∃ values, series.ordered name keys = .ok values ∧
      values.map some = keys.map series.get? := by
  cases listed : series.ordered name keys with
  | ok values => exact ⟨values, rfl, ordered_eq_ok_iff.mp listed⟩
  | error cause =>
      obtain ⟨before, key, behind, rfl, -, lacking, -⟩ := ordered_eq_error_iff.mp listed
      rw [contained key (by simp)] at lacking
      cases lacking

/-- The values can be listed by exactly the keys that all have one. -/
theorem exists_ordered_iff {name : String} {keys : List String} :
    (∃ values, series.ordered name keys = .ok values) ↔
      ∀ key ∈ keys, series.contains key = true := by
  constructor
  · rintro ⟨values, listed⟩ key member
    have found := List.mem_map_of_mem (f := series.get?) member
    rw [← ordered_eq_ok_iff.mp listed] at found
    obtain ⟨value, -, same⟩ := List.mem_map.mp found
    exact contains_iff_get?.mpr ⟨value, same.symm⟩
  · intro contained
    obtain ⟨values, listed, -⟩ := ordered_of_contained name contained
    exact ⟨values, listed⟩

theorem lacking_of_ordered_error {name : String} {keys : List String} {cause : DataError}
    (failed : series.ordered name keys = .error cause) :
    ∃ key ∈ keys, series.contains key = false := by
  obtain ⟨before, key, behind, rfl, -, lacking, -⟩ := ordered_eq_error_iff.mp failed
  exact ⟨key, by simp, lacking⟩

theorem length_ordered {name : String} {keys : List String} {values : List α}
    (listed : series.ordered name keys = .ok values) : values.length = keys.length := by
  have lengths := congrArg List.length (ordered_eq_ok_iff.mp listed)
  rwa [List.length_map, List.length_map] at lengths

end TikzChart.Series
