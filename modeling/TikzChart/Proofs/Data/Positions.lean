import TikzChart.Data.LinePoints
import TikzChart.Proofs.Rounding.NaturalNumbers
import TikzChart.Proofs.Rounding.TotalOrder

/-!
Positions on a horizontal axis: the numbers that categories are read as, the indices that stand in
for them, and the tics that are left of sorted positions when repeats are dropped. Positions are
sorted in the total order of patterns, but repeats are found by the equality of floats: both zeros
are one tic.
-/

set_option autoImplicit false

namespace TikzChart.LinePoints

/-! ### Categories as numbers -/

/-- A category as a number, if it is one; blanks around it do not count. -/
def number? (key : String) : Option Binary64 := (Numeral.read (Text.trim key)).toOption

theorem numbers?_cons (key : String) (keys : List String) :
    numbers? (key :: keys) =
      (number? key).bind fun number => (numbers? keys).map (number :: ·) := by
  rw [numbers?, number?]
  cases Numeral.read (Text.trim key) with
  | error cause => rfl
  | ok number => rfl

theorem numbers?_of_isSome {keys : List String} (all : ∀ key ∈ keys, (number? key).isSome = true) :
    numbers? keys = some (keys.filterMap number?) := by
  induction keys with
  | nil => rfl
  | cons key keys ih =>
      obtain ⟨isSome, rest⟩ := List.forall_mem_cons.mp all
      obtain ⟨number, isNumber⟩ := Option.isSome_iff_exists.mp isSome
      rw [numbers?_cons, isNumber, Option.bind_some, ih rest, Option.map_some,
        List.filterMap_cons_some isNumber]

theorem numbers?_of_none {keys : List String} (word : ∃ key ∈ keys, number? key = none) :
    numbers? keys = none := by
  obtain ⟨key, member, noNumber⟩ := word
  induction keys with
  | nil => cases member
  | cons first keys ih =>
      rw [numbers?_cons]
      rcases List.mem_cons.mp member with rfl | member
      · rw [noNumber, Option.bind_none]
      · rw [ih member, Option.bind_eq_none_iff]
        exact fun number _ => rfl

/-! ### Tics -/

section

open Binary64

variable {values : List Binary64}

theorem dropRepeats_sublist (values : List Binary64) : (dropRepeats values).Sublist values := by
  induction values using dropRepeats.induct with
  | case1 => rw [dropRepeats]
  | case2 value => rw [dropRepeats]
  | case3 value next rest same ih =>
      rw [dropRepeats, if_pos same]
      exact ih.trans ((List.sublist_cons_self next rest).cons_cons value)
  | case4 value next rest different ih =>
      rw [dropRepeats, if_neg different]
      exact ih.cons_cons value

theorem dropRepeats_of_pairwise
    (distinct : values.Pairwise fun first second => ¬(first.toFloat == second.toFloat) = true) :
    dropRepeats values = values := by
  induction values using dropRepeats.induct with
  | case1 => rw [dropRepeats]
  | case2 value => rw [dropRepeats]
  | case3 value next rest same ih =>
      exact absurd same ((List.pairwise_cons.mp distinct).1 next List.mem_cons_self)
  | case4 value next rest different ih =>
      rw [dropRepeats, if_neg different, ih (List.pairwise_cons.mp distinct).2]

/-- Of what stands at one place, something is left. -/
theorem exists_mem_dropRepeats (numbers : ∀ value ∈ values, value.isNaN = false)
    {value : Binary64} (member : value ∈ values) :
    ∃ kept ∈ dropRepeats values, kept.place = value.place := by
  induction values using dropRepeats.induct generalizing value with
  | case1 => cases member
  | case2 only =>
      rw [dropRepeats]
      exact ⟨value, member, rfl⟩
  | case3 first next rest same ih =>
      obtain ⟨isFirst, behind⟩ := List.forall_mem_cons.mp numbers
      obtain ⟨isNext, others⟩ := List.forall_mem_cons.mp behind
      -- `next` is dropped, but `first` stands at its place and is still to come
      have remaining : ∀ value ∈ first :: rest, value.isNaN = false :=
        List.forall_mem_cons.mpr ⟨isFirst, others⟩
      rw [dropRepeats, if_pos same]
      rcases List.mem_cons.mp member with rfl | member
      · exact ih remaining List.mem_cons_self
      · rcases List.mem_cons.mp member with rfl | member
        · rw [← (toFloat_beq_iff isFirst isNext).mp same]
          exact ih remaining List.mem_cons_self
        · exact ih remaining (List.mem_cons_of_mem first member)
  | case4 first next rest different ih =>
      rw [dropRepeats, if_neg different]
      rcases List.mem_cons.mp member with rfl | member
      · exact ⟨value, List.mem_cons_self, rfl⟩
      · obtain ⟨kept, isKept, same⟩ := ih (List.forall_mem_cons.mp numbers).2 member
        exact ⟨kept, List.mem_cons_of_mem first isKept, same⟩

theorem dropRepeats_ascending (numbers : ∀ value ∈ values, value.isNaN = false)
    (ascending : values.Pairwise fun first second => first.place ≤ second.place) :
    (dropRepeats values).Pairwise fun first second => first.toFloat < second.toFloat := by
  induction values using dropRepeats.induct with
  | case1 =>
      rw [dropRepeats]
      exact .nil
  | case2 value =>
      rw [dropRepeats]
      exact List.pairwise_singleton _ _
  | case3 value next rest same ih =>
      have sublist := (List.sublist_cons_self next rest).cons_cons value
      rw [dropRepeats, if_pos same]
      exact ih (fun other member => numbers other (sublist.mem member)) (ascending.sublist sublist)
  | case4 value next rest different ih =>
      obtain ⟨isNumber, behind⟩ := List.forall_mem_cons.mp numbers
      obtain ⟨above, ascendingBehind⟩ := List.pairwise_cons.mp ascending
      obtain ⟨aboveNext, _⟩ := List.pairwise_cons.mp ascendingBehind
      -- everything behind is at `next` or beyond it, and `next` is not at `value`
      have strict : value.place < next.place := by
        apply lt_of_le_of_ne (above next List.mem_cons_self)
        exact fun same => different
          ((toFloat_beq_iff isNumber (behind next List.mem_cons_self)).mpr same)
      rw [dropRepeats, if_neg different]
      refine List.pairwise_cons.mpr ⟨?_, ih behind ascendingBehind⟩
      intro kept isKept
      have member := (dropRepeats_sublist (next :: rest)).mem isKept
      rw [toFloat_lt_iff isNumber (behind kept member)]
      rcases List.mem_cons.mp member with rfl | member
      · exact strict
      · exact strict.trans_le (aboveNext kept member)

end

/-! ### Indices -/

section

open Binary64

variable {first second count : ℕ}

theorem isNaN_ofIndex (index : ℕ) : (ofIndex index).isNaN = false :=
  (isNaN_ofFloat _).trans (roundsTo_ofNat index).notNaN

theorem place_ofIndex (index : ℕ) : (ofIndex index).place = clamped index :=
  (place_ofFloat (roundsTo_ofNat index).notNaN).trans (roundsTo_ofNat index).extendedValue_eq

theorem isNegative_ofIndex (index : ℕ) : (ofIndex index).isNegative = false := by
  cases index with
  | zero => decide +kernel
  | succ index =>
      apply not_isNegative_of_place
      rw [place_ofIndex]
      exact zero_lt_one.trans_le (one_le_clamped index.succ_pos)

theorem totalLe_ofIndex (le : first ≤ second) : (ofIndex first).totalLe (ofIndex second) = true := by
  apply totalLe_of_place_le (isNegative_ofIndex first) (isNegative_ofIndex second)
  rw [place_ofIndex, place_ofIndex]
  exact clamped_natCast_mono le

/-- Indices that are rounded to one place are one pattern. -/
theorem ofIndex_eq_of_place (same : (ofIndex first).place = (ofIndex second).place) :
    ofIndex first = ofIndex second :=
  totalLe_antisymm
    (totalLe_of_place_le (isNegative_ofIndex first) (isNegative_ofIndex second) same.le)
    (totalLe_of_place_le (isNegative_ofIndex second) (isNegative_ofIndex first) same.ge)

/-- The tics of the indices, before repeats are dropped. -/
def indexTics (count step : ℕ) : List Binary64 :=
  ((List.range count).filter (· % step == 0)).map ofIndex

theorem mem_indexTics {step : ℕ} {tic : Binary64} :
    tic ∈ indexTics count step ↔ ∃ index < count, step ∣ index ∧ ofIndex index = tic := by
  unfold indexTics
  rw [List.mem_map]
  simp only [List.mem_filter, List.mem_range, beq_iff_eq, Nat.dvd_iff_mod_eq_zero, and_assoc]

theorem isNaN_of_mem_indexTics {step : ℕ} {tic : Binary64} (member : tic ∈ indexTics count step) :
    tic.isNaN = false := by
  obtain ⟨index, _, _, rfl⟩ := mem_indexTics.mp member
  exact isNaN_ofIndex index

theorem indexTics_ascending (count step : ℕ) :
    (dropRepeats (indexTics count step)).Pairwise fun first second =>
      first.toFloat < second.toFloat := by
  refine dropRepeats_ascending (fun tic => isNaN_of_mem_indexTics) ?_
  refine List.pairwise_map.mpr ((List.pairwise_lt_range.filter _).imp ?_)
  intro first second less
  exact place_le_of_totalLe (totalLe_ofIndex less.le)

theorem mem_dropRepeats_indexTics {step : ℕ} {tic : Binary64} :
    tic ∈ dropRepeats (indexTics count step) ↔ tic ∈ indexTics count step := by
  refine ⟨fun member => (dropRepeats_sublist _).mem member, ?_⟩
  intro member
  obtain ⟨kept, isKept, same⟩ :=
    exists_mem_dropRepeats (fun tic => isNaN_of_mem_indexTics) member
  obtain ⟨index, _, _, rfl⟩ := mem_indexTics.mp member
  obtain ⟨other, _, _, rfl⟩ := mem_indexTics.mp ((dropRepeats_sublist _).mem isKept)
  -- places are equal for zeros of different signs, but no index has a sign
  rw [← ofIndex_eq_of_place same]
  exact isKept

/-- No two of the indices below `2 ^ 53` are rounded to one place. -/
theorem dropRepeats_indexTics (few : count ≤ 2 ^ 53) (step : ℕ) :
    dropRepeats (indexTics count step) = indexTics count step := by
  apply dropRepeats_of_pairwise
  refine List.pairwise_map.mpr ((List.pairwise_lt_range.filter _).imp_of_mem ?_)
  intro first second firstMember secondMember less same
  have firstSmall := List.mem_range.mp (List.mem_of_mem_filter firstMember)
  have secondSmall := List.mem_range.mp (List.mem_of_mem_filter secondMember)
  rw [toFloat_beq_iff (isNaN_ofIndex first) (isNaN_ofIndex second), place_ofIndex, place_ofIndex,
    clamped_natCast (firstSmall.trans_le few), clamped_natCast (secondSmall.trans_le few)] at same
  exact less.ne (Nat.cast_injective same)

end

/-! ### Points in order -/

section

variable {positions values : List Binary64}

theorem pairwise_mergeSort_totalLe (positions : List Binary64) :
    (positions.mergeSort Binary64.totalLe).Pairwise fun first second =>
      first.totalLe second = true :=
  @List.pairwise_mergeSort _ Binary64.totalLe (fun _ _ _ => Binary64.totalLe_trans)
    Binary64.totalLe_total positions

theorem mergeSort_totalLe_of_perm {others : List Binary64} (perm : others.Perm positions) :
    others.mergeSort Binary64.totalLe = positions.mergeSort Binary64.totalLe :=
  List.Perm.eq_of_pairwise (fun _ _ _ _ => Binary64.totalLe_antisymm)
    (pairwise_mergeSort_totalLe others) (pairwise_mergeSort_totalLe positions)
    ((List.mergeSort_perm others _).trans (perm.trans (List.mergeSort_perm positions _).symm))

theorem ordered_perm (positions values : List Binary64) :
    (ordered positions values).Perm (positions.zip values) := List.mergeSort_perm _ _

theorem map_fst_ordered (complete : positions.length = values.length) :
    (ordered positions values).map Prod.fst = positions.mergeSort Binary64.totalLe := by
  have sorted := List.map_mergeSort (r := fun first second => first.1.totalLe second.1)
    (s := Binary64.totalLe) (f := Prod.fst) (l := positions.zip values) fun _ _ _ _ => rfl
  rw [List.map_fst_zip complete.le] at sorted
  exact sorted

theorem pairwise_ordered (complete : positions.length = values.length) :
    (ordered positions values).Pairwise fun first second => first.1.totalLe second.1 = true := by
  have sorted := pairwise_mergeSort_totalLe positions
  rw [← map_fst_ordered complete] at sorted
  exact List.pairwise_map.mp sorted

theorem ordered_of_pairwise
    (inOrder : positions.Pairwise fun first second => first.totalLe second = true) :
    ordered positions values = positions.zip values := by
  apply List.mergeSort_of_pairwise
  apply List.pairwise_iff_getElem.mpr
  intro first second firstInside secondInside less
  rw [List.getElem_zip, List.getElem_zip]
  exact List.pairwise_iff_getElem.mp inOrder first second _ _ less

/-- Points at different positions have only one order. -/
theorem ordered_of_perm {others otherValues : List Binary64} (distinct : positions.Nodup)
    (complete : positions.length = values.length)
    (completeOthers : others.length = otherValues.length)
    (perm : (others.zip otherValues).Perm (positions.zip values)) :
    ordered others otherValues = ordered positions values := by
  refine List.Perm.eq_of_pairwise ?_ (pairwise_ordered completeOthers) (pairwise_ordered complete)
    ((ordered_perm others otherValues).trans (perm.trans (ordered_perm positions values).symm))
  intro point other pointMember otherMember le ge
  -- points at one position are one point, because no position occurs twice
  have distinctPoints : ((positions.zip values).map Prod.fst).Nodup := by
    rw [List.map_fst_zip complete.le]
    exact distinct
  have inside := perm.mem_iff.mp ((ordered_perm others otherValues).mem_iff.mp pointMember)
  exact List.inj_on_of_nodup_map distinctPoints inside
    ((ordered_perm positions values).mem_iff.mp otherMember) (Binary64.totalLe_antisymm le ge)

end

/-! ### Tics at points -/

/-- All lines have their points at the same positions, from first to last in the total order. -/
def SharePositions (points : LinePoints) : Prop :=
  ∃ positions : List Binary64,
    (positions.Pairwise fun first second => first.totalLe second = true) ∧
      ∀ line ∈ points.lines, line.map Prod.fst = positions

/-- The tics ascend, and are equal to the positions of the points. -/
structure TicsAtPoints (points : LinePoints) : Prop where
  ascending : points.tics.Pairwise fun first second => first.toFloat < second.toFloat
  ticAt : ∀ line ∈ points.lines, ∀ point ∈ line, ∃ tic ∈ points.tics,
    (point.1.toFloat == tic.toFloat) = true
  pointAt : ∀ tic ∈ points.tics, ∀ line ∈ points.lines, ∃ point ∈ line,
    (tic.toFloat == point.1.toFloat) = true

theorem ticsAtPoints_of_positions {positions : List Binary64}
    {lines : List (List (Binary64 × Binary64))}
    (numbers : ∀ position ∈ positions, position.isNaN = false)
    (inOrder : positions.Pairwise fun first second => first.totalLe second = true)
    (stand : ∀ line ∈ lines, line.map Prod.fst = positions) :
    TicsAtPoints { tics := dropRepeats positions, lines } where
  ascending := dropRepeats_ascending numbers (inOrder.imp Binary64.place_le_of_totalLe)
  ticAt := by
    intro line member point inLine
    have inside : point.1 ∈ positions := stand line member ▸ List.mem_map_of_mem inLine
    obtain ⟨tic, isTic, same⟩ := exists_mem_dropRepeats numbers inside
    have isNumber := numbers tic ((dropRepeats_sublist positions).mem isTic)
    exact ⟨tic, isTic, (Binary64.toFloat_beq_iff (numbers _ inside) isNumber).mpr same.symm⟩
  pointAt := by
    intro tic isTic line member
    have inside := (dropRepeats_sublist positions).mem isTic
    have isNumber := numbers tic inside
    rw [← stand line member] at inside
    obtain ⟨point, inLine, rfl⟩ := List.mem_map.mp inside
    exact ⟨point, inLine, (Binary64.toFloat_beq_iff isNumber isNumber).mpr rfl⟩

end TikzChart.LinePoints
