import Mathlib.Algebra.Order.Field.Basic
import Mathlib.Algebra.Order.Field.Rat
import Mathlib.Data.Set.Pairwise.Basic
import Mathlib.Order.CompletePartialOrder
import Mathlib.Order.Interval.Set.Disjoint
import Mathlib.Tactic.NormNum
import Mathlib.Tactic.Ring
import TikzChart.Layout.Bars

/-!
Grouped bars with the formulas read over the rationals. The slots make up the width, and the bars of
a slot make up what its two gaps leave of it (`SharesWidth`). Every place follows from these two
sums: the bars stand in order from the left, slot by slot and series by series inside a slot, and
none of them starts before the one in front of it has ended (`StandApart`).
-/

set_option autoImplicit false

namespace TikzChart.BarLayout

/-- Every bar is drawn with the one width of the layout. -/
def right (layout : BarLayout ℚ) (series key : ℕ) : ℚ := layout.left series key + layout.bar

/-- What a bar covers without its edges, which it may have in common with its neighbours. -/
def interior (layout : BarLayout ℚ) (series key : ℕ) : Set ℚ :=
  Set.Ioo (layout.left series key) (layout.right series key)

/-- One bar for each series and each key, side by side in a frame, the bars of a key in its slot. -/
structure StandApart (layout : BarLayout ℚ) (width : ℚ) (keys series : ℕ) : Prop where
  /-- The one width of all bars. -/
  bar_pos : 0 < layout.bar
  slots_fill : keys * layout.slot = width
  interiors_disjoint : (Set.Iio series ×ˢ Set.Iio keys).PairwiseDisjoint fun place =>
    layout.interior place.1 place.2
  in_slot : ∀ position < series, ∀ key < keys,
    key * layout.slot ≤ layout.left position key ∧
      layout.right position key ≤ (key + 1) * layout.slot
  in_frame : ∀ position < series, ∀ key < keys,
    0 ≤ layout.left position key ∧ layout.right position key ≤ width
  touch : ∀ position key, position + 1 < series → key < keys →
    layout.right position key = layout.left (position + 1) key
  /-- The label of a key stands in the middle of its bars and in the middle of its slot. -/
  centred : ∀ key < keys,
    layout.left 0 key + layout.right (series - 1) key = 2 * layout.middle key ∧
      key * layout.slot + (key + 1) * layout.slot = 2 * layout.middle key

/-! ### Shares of the width -/

/-- The two sums that a width is divided by. -/
structure SharesWidth (layout : BarLayout ℚ) (width : ℚ) (keys series : ℕ) : Prop where
  bar_pos : 0 < layout.bar
  gap_nonneg : 0 ≤ layout.gap
  slots_fill : keys * layout.slot = width
  bars_fill : layout.gap + series * layout.bar + layout.gap = layout.slot

theorem divide_rat (width padding : ℚ) (keys series : ℕ) :
    divide width padding keys series =
      ⟨width / keys, width / keys * (1 - padding) / series, padding * (width / keys) / 2⟩ := rfl

theorem sharesWidth_divide {width padding : ℚ} {keys series : ℕ} (widthPos : 0 < width)
    (paddingNonneg : 0 ≤ padding) (paddingLess : padding < 1) (someKeys : 0 < keys)
    (someSeries : 0 < series) :
    (divide width padding keys series).SharesWidth width keys series := by
  have keysPos : (0 : ℚ) < keys := Nat.cast_pos.mpr someKeys
  have seriesPos : (0 : ℚ) < series := Nat.cast_pos.mpr someSeries
  have slotPos : 0 < width / keys := div_pos widthPos keysPos
  rw [divide_rat]
  exact
    { bar_pos := div_pos (mul_pos slotPos (sub_pos.mpr paddingLess)) seriesPos
      gap_nonneg := div_nonneg (mul_nonneg paddingNonneg slotPos.le) zero_le_two
      slots_fill := mul_div_cancel₀ width keysPos.ne'
      bars_fill := by
        rw [mul_div_cancel₀ _ seriesPos.ne']
        ring }

/-! ### Edges -/

theorem left_rat (layout : BarLayout ℚ) (series key : ℕ) :
    layout.left series key = key * layout.slot + layout.gap + series * layout.bar := rfl

theorem middle_rat (layout : BarLayout ℚ) (key : ℕ) :
    layout.middle key = key * layout.slot + layout.slot / 2 := rfl

theorem right_rat (layout : BarLayout ℚ) (series key : ℕ) :
    layout.right series key = key * layout.slot + layout.gap + (series + 1) * layout.bar := by
  rw [right, left_rat]
  ring

theorem right_eq_left_succ (layout : BarLayout ℚ) (series key : ℕ) :
    layout.right series key = layout.left (series + 1) key := by
  rw [right_rat, left_rat, Nat.cast_succ]

theorem disjoint_interior {layout : BarLayout ℚ} {position other key otherKey : ℕ}
    (ended : layout.right position key ≤ layout.left other otherKey) :
    Disjoint (layout.interior position key) (layout.interior other otherKey) :=
  Set.Ioo_disjoint_Ioo.mpr ((min_le_left _ _).trans (ended.trans (le_max_right _ _)))

namespace SharesWidth

variable {layout : BarLayout ℚ} {width : ℚ} {keys series : ℕ}
  (shares : layout.SharesWidth width keys series)

include shares

theorem left_mono {position other : ℕ} (le : position ≤ other) (key : ℕ) :
    layout.left position key ≤ layout.left other key := by
  rw [left_rat, left_rat]
  exact add_le_add_right (mul_le_mul_of_nonneg_right (Nat.cast_le.mpr le) shares.bar_pos.le) _

theorem slot_nonneg : 0 ≤ layout.slot := by
  have bars : 0 ≤ series * layout.bar := mul_nonneg (Nat.cast_nonneg series) shares.bar_pos.le
  rw [← shares.bars_fill]
  exact add_nonneg (add_nonneg shares.gap_nonneg bars) shares.gap_nonneg

/-- A slot ends before every later one starts. -/
theorem slot_end_le {key other : ℕ} (before : key < other) :
    (key + 1) * layout.slot ≤ other * layout.slot := by
  rw [← Nat.cast_succ]
  exact mul_le_mul_of_nonneg_right (Nat.cast_le.mpr before) shares.slot_nonneg

theorem slot_le_left (position key : ℕ) : key * layout.slot ≤ layout.left position key := by
  have first : layout.left 0 key = key * layout.slot + layout.gap := by
    rw [left_rat, Nat.cast_zero, zero_mul, add_zero]
  calc
    key * layout.slot ≤ key * layout.slot + layout.gap := le_add_of_nonneg_right shares.gap_nonneg
    _ = layout.left 0 key := first.symm
    _ ≤ layout.left position key := shares.left_mono (Nat.zero_le position) key

/-- Where the bar behind the last one would start, there is still a gap to the end of the slot. -/
theorem left_series_add_gap (key : ℕ) :
    layout.left series key + layout.gap = (key + 1) * layout.slot := by
  rw [left_rat, add_one_mul, ← shares.bars_fill]
  ring

theorem right_le_slot {position : ℕ} (isBar : position < series) (key : ℕ) :
    layout.right position key ≤ (key + 1) * layout.slot :=
  calc
    layout.right position key = layout.left (position + 1) key := layout.right_eq_left_succ _ _
    _ ≤ layout.left series key := shares.left_mono isBar key
    _ ≤ layout.left series key + layout.gap := le_add_of_nonneg_right shares.gap_nonneg
    _ = (key + 1) * layout.slot := shares.left_series_add_gap key

theorem right_le_left_of_series {position other : ℕ} (before : position < other) (key : ℕ) :
    layout.right position key ≤ layout.left other key := by
  rw [right_eq_left_succ]
  exact shares.left_mono before key

theorem right_le_left_of_key {position key otherKey : ℕ} (isBar : position < series)
    (before : key < otherKey) (other : ℕ) :
    layout.right position key ≤ layout.left other otherKey :=
  calc
    layout.right position key ≤ (key + 1) * layout.slot := shares.right_le_slot isBar key
    _ ≤ otherKey * layout.slot := shares.slot_end_le before
    _ ≤ layout.left other otherKey := shares.slot_le_left other otherKey

theorem pairwiseDisjoint : (Set.Iio series ×ˢ Set.Iio keys).PairwiseDisjoint fun place =>
    layout.interior place.1 place.2 := by
  intro first isFirst second isSecond differ
  rcases lt_trichotomy first.2 second.2 with before | same | behind
  · exact disjoint_interior (shares.right_le_left_of_key isFirst.1 before second.1)
  · -- bars of one slot belong to different series
    have differ : first.1 ≠ second.1 := fun equal => differ (Prod.ext equal same)
    change Disjoint (layout.interior first.1 first.2) (layout.interior second.1 second.2)
    rw [same]
    rcases lt_or_gt_of_ne differ with before | behind
    · exact disjoint_interior (shares.right_le_left_of_series before second.2)
    · exact (disjoint_interior (shares.right_le_left_of_series behind second.2)).symm
  · exact (disjoint_interior (shares.right_le_left_of_key isSecond.1 behind first.1)).symm

theorem right_le_width {position key : ℕ} (isBar : position < series) (isKey : key < keys) :
    layout.right position key ≤ width :=
  calc
    layout.right position key ≤ (key + 1) * layout.slot := shares.right_le_slot isBar key
    _ ≤ keys * layout.slot := shares.slot_end_le isKey
    _ = width := shares.slots_fill

theorem left_nonneg (position key : ℕ) : 0 ≤ layout.left position key :=
  (mul_nonneg (Nat.cast_nonneg key) shares.slot_nonneg).trans (shares.slot_le_left position key)

theorem bars_centred (someSeries : 0 < series) (key : ℕ) :
    layout.left 0 key + layout.right (series - 1) key = 2 * layout.middle key := by
  have last : layout.right (series - 1) key = layout.left series key := by
    rw [right_eq_left_succ, Nat.sub_add_cancel someSeries]
  rw [last, left_rat, left_rat, middle_rat, ← shares.bars_fill, Nat.cast_zero]
  ring

end SharesWidth

/-- However many keys and series there are and whatever the padding below a full slot, the bars of a
chart have one positive width and stand apart, those of a key without gaps around its label. -/
theorem grouped_bars_stand_apart (width padding : ℚ) (keys series : ℕ) (widthPos : 0 < width)
    (paddingNonneg : 0 ≤ padding) (paddingLess : padding < 1) (someKeys : 0 < keys)
    (someSeries : 0 < series) :
    (divide width padding keys series).StandApart width keys series := by
  have shares := sharesWidth_divide widthPos paddingNonneg paddingLess someKeys someSeries
  exact
    { bar_pos := shares.bar_pos
      slots_fill := shares.slots_fill
      interiors_disjoint := shares.pairwiseDisjoint
      in_slot := by
        intro position isBar key _
        exact ⟨shares.slot_le_left position key, shares.right_le_slot isBar key⟩
      in_frame := by
        intro position isBar key isKey
        exact ⟨shares.left_nonneg position key, shares.right_le_width isBar isKey⟩
      touch := by
        intro position key _ _
        exact right_eq_left_succ _ position key
      centred := by
        intro key _
        refine ⟨shares.bars_centred someSeries key, ?_⟩
        rw [middle_rat]
        ring }

/-- Two keys and two series in a frame of 200, three tenths of each slot empty. -/
theorem two_by_two_stand_apart :
    (0 : ℚ) < 200 ∧ (0 : ℚ) ≤ 3 / 10 ∧ (3 / 10 : ℚ) < 1 ∧
      divide (200 : ℚ) (3 / 10) 2 2 = ⟨100, 35, 15⟩ ∧
      StandApart ⟨100, 35, 15⟩ 200 2 2 := by
  have layout : divide (200 : ℚ) (3 / 10) 2 2 = ⟨100, 35, 15⟩ := by decide +kernel
  have widthPos : (0 : ℚ) < 200 := by norm_num
  have paddingNonneg : (0 : ℚ) ≤ 3 / 10 := by norm_num
  have paddingLess : (3 / 10 : ℚ) < 1 := by norm_num
  have apart := grouped_bars_stand_apart 200 (3 / 10) 2 2 widthPos paddingNonneg paddingLess
    zero_lt_two zero_lt_two
  rw [layout] at apart
  exact ⟨widthPos, paddingNonneg, paddingLess, layout, apart⟩

end TikzChart.BarLayout
