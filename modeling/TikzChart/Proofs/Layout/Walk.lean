import Mathlib.Logic.Function.Iterate
import TikzChart.Proofs.Layout.Range
import TikzChart.Proofs.Rounding.TotalOrder

/-!
The walk over nested values against the plain recursion. Each round of the walk visits one of the
waiting trees, so the walk of a tree is over after as many rounds as the tree has nodes; the range
that it leaves behind is the fold over the leaves, the last of them first (`Bounds`). A NaN changes
nothing in this fold unless all leaves are NaNs.

A mapped tree is the only tree of the same nesting with the mapped leaves
(`NumericTree.eq_map_iff`).
-/

set_option autoImplicit false

namespace TikzChart

/-! ### Nesting -/

namespace NumericTree

variable {α β : Type}

/-- Trees that differ in the values of their leaves alone. -/
inductive SameNesting : NumericTree α → NumericTree β → Prop
  | scalar (value : α) (other : β) : SameNesting (.scalar value) (.scalar other)
  | seq {children : List (NumericTree α)} {others : List (NumericTree β)}
      (same : List.Forall₂ SameNesting children others) : SameNesting (.seq children) (.seq others)

mutual

theorem sameNesting_map (f : α → β) (tree : NumericTree α) : SameNesting tree (tree.map f) := by
  match tree with
  | .scalar value => exact .scalar value (f value)
  | .seq children => exact .seq (sameNesting_mapAll f children)

theorem sameNesting_mapAll (f : α → β) (trees : List (NumericTree α)) :
    List.Forall₂ SameNesting trees (mapAll f trees) := by
  match trees with
  | [] => exact .nil
  | tree :: trees => exact .cons (sameNesting_map f tree) (sameNesting_mapAll f trees)

end

mutual

theorem SameNesting.length_leaves {tree : NumericTree α} {other : NumericTree β}
    (same : SameNesting tree other) : other.leaves.length = tree.leaves.length := by
  match tree, other, same with
  | .scalar _, .scalar _, .scalar _ _ => rfl
  | .seq _, .seq _, .seq same => exact length_leavesOfAll_of_forall₂ same

theorem length_leavesOfAll_of_forall₂ {trees : List (NumericTree α)} {others : List (NumericTree β)}
    (same : List.Forall₂ SameNesting trees others) :
    (leavesOfAll others).length = (leavesOfAll trees).length := by
  match trees, others, same with
  | [], [], .nil => rfl
  | tree :: trees, other :: others, .cons same sameRest =>
      rw [leavesOfAll, leavesOfAll, List.length_append, List.length_append, same.length_leaves,
        length_leavesOfAll_of_forall₂ sameRest]

end

mutual

theorem SameNesting.eq_map {f : α → β} {tree : NumericTree α} {other : NumericTree β}
    (same : SameNesting tree other) (leaves : other.leaves = tree.leaves.map f) :
    other = tree.map f := by
  match tree, other, same with
  | .scalar _, .scalar _, .scalar _ _ => exact congrArg scalar (List.singleton_inj.mp leaves)
  | .seq _, .seq _, .seq same => exact congrArg seq (eq_mapAll_of_forall₂ same leaves)

theorem eq_mapAll_of_forall₂ {f : α → β} {trees : List (NumericTree α)}
    {others : List (NumericTree β)} (same : List.Forall₂ SameNesting trees others)
    (leaves : leavesOfAll others = (leavesOfAll trees).map f) : others = mapAll f trees := by
  match trees, others, same with
  | [], [], .nil => rfl
  | tree :: trees, other :: others, .cons same sameRest =>
      rw [leavesOfAll, leavesOfAll, List.map_append] at leaves
      have lengths : other.leaves.length = (tree.leaves.map f).length := by
        rw [same.length_leaves, List.length_map]
      obtain ⟨first, rest⟩ := List.append_inj leaves lengths
      rw [mapAll, same.eq_map first, eq_mapAll_of_forall₂ sameRest rest]

end

theorem eq_map_iff {f : α → β} {tree : NumericTree α} {other : NumericTree β} :
    other = tree.map f ↔ SameNesting tree other ∧ other.leaves = tree.leaves.map f := by
  constructor
  · rintro rfl
    exact ⟨sameNesting_map f tree, leaves_map f tree⟩
  · rintro ⟨same, leaves⟩
    exact same.eq_map leaves

end NumericTree

/-! ### Rounds -/

/-- A walk under way: the range found so far, and the trees still to be visited. -/
structure Walk (α : Type) where
  found : Option (α × α)
  waiting : List (NumericTree α)

namespace Walk

open NumericTree (nodesOfAll rangeFrom)

variable {α : Type}

def start (tree : NumericTree α) : Walk α := ⟨none, [tree]⟩

variable [PlotNumber α]

/-- Visits the first of the waiting trees, if there is one. -/
def round (walk : Walk α) : Walk α :=
  match walk.waiting with
  | [] => walk
  | .scalar value :: waiting => ⟨some (NumericTree.widen walk.found value), waiting⟩
  | .seq children :: waiting => ⟨walk.found, children.reverse ++ waiting⟩

/-- The range at which the walk will arrive. -/
def result (walk : Walk α) : Option (α × α) := rangeFrom walk.found walk.waiting

theorem result_round (walk : Walk α) : walk.round.result = walk.result := by
  obtain ⟨found, waiting⟩ := walk
  unfold result round
  match waiting with
  | [] => rfl
  | .scalar value :: waiting =>
      conv_rhs => rw [rangeFrom]
  | .seq children :: waiting =>
      conv_rhs => rw [rangeFrom]

/-- A node leaves the list in each round until none is left. -/
theorem nodesOfAll_round (walk : Walk α) :
    nodesOfAll walk.round.waiting = nodesOfAll walk.waiting - 1 := by
  obtain ⟨found, waiting⟩ := walk
  unfold round
  match waiting with
  | [] => rfl
  | .scalar value :: waiting =>
      dsimp only
      rw [nodesOfAll, NumericTree.nodes, Nat.add_sub_cancel_left]
  | .seq children :: waiting =>
      dsimp only
      rw [nodesOfAll, NumericTree.nodes, NumericTree.nodesOfAll_append,
        NumericTree.nodesOfAll_reverse]
      omega

theorem result_rounds (walk : Walk α) (rounds : ℕ) : (round^[rounds] walk).result = walk.result := by
  induction rounds with
  | zero => rfl
  | succ rounds ih => rw [Function.iterate_succ_apply', result_round, ih]

theorem nodesOfAll_rounds (walk : Walk α) (rounds : ℕ) :
    nodesOfAll (round^[rounds] walk).waiting = nodesOfAll walk.waiting - rounds := by
  induction rounds with
  | zero => rfl
  | succ rounds ih => rw [Function.iterate_succ_apply', nodesOfAll_round, ih, Nat.sub_sub]

end Walk

theorem NumericTree.nodesOfAll_eq_zero_iff {α : Type} {trees : List (NumericTree α)} :
    nodesOfAll trees = 0 ↔ trees = [] := by
  match trees with
  | [] => exact iff_of_true rfl rfl
  | .scalar value :: trees => simp [nodesOfAll, nodes]
  | .seq children :: trees => simp [nodesOfAll, nodes]

/-- The walk of a tree is over as soon as there has been a round for every node. -/
theorem Walk.ended_iff {α : Type} [PlotNumber α] (tree : NumericTree α) (rounds : ℕ) :
    (round^[rounds] (start tree)).waiting = [] ↔ tree.nodes ≤ rounds := by
  have all : NumericTree.nodesOfAll (start tree).waiting = tree.nodes := rfl
  rw [← NumericTree.nodesOfAll_eq_zero_iff, nodesOfAll_rounds, all, Nat.sub_eq_zero_iff_le]

theorem Walk.found_of_ended {α : Type} [PlotNumber α] {tree : NumericTree α} {rounds : ℕ}
    (ended : (round^[rounds] (start tree)).waiting = []) :
    (round^[rounds] (start tree)).found = tree.range := by
  have arrives := result_rounds (start tree) rounds
  rw [result, ended, NumericTree.rangeFrom] at arrives
  exact arrives

/-! ### Folding -/

namespace NumericTree

variable {α : Type} [PlotNumber α]

theorem widenAll_some (low high : α) (values : List α) :
    widenAll (some (low, high)) values =
      some (values.foldl PlotNumber.minimum low, values.foldl PlotNumber.maximum high) := by
  induction values generalizing low high with
  | nil => rfl
  | cons value values ih => exact ih _ _

theorem widenAll_cons (value : α) (values : List α) :
    widenAll none (value :: values) =
      some (values.foldl PlotNumber.minimum value, values.foldl PlotNumber.maximum value) :=
  widenAll_some value value values

theorem range_eq_none_iff {tree : NumericTree α} : tree.range = none ↔ tree.leaves = [] := by
  rw [range_eq_widenAll, ← List.reverse_eq_nil_iff]
  cases tree.leaves.reverse with
  | nil => exact iff_of_true rfl rfl
  | cons last others =>
      rw [widenAll_cons]
      exact iff_of_false (fun impossible => nomatch impossible) (List.cons_ne_nil _ _)

end NumericTree

/-- Of two floats one is picked; a NaN gives way to a number, and of two numbers neither comes
before the one that is picked. -/
structure Picks (precedes : Float → Float → Prop) (pick : Float → Float → Float) : Prop where
  trans : ∀ x y z, precedes x y → precedes y z → precedes x z
  refl : ∀ x, x.isNaN = false → precedes x x
  of_isNaN_right : ∀ x y, y.isNaN = true → pick x y = x
  of_isNaN_left : ∀ x y, x.isNaN = true → y.isNaN = false → pick x y = y
  of_numbers : ∀ x y, x.isNaN = false → y.isNaN = false →
    (pick x y = x ∨ pick x y = y) ∧ precedes (pick x y) x ∧ precedes (pick x y) y

namespace Picks

variable {precedes : Float → Float → Prop} {pick : Float → Float → Float}

theorem of_left (picks : Picks precedes pick) {x : Float} (notNaN : x.isNaN = false) (y : Float) :
    (pick x y).isNaN = false ∧ precedes (pick x y) x := by
  cases yNaN : y.isNaN with
  | true =>
      rw [picks.of_isNaN_right x y yNaN]
      exact ⟨notNaN, picks.refl x notNaN⟩
  | false =>
      obtain ⟨either, first, -⟩ := picks.of_numbers x y notNaN yNaN
      refine ⟨?_, first⟩
      rcases either with same | same
      · rw [same, notNaN]
      · rw [same, yNaN]

theorem of_right (picks : Picks precedes pick) (x : Float) {y : Float} (notNaN : y.isNaN = false) :
    (pick x y).isNaN = false ∧ precedes (pick x y) y := by
  cases xNaN : x.isNaN with
  | true =>
      rw [picks.of_isNaN_left x y xNaN notNaN]
      exact ⟨notNaN, picks.refl y notNaN⟩
  | false =>
      exact ⟨(picks.of_left xNaN y).1, (picks.of_numbers x y xNaN notNaN).2.2⟩

/-- None of the numbers comes before the one that is picked from all of them. -/
theorem foldl_precedes (picks : Picks precedes pick) {first : Float} {values : List Float} :
    ∀ value ∈ first :: values, value.isNaN = false → precedes (values.foldl pick first) value := by
  induction values generalizing first with
  | nil =>
      intro value member notNaN
      rw [List.mem_singleton.mp member] at notNaN ⊢
      exact picks.refl first notNaN
  | cons next values ih =>
      have picked := ih (pick first next) List.mem_cons_self
      intro value member notNaN
      rcases List.mem_cons.mp member with rfl | member
      · obtain ⟨pickedNotNaN, before⟩ := picks.of_left notNaN next
        exact picks.trans _ _ _ (picked pickedNotNaN) before
      · rcases List.mem_cons.mp member with rfl | inRest
        · obtain ⟨pickedNotNaN, before⟩ := picks.of_right first notNaN
          exact picks.trans _ _ _ (picked pickedNotNaN) before
        · exact ih value (List.mem_cons_of_mem _ inRest) notNaN

end Picks

namespace PlotNumber

theorem minimum_eq (x y : Float) : minimum x y = if x < y ∨ y.isNaN = true then x else y := by
  have decides : (less x y || isNaN y) = true ↔ x < y ∨ y.isNaN = true := by
    change (decide (x < y) || y.isNaN) = true ↔ _
    rw [Bool.or_eq_true, decide_eq_true_eq]
  unfold minimum
  exact if_congr decides rfl rfl

theorem maximum_eq (x y : Float) : maximum x y = if y < x ∨ y.isNaN = true then x else y := by
  have decides : (less y x || isNaN y) = true ↔ y < x ∨ y.isNaN = true := by
    change (decide (y < x) || y.isNaN) = true ↔ _
    rw [Bool.or_eq_true, decide_eq_true_eq]
  unfold maximum
  exact if_congr decides rfl rfl

end PlotNumber

theorem le_refl_of_float {x : Float} (notNaN : x.isNaN = false) : x ≤ x :=
  (le_iff_extendedValue_le notNaN notNaN).mpr (le_refl _)

theorem le_of_lt_of_float {x y : Float} (less : x < y) : x ≤ y := le_iff_lt_or_beq.mpr (.inl less)

theorem picks_minimum : Picks (fun x y => x ≤ y) PlotNumber.minimum where
  trans _ _ _ := le_trans_of_float
  refl _ := le_refl_of_float
  of_isNaN_right x y isNaN := by rw [PlotNumber.minimum_eq, if_pos (.inr isNaN)]
  of_isNaN_left x y isNaN notNaN := by
    rw [PlotNumber.minimum_eq, if_neg]
    rintro (less | yNaN)
    · exact Bool.false_ne_true ((notNaN_of_lt less).1.symm.trans isNaN)
    · exact Bool.false_ne_true (notNaN.symm.trans yNaN)
  of_numbers x y xNotNaN yNotNaN := by
    rw [PlotNumber.minimum_eq]
    by_cases less : x < y
    · rw [if_pos (.inl less)]
      exact ⟨.inl rfl, le_refl_of_float xNotNaN, le_of_lt_of_float less⟩
    · have le : y ≤ x := not_not.mp fun above => less ((not_le_iff_lt yNotNaN xNotNaN).mp above)
      rw [if_neg (not_or_intro less (Bool.eq_false_iff.mp yNotNaN))]
      exact ⟨.inr rfl, le, le_refl_of_float yNotNaN⟩

theorem picks_maximum : Picks (fun x y => y ≤ x) PlotNumber.maximum where
  trans _ _ _ first second := le_trans_of_float second first
  refl _ := le_refl_of_float
  of_isNaN_right x y isNaN := by rw [PlotNumber.maximum_eq, if_pos (.inr isNaN)]
  of_isNaN_left x y isNaN notNaN := by
    rw [PlotNumber.maximum_eq, if_neg]
    rintro (less | yNaN)
    · exact Bool.false_ne_true ((notNaN_of_lt less).2.symm.trans isNaN)
    · exact Bool.false_ne_true (notNaN.symm.trans yNaN)
  of_numbers x y xNotNaN yNotNaN := by
    rw [PlotNumber.maximum_eq]
    by_cases less : y < x
    · rw [if_pos (.inl less)]
      exact ⟨.inl rfl, le_refl_of_float xNotNaN, le_of_lt_of_float less⟩
    · have le : x ≤ y := not_not.mp fun above => less ((not_le_iff_lt xNotNaN yNotNaN).mp above)
      rw [if_neg (not_or_intro less (Bool.eq_false_iff.mp yNotNaN))]
      exact ⟨.inr rfl, le, le_refl_of_float yNotNaN⟩

/-! ### Leaves that are no numbers -/

/-- The values without the NaNs among them. -/
def numbersOf (values : List Float) : List Float := values.filter fun value => !value.isNaN

theorem numbersOf_cons_of_isNaN {value : Float} (isNaN : value.isNaN = true) (values : List Float) :
    numbersOf (value :: values) = numbersOf values :=
  List.filter_cons_of_neg (by rw [isNaN]; exact Bool.false_ne_true)

theorem numbersOf_cons_of_number {value : Float} (notNaN : value.isNaN = false)
    (values : List Float) : numbersOf (value :: values) = value :: numbersOf values :=
  List.filter_cons_of_pos (by rw [notNaN]; rfl)

namespace NumericTree

theorem widen_of_isNaN (range : Float × Float) {value : Float} (isNaN : value.isNaN = true) :
    widen (some range) value = range :=
  Prod.ext (picks_minimum.of_isNaN_right range.1 value isNaN)
    (picks_maximum.of_isNaN_right range.2 value isNaN)

theorem widenAll_numbersOf (range : Float × Float) (values : List Float) :
    widenAll (some range) values = widenAll (some range) (numbersOf values) := by
  induction values generalizing range with
  | nil => rfl
  | cons value values ih =>
      cases isNaN : value.isNaN with
      | true =>
          rw [numbersOf_cons_of_isNaN isNaN, ← ih range]
          change widenAll (some (widen (some range) value)) values = _
          rw [widen_of_isNaN range isNaN]
      | false =>
          rw [numbersOf_cons_of_number isNaN]
          exact ih (widen (some range) value)

/-- A fold that has begun with NaNs begins anew with the first number. -/
theorem widenAll_of_isNaN {low high : Float} (lowNaN : low.isNaN = true) (highNaN : high.isNaN = true)
    {values : List Float} (some : numbersOf values ≠ []) :
    widenAll (.some (low, high)) values = widenAll none (numbersOf values) := by
  induction values with
  | nil => exact absurd rfl some
  | cons value values ih =>
      cases isNaN : value.isNaN with
      | true =>
          rw [numbersOf_cons_of_isNaN isNaN] at some ⊢
          rw [← ih some]
          change widenAll (.some (widen (.some (low, high)) value)) values = _
          rw [widen_of_isNaN (low, high) isNaN]
      | false =>
          have anew : widen (.some (low, high)) value = (value, value) :=
            Prod.ext (picks_minimum.of_isNaN_left low value lowNaN isNaN)
              (picks_maximum.of_isNaN_left high value highNaN isNaN)
          rw [numbersOf_cons_of_number isNaN]
          change widenAll (.some (widen (.some (low, high)) value)) values =
            widenAll (.some (value, value)) (numbersOf values)
          rw [anew, widenAll_numbersOf]

theorem widenAll_none_numbersOf {values : List Float} (some : numbersOf values ≠ []) :
    widenAll none values = widenAll none (numbersOf values) := by
  cases values with
  | nil => rfl
  | cons value values =>
      cases isNaN : value.isNaN with
      | true =>
          rw [numbersOf_cons_of_isNaN isNaN] at some ⊢
          exact widenAll_of_isNaN isNaN isNaN some
      | false =>
          rw [numbersOf_cons_of_number isNaN]
          exact widenAll_numbersOf (value, value) values

/-- As long as one leaf is a number, the range is that of the leaves that are numbers. -/
theorem range_eq_of_numbers {tree : NumericTree Float} (some : numbersOf tree.leaves ≠ []) :
    tree.range = (ofValues (numbersOf tree.leaves)).range := by
  have reversed : numbersOf tree.leaves.reverse = (numbersOf tree.leaves).reverse :=
    List.filter_reverse
  have some : numbersOf tree.leaves.reverse ≠ [] := by
    rwa [reversed, ne_eq, List.reverse_eq_nil_iff]
  rw [range_eq_widenAll, range_eq_widenAll, leaves_ofValues, widenAll_none_numbersOf some, reversed]

end NumericTree

/-! ### The range and the leaves -/

/-- The bounds of leaves: their fold from the last leaf on. They enclose every number, and if there
is a number at all, the NaNs count for nothing. -/
structure Bounds (leaves : List Float) (low high : Float) : Prop where
  folded : ∀ last others, leaves.reverse = last :: others →
    low = others.foldl PlotNumber.minimum last ∧ high = others.foldl PlotNumber.maximum last
  encloses : ∀ leaf ∈ leaves, leaf.isNaN = false → low ≤ leaf ∧ leaf ≤ high
  ofNumbers : numbersOf leaves ≠ [] →
    (NumericTree.ofValues (numbersOf leaves)).range = some (low, high)
  attained : numbersOf leaves ≠ [] →
    (∃ leaf ∈ leaves, (low == leaf) = true) ∧ ∃ leaf ∈ leaves, (high == leaf) = true

theorem beq_refl_of_float {x : Float} (notNaN : x.isNaN = false) : (x == x) = true :=
  (beq_iff_extendedValue_eq notNaN notNaN).mpr rfl

theorem NumericTree.bounds_of_range {tree : NumericTree Float} {low high : Float}
    (isRange : tree.range = some (low, high)) : Bounds tree.leaves low high := by
  have folded : ∀ last others, tree.leaves.reverse = last :: others →
      low = others.foldl PlotNumber.minimum last ∧ high = others.foldl PlotNumber.maximum last := by
    intro last others reversed
    rw [range_eq_widenAll, reversed, widenAll_cons] at isRange
    cases isRange
    exact ⟨rfl, rfl⟩
  have encloses : ∀ leaf ∈ tree.leaves, leaf.isNaN = false → low ≤ leaf ∧ leaf ≤ high := by
    intro leaf member notNaN
    rw [← List.mem_reverse] at member
    obtain ⟨last, others, reversed⟩ := List.exists_cons_of_ne_nil (List.ne_nil_of_mem member)
    obtain ⟨rfl, rfl⟩ := folded last others reversed
    rw [reversed] at member
    exact ⟨picks_minimum.foldl_precedes leaf member notNaN,
      picks_maximum.foldl_precedes leaf member notNaN⟩
  refine ⟨folded, encloses, fun some => (range_eq_of_numbers some).symm.trans isRange, ?_⟩
  intro some
  obtain ⟨number, isNumber⟩ := List.exists_mem_of_ne_nil _ some
  obtain ⟨member, notNaN⟩ := List.mem_filter.mp isNumber
  obtain ⟨below, above⟩ := encloses number member (Bool.not_eq_true' _ ▸ notNaN)
  obtain ⟨lowLeaf, highLeaf⟩ := range_ends isRange
  exact ⟨⟨low, lowLeaf, beq_refl_of_float (notNaN_of_le below).1⟩,
    ⟨high, highLeaf, beq_refl_of_float (notNaN_of_le above).2⟩⟩

/-- However a tree is nested, its walk is over after a round for every node and has then found the
fold of its leaves, or nothing if it has none; and mapping changes the leaves and keeps the nesting.
-/
theorem walk_folds_leaves (tree : NumericTree Float) :
    (∀ rounds, ((Walk.round^[rounds] (.start tree)).waiting = [] ↔ tree.nodes ≤ rounds) ∧
      ((Walk.round^[rounds] (.start tree)).waiting = [] →
        (Walk.round^[rounds] (.start tree)).found = tree.range)) ∧
    (tree.range = none ↔ tree.leaves = []) ∧
    (∀ low high, tree.range = some (low, high) → Bounds tree.leaves low high) ∧
    ∀ (β : Type) (f : Float → β) (other : NumericTree β), other = tree.map f ↔
      NumericTree.SameNesting tree other ∧ other.leaves = tree.leaves.map f := by
  refine ⟨?_, NumericTree.range_eq_none_iff, fun _ _ => NumericTree.bounds_of_range, ?_⟩
  · intro rounds
    exact ⟨Walk.ended_iff tree rounds, Walk.found_of_ended⟩
  · intro β f other
    exact NumericTree.eq_map_iff

/-- A NaN is passed over, also when it is the last leaf and so the first to be visited. -/
example : (NumericTree.seq [.scalar 3, .seq [], .seq [.scalar 1, .scalar (0 / 0)]]).range =
    some ((1, 3) : Float × Float) := by decide +kernel

end TikzChart
