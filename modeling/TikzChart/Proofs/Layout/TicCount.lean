import TikzChart.Layout.Tic
import TikzChart.Proofs.Outcome
import TikzChart.Proofs.Rounding.NaturalNumbers
import TikzChart.Proofs.Rounding.TotalOrder

/-!
How many tics the vertical axis has. A count that follows from a step is held to the limit before it
is cut down to a natural number, a count that was asked for is held to it as it is. Both limits are
the same one (`resolveTics_cases`), so no count that passes the first is refused by the second.
-/

set_option autoImplicit false

namespace TikzChart

/-! ### Floats against bounds -/

section

variable {x : Float}

theorem lessOrEqual_iff {y : Float} : PlotNumber.lessOrEqual x y = true ↔ x ≤ y := by
  rw [le_iff_lt_or_beq]
  change (decide (x < y) || x == y) = true ↔ _
  rw [Bool.or_eq_true, decide_eq_true_eq]

theorem isNaN_ofNat (n : ℕ) : (Float.ofNat n).isNaN = false := (roundsTo_ofNat n).notNaN

/-- What is no number counts as little as what is not positive. -/
theorem not_positive_iff :
    (PlotNumber.isNaN x || PlotNumber.lessOrEqual x PlotNumber.zero) = true ↔ ¬0 < x := by
  rw [Bool.or_eq_true, lessOrEqual_iff]
  change x.isNaN = true ∨ x ≤ Float.ofNat 0 ↔ ¬Float.ofNat 0 < x
  cases isNaN : x.isNaN with
  | true =>
      refine iff_of_true (.inl rfl) fun positive => ?_
      rw [(notNaN_of_lt positive).2] at isNaN
      cases isNaN
  | false => rw [← not_le_iff_lt isNaN (isNaN_ofNat 0), not_not, or_iff_right Bool.false_ne_true]

theorem not_nonnegative_iff :
    (PlotNumber.isNaN x || PlotNumber.less x PlotNumber.zero) = true ↔ ¬0 ≤ x := by
  change (x.isNaN || decide (x < Float.ofNat 0)) = true ↔ ¬Float.ofNat 0 ≤ x
  rw [Bool.or_eq_true, decide_eq_true_eq]
  cases isNaN : x.isNaN with
  | true =>
      refine iff_of_true (.inl rfl) fun nonneg => ?_
      rw [(notNaN_of_le nonneg).2] at isNaN
      cases isNaN
  | false => rw [not_le_iff_lt (isNaN_ofNat 0) isNaN, or_iff_right Bool.false_ne_true]

theorem isFinite_of_between {low high : Float} (lowFinite : low.isFinite = true)
    (highFinite : high.isFinite = true) (above : low ≤ x) (below : x ≤ high) :
    x.isFinite = true := by
  obtain ⟨lowNotNaN, notNaN⟩ := notNaN_of_le above
  have highNotNaN := (notNaN_of_le below).2
  rw [le_iff_extendedValue_le lowNotNaN notNaN, extendedValue_of_isFinite lowFinite] at above
  rw [le_iff_extendedValue_le notNaN highNotNaN, extendedValue_of_isFinite highFinite] at below
  have lowLimit := (abs_lt.mp (abs_exactValue_lt lowFinite)).1
  have highLimit := (abs_lt.mp (abs_exactValue_lt highFinite)).2
  rcases finite_or_infinity notNaN with isFinite | ⟨sign, form⟩
  · exact isFinite
  · rw [extendedValue_of_infinity form] at above below
    cases sign with
    | positive =>
        rw [Unpacked.unit, one_mul] at below
        exact absurd highLimit (not_lt.mpr below)
    | negative =>
        rw [Unpacked.unit, neg_one_mul] at above
        exact absurd lowLimit (not_lt.mpr above)

theorem toNat_lt {n : ℕ} (small : n < 2 ^ 53) (nonneg : 0 ≤ x) (below : ¬Float.ofNat n ≤ x) :
    x.isFinite = true ∧ (Whole.toNat x : ℤ) = ⌊exactValue x⌋ ∧ Whole.toNat x < n := by
  obtain ⟨zeroFinite, isZero⟩ := ofNat_exact (n := 0) (by norm_num)
  obtain ⟨boundFinite, isBound⟩ := ofNat_exact small
  have less := (not_le_iff_lt (isNaN_ofNat n) (notNaN_of_le nonneg).2).mp below
  have isFinite := isFinite_of_between zeroFinite boundFinite nonneg
    (le_iff_lt_or_beq.mpr (.inl less))
  have value_nonneg := (le_iff_exactValue_le zeroFinite isFinite).mp nonneg
  rw [isZero, Nat.cast_zero] at value_nonneg
  have value_lt := (lt_iff_exactValue_lt isFinite boundFinite).mp less
  rw [isBound] at value_lt
  have isFloor := toNat_eq value_nonneg
  have floor_lt : ⌊exactValue x⌋ < (n : ℤ) := Int.floor_lt.mpr (by exact_mod_cast value_lt)
  exact ⟨isFinite, isFloor, by omega⟩

end

/-! ### Counts -/

variable {scale : LinearScale Float} {step height fraction : Float}

def wholeSteps (scale : LinearScale Float) (step height : Float) : Float :=
  Whole.floor (height / (scale.factor * step))

theorem countForStep_eq : countForStep scale step height =
    if 0 < step then
      if Float.ofNat maxTicCount ≤ wholeSteps scale step height then
        .error (.tooManyTics step maxTicCount)
      else .ok (if 0 ≤ wholeSteps scale step height then
        Whole.toNat (wholeSteps scale step height) + 1 else 0)
    else .ok 0 := by
  unfold countForStep
  by_cases positive : 0 < step
  · rw [if_neg fun low => not_positive_iff.mp low positive, if_pos positive]
    change (if PlotNumber.isNaN (wholeSteps scale step height) || PlotNumber.less
      (wholeSteps scale step height) PlotNumber.zero then Except.ok 0 else if PlotNumber.lessOrEqual
      (Float.ofNat maxTicCount) (wholeSteps scale step height) then _ else _) = _
    by_cases nonneg : 0 ≤ wholeSteps scale step height
    · rw [if_neg fun low => not_nonnegative_iff.mp low nonneg, if_pos nonneg]
      exact if_congr lessOrEqual_iff rfl rfl
    · -- what is below zero is below the limit, too
      have below : ¬Float.ofNat maxTicCount ≤ wholeSteps scale step height := by
        intro above
        apply nonneg
        have notNaN := notNaN_of_le above
        rw [le_iff_extendedValue_le notNaN.1 notNaN.2] at above
        refine (le_iff_extendedValue_le (isNaN_ofNat 0) notNaN.2).mpr (le_trans ?_ above)
        rw [(roundsTo_ofNat 0).extendedValue_eq, (roundsTo_ofNat maxTicCount).extendedValue_eq]
        exact clamped_natCast_mono (Nat.zero_le _)
      rw [if_pos (not_nonnegative_iff.mpr nonneg), if_neg below, if_neg nonneg]
  · rw [if_pos (not_positive_iff.mpr positive), if_neg positive]

/-- More tics than there may be: so many are asked for, or they follow from a step that fits into
the height as often as there may be tics. -/
def TicSettings.Exceeds (scale : LinearScale Float) (height : Float) : TicSettings Float → Prop
  | ⟨_, some count⟩ => maxTicCount < count
  | ⟨some step, none⟩ => 0 < step ∧ Float.ofNat maxTicCount ≤ wholeSteps scale step height
  | ⟨none, none⟩ => False

instance (scale : LinearScale Float) (height : Float) (settings : TicSettings Float) :
    Decidable (settings.Exceeds scale height) :=
  match settings with
  | ⟨_, some _⟩ => inferInstanceAs (Decidable (_ < _))
  | ⟨some _, none⟩ => inferInstanceAs (Decidable (_ ∧ _))
  | ⟨none, none⟩ => inferInstanceAs (Decidable False)

/-- Nothing is lost when the whole steps are cut down to a natural number. -/
theorem countForStep_exact (positive : 0 < step)
    (few : ¬Float.ofNat maxTicCount ≤ wholeSteps scale step height)
    (nonneg : 0 ≤ wholeSteps scale step height) :
    ∃ count, countForStep scale step height = .ok count ∧ count ≤ maxTicCount ∧
      (count : ℤ) = ⌊exactValue (height / (scale.factor * step))⌋ + 1 := by
  obtain ⟨isFinite, isFloor, small⟩ := toNat_lt (by decide) nonneg few
  have floored := (floor_exact (isFinite_of_floor isFinite)).2
  refine ⟨Whole.toNat (wholeSteps scale step height) + 1, ?_, small, ?_⟩
  · rw [countForStep_eq, if_pos positive, if_neg few, if_pos nonneg]
  · rw [Nat.cast_add_one, isFloor, wholeSteps, floored, Int.floor_intCast]

theorem countForStep_cases (scale : LinearScale Float) (step height : Float) :
    (0 < step ∧ Float.ofNat maxTicCount ≤ wholeSteps scale step height) ∧
        countForStep scale step height = .error (.tooManyTics step maxTicCount) ∨
      ¬(0 < step ∧ Float.ofNat maxTicCount ≤ wholeSteps scale step height) ∧
        ∃ count, countForStep scale step height = .ok count ∧ count ≤ maxTicCount := by
  by_cases positive : 0 < step
  · rw [and_iff_right positive]
    by_cases many : Float.ofNat maxTicCount ≤ wholeSteps scale step height
    · exact .inl ⟨many, by rw [countForStep_eq, if_pos positive, if_pos many]⟩
    · refine .inr ⟨many, ?_⟩
      by_cases nonneg : 0 ≤ wholeSteps scale step height
      · obtain ⟨count, counted, small, _⟩ := countForStep_exact positive many nonneg
        exact ⟨count, counted, small⟩
      · refine ⟨0, ?_, Nat.zero_le _⟩
        rw [countForStep_eq, if_pos positive, if_neg many, if_neg nonneg]
  · refine .inr ⟨fun both => positive both.1, 0, ?_, Nat.zero_le _⟩
    rw [countForStep_eq, if_neg positive]

/-- The last step that is accepted leads to the largest count that is. -/
example : countForStep ⟨0, 1, 1, 0⟩ (1 : Float) 999 = .ok 1000 ∧
    countForStep ⟨0, 1, 1, 0⟩ (1 : Float) 1000 = .error (.tooManyTics 1 1000) := by decide +kernel

theorem resolveTics_of_count (step? : Option Float) (count : Nat) :
    resolveTics scale ⟨step?, some count⟩ height fraction =
      if maxTicCount < count then
        .error (.tooManyTics (step?.getD (stepForCount scale count fraction)) maxTicCount)
      else .ok (step?.getD (stepForCount scale count fraction), count) := by
  cases step? with
  | none => rfl
  | some step => rfl

theorem resolveTics_of_step : resolveTics scale ⟨some step, none⟩ height fraction =
    (do let count ← countForStep scale step height
        if maxTicCount < count then .error (.tooManyTics step maxTicCount)
        else .ok (step, count)) := by
  unfold resolveTics
  dsimp only
  cases countForStep scale step height with
  | error cause => rfl
  | ok count => rfl

/-- A step and a count are refused by one of two checks, and both keep to one limit. -/
theorem resolveTics_cases (scale : LinearScale Float) (settings : TicSettings Float)
    (height fraction : Float) :
    settings.Exceeds scale height ∧
        (∃ step, resolveTics scale settings height fraction =
          .error (.tooManyTics step maxTicCount)) ∨
      ¬settings.Exceeds scale height ∧ ∃ step count,
        resolveTics scale settings height fraction = .ok (step, count) ∧ count ≤ maxTicCount := by
  have ofCount (step? : Option Float) (count : Nat) :
      maxTicCount < count ∧ (∃ step, resolveTics scale ⟨step?, some count⟩ height fraction =
          .error (.tooManyTics step maxTicCount)) ∨
        ¬maxTicCount < count ∧ ∃ step found,
          resolveTics scale ⟨step?, some count⟩ height fraction = .ok (step, found) ∧
            found ≤ maxTicCount := by
    rw [resolveTics_of_count]
    by_cases many : maxTicCount < count
    · rw [if_pos many]
      exact .inl ⟨many, _, rfl⟩
    · rw [if_neg many]
      exact .inr ⟨many, _, _, rfl, Nat.not_lt.mp many⟩
  rcases settings with ⟨step | step, count | count⟩
  · exact .inr ⟨id, _, _, rfl, by decide⟩
  · exact ofCount none count
  · rw [resolveTics_of_step]
    rcases countForStep_cases scale step height with ⟨many, refused⟩ | ⟨few, count, counted, small⟩
    · rw [refused]
      exact .inl ⟨many, step, rfl⟩
    · rw [counted]
      exact .inr ⟨few, step, count, if_neg (Nat.not_lt.mpr small), small⟩
  · exact ofCount (some step) count

theorem yTics_of_resolved {settings : TicSettings Float} {count : Nat}
    (resolved : resolveTics scale settings height fraction = .ok (step, count)) :
    yTics scale settings height fraction = .ok (if 0 < step ∧ step.isFinite = true then
      (List.range' 1 (count - 1)).map (ticAt scale step) else []) := by
  unfold yTics
  rw [resolved]
  change (if (PlotNumber.lessOrEqual step PlotNumber.zero || !step.isFinite) = true then
    Except.ok [] else Except.ok ((List.range' 1 (count - 1)).map (ticAt scale step))) = _
  by_cases isFinite : step.isFinite = true
  · have notNaN : PlotNumber.isNaN step = false := isNaN_of_isFinite isFinite
    have compared := not_positive_iff (x := step)
    rw [notNaN, Bool.false_or] at compared
    rw [isFinite, Bool.not_true, Bool.or_false]
    by_cases positive : 0 < step
    · rw [if_neg fun low => compared.mp low positive, if_pos ⟨positive, rfl⟩]
    · rw [if_pos (compared.mpr positive), if_neg fun both => positive both.1]
  · rw [Bool.eq_false_iff.mpr isFinite, Bool.not_false, Bool.or_true, if_pos rfl,
      if_neg fun both => Bool.false_ne_true both.2]

theorem yTics_of_exceeds {settings : TicSettings Float} (exceeds : settings.Exceeds scale height) :
    ∃ step, yTics scale settings height fraction = .error (.tooManyTics step maxTicCount) := by
  rcases resolveTics_cases scale settings height fraction with ⟨_, step, refused⟩ | ⟨fits, _⟩
  · refine ⟨step, ?_⟩
    unfold yTics
    rw [refused]
    rfl
  · exact absurd exceeds fits

theorem exceeds_of_yTics_error {settings : TicSettings Float} {cause : LayoutError Float}
    (refused : yTics scale settings height fraction = .error cause) :
    settings.Exceeds scale height := by
  rcases resolveTics_cases scale settings height fraction with
    ⟨exceeds, _⟩ | ⟨_, step, count, resolved, _⟩
  · exact exceeds
  · cases (yTics_of_resolved resolved).symm.trans refused

/-- The vertical axis has too many tics exactly when a count beyond the limit is asked for, or when
a step alone is and as many of it fit into the height. Otherwise a step and a count are settled on.
A step that is not positive and finite gives no tics, any other one as many as the count without the
first, one step apart. The count that follows from a step is one more than the whole steps in the
height. -/
theorem tics_bounded_and_exact (scale : LinearScale Float) (settings : TicSettings Float)
    (height fraction : Float) :
    ((∃ step limit, yTics scale settings height fraction = .error (.tooManyTics step limit)) ↔
      settings.Exceeds scale height) ∧
    (¬settings.Exceeds scale height → ∃ step count marks,
      resolveTics scale settings height fraction = .ok (step, count) ∧
      yTics scale settings height fraction = .ok marks ∧
      (¬(0 < step ∧ step.isFinite = true) → marks = []) ∧
      (0 < step ∧ step.isFinite = true →
        marks.length = max count 1 - 1 ∧ marks.length ≤ 999 ∧
        ∀ index, 1 ≤ index → index ≤ marks.length → marks[index - 1]? =
          some ⟨scale.low + Float.ofNat index * step,
            (Float.ofNat index * step - 0) * scale.factor⟩)) ∧
    ∀ step, settings = ⟨some step, none⟩ → ¬settings.Exceeds scale height → 0 < step →
      0 ≤ wholeSteps scale step height → ∃ count,
        resolveTics scale settings height fraction = .ok (step, count) ∧
        (count : ℤ) = ⌊exactValue (height / (scale.factor * step))⌋ + 1 := by
  refine ⟨⟨?_, ?_⟩, ?_, ?_⟩
  · rintro ⟨_, _, refused⟩
    exact exceeds_of_yTics_error refused
  · intro exceeds
    obtain ⟨step, refused⟩ := yTics_of_exceeds exceeds
    exact ⟨step, maxTicCount, refused⟩
  · intro fits
    obtain ⟨_, step, count, resolved, small⟩ :=
      (resolveTics_cases scale settings height fraction).resolve_left fun exceeds => fits exceeds.1
    refine ⟨step, count, _, resolved, yTics_of_resolved resolved, fun none => if_neg none, ?_⟩
    intro positive
    rw [if_pos positive, List.length_map, List.length_range']
    refine ⟨by omega, by unfold maxTicCount at small; omega, fun index first last => ?_⟩
    have place : 1 + 1 * (index - 1) = index := by omega
    rw [List.getElem?_map, List.getElem?_range' (by omega), Option.map_some, place]
    rfl
  · rintro step rfl fits positive nonneg
    obtain ⟨count, counted, small, isExact⟩ :=
      countForStep_exact positive (fun many => fits ⟨positive, many⟩) nonneg
    refine ⟨count, ?_, isExact⟩
    rw [resolveTics_of_step, counted]
    exact if_neg (Nat.not_lt.mpr small)

end TikzChart
