import Mathlib.Data.List.Forall2

/-!
Taking checks apart. A check that consists of several checks in a row succeeds when all of them do,
and fails with the cause of the first one that fails.
-/

set_option autoImplicit false

namespace TikzChart.Outcome

variable {ε δ α β : Type}

theorem bind_eq_ok_iff {first : Except ε α} {next : α → Except ε β} {result : β} :
    first >>= next = .ok result ↔ ∃ value, first = .ok value ∧ next value = .ok result := by
  cases first with
  | error cause =>
      constructor
      · intro impossible
        cases impossible
      · rintro ⟨value, impossible, _⟩
        cases impossible
  | ok value =>
      constructor
      · intro succeeded
        exact ⟨value, rfl, succeeded⟩
      · rintro ⟨_, same, succeeded⟩
        cases same
        exact succeeded

theorem bind_eq_error_iff {first : Except ε α} {next : α → Except ε β} {cause : ε} :
    first >>= next = .error cause ↔
      first = .error cause ∨ ∃ value, first = .ok value ∧ next value = .error cause := by
  cases first with
  | error found =>
      constructor
      · intro failed
        exact .inl (congrArg Except.error (Except.error.inj failed))
      · rintro (same | ⟨value, impossible, _⟩)
        · exact congrArg Except.error (Except.error.inj same)
        · cases impossible
  | ok value =>
      constructor
      · intro failed
        exact .inr ⟨value, rfl, failed⟩
      · rintro (impossible | ⟨_, same, failed⟩)
        · cases impossible
        · cases same
          exact failed

theorem mapError_eq_ok_iff {outcome : Except ε α} {rename : ε → δ} {value : α} :
    outcome.mapError rename = .ok value ↔ outcome = .ok value := by
  cases outcome with
  | error cause =>
      constructor
      · intro impossible
        cases impossible
      · intro impossible
        cases impossible
  | ok found =>
      constructor
      · intro same
        exact congrArg Except.ok (Except.ok.inj same)
      · intro same
        exact congrArg Except.ok (Except.ok.inj same)

theorem mapError_eq_error_iff {outcome : Except ε α} {rename : ε → δ} {cause : δ} :
    outcome.mapError rename = .error cause ↔
      ∃ found, outcome = .error found ∧ rename found = cause := by
  cases outcome with
  | error found =>
      constructor
      · intro same
        exact ⟨found, rfl, Except.error.inj same⟩
      · rintro ⟨_, same, renamed⟩
        cases same
        exact congrArg Except.error renamed
  | ok value =>
      constructor
      · intro impossible
        cases impossible
      · rintro ⟨_, impossible, _⟩
        cases impossible

theorem map_eq_error_iff {outcome : Except ε α} {change : α → β} {cause : ε} :
    outcome.map change = .error cause ↔ outcome = .error cause := by
  cases outcome with
  | error found =>
      constructor
      · intro same
        exact congrArg Except.error (Except.error.inj same)
      · intro same
        exact congrArg Except.error (Except.error.inj same)
  | ok value =>
      constructor
      · intro impossible
        cases impossible
      · intro impossible
        cases impossible

theorem map_eq_ok_iff {outcome : Except ε α} {change : α → β} {result : β} :
    outcome.map change = .ok result ↔ ∃ value, outcome = .ok value ∧ change value = result := by
  cases outcome with
  | error cause =>
      constructor
      · intro impossible
        cases impossible
      · rintro ⟨_, impossible, _⟩
        cases impossible
  | ok value =>
      constructor
      · intro same
        exact ⟨value, rfl, Except.ok.inj same⟩
      · rintro ⟨_, same, changed⟩
        cases same
        exact congrArg Except.ok changed

theorem mapError_bind {first : Except ε α} {next : α → Except ε β} {rename : ε → δ} :
    (first >>= next).mapError rename =
      first.mapError rename >>= fun value => (next value).mapError rename := by
  cases first with
  | error cause => rfl
  | ok value => rfl

theorem mapError_mapError {γ : Type} {outcome : Except ε α} {rename : ε → δ} {again : δ → γ} :
    (outcome.mapError rename).mapError again =
      outcome.mapError fun cause => again (rename cause) := by
  cases outcome with
  | error cause => rfl
  | ok value => rfl

theorem map_bind {first : Except ε α} {next : α → Except ε β} {γ : Type} {change : β → γ} :
    (first >>= next).map change = first >>= fun value => (next value).map change := by
  cases first with
  | error cause => rfl
  | ok value => rfl

/-! ### One check for each item -/

theorem mapM_eq_ok_iff {check : α → Except ε β} {items : List α} {results : List β} :
    items.mapM check = .ok results ↔
      List.Forall₂ (fun item result => check item = .ok result) items results := by
  induction items generalizing results with
  | nil =>
      rw [List.forall₂_nil_left_iff]
      exact ⟨fun same => (Except.ok.inj same).symm, fun same => same ▸ rfl⟩
  | cons item items ih =>
      rw [List.mapM_cons, List.forall₂_cons_left_iff]
      constructor
      · intro passed
        obtain ⟨first, here, passed⟩ := bind_eq_ok_iff.mp passed
        obtain ⟨rest, behind, same⟩ := bind_eq_ok_iff.mp passed
        exact ⟨first, rest, here, ih.mp behind, (Except.ok.inj same).symm⟩
      · rintro ⟨first, rest, here, behind, rfl⟩
        exact bind_eq_ok_iff.mpr ⟨first, here, bind_eq_ok_iff.mpr ⟨rest, ih.mpr behind, rfl⟩⟩

/-- The first item that fails its check decides. -/
theorem mapM_eq_error_iff {check : α → Except ε β} {items : List α} {cause : ε} :
    items.mapM check = .error cause ↔
      ∃ before item behind, items = before ++ item :: behind ∧
        (∀ other ∈ before, ∃ result, check other = .ok result) ∧ check item = .error cause := by
  induction items with
  | nil =>
      refine iff_of_false (fun impossible => nomatch impossible) ?_
      rintro ⟨before, item, behind, split, -⟩
      exact List.append_ne_nil_of_right_ne_nil before (List.cons_ne_nil item behind) split.symm
  | cons item items ih =>
      rw [List.mapM_cons]
      constructor
      · intro failed
        rcases bind_eq_error_iff.mp failed with here | ⟨first, passed, failed⟩
        · exact ⟨[], item, items, rfl, List.forall_mem_nil _, here⟩
        · rcases bind_eq_error_iff.mp failed with there | ⟨_, _, impossible⟩
          · obtain ⟨before, failing, behind, rfl, passedBefore, here⟩ := ih.mp there
            exact ⟨item :: before, failing, behind, rfl,
              List.forall_mem_cons.mpr ⟨⟨first, passed⟩, passedBefore⟩, here⟩
          · cases impossible
      · rintro ⟨before, failing, behind, split, passed, failed⟩
        cases before with
        | nil =>
            obtain ⟨rfl, rfl⟩ := List.cons.inj split
            exact bind_eq_error_iff.mpr (.inl failed)
        | cons other before =>
            obtain ⟨rfl, rfl⟩ := List.cons.inj split
            obtain ⟨⟨first, here⟩, passedRest⟩ := List.forall_mem_cons.mp passed
            have there := ih.mpr ⟨before, failing, behind, rfl, passedRest, failed⟩
            exact bind_eq_error_iff.mpr (.inr ⟨first, here, bind_eq_error_iff.mpr (.inl there)⟩)

/-- Whether a check passes does not depend on what is returned behind it. -/
theorem map_bind_pure {check : Except ε Unit} {value : α} :
    (check >>= fun _ => pure value).map (fun _ => ()) = check := by
  cases check with
  | error cause => rfl
  | ok _ => rfl

variable {condition : Prop} [Decidable condition]

/-- A check in front lets everything behind it pass when its condition does not hold. -/
theorem unless_eq_ok_iff {cause : ε} {next : α → Except ε β} {rest : Except ε β} {result : β} :
    (if condition then (throw cause : Except ε α) >>= next else rest) = .ok result ↔
      ¬condition ∧ rest = .ok result := by
  by_cases holds : condition
  · rw [if_pos holds]
    constructor
    · intro impossible
      cases impossible
    · intro both
      exact absurd holds both.1
  · rw [if_neg holds, and_iff_right holds]

theorem unless_eq_error_iff {cause found : ε} {next : α → Except ε β} {rest : Except ε β} :
    (if condition then (throw cause : Except ε α) >>= next else rest) = .error found ↔
      condition ∧ cause = found ∨ ¬condition ∧ rest = .error found := by
  by_cases holds : condition
  · rw [if_pos holds]
    constructor
    · intro failed
      exact .inl ⟨holds, Except.error.inj failed⟩
    · rintro (⟨_, same⟩ | ⟨fails, _⟩)
      · exact congrArg Except.error same
      · exact absurd holds fails
  · rw [if_neg holds]
    constructor
    · intro failed
      exact .inr ⟨holds, failed⟩
    · rintro (⟨impossible, _⟩ | ⟨_, failed⟩)
      · exact absurd impossible holds
      · exact failed

end TikzChart.Outcome
