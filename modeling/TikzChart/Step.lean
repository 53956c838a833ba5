/-!
Steps: computations that change a state and may fail. A run gives the outcome together with the
state that it leaves behind, so that what a failed step has already done can be seen.
-/

set_option autoImplicit false

namespace TikzChart

/-- A step that changes a state of type `σ` and may fail with a cause of type `ε`. -/
abbrev Step (ε σ α : Type) := ExceptT ε (StateM σ) α

namespace Step

variable {ε σ α β : Type}

/-- A step that only reports an outcome. -/
def ofExcept (outcome : Except ε α) : Step ε σ α := ExceptT.mk (pure outcome)

/-- The outcome of a step together with the state that it leaves behind. -/
def runOn (step : Step ε σ α) (state : σ) : Except ε α × σ :=
  (ExceptT.run step).run state

/-- The state after a step, or the cause for which the step failed. -/
def resultOn (step : Step ε σ Unit) (state : σ) : Except ε σ :=
  match step.runOn state with
  | (.ok _, after) => .ok after
  | (.error cause, _) => .error cause

/-- The state after steps that are taken one after the other, whether they succeed or not. -/
def stateAfter (steps : List (Step ε σ Unit)) (state : σ) : σ :=
  steps.foldl (fun state step => (step.runOn state).2) state

/-! ### Runs of composed steps -/

@[simp] theorem runOn_pure (value : α) (state : σ) :
    (pure value : Step ε σ α).runOn state = (.ok value, state) := rfl

@[simp] theorem runOn_throw (cause : ε) (state : σ) :
    (throw cause : Step ε σ α).runOn state = (.error cause, state) := rfl

@[simp] theorem runOn_get (state : σ) :
    (get : Step ε σ σ).runOn state = (.ok state, state) := rfl

@[simp] theorem runOn_set (state after : σ) :
    (set after : Step ε σ PUnit).runOn state = (.ok ⟨⟩, after) := rfl

@[simp] theorem runOn_modify (change : σ → σ) (state : σ) :
    (modify change : Step ε σ PUnit).runOn state = (.ok ⟨⟩, change state) := rfl

@[simp] theorem runOn_ofExcept (outcome : Except ε α) (state : σ) :
    (ofExcept outcome : Step ε σ α).runOn state = (outcome, state) := rfl

theorem runOn_bind (step : Step ε σ α) (next : α → Step ε σ β) (state : σ) :
    (step >>= next).runOn state =
      match step.runOn state with
      | (.ok value, after) => (next value).runOn after
      | (.error cause, after) => (.error cause, after) := by
  unfold runOn ExceptT.run StateT.run
  simp only [bind, ExceptT.bind, ExceptT.mk, StateT.bind]
  rcases step state with ⟨outcome, after⟩
  cases outcome with
  | error cause => rfl
  | ok value => rfl

theorem runOn_bind_ok {step : Step ε σ α} {state after : σ} {value : α}
    (ran : step.runOn state = (.ok value, after)) (next : α → Step ε σ β) :
    (step >>= next).runOn state = (next value).runOn after := by
  rw [runOn_bind, ran]

theorem runOn_bind_error {step : Step ε σ α} {state after : σ} {cause : ε}
    (ran : step.runOn state = (.error cause, after)) (next : α → Step ε σ β) :
    (step >>= next).runOn state = (.error cause, after) := by
  rw [runOn_bind, ran]

/-- A step of which the result is dropped. -/
theorem runOn_discard (step : Step ε σ α) (state : σ) :
    (do let _ ← step : Step ε σ Unit).runOn state =
      ((step.runOn state).1.map fun _ => (), (step.runOn state).2) := by
  rw [runOn_bind]
  rcases step.runOn state with ⟨outcome, after⟩
  cases outcome with
  | error cause => rfl
  | ok value => rfl

/-- Two steps fail when the first one does or when the second one does after it. -/
theorem error_of_bind {step : Step ε σ α} {next : α → Step ε σ β} {state : σ} {cause : ε}
    (failed : ((step >>= next).runOn state).1 = .error cause) :
    (step.runOn state).1 = .error cause ∨
      ∃ value after, step.runOn state = (.ok value, after) ∧
        ((next value).runOn after).1 = .error cause := by
  rw [runOn_bind] at failed
  rcases ran : step.runOn state with ⟨outcome, after⟩
  rw [ran] at failed
  cases outcome with
  | error found => exact .inl (congrArg Except.error (Except.error.inj failed))
  | ok value => exact .inr ⟨value, after, rfl, failed⟩

/-- Two steps succeed when the first one does and the second one does after it. -/
theorem ok_of_bind {step : Step ε σ α} {next : α → Step ε σ β} {state after : σ} {result : β}
    (ran : (step >>= next).runOn state = (.ok result, after)) :
    ∃ value between, step.runOn state = (.ok value, between) ∧
      (next value).runOn between = (.ok result, after) := by
  rw [runOn_bind] at ran
  rcases first : step.runOn state with ⟨outcome, between⟩
  rw [first] at ran
  cases outcome with
  | error cause => cases ran
  | ok value => exact ⟨value, between, rfl, ran⟩

/-- A run of which the outcome is known. -/
theorem runOn_of_outcome {step : Step ε σ α} {state : σ} {outcome : Except ε α}
    (ended : (step.runOn state).1 = outcome) :
    step.runOn state = (outcome, (step.runOn state).2) := by
  rw [← ended]

/-! ### Runs of many steps -/

/-- What every step keeps holds after any number of steps. -/
theorem stateAfter_induction {invariant : σ → Prop} {steps : List (Step ε σ Unit)} {state : σ}
    (start : invariant state)
    (kept : ∀ step ∈ steps, ∀ state, invariant state → invariant (step.runOn state).2) :
    invariant (stateAfter steps state) := by
  induction steps generalizing state with
  | nil => exact start
  | cons step steps ih =>
    have next : invariant (step.runOn state).2 := kept step List.mem_cons_self state start
    exact ih next fun step member => kept step (List.mem_cons_of_mem _ member)

end Step

end TikzChart
