/-
# InferenceForge.Pipeline.BreakerSteps — what one event of the breaker can do

Each helper of the breaker is described once, by what it leaves alone and by the
at most one transition it adds to the record. `Handled c w w'` is that
description for the handlers of a finished `coro_fn` (`execute_handled`,
`probe_handled`); the results about runs are derived from it and from
`maybeTransition_cases`, and never unfold a handler again.
-/
import InferenceForge.Pipeline.CircuitBreaker

namespace InferenceForge.Pipeline.CircuitBreaker

set_option autoImplicit false

/-! ## Transitions -/

section Frame

variable (p : Params) (clock : ℕ → ℚ) (c : ℕ) (w : Config)

@[simp] theorem transition_state (target : CBState) :
    (transition clock target c w).state = target := by cases target <;> rfl

@[simp] theorem transition_calls (target : CBState) :
    (transition clock target c w).calls = w.calls := by cases target <;> rfl

/-- `_maybe_transition` enters HALF_OPEN, or only reads the clock, or nothing. -/
theorem maybeTransition_cases :
    (∃ opened, w.state = .opened ∧ w.openedAt = some opened ∧
        opened + p.recoveryTimeout ≤ clock w.ticks ∧
        maybeTransition p clock c w = transition clock .halfOpen c { w with ticks := w.ticks + 1 }) ∨
      (w.state = .opened ∧ maybeTransition p clock c w = { w with ticks := w.ticks + 1 }) ∨
      maybeTransition p clock c w = w := by
  cases state : w.state with
  | closed => exact .inr (.inr (by simp only [maybeTransition, state]))
  | halfOpen => exact .inr (.inr (by simp only [maybeTransition, state]))
  | opened =>
      cases openedAt : w.openedAt with
      | none => exact .inr (.inr (by simp only [maybeTransition, state, openedAt]))
      | some opened =>
          by_cases due : p.recoveryTimeout ≤ clock w.ticks - opened
          · exact .inl ⟨opened, rfl, rfl, by linarith,
              by simp only [maybeTransition, state, openedAt, if_pos due]⟩
          · exact .inr (.inl ⟨rfl, by simp only [maybeTransition, state, openedAt, if_neg due]⟩)

theorem maybeTransition_calls : (maybeTransition p clock c w).calls = w.calls := by
  rcases maybeTransition_cases p clock c w with ⟨_, _, _, _, eq⟩ | ⟨_, eq⟩ | eq <;> simp [eq]

/-- Past the lock, the state decides between rejection, a plain start and the probe. -/
theorem acquired_cases :
    (w.state = .opened ∧ acquired clock c w = reject c { w with lock := none }) ∨
      (w.state = .closed ∧ acquired clock c w = start clock .resumed c { w with lock := some c }) ∨
      (w.state = .halfOpen ∧ acquired clock c w = start clock .probe c { w with lock := some c }) := by
  unfold acquired
  split
  · next h => exact .inl ⟨h, rfl⟩
  · next h => exact .inr (.inl ⟨h, rfl⟩)
  · next h => exact .inr (.inr ⟨h, rfl⟩)

end Frame

/-! ## The handlers of a finished call -/

/-- No transition between `w` and `w'`. -/
def Quiet (w w' : Config) : Prop :=
  w'.state = w.state ∧ w'.openedAt = w.openedAt ∧ w'.history = w.history

/-- `w'` is `w` after handlers run by `c`: lock, queue and calls are untouched,
and the record gained at most one transition, out of HALF_OPEN into CLOSED or
from anywhere into OPEN. -/
structure Handled (c : ℕ) (w w' : Config) : Prop where
  lock_eq : w'.lock = w.lock
  waiters_eq : w'.waiters = w.waiters
  calls_eq : w'.calls = w.calls
  ticks_le : w.ticks ≤ w'.ticks
  effect : Quiet w w' ∨
    (w.state = .halfOpen ∧ w'.state = .closed ∧
      ∃ instant, w'.history = .moved .closed instant c :: w.history) ∨
    (w'.state = .opened ∧ ∃ instant, w'.openedAt = some instant ∧
      w'.history = .moved .opened instant c :: w.history)

/-- Two handlers in a row, of which one makes no transition. -/
theorem Handled.trans {c : ℕ} {w w₁ w₂ : Config} (first : Handled c w w₁) (second : Handled c w₁ w₂)
    (quiet : Quiet w w₁ ∨ Quiet w₁ w₂) : Handled c w w₂ where
  lock_eq := second.lock_eq.trans first.lock_eq
  waiters_eq := second.waiters_eq.trans first.waiters_eq
  calls_eq := second.calls_eq.trans first.calls_eq
  ticks_le := first.ticks_le.trans second.ticks_le
  effect := by
    rcases quiet with ⟨state, openedAt, history⟩ | ⟨state, openedAt, history⟩
    · have := second.effect
      rwa [Quiet, state, openedAt, history] at this
    · have := first.effect
      rwa [Quiet, ← state, ← openedAt, ← history] at this

section Handlers

variable (p : Params) (clock : ℕ → ℚ) (c : ℕ) (w : Config)

theorem Handled.refl : Handled c w w :=
  ⟨rfl, rfl, rfl, le_rfl, .inl ⟨rfl, rfl, rfl⟩⟩

/-- `_on_success` does nothing, or closes a half-open breaker. -/
theorem onSuccess_handled :
    Handled c w (onSuccess clock c w) ∧ (onSuccess clock c w).state ≠ .halfOpen := by
  cases state : w.state with
  | halfOpen =>
      simp only [onSuccess, state, transition]
      exact ⟨⟨rfl, rfl, rfl, by simp, .inr (.inl ⟨state, rfl, _, rfl⟩)⟩, by decide⟩
  | opened => simpa only [onSuccess, state] using ⟨Handled.refl c w, by simp⟩
  | closed => simpa only [onSuccess, state] using ⟨Handled.refl c w, by simp⟩

/-- `_on_failure` leaves the breaker open, or closed as it was. -/
theorem onFailure_handled :
    Handled c w (onFailure p clock c w) ∧
      ((onFailure p clock c w).state = .opened ∨
        (w.state = .closed ∧ (onFailure p clock c w).state = .closed)) := by
  cases state : w.state with
  | halfOpen =>
      simp only [onFailure, evictOldFailures, state, transition]
      exact ⟨⟨rfl, rfl, rfl, by simp; omega, .inr (.inr ⟨rfl, _, rfl, rfl⟩)⟩, .inl trivial⟩
  | opened =>
      simp only [onFailure, evictOldFailures, state]
      exact ⟨⟨rfl, rfl, rfl, by simp; omega, .inl ⟨state.symm, rfl, rfl⟩⟩, .inl trivial⟩
  | closed =>
      simp only [onFailure, evictOldFailures, state]
      split
      · exact ⟨⟨rfl, rfl, rfl, by simp [transition]; omega, .inr (.inr ⟨rfl, _, rfl, rfl⟩)⟩,
          .inl (by simp)⟩
      · exact ⟨⟨rfl, rfl, rfl, by simp; omega, .inl ⟨state.symm, rfl, rfl⟩⟩, .inr (by simp)⟩

theorem onFailure_leaves : (onFailure p clock c w).state ≠ .halfOpen := by
  rcases (onFailure_handled p clock c w).2 with opened | ⟨_, closed⟩
  · simp [opened]
  · simp [closed]

/-- In OPEN a failure is only recorded. -/
theorem onFailure_opened (opened : w.state = .opened) :
    ∃ stamps, onFailure p clock c w =
      { w with failureTimestamps := stamps, ticks := w.ticks + 2 } := by
  simp only [onFailure, evictOldFailures, opened]
  exact ⟨_, rfl⟩

theorem onSuccess_of_ne (ne : w.state ≠ .halfOpen) : onSuccess clock c w = w := by
  cases state : w.state with
  | halfOpen => exact absurd state ne
  | _ => simp only [onSuccess, state]

theorem execute_handled (outcome : Outcome) : Handled c w (execute p clock c outcome w) := by
  cases outcome with
  | success => exact (onSuccess_handled clock c w).1
  | openError => exact Handled.refl c w
  | exception => exact (onFailure_handled p clock c w).1

/-- An outcome that `_execute` records ends a HALF_OPEN period. -/
theorem execute_leaves (outcome : Outcome) (recorded : outcome ≠ .openError) :
    (execute p clock c outcome w).state ≠ .halfOpen := by
  cases outcome with
  | success => exact (onSuccess_handled clock c w).2
  | openError => exact absurd rfl recorded
  | exception => exact onFailure_leaves p clock c w

/-- The double `_on_failure` of a failed probe makes at most one transition. -/
theorem onFailure_twice : Handled c w (onFailure p clock c (onFailure p clock c w)) := by
  have second := (onFailure_handled p clock c (onFailure p clock c w)).1
  obtain ⟨first, settled⟩ := onFailure_handled p clock c w
  refine first.trans second ?_
  rcases settled with opened | ⟨before, after⟩
  · obtain ⟨stamps, again⟩ := onFailure_opened p clock c _ opened
    exact .inr (by rw [again]; exact ⟨rfl, rfl, rfl⟩)
  · rcases first.effect with quiet | ⟨halfOpen, _⟩ | ⟨opened, _⟩
    · exact .inl quiet
    · simp [before] at halfOpen
    · simp [after] at opened

theorem probe_handled (outcome : Outcome) : Handled c w (probe p clock c outcome w) := by
  cases outcome with
  | success =>
      have first := onSuccess_handled clock c w
      simp only [probe, execute]
      rw [onSuccess_of_ne clock c _ first.2]
      exact first.1
  | openError => exact (onFailure_handled p clock c w).1
  | exception => exact onFailure_twice p clock c w

/-- A probe never leaves the breaker half-open, whatever its outcome. -/
theorem probe_leaves (outcome : Outcome) : (probe p clock c outcome w).state ≠ .halfOpen := by
  cases outcome with
  | success => exact (onSuccess_handled clock c _).2
  | openError => exact onFailure_leaves p clock c _
  | exception => exact onFailure_leaves p clock c _

end Handlers

end InferenceForge.Pipeline.CircuitBreaker
