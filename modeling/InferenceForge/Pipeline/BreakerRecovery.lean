/-
# InferenceForge.Pipeline.BreakerRecovery — who decides that the upstream is back

`_on_success` and `_on_failure` look at the current state only. A call admitted
while the breaker was CLOSED may still be running when the breaker is HALF_OPEN,
and its end then closes or re-opens the breaker exactly as the probe's would
(`stale_call_recovers`).

`recovered_by_probe_iff` says when this cannot happen: the record of a run shows
only probes deciding HALF_OPEN if and only if no call that was started outside
the current HALF_OPEN period ended in it with a result the handlers record
(`Timely`, a condition on the steps of the run).
-/
import InferenceForge.Pipeline.BreakerAdmission

namespace InferenceForge.Pipeline.CircuitBreaker

open InferenceForge.Library

set_option autoImplicit false

/-- Whether a handler records this end: `_execute` passes over a
`CircuitBreakerOpenError`, the probe's `except Exception` does not. -/
def RecordedEnd (w : Config) (c : ℕ) (outcome : Outcome) : Prop :=
  outcome ≠ .openError ∨ w.calls c = .running .probe

/-- A step is timely unless it ends, in HALF_OPEN, a call whose `coro_fn` was
started before the current period. -/
def Timely (w : Config) : Event → Prop
  | .finish c outcome =>
      w.state = .halfOpen → RecordedEnd w c outcome → c ∈ startedInPeriod w.history
  | _ => True

section Steps

variable {p : Params} {clock : ℕ → ℚ} {w w' : Config} {c : ℕ}

theorem stateAfter_handled (recorded : stateAfter w.history = w.state) (handled : Handled c w w') :
    stateAfter w'.history = w'.state := by
  rcases handled.effect with ⟨state, _, history⟩ | ⟨_, state, _, history⟩ | ⟨state, _, _, history⟩
  · rw [history, state, recorded]
  · rw [history, state, stateAfter]
  · rw [history, state, stateAfter]

theorem stateAfter_maybeTransition (p : Params) (clock : ℕ → ℚ) (c : ℕ)
    (recorded : stateAfter w.history = w.state) :
    stateAfter (maybeTransition p clock c w).history = (maybeTransition p clock c w).state := by
  rcases maybeTransition_cases p clock c w with ⟨_, _, _, _, eq⟩ | ⟨_, eq⟩ | eq
  · rw [eq]
    rfl
  · rw [eq]
    exact recorded
  · rwa [eq]

theorem recovered_maybeTransition (p : Params) (clock : ℕ → ℚ) (c : ℕ)
    (recorded : stateAfter w.history = w.state) :
    RecoveredByProbe (maybeTransition p clock c w).history ↔ RecoveredByProbe w.history := by
  rcases maybeTransition_cases p clock c w with ⟨_, state, _, _, eq⟩ | ⟨_, eq⟩ | eq
  · rw [eq]
    simp [transition, RecoveredByProbe, recorded, state]
  · rw [eq]
  · rw [eq]

/-- The handlers of `c` right after its end is observed in `w`: the record stays
good exactly when the end was timely. `recorded` is whether they record it. -/
theorem recovered_handled {v : Config} {outcome : Outcome} {instant : ℚ} {recorded : Prop}
    (state_eq : stateAfter w.history = w.state) (same : v.state = w.state)
    (observed : v.history = .ended c outcome instant :: w.history) (handled : Handled c v w')
    (leaves : recorded → w'.state ≠ .halfOpen) (silent : ¬ recorded → w' = v) :
    RecoveredByProbe w'.history ↔
      RecoveredByProbe w.history ∧
        (w.state = .halfOpen → recorded → c ∈ startedInPeriod w.history) := by
  have after : stateAfter v.history = w.state := by rw [observed, stateAfter, state_eq]; simp
  have ended : RecoveredByProbe v.history ↔ RecoveredByProbe w.history := by
    rw [observed, RecoveredByProbe]
    simp
  have decided : (∃ o t before, v.history = .ended c o t :: before ∧ c ∈ startedInPeriod before) ↔
      c ∈ startedInPeriod w.history := by
    simp [observed]
  rcases handled.effect with ⟨state, _, history⟩ | ⟨before, _, _, history⟩ | ⟨_, _, _, history⟩
  · rw [history, ended, iff_self_and]
    intro _ halfOpen seen
    exact absurd (state.trans (same.trans halfOpen)) (leaves seen)
  · have seen : recorded := by
      by_contra unseen
      have := congrArg List.length (history.symm.trans (congrArg Config.history (silent unseen)))
      simp at this
    rw [history, RecoveredByProbe, after, decided, ended, and_comm]
    simp [seen]
  · have seen : recorded := by
      by_contra unseen
      have := congrArg List.length (history.symm.trans (congrArg Config.history (silent unseen)))
      simp at this
    rw [history, RecoveredByProbe, after, decided, ended, and_comm]
    simp [seen]

/-- What an event adds to the record besides the end of a call: the state stays
the latest target and no transition out of HALF_OPEN is made. -/
def Plain (w w' : Config) : Prop :=
  stateAfter w'.history = w'.state ∧ (RecoveredByProbe w'.history ↔ RecoveredByProbe w.history)

theorem plain_acquired (recorded : stateAfter w.history = w.state) :
    Plain w (acquired clock c w) := by
  rcases acquired_cases clock c w with ⟨_, eq⟩ | ⟨_, eq⟩ | ⟨_, eq⟩ <;> rw [eq] <;>
    exact ⟨recorded, Iff.rfl⟩

theorem plain_enter (recorded : stateAfter w.history = w.state) :
    Plain w (enter p clock c w) := by
  have entered : stateAfter (w.observe (.entered c)).history = (w.observe (.entered c)).state :=
    recorded
  have moved := stateAfter_maybeTransition p clock c entered
  have kept := recovered_maybeTransition p clock c entered
  simp only [enter]
  generalize maybeTransition p clock c (w.observe (.entered c)) = v at moved kept
  split
  · exact ⟨moved, kept⟩
  · split
    · exact ⟨(plain_acquired moved).1, (plain_acquired moved).2.trans kept⟩
    · exact ⟨moved, kept⟩
  · exact ⟨moved, kept⟩

theorem plain_abandon (recorded : stateAfter w.history = w.state)
    (stepped : abandon c w = some w') : Plain w w' := by
  unfold abandon at stepped
  split at stepped <;> cases stepped <;> exact ⟨recorded, Iff.rfl⟩

theorem conclude_recovered (recorded : stateAfter w.history = w.state) (mode : Mode)
    (outcome : Outcome) (running : w.calls c = .running mode) :
    stateAfter (conclude p clock c mode outcome w).history = (conclude p clock c mode outcome w).state ∧
      (RecoveredByProbe (conclude p clock c mode outcome w).history ↔
        RecoveredByProbe w.history ∧ Timely w (.finish c outcome)) := by
  let v := (w.setPhase c .finished).observe (.ended c outcome (clock w.ticks))
  have executed := execute_handled p clock c v outcome
  have probed := probe_handled p clock c v outcome
  -- outside the probe only a `CircuitBreakerOpenError` goes unrecorded
  have plain : mode ≠ .probe → (RecoveredByProbe (execute p clock c outcome v).history ↔
      RecoveredByProbe w.history ∧ Timely w (.finish c outcome)) := by
    intro unprobed
    refine recovered_handled (v := v) recorded rfl rfl executed ?_ ?_
    · rintro (seen | probing)
      · exact execute_leaves p clock c v outcome seen
      · simp [running, unprobed] at probing
    · intro unseen
      have silent : outcome = .openError := by
        by_contra ne
        exact unseen (.inl ne)
      subst silent
      rfl
  cases mode with
  | direct => exact ⟨stateAfter_handled (w := v) recorded executed, plain (by decide)⟩
  | resumed =>
      have after := stateAfter_handled (w := v) recorded executed
      exact ⟨after, plain (by decide)⟩
  | probe =>
      have after := stateAfter_handled (w := v) recorded probed
      have leaves : RecordedEnd w c outcome → (probe p clock c outcome v).state ≠ .halfOpen :=
        fun _ => probe_leaves p clock c v outcome
      have exactly := recovered_handled (v := v) recorded rfl rfl probed leaves
        fun unseen => absurd (.inr running) unseen
      exact ⟨after, exactly⟩

/-- One event keeps the state recorded and extends the record by a good step
exactly when it is timely. -/
theorem step_recovered (recorded : stateAfter w.history = w.state) {e : Event}
    (stepped : step p clock w e = some w') :
    stateAfter w'.history = w'.state ∧
      (RecoveredByProbe w'.history ↔ RecoveredByProbe w.history ∧ Timely w e) := by
  have untimed : ∀ {e : Event}, (∀ c o, e ≠ .finish c o) → Plain w w' →
      stateAfter w'.history = w'.state ∧
        (RecoveredByProbe w'.history ↔ RecoveredByProbe w.history ∧ Timely w e) := by
    rintro e other ⟨state, record⟩
    refine ⟨state, record.trans ?_⟩
    cases e with
    | finish c o => exact absurd rfl (other c o)
    | _ => simp [Timely]
  cases e with
  | call c =>
      simp only [step, Option.ite_none_right_eq_some, Option.some.injEq] at stepped
      obtain ⟨_, rfl⟩ := stepped
      exact untimed (by simp) (plain_enter recorded)
  | resume c =>
      simp only [step, Option.ite_none_right_eq_some, Option.some.injEq] at stepped
      obtain ⟨_, rfl⟩ := stepped
      exact untimed (by simp) (plain_acquired (w := { w with waiters := w.waiters.tail }) recorded)
  | cancel c => exact untimed (by simp) (plain_abandon recorded stepped)
  | finish c outcome =>
      simp only [step] at stepped
      split at stepped
      · next mode running =>
          cases stepped
          exact conclude_recovered recorded mode outcome running
      · cases stepped

end Steps

/-! ## Every run -/

/-- **Only the probe decides recovery, exactly when no stale call interferes.**
For every interleaving, cancellations included, and every clock. -/
theorem recovered_by_probe_iff (p : Params) (clock : ℕ → ℚ) (es : List Event) (w : Config)
    (ran : exec (step p clock) (init clock) es = some w) :
    RecoveredByProbe w.history ↔ Along (step p clock) Timely (init clock) es := by
  have keeps : ∀ v e t, stateAfter v.history = v.state → step p clock v e = some t →
      stateAfter t.history = t.state :=
    fun _ _ _ recorded stepped => (step_recovered recorded stepped).1
  have exact_step : ∀ v e t, stateAfter v.history = v.state → step p clock v e = some t →
      (RecoveredByProbe t.history ↔ RecoveredByProbe v.history ∧ Timely v e) :=
    fun _ _ _ recorded stepped => (step_recovered recorded stepped).2
  rw [exec_iff_along keeps exact_step es (init clock) w rfl ran]
  exact and_iff_right trivial

/-- Call 0 succeeds, call 1 fails and opens the breaker, call 2 is the probe. -/
def probeRun : List Event :=
  [.call 0, .finish 0 .success, .call 1, .finish 1 .exception, .call 2, .finish 2 .success]

/-- Satisfiable pole: a run in which the probe closes the breaker. -/
theorem recovered_by_probe_iff_probeRun :
    ∃ w, exec (step ⟨1, 20, 30⟩ lateClock) (init lateClock) probeRun = some w ∧
      RecoveredByProbe w.history := by
  have enabled : (exec (step ⟨1, 20, 30⟩ lateClock) (init lateClock) probeRun).isSome := by
    decide +kernel
  obtain ⟨w, ran⟩ := Option.isSome_iff_exists.mp enabled
  refine ⟨w, ran, (recovered_by_probe_iff _ _ probeRun w ran).mpr ?_⟩
  simp [Along, Timely, probeRun, step, init, enter, Config.observe, maybeTransition, start,
    conclude, Config.setPhase, execute, onFailure, evictOldFailures, transition, onSuccess,
    acquired, lateClock, startedInPeriod]

/-! ## The stale call -/

/-- Refuting pole: with one failure to open, a window of 20 s and a timeout of
30 s, a call of the first CLOSED period closes the breaker under a running probe. -/
theorem stale_call_recovers :
    ¬ ∀ (p : Params) (clock : ℕ → ℚ), Monotone clock → ∀ (es : List Event) (w : Config),
      exec (step p clock) (init clock) es = some w → RecoveredByProbe w.history := by
  intro claim
  have := claim ⟨1, 20, 30⟩ lateClock lateClock_monotone staleRun
  simp [staleRun, exec, step, init, enter, Config.observe, maybeTransition, start, conclude,
    Config.setPhase, execute, onFailure, evictOldFailures, transition, onSuccess, acquired,
    lateClock, RecoveredByProbe, stateAfter, startedInPeriod] at this

end InferenceForge.Pipeline.CircuitBreaker
