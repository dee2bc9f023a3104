/-
# InferenceForge.Pipeline.BreakerAdmission — when the breaker lets a call through

The invariant behind admission has two halves. `Recorded` ties the fields of the
breaker to the record: the state is the target of the latest transition, and
outside OPEN the recovery timeout has passed since the latest opening. `Exclusive`
ties the probe lock to the calls: whoever runs under the lock holds it, and in
HALF_OPEN whatever was started in the period is the probe that holds it now. A
free lock in HALF_OPEN therefore means that nothing was started in the period
yet, which is what a new probe needs.

`admission_safe` is the result over runs.
-/
import InferenceForge.Pipeline.BreakerSteps
import Mathlib.Tactic.NormNum

namespace InferenceForge.Pipeline.CircuitBreaker

open InferenceForge.Library

set_option autoImplicit false

/-- The fields of the breaker agree with the record. -/
structure Recorded (p : Params) (clock : ℕ → ℚ) (w : Config) : Prop where
  state_eq : stateAfter w.history = w.state
  opened_eq : w.state = .opened → w.openedAt = lastOpened w.history
  recovered : w.state ≠ .opened → ∀ opened ∈ lastOpened w.history,
    opened + p.recoveryTimeout ≤ clock w.ticks

/-- Who runs under the probe lock, and who was started in a HALF_OPEN period. -/
structure Exclusive (w : Config) : Prop where
  holder : ∀ c mode, w.calls c = .running mode → mode ≠ .direct → w.lock = some c
  probing : w.state = .halfOpen → ∀ c ∈ startedInPeriod w.history, w.calls c = .running .probe

structure Admitted (p : Params) (clock : ℕ → ℚ) (w : Config) : Prop where
  recorded : Recorded p clock w
  exclusive : Exclusive w
  safe : AdmissionSafe p w.history

section Keeps

variable {p : Params} {clock : ℕ → ℚ} {w w' : Config} {c : ℕ}

/-! ## The record -/

theorem Recorded.mono (monotone : Monotone clock) (recorded : Recorded p clock w)
    (quiet : Quiet w w') (ticks : w.ticks ≤ w'.ticks) : Recorded p clock w' := by
  obtain ⟨state, openedAt, history⟩ := quiet
  refine ⟨?_, ?_, ?_⟩
  · rw [history, state, recorded.state_eq]
  · rw [history, state, openedAt]
    exact recorded.opened_eq
  · rw [history, state]
    exact fun ne opened member => (recorded.recovered ne opened member).trans (monotone ticks)

theorem Recorded.observe (recorded : Recorded p clock w) (o : Observation)
    (unmoved : ∀ target instant by_, o ≠ .moved target instant by_) :
    Recorded p clock (w.observe o) := by
  obtain ⟨state, opened, recovered⟩ := recorded
  cases o with
  | moved target instant by_ => exact absurd rfl (unmoved target instant by_)
  | _ => exact ⟨state, opened, recovered⟩

theorem Recorded.handled (monotone : Monotone clock) (recorded : Recorded p clock w)
    (handled : Handled c w w') : Recorded p clock w' := by
  rcases handled.effect with quiet | ⟨before, after, instant, history⟩ | ⟨after, instant, at_, history⟩
  · exact recorded.mono monotone quiet handled.ticks_le
  · have ne : w.state ≠ .opened := by simp [before]
    refine ⟨by simp [history, after, stateAfter], by simp [after], fun _ opened member => ?_⟩
    rw [history, lastOpened] at member
    · exact (recorded.recovered ne opened member).trans (monotone handled.ticks_le)
    · simp
  · exact ⟨by simp [history, after, stateAfter], fun _ => by simp [history, at_, lastOpened],
      fun ne => absurd after ne⟩

theorem Recorded.maybeTransition (monotone : Monotone clock) (recorded : Recorded p clock w) :
    Recorded p clock (maybeTransition p clock c w) := by
  rcases maybeTransition_cases p clock c w with ⟨opened, state, openedAt, due, eq⟩ | ⟨_, eq⟩ | eq
  · rw [eq]
    refine ⟨rfl, fun h => by simp at h, fun _ last member => ?_⟩
    have latest : lastOpened w.history = some opened := by
      rw [← recorded.opened_eq state, openedAt]
    have same : opened = last := by simpa [transition, lastOpened, latest] using member
    have later : clock w.ticks ≤ clock (w.ticks + 2) := monotone (by omega)
    exact same ▸ due.trans later
  · rw [eq]
    exact recorded.mono monotone ⟨rfl, rfl, rfl⟩ (Nat.le_succ _)
  · rwa [eq]

/-! ## Starting and ending a call -/

/-- The record after a start, when the breaker is not open. -/
theorem Recorded.start (monotone : Monotone clock) (recorded : Recorded p clock w) (mode : Mode) :
    Recorded p clock (start clock mode c w) where
  state_eq := recorded.state_eq
  opened_eq := recorded.opened_eq
  recovered ne opened member :=
    (recorded.recovered ne opened member).trans (monotone (Nat.le_succ _))

theorem safe_start (recorded : Recorded p clock w) (safe : AdmissionSafe p w.history)
    (ne : w.state ≠ .opened) (first : w.state = .halfOpen → startedInPeriod w.history = [])
    (mode : Mode) : AdmissionSafe p (start clock mode c w).history := by
  refine ⟨⟨?_, recorded.recovered ne, ?_⟩, safe⟩
  · rwa [recorded.state_eq]
  · rwa [recorded.state_eq]

theorem safe_handled (safe : AdmissionSafe p w.history) (handled : Handled c w w') :
    AdmissionSafe p w'.history := by
  rcases handled.effect with ⟨_, _, history⟩ | ⟨_, _, _, history⟩ | ⟨_, _, _, history⟩ <;>
    rw [history] <;> exact safe

theorem Exclusive.setPhase (exclusive : Exclusive w) (c : ℕ) (phase : Phase)
    (idle : ∀ mode, phase ≠ .running mode) (unprobed : w.calls c ≠ .running .probe) :
    Exclusive (w.setPhase c phase) where
  holder c' mode running indirect := by
    by_cases same : c' = c
    · subst same
      exact absurd (by simpa [Config.setPhase] using running) (idle mode)
    · exact exclusive.holder c' mode (by simpa [Config.setPhase, same] using running) indirect
  probing halfOpen c' member := by
    have running := exclusive.probing halfOpen c' member
    have ne : c' ≠ c := by
      rintro rfl
      exact unprobed running
    simpa [Config.setPhase, ne] using running

/-- With the lock free, nothing was started in the HALF_OPEN period. -/
theorem Exclusive.unstarted (exclusive : Exclusive w) (free : w.lock = none)
    (halfOpen : w.state = .halfOpen) : startedInPeriod w.history = [] := by
  rw [List.eq_nil_iff_forall_not_mem]
  intro c member
  have held := exclusive.holder c .probe (exclusive.probing halfOpen c member) (by decide)
  simp [free] at held

theorem Exclusive.handled (exclusive : Exclusive w) (handled : Handled c w w') : Exclusive w' where
  holder c' mode running indirect := by
    rw [handled.calls_eq] at running
    rw [handled.lock_eq]
    exact exclusive.holder c' mode running indirect
  probing halfOpen c' member := by
    rcases handled.effect with ⟨state, _, history⟩ | ⟨_, state, _⟩ | ⟨state, _⟩
    · rw [handled.calls_eq]
      exact exclusive.probing (state ▸ halfOpen) c' (history ▸ member)
    · simp [state] at halfOpen
    · simp [state] at halfOpen

theorem Exclusive.maybeTransition (exclusive : Exclusive w) :
    Exclusive (maybeTransition p clock c w) := by
  rcases maybeTransition_cases p clock c w with ⟨_, _, _, _, eq⟩ | ⟨_, eq⟩ | eq
  · rw [eq]
    exact ⟨exclusive.holder, fun _ _ member => by simp [transition, startedInPeriod] at member⟩
  · rw [eq]
    exact ⟨exclusive.holder, exclusive.probing⟩
  · rwa [eq]

/-- Starting under the lock, with nobody else running under it. -/
theorem Exclusive.start_locked (exclusive : Exclusive w) (free : w.lock = none) (mode : Mode)
    (probe : w.state = .halfOpen → mode = .probe ∧ startedInPeriod w.history = []) :
    Exclusive (start clock mode c { w with lock := some c }) where
  holder c' mode' running indirect := by
    by_cases same : c' = c
    · simp [same, start]
    · have held := exclusive.holder c' mode' (by simpa [start, same] using running) indirect
      simp [free] at held
  probing halfOpen c' member := by
    obtain ⟨rfl, none_started⟩ := probe halfOpen
    have same : c' = c := by simpa [start, startedInPeriod, none_started] using member
    simp [start, same]

/-- The CLOSED path starts outside the lock, so it cannot disturb a probe. -/
theorem Exclusive.start_direct (exclusive : Exclusive w) (closed : w.state = .closed) :
    Exclusive (start clock .direct c w) where
  holder c' mode running indirect := by
    by_cases same : c' = c
    · subst same
      have eq : Mode.direct = mode := by simpa [start] using running
      exact absurd eq.symm indirect
    · exact exclusive.holder c' mode (by simpa [start, same] using running) indirect
  probing halfOpen := by
    have closed' : (start clock .direct c w).state = .closed := closed
    simp [closed'] at halfOpen

/-! ## One event -/

theorem Admitted.reject (admitted : Admitted p clock w) (unprobed : w.calls c ≠ .running .probe) :
    Admitted p clock (reject c w) where
  recorded := Recorded.observe (w := w.setPhase c .finished)
    ⟨admitted.recorded.state_eq, admitted.recorded.opened_eq, admitted.recorded.recovered⟩
    (.rejected c) (by simp)
  exclusive :=
    have exclusive := admitted.exclusive.setPhase c .finished (by simp) unprobed
    ⟨exclusive.holder, exclusive.probing⟩
  safe := admitted.safe

/-- The body of `async with self._probe_lock`, entered with the lock free. -/
theorem Admitted.acquired (monotone : Monotone clock) (admitted : Admitted p clock w)
    (free : w.lock = none) (unprobed : w.calls c ≠ .running .probe) :
    Admitted p clock (acquired clock c w) := by
  obtain ⟨recorded, exclusive, safe⟩ := admitted
  have recorded' : Recorded p clock { w with lock := some c } :=
    ⟨recorded.state_eq, recorded.opened_eq, recorded.recovered⟩
  rcases acquired_cases clock c w with ⟨state, eq⟩ | ⟨state, eq⟩ | ⟨state, eq⟩ <;> rw [eq]
  · refine Admitted.reject ⟨?_, ?_, safe⟩ unprobed
    · exact ⟨recorded.state_eq, recorded.opened_eq, recorded.recovered⟩
    · exact ⟨fun c' mode running indirect => free ▸ exclusive.holder c' mode running indirect,
        exclusive.probing⟩
  · exact ⟨recorded'.start monotone _, exclusive.start_locked free _ (by simp [state]),
      safe_start recorded' safe (by simp [state]) (by simp [state]) _⟩
  · have unstarted := exclusive.unstarted free state
    exact ⟨recorded'.start monotone _, exclusive.start_locked free _ fun _ => ⟨rfl, unstarted⟩,
      safe_start recorded' safe (by simp [state]) (fun _ => unstarted) _⟩

theorem Admitted.maybeTransition (monotone : Monotone clock) (admitted : Admitted p clock w) :
    Admitted p clock (maybeTransition p clock c w) where
  recorded := admitted.recorded.maybeTransition monotone
  exclusive := admitted.exclusive.maybeTransition
  safe := by
    rcases maybeTransition_cases p clock c w with ⟨_, _, _, _, eq⟩ | ⟨_, eq⟩ | eq <;> rw [eq] <;>
      exact admitted.safe

theorem Admitted.enter (monotone : Monotone clock) (admitted : Admitted p clock w)
    (idle : w.calls c = .idle) : Admitted p clock (enter p clock c w) := by
  have entered : Admitted p clock (w.observe (.entered c)) :=
    ⟨admitted.recorded.observe _ (by simp), ⟨admitted.exclusive.holder, admitted.exclusive.probing⟩,
      admitted.safe⟩
  have moved := entered.maybeTransition (c := c) monotone
  have unprobed : (CircuitBreaker.maybeTransition p clock c (w.observe (.entered c))).calls c ≠
      .running .probe := by
    simp [maybeTransition_calls, Config.observe, idle]
  simp only [CircuitBreaker.enter]
  generalize CircuitBreaker.maybeTransition p clock c (w.observe (.entered c)) = v at moved unprobed
  cases state : v.state with
  | opened => exact moved.reject unprobed
  | closed =>
      exact ⟨moved.recorded.start monotone _, moved.exclusive.start_direct state,
        safe_start moved.recorded moved.safe (by simp [state]) (by simp [state]) _⟩
  | halfOpen =>
      simp only
      split
      · next free => exact moved.acquired monotone free.1 unprobed
      · have waiting := moved.exclusive.setPhase c .waiting (by simp) unprobed
        exact ⟨⟨moved.recorded.state_eq, moved.recorded.opened_eq, moved.recorded.recovered⟩,
          ⟨waiting.holder, waiting.probing⟩, moved.safe⟩

/-- A call under the lock ends: its handlers run, then the lock is released. -/
theorem Exclusive.release {v : Config} (exclusive : Exclusive w) {mode : Mode}
    (running : w.calls c = .running mode) (indirect : mode ≠ .direct)
    (calls : v.calls = Function.update w.calls c .finished)
    (left : v.state = .halfOpen → ∀ c' ∈ startedInPeriod v.history, v.calls c' = .running .probe) :
    Exclusive { v with lock := none } where
  holder c' mode' running' indirect' := by
    have held := exclusive.holder c mode running indirect
    have running'' : Function.update w.calls c .finished c' = .running mode' := calls ▸ running'
    have ne : c' ≠ c := by
      rintro rfl
      simp at running''
    rw [Function.update_of_ne ne] at running''
    have held' := exclusive.holder c' mode' running'' indirect'
    rw [held] at held'
    exact absurd (Option.some.inj held').symm ne
  probing := left

theorem Admitted.conclude (monotone : Monotone clock) (admitted : Admitted p clock w) {mode : Mode}
    (outcome : Outcome) (running : w.calls c = .running mode) :
    Admitted p clock (conclude p clock c mode outcome w) := by
  obtain ⟨recorded, exclusive, safe⟩ := admitted
  let v := (w.setPhase c .finished).observe (.ended c outcome (clock w.ticks))
  have recorded' : Recorded p clock v :=
    Recorded.observe (w := w.setPhase c .finished)
      ⟨recorded.state_eq, recorded.opened_eq, recorded.recovered⟩ _ (by simp)
  have safe' : AdmissionSafe p v.history := safe
  have executed := execute_handled p clock c v outcome
  cases mode with
  | direct =>
      have exclusive' := exclusive.setPhase c .finished (by simp) (by simp [running])
      have ended : Exclusive v := ⟨exclusive'.holder, exclusive'.probing⟩
      exact ⟨recorded'.handled monotone executed, ended.handled executed, safe_handled safe' executed⟩
  | resumed =>
      have exclusive' := exclusive.setPhase c .finished (by simp) (by simp [running])
      have ended : Exclusive v := ⟨exclusive'.holder, exclusive'.probing⟩
      have kept := recorded'.handled monotone executed
      have still : AdmissionSafe p (execute p clock c outcome v).history := safe_handled safe' executed
      exact ⟨⟨kept.state_eq, kept.opened_eq, kept.recovered⟩,
        exclusive.release running (by decide) executed.calls_eq (ended.handled executed).probing, still⟩
  | probe =>
      have probed := probe_handled p clock c v outcome
      have kept := recorded'.handled monotone probed
      have still : AdmissionSafe p (probe p clock c outcome v).history := safe_handled safe' probed
      exact ⟨⟨kept.state_eq, kept.opened_eq, kept.recovered⟩,
        exclusive.release running (by decide) probed.calls_eq
          fun halfOpen => absurd halfOpen (probe_leaves p clock c v outcome), still⟩

theorem Admitted.step (monotone : Monotone clock) (admitted : Admitted p clock w) {e : Event}
    (kept : e.isCancel = false) (stepped : step p clock w e = some w') : Admitted p clock w' := by
  cases e with
  | call c =>
      simp only [CircuitBreaker.step, Option.ite_none_right_eq_some, Option.some.injEq] at stepped
      obtain ⟨idle, rfl⟩ := stepped
      exact admitted.enter monotone idle
  | resume c =>
      simp only [CircuitBreaker.step, Option.ite_none_right_eq_some, Option.some.injEq] at stepped
      obtain ⟨⟨free, _⟩, rfl⟩ := stepped
      have unprobed : w.calls c ≠ .running .probe := by
        intro running
        have held := admitted.exclusive.holder c .probe running (by decide)
        simp [free] at held
      refine Admitted.acquired (w := { w with waiters := w.waiters.tail }) monotone ?_ free unprobed
      obtain ⟨recorded, exclusive, safe⟩ := admitted
      exact ⟨⟨recorded.state_eq, recorded.opened_eq, recorded.recovered⟩,
        ⟨exclusive.holder, exclusive.probing⟩, safe⟩
  | finish c outcome =>
      simp only [CircuitBreaker.step] at stepped
      split at stepped
      · next mode running =>
          cases stepped
          exact admitted.conclude monotone outcome running
      · cases stepped
  | cancel c => simp [Event.isCancel] at kept

theorem admitted_init (p : Params) (clock : ℕ → ℚ) : Admitted p clock (init clock) where
  recorded := ⟨rfl, fun h => by simp [init] at h, fun _ _ h => by simp [init, lastOpened] at h⟩
  exclusive := ⟨fun _ _ h => by simp [init] at h, fun h => by simp [init] at h⟩
  safe := trivial

end Keeps

/-! ## Every run -/

/-- **Admission safety.** In every run without cancellations, for every
interleaving, every outcome and every clock that does not go back. -/
theorem admission_safe (p : Params) (clock : ℕ → ℚ) (monotone : Monotone clock)
    (es : List Event) (kept : ∀ e ∈ es, e.isCancel = false) (w : Config)
    (ran : exec (step p clock) (init clock) es = some w) : AdmissionSafe p w.history :=
  have keeps : ∀ v e t, Admitted p clock v → e.isCancel = false → step p clock v e = some t →
      Admitted p clock t :=
    fun _ _ _ admitted kept stepped => admitted.step monotone kept stepped
  (exec_invariant_along keeps es _ w (admitted_init p clock) (along_of_forall es _ kept) ran).safe

/-- A clock that stands still while the first calls run and then jumps past the
recovery timeout. -/
def lateClock (n : ℕ) : ℚ := if n < 7 then 0 else 30

theorem lateClock_monotone : Monotone lateClock := by
  intro m n le
  unfold lateClock
  split <;> split <;> first | omega | norm_num

/-- Calls 0 and 1 start while CLOSED, call 1 fails and opens the breaker, call 2
is the probe, and then call 0 succeeds. -/
def staleRun : List Event :=
  [.call 0, .call 1, .finish 1 .exception, .call 2, .finish 0 .success]

theorem staleRun_enabled :
    (exec (step ⟨1, 20, 30⟩ lateClock) (init lateClock) staleRun).isSome := by
  decide +kernel

/-- Satisfiable pole: a run that opens the breaker and sends a probe through. -/
theorem admission_safe_staleRun :
    ∃ w, exec (step ⟨1, 20, 30⟩ lateClock) (init lateClock) staleRun = some w ∧
      AdmissionSafe ⟨1, 20, 30⟩ w.history := by
  obtain ⟨w, ran⟩ := Option.isSome_iff_exists.mp staleRun_enabled
  exact ⟨w, ran, admission_safe _ _ lateClock_monotone staleRun (by decide) w ran⟩

end InferenceForge.Pipeline.CircuitBreaker
