/-
# InferenceForge.Pipeline.BreakerInvariant — what holds of the breaker at any time

The fields of the breaker (`Fields`) and the probe lock (`Locked`), over every
interleaving, cancellations included. The failure timestamps are sorted, so an
eviction leaves exactly those in the window, and fewer than the threshold while
the breaker is CLOSED, `openedAt` is set outside CLOSED only, the gauge shows the
state, and whoever holds the lock is still running (`represented`).
-/
import InferenceForge.Library.SlidingWindow
import InferenceForge.Pipeline.BreakerAdmission

namespace InferenceForge.Pipeline.CircuitBreaker

open InferenceForge.Library

set_option autoImplicit false

/-- The value of the `circuit_breaker_state` gauge for a state. -/
def code : CBState → ℕ
  | .closed => 0
  | .halfOpen => 1
  | .opened => 2

/-- The timestamps are sorted readings of the clock. -/
structure Stamps (clock : ℕ → ℚ) (w : Config) : Prop where
  sorted : w.failureTimestamps.Pairwise (· ≤ ·)
  past : ∀ t ∈ w.failureTimestamps, t ≤ clock w.ticks

structure Fields (p : Params) (clock : ℕ → ℚ) (w : Config) : Prop where
  stamps : Stamps clock w
  below : 1 ≤ p.failureThreshold → w.state = .closed →
    (w.failureTimestamps.length : ℤ) < p.failureThreshold
  openedAt_iff : w.openedAt = none ↔ w.state = .closed
  gauge : w.gauge = code w.state

/-- Who holds the probe lock and who waits for it. -/
structure Locked (w : Config) : Prop where
  holder : ∀ c mode, w.calls c = .running mode → mode ≠ .direct → w.lock = some c
  held : ∀ c, w.lock = some c → ∃ mode, mode ≠ .direct ∧ w.calls c = .running mode
  queued : ∀ c ∈ w.waiters, w.calls c = .waiting
  distinct : w.waiters.Nodup

/-- An eviction at this moment removes exactly what is older than the window. -/
def EvictsOld (p : Params) (clock : ℕ → ℚ) (w : Config) : Prop :=
  (evictOldFailures p clock w).failureTimestamps =
    w.failureTimestamps.filter (clock w.ticks - p.windowSeconds ≤ ·)

/-- What `_on_failure` does before it evicts. -/
def recordFailure (clock : ℕ → ℚ) (w : Config) : Config :=
  { w with
    failureTimestamps := w.failureTimestamps ++ [clock w.ticks]
    ticks := w.ticks + 1 }

/-- The representation invariant. -/
structure Represented (p : Params) (clock : ℕ → ℚ) (w : Config) : Prop where
  sorted : w.failureTimestamps.Pairwise (· ≤ ·)
  evicts : EvictsOld p clock w
  evicts_failure : ∀ c, (onFailure p clock c w).failureTimestamps =
    (w.failureTimestamps ++ [clock w.ticks]).filter (clock (w.ticks + 1) - p.windowSeconds ≤ ·)
  below : w.state = .closed → (w.failureTimestamps.length : ℤ) < p.failureThreshold
  openedAt_iff : w.openedAt = none ↔ w.state = .closed
  gauge : w.gauge = code w.state
  lock : ∀ c, w.lock = some c → ∃ mode, w.calls c = .running mode

section Steps

variable {p : Params} {clock : ℕ → ℚ} {w w' : Config} {c : ℕ}

/-! ## The fields -/

theorem Stamps.frame (monotone : Monotone clock) (stamps : Stamps clock w)
    (same : w'.failureTimestamps = w.failureTimestamps) (ticks : w.ticks ≤ w'.ticks) :
    Stamps clock w' where
  sorted := by
    rw [same]
    exact stamps.sorted
  past t member := by
    rw [same] at member
    exact (stamps.past t member).trans (monotone ticks)

theorem Fields.frame (monotone : Monotone clock) (fields : Fields p clock w)
    (state : w'.state = w.state) (same : w'.failureTimestamps = w.failureTimestamps)
    (openedAt : w'.openedAt = w.openedAt) (gauge : w'.gauge = w.gauge)
    (ticks : w.ticks ≤ w'.ticks) : Fields p clock w' where
  stamps := fields.stamps.frame monotone same ticks
  below := by
    rw [state, same]
    exact fields.below
  openedAt_iff := by
    rw [state, openedAt]
    exact fields.openedAt_iff
  gauge := by
    rw [state, gauge]
    exact fields.gauge

theorem Stamps.opened (monotone : Monotone clock) (stamps : Stamps clock w) :
    Fields p clock (transition clock .opened c w) where
  stamps := stamps.frame monotone rfl (by simp [transition])
  below _ closed := by simp [transition] at closed
  openedAt_iff := by simp [transition]
  gauge := rfl

theorem Fields.maybeTransition (monotone : Monotone clock) (fields : Fields p clock w) :
    Fields p clock (maybeTransition p clock c w) := by
  rcases maybeTransition_cases p clock c w with ⟨opened, state, openedAt, _, eq⟩ | ⟨_, eq⟩ | eq
  · rw [eq]
    refine ⟨fields.stamps.frame monotone rfl ?_, ?_, ?_, rfl⟩
    · simp only [transition]
      omega
    · intro _ closed
      simp at closed
    · show w.openedAt = none ↔ CBState.halfOpen = .closed
      simp [openedAt]
  · rw [eq]
    exact fields.frame monotone rfl rfl rfl rfl (Nat.le_succ _)
  · rwa [eq]

theorem Fields.onSuccess (fields : Fields p clock w) : Fields p clock (onSuccess clock c w) := by
  cases state : w.state with
  | halfOpen =>
      simp only [CircuitBreaker.onSuccess, state, transition]
      refine ⟨⟨.nil, by simp⟩, fun positive _ => ?_, by simp, rfl⟩
      show ((0 : ℕ) : ℤ) < p.failureThreshold
      omega
  | opened => simpa only [CircuitBreaker.onSuccess, state] using fields
  | closed => simpa only [CircuitBreaker.onSuccess, state] using fields

/-- An append of the time keeps the timestamps sorted. -/
theorem Stamps.append (monotone : Monotone clock) (stamps : Stamps clock w) : Stamps clock (recordFailure clock w) where
  sorted := pairwise_push stamps.sorted stamps.past
  past t member := by
    have later : clock w.ticks ≤ clock (w.ticks + 1) := monotone (Nat.le_succ _)
    rcases List.mem_append.mp member with old | new
    · exact (stamps.past t old).trans later
    · rw [List.mem_singleton.mp new]
      exact later

/-- So does an eviction. -/
theorem Stamps.evict (monotone : Monotone clock) (stamps : Stamps clock w) :
    Stamps clock (evictOldFailures p clock w) where
  sorted := stamps.sorted.sublist (List.dropWhile_sublist _)
  past t member :=
    (stamps.past t ((List.dropWhile_sublist _).subset member)).trans (monotone (Nat.le_succ _))

theorem Stamps.evicts (stamps : Stamps clock w) : EvictsOld p clock w := dropWhile_eq_filter stamps.sorted _

theorem onFailure_stamps :
    (onFailure p clock c w).failureTimestamps =
      (evictOldFailures p clock (recordFailure clock w)).failureTimestamps := by
  unfold onFailure
  simp only
  split
  · rfl
  · split
    · rfl
    · rfl
  · rfl

theorem Fields.onFailure (monotone : Monotone clock) (fields : Fields p clock w) :
    Fields p clock (onFailure p clock c w) := by
  have recorded := (fields.stamps.append monotone).evict (p := p) monotone
  unfold CircuitBreaker.onFailure
  simp only
  split
  · exact recorded.opened monotone
  · next state =>
      split
      · exact recorded.opened monotone
      · next few => exact ⟨recorded, fun _ _ => not_le.mp few, fields.openedAt_iff, fields.gauge⟩
  · next state =>
      refine ⟨recorded, fun _ closed => ?_, fields.openedAt_iff, fields.gauge⟩
      rw [state] at closed
      cases closed

theorem Fields.execute (monotone : Monotone clock) (fields : Fields p clock w) (outcome : Outcome) :
    Fields p clock (execute p clock c outcome w) := by
  cases outcome with
  | success => exact fields.onSuccess
  | openError => exact fields
  | exception => exact fields.onFailure monotone

theorem Fields.probe (monotone : Monotone clock) (fields : Fields p clock w) (outcome : Outcome) :
    Fields p clock (probe p clock c outcome w) := by
  have executed := fields.execute (c := c) monotone outcome
  cases outcome with
  | success => exact executed.onSuccess
  | openError => exact executed.onFailure monotone
  | exception => exact executed.onFailure monotone

theorem Fields.acquired (monotone : Monotone clock) (fields : Fields p clock w) :
    Fields p clock (acquired clock c w) := by
  rcases acquired_cases clock c w with ⟨_, eq⟩ | ⟨_, eq⟩ | ⟨_, eq⟩ <;> rw [eq]
  · exact fields.frame monotone rfl rfl rfl rfl le_rfl
  · exact fields.frame monotone rfl rfl rfl rfl (Nat.le_succ _)
  · exact fields.frame monotone rfl rfl rfl rfl (Nat.le_succ _)

theorem Fields.enter (monotone : Monotone clock) (fields : Fields p clock w) :
    Fields p clock (enter p clock c w) := by
  have entered : Fields p clock (w.observe (.entered c)) :=
    fields.frame monotone rfl rfl rfl rfl le_rfl
  have moved := entered.maybeTransition (c := c) monotone
  simp only [CircuitBreaker.enter]
  generalize CircuitBreaker.maybeTransition p clock c (w.observe (.entered c)) = v at moved
  split
  · exact moved.frame monotone rfl rfl rfl rfl le_rfl
  · split
    · exact moved.acquired monotone
    · exact moved.frame monotone rfl rfl rfl rfl le_rfl
  · exact moved.frame monotone rfl rfl rfl rfl (Nat.le_succ _)

theorem Fields.conclude (monotone : Monotone clock) (fields : Fields p clock w) (mode : Mode) (outcome : Outcome) :
    Fields p clock (conclude p clock c mode outcome w) := by
  have ended : Fields p clock ((w.setPhase c .finished).observe (.ended c outcome (clock w.ticks))) :=
    fields.frame monotone rfl rfl rfl rfl le_rfl
  cases mode with
  | direct => exact ended.execute monotone outcome
  | resumed =>
      have executed := ended.execute (c := c) monotone outcome
      exact executed.frame monotone rfl rfl rfl rfl le_rfl
  | probe =>
      have probed := ended.probe (c := c) monotone outcome
      exact probed.frame monotone rfl rfl rfl rfl le_rfl

theorem Fields.step (monotone : Monotone clock) (fields : Fields p clock w) {e : Event} (stepped : step p clock w e = some w') :
    Fields p clock w' := by
  cases e with
  | call c =>
      simp only [CircuitBreaker.step, Option.ite_none_right_eq_some, Option.some.injEq] at stepped
      obtain ⟨_, rfl⟩ := stepped
      exact fields.enter monotone
  | resume c =>
      simp only [CircuitBreaker.step, Option.ite_none_right_eq_some, Option.some.injEq] at stepped
      obtain ⟨_, rfl⟩ := stepped
      have granted : Fields p clock { w with waiters := w.waiters.tail } :=
        fields.frame monotone rfl rfl rfl rfl le_rfl
      exact granted.acquired monotone
  | finish c outcome =>
      simp only [CircuitBreaker.step] at stepped
      split at stepped
      · cases stepped
        exact fields.conclude monotone _ outcome
      · cases stepped
  | cancel c =>
      simp only [CircuitBreaker.step, abandon] at stepped
      split at stepped <;> cases stepped <;> exact fields.frame monotone rfl rfl rfl rfl le_rfl

/-! ## The lock -/

theorem Locked.frame (locked : Locked w) (lock : w'.lock = w.lock) (waiters : w'.waiters = w.waiters)
    (calls : w'.calls = w.calls) : Locked w' where
  holder := by
    rw [lock, calls]
    exact locked.holder
  held := by
    rw [lock, calls]
    exact locked.held
  queued := by
    rw [waiters, calls]
    exact locked.queued
  distinct := by
    rw [waiters]
    exact locked.distinct

/-- A call that neither holds the lock nor waits for it changes its phase. -/
theorem Locked.setPhase (locked : Locked w) (phase : Phase)
    (unlocked : ∀ mode, phase = .running mode → mode = .direct) (absent : c ∉ w.waiters)
    (free : w.lock ≠ some c) : Locked (w.setPhase c phase) where
  holder c' mode running indirect := by
    by_cases same : c' = c
    · subst same
      have now : phase = .running mode := by simpa [Config.setPhase] using running
      exact absurd (unlocked mode now) indirect
    · exact locked.holder c' mode (by simpa [Config.setPhase, same] using running) indirect
  held c' held := by
    have ne : c' ≠ c := by
      rintro rfl
      exact free held
    simpa [Config.setPhase, ne] using locked.held c' held
  queued c' member := by
    have ne : c' ≠ c := by
      rintro rfl
      exact absent member
    simpa [Config.setPhase, ne] using locked.queued c' member
  distinct := locked.distinct

/-- A call takes the free lock. -/
theorem Locked.take (locked : Locked w) (free : w.lock = none) (absent : c ∉ w.waiters) {mode : Mode}
    (indirect : mode ≠ .direct) : Locked (start clock mode c { w with lock := some c }) where
  holder c' mode' running indirect' := by
    by_cases same : c' = c
    · rw [same]
      rfl
    · have held := locked.holder c' mode' (by simpa [start, same] using running) indirect'
      rw [free] at held
      cases held
  held c' held := by
    obtain rfl : c = c' := Option.some.inj held
    exact ⟨mode, indirect, by simp [start]⟩
  queued c' member := by
    have ne : c' ≠ c := by
      rintro rfl
      exact absent member
    simpa [start, ne] using locked.queued c' member
  distinct := locked.distinct

/-- The holder of the lock ends. -/
theorem Locked.release (locked : Locked w) (held : w.lock = some c) :
    Locked { w.setPhase c .finished with lock := none } where
  holder c' mode running indirect := by
    have ne : c' ≠ c := by
      rintro rfl
      simp [Config.setPhase] at running
    have held' := locked.holder c' mode (by simpa [Config.setPhase, ne] using running) indirect
    rw [held] at held'
    exact absurd (Option.some.inj held').symm ne
  held c' held' := by cases held'
  queued c' member := by
    have waiting := locked.queued c' member
    have ne : c' ≠ c := by
      rintro rfl
      obtain ⟨mode, _, running⟩ := locked.held c' held
      rw [waiting] at running
      cases running
    simpa [Config.setPhase, ne] using waiting
  distinct := locked.distinct

theorem Locked.not_mem (locked : Locked w) (other : w.calls c ≠ .waiting) : c ∉ w.waiters :=
  fun member => other (locked.queued c member)

theorem Locked.not_holder (locked : Locked w) (other : ∀ mode, w.calls c ≠ .running mode) :
    w.lock ≠ some c := by
  intro held
  obtain ⟨mode, _, running⟩ := locked.held c held
  exact other mode running

/-- A call that started while the breaker was CLOSED does not hold the lock. -/
theorem Locked.free_of_direct (locked : Locked w) (direct : w.calls c = .running .direct) :
    w.lock ≠ some c := by
  intro held
  obtain ⟨mode, indirect, running⟩ := locked.held c held
  rw [direct] at running
  cases running
  exact indirect rfl

theorem Locked.acquired (locked : Locked w) (free : w.lock = none) (absent : c ∉ w.waiters) :
    Locked (acquired clock c w) := by
  rcases acquired_cases clock c w with ⟨_, eq⟩ | ⟨_, eq⟩ | ⟨_, eq⟩ <;> rw [eq]
  · have left := locked.setPhase .finished (by simp) absent (by simp [free])
    exact left.frame free.symm rfl rfl
  · exact locked.take free absent (by decide)
  · exact locked.take free absent (by decide)

theorem maybeTransition_lock (p : Params) (clock : ℕ → ℚ) (c : ℕ) (w : Config) :
    (maybeTransition p clock c w).lock = w.lock ∧
      (maybeTransition p clock c w).waiters = w.waiters := by
  rcases maybeTransition_cases p clock c w with ⟨_, _, _, _, eq⟩ | ⟨_, eq⟩ | eq <;> rw [eq] <;>
    exact ⟨rfl, rfl⟩

theorem Locked.enter (locked : Locked w) (idle : w.calls c = .idle) :
    Locked (enter p clock c w) := by
  have calls := maybeTransition_calls p clock c (w.observe (.entered c))
  obtain ⟨lock, waiters⟩ := maybeTransition_lock p clock c (w.observe (.entered c))
  have moved : Locked (maybeTransition p clock c (w.observe (.entered c))) :=
    locked.frame lock waiters calls
  have idle : (maybeTransition p clock c (w.observe (.entered c))).calls c = .idle := by
    rw [calls]
    exact idle
  simp only [CircuitBreaker.enter]
  generalize maybeTransition p clock c (w.observe (.entered c)) = v at moved idle
  have absent := moved.not_mem (c := c) (by simp [idle])
  have free := moved.not_holder (c := c) (by simp [idle])
  split
  · exact (moved.setPhase .finished (by simp) absent free).frame rfl rfl rfl
  · split
    · next open_ => exact moved.acquired open_.1 absent
    · have waiting := moved.setPhase .waiting (by simp) absent free
      refine ⟨waiting.holder, waiting.held, fun c' member => ?_, ?_⟩
      · rcases List.mem_append.mp member with old | new
        · exact waiting.queued c' old
        · rw [List.mem_singleton.mp new]
          simp [Config.setPhase]
      · exact List.nodup_append.mpr ⟨moved.distinct, by simp, fun c' member d same => by
          rw [List.mem_singleton.mp same]
          rintro rfl
          exact absent member⟩
  · exact (moved.setPhase (.running .direct) (by simp) absent free).frame rfl rfl rfl

theorem Locked.conclude (locked : Locked w) {mode : Mode} (outcome : Outcome)
    (running : w.calls c = .running mode) : Locked (conclude p clock c mode outcome w) := by
  have executed := execute_handled p clock c
    ((w.setPhase c .finished).observe (.ended c outcome (clock w.ticks))) outcome
  have probed := probe_handled p clock c
    ((w.setPhase c .finished).observe (.ended c outcome (clock w.ticks))) outcome
  have absent := locked.not_mem (c := c) (by simp [running])
  cases mode with
  | direct =>
      have free := locked.free_of_direct running
      exact (locked.setPhase .finished (by simp) absent free).frame executed.lock_eq
        executed.waiters_eq executed.calls_eq
  | resumed =>
      exact (locked.release (locked.holder c _ running (by decide))).frame rfl executed.waiters_eq
        executed.calls_eq
  | probe =>
      exact (locked.release (locked.holder c _ running (by decide))).frame rfl probed.waiters_eq
        probed.calls_eq

/-- A waiter leaves the queue. -/
theorem Locked.unqueue (locked : Locked w) (waiting : w.calls c = .waiting) :
    Locked { w.setPhase c .finished with waiters := w.waiters.erase c } where
  holder c' mode running indirect := by
    have ne : c' ≠ c := by
      rintro rfl
      simp [Config.setPhase] at running
    exact locked.holder c' mode (by simpa [Config.setPhase, ne] using running) indirect
  held c' held := by
    have ne : c' ≠ c := by
      rintro rfl
      exact locked.not_holder (by simp [waiting]) held
    simpa [Config.setPhase, ne] using locked.held c' held
  queued c' member := by
    obtain ⟨ne, old⟩ := locked.distinct.mem_erase_iff.mp member
    simpa [Config.setPhase, ne] using locked.queued c' old
  distinct := locked.distinct.erase c

theorem Locked.step (locked : Locked w) {e : Event} (stepped : step p clock w e = some w') :
    Locked w' := by
  cases e with
  | call c =>
      simp only [CircuitBreaker.step, Option.ite_none_right_eq_some, Option.some.injEq] at stepped
      obtain ⟨idle, rfl⟩ := stepped
      exact locked.enter idle
  | resume c =>
      simp only [CircuitBreaker.step, Option.ite_none_right_eq_some, Option.some.injEq] at stepped
      obtain ⟨⟨free, first⟩, rfl⟩ := stepped
      obtain ⟨rest, queue⟩ : ∃ rest, w.waiters = c :: rest := by
        obtain ⟨rest, queue⟩ := List.head?_eq_some_iff.mp first
        exact ⟨rest, queue⟩
      have distinct := locked.distinct
      rw [queue] at distinct
      have left : Locked { w with waiters := w.waiters.tail } :=
        ⟨locked.holder, locked.held, fun c' member => locked.queued c' (List.mem_of_mem_tail member),
          locked.distinct.tail⟩
      refine left.acquired free ?_
      show c ∉ w.waiters.tail
      rw [queue]
      exact (List.nodup_cons.mp distinct).1
  | finish c outcome =>
      simp only [CircuitBreaker.step] at stepped
      split at stepped
      · next mode running =>
          cases stepped
          exact locked.conclude outcome running
      · cases stepped
  | cancel c =>
      simp only [CircuitBreaker.step, abandon] at stepped
      split at stepped
      · next waiting =>
          cases stepped
          exact (locked.unqueue waiting).frame rfl rfl rfl
      · next running =>
          cases stepped
          have free := locked.free_of_direct running
          exact (locked.setPhase .finished (by simp) (locked.not_mem (by simp [running]))
            free).frame rfl rfl rfl
      · next mode direct running =>
          cases stepped
          have indirect : mode ≠ .direct := by
            rintro rfl
            exact direct rfl
          exact (locked.release (locked.holder c mode running indirect)).frame rfl rfl rfl
      · cases stepped

end Steps

/-! ## Every run -/

theorem fields_init (p : Params) (clock : ℕ → ℚ) : Fields p clock (init clock) where
  stamps := ⟨.nil, by simp [init]⟩
  below positive _ := by
    show ((0 : ℕ) : ℤ) < p.failureThreshold
    omega
  openedAt_iff := iff_of_true rfl rfl
  gauge := rfl

theorem locked_init (clock : ℕ → ℚ) : Locked (init clock) where
  holder c mode running := by cases running
  held c held := by cases held
  queued c member := by cases member
  distinct := .nil

/-- **The representation invariant** holds after every run, whatever is cancelled,
on a clock that does not go back. -/
theorem represented (p : Params) (positive : 1 ≤ p.failureThreshold) (clock : ℕ → ℚ)
    (monotone : Monotone clock) (es : List Event) (w : Config)
    (ran : exec (step p clock) (init clock) es = some w) : Represented p clock w := by
  have fields := exec_invariant (fun _ _ _ fields stepped => Fields.step monotone fields stepped)
    es _ w (fields_init p clock) ran
  have locked := exec_invariant (fun _ _ _ locked stepped => Locked.step locked stepped) es _ w
    (locked_init clock) ran
  have recorded : EvictsOld p clock (recordFailure clock w) := (fields.stamps.append monotone).evicts
  refine ⟨fields.stamps.sorted, fields.stamps.evicts, fun c => onFailure_stamps.trans recorded, fields.below positive,
    fields.openedAt_iff, fields.gauge, fun c held => ?_⟩
  obtain ⟨mode, _, running⟩ := locked.held c held
  exact ⟨mode, running⟩

/-- Satisfiable pole: the breaker has been opened and closed again under a probe. -/
theorem represented_staleRun :
    ∃ w, exec (step ⟨1, 20, 30⟩ lateClock) (init lateClock) staleRun = some w ∧
      Represented ⟨1, 20, 30⟩ lateClock w := by
  obtain ⟨w, ran⟩ := Option.isSome_iff_exists.mp staleRun_enabled
  exact ⟨w, ran, represented _ le_rfl lateClock lateClock_monotone staleRun w ran⟩

end InferenceForge.Pipeline.CircuitBreaker
