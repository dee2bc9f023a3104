/-
# InferenceForge.Pipeline.BreakerProbe — the calls that meet a running probe

`_half_open_probe` promises that all others are rejected while a probe runs. They
are not all: a call that enters then queues on `_probe_lock` and, once the probe
has ended, is rejected only if the breaker is OPEN (`waiter_runs`); and if a call
that was still running has closed the breaker under the probe, a newcomer is not
even queued.

`excluded_iff` says when the promise is kept: no call enters a breaker that is
CLOSED while a probe is in flight, and a call that queued behind a probe finds the
breaker OPEN when it gets the lock (`Barring`, a condition on the steps of the run).

What an event says about its call is read off once (`Observed`, `enter_told`,
`acquired_told`); the rest is about phases and records only.
-/
import InferenceForge.Pipeline.BreakerInvariant
import InferenceForge.Pipeline.BreakerRecovery

namespace InferenceForge.Pipeline.CircuitBreaker

open InferenceForge.Library

set_option autoImplicit false

/-! ## What the record says -/

/-- The probes that have started and not ended: calls started in HALF_OPEN. -/
def probesInFlight : List Observation → List ℕ
  | [] => []
  | .started c _ :: earlier =>
      if stateAfter earlier = .halfOpen then c :: probesInFlight earlier else probesInFlight earlier
  | .ended c _ _ :: earlier => (probesInFlight earlier).filter (· ≠ c)
  | .cancelled c :: earlier => (probesInFlight earlier).filter (· ≠ c)
  | _ :: earlier => probesInFlight earlier

/-- The calls that entered while a probe was in flight. -/
def barred : List Observation → List ℕ
  | [] => []
  | .entered c :: earlier => if probesInFlight earlier = [] then barred earlier else c :: barred earlier
  | _ :: earlier => barred earlier

/-- The `coro_fn` of no barred call has been run. -/
def Unrun (history : List Observation) : Prop :=
  ∀ c ∈ barred history, ∀ instant, .started c instant ∉ history

/-- A call that entered while a probe was in flight is never run: it is rejected,
unless it is still in the queue or was cancelled there. -/
def Excluded (w : Config) : Prop :=
  ∀ c ∈ barred w.history, (∀ instant, .started c instant ∉ w.history) ∧
    (w.calls c = .waiting ∨ .rejected c ∈ w.history ∨ .cancelled c ∈ w.history)

/-- A step keeps the others out: no call enters a CLOSED breaker under a probe, and
no call that queued behind a probe gets the lock in a breaker that is not OPEN. -/
def Barring (w : Config) : Event → Prop
  | .call _ => (∃ d, w.calls d = .running .probe) → w.state ≠ .closed
  | .resume c => c ∈ barred w.history → w.state = .opened
  | _ => True

/-! ## What an event says about its call -/

def Phase.Pending (phase : Phase) : Prop := phase = .idle ∨ phase = .waiting

/-- At most one transition is added to the record. -/
def Moves (h h' : List Observation) : Prop :=
  h' = h ∨ ∃ target instant c, h' = .moved target instant c :: h

/-- A change of the phase of `c` and what the record says about it. -/
inductive Observed (h : List Observation) (c : ℕ) (before : Phase) : Phase → List Observation → Prop
  | waits (pending : before.Pending) : Observed h c before .waiting h
  | rejected (pending : before.Pending) : Observed h c before .finished (.rejected c :: h)
  | starts (pending : before.Pending) (mode : Mode) (instant : ℚ)
      (probe : mode = .probe ↔ stateAfter h = .halfOpen) :
      Observed h c before (.running mode) (.started c instant :: h)
  | ends (mode : Mode) (running : before = .running mode) (outcome : Outcome) (instant : ℚ) :
      Observed h c before .finished (.ended c outcome instant :: h)
  | cancelled : Observed h c before .finished (.cancelled c :: h)

def Phase.Running (phase : Phase) : Prop := ∃ mode, phase = .running mode

section Told

variable {p : Params} {clock : ℕ → ℚ} {w w' : Config} {c : ℕ}

theorem Handled.moves (handled : Handled c w w') : Moves w.history w'.history := by
  rcases handled.effect with ⟨_, _, same⟩ | ⟨_, _, instant, more⟩ | ⟨_, instant, _, more⟩
  · exact .inl same
  · exact .inr ⟨_, instant, c, more⟩
  · exact .inr ⟨_, instant, c, more⟩

theorem maybeTransition_moves (p : Params) (clock : ℕ → ℚ) (c : ℕ) (w : Config) :
    Moves w.history (maybeTransition p clock c w).history := by
  rcases maybeTransition_cases p clock c w with ⟨_, _, _, _, eq⟩ | ⟨_, eq⟩ | eq <;> rw [eq]
  · exact .inr ⟨_, _, c, rfl⟩
  · exact .inl rfl
  · exact .inl rfl

theorem maybeTransition_closed (p : Params) (clock : ℕ → ℚ) (c : ℕ) (w : Config) :
    (maybeTransition p clock c w).state = .closed ↔ w.state = .closed := by
  rcases maybeTransition_cases p clock c w with ⟨_, state, _, _, eq⟩ | ⟨_, eq⟩ | eq <;> rw [eq]
  simp [state]

/-- Past the lock, a call is started unless the breaker is OPEN. -/
theorem acquired_told (clock : ℕ → ℚ) (w : Config) (recorded : stateAfter w.history = w.state)
    (pending : (w.calls c).Pending) :
    ∃ phase, (acquired clock c w).calls = Function.update w.calls c phase ∧
      Observed w.history c (w.calls c) phase (acquired clock c w).history ∧
      (phase.Running ↔ w.state ≠ .opened) := by
  rcases acquired_cases clock c w with ⟨state, eq⟩ | ⟨state, eq⟩ | ⟨state, eq⟩ <;> rw [eq]
  · exact ⟨.finished, rfl, .rejected pending, by simp [Phase.Running, state]⟩
  · exact ⟨.running .resumed, rfl, .starts pending _ _ (by simp [recorded, state]),
      by simp [Phase.Running, state]⟩
  · exact ⟨.running .probe, rfl, .starts pending _ _ (by simp [recorded, state]),
      by simp [Phase.Running, state]⟩

/-- A newcomer is started if the breaker is CLOSED, and otherwise only with the
probe lock free. -/
theorem enter_told (p : Params) (clock : ℕ → ℚ) (recorded : stateAfter w.history = w.state) (idle : w.calls c = .idle) :
    ∃ phase h, (enter p clock c w).calls = Function.update w.calls c phase ∧
      Moves (.entered c :: w.history) h ∧
      Observed h c (w.calls c) phase (enter p clock c w).history ∧
      (w.state = .closed → phase.Running) ∧
      (w.state ≠ .closed → phase.Running → w.lock = none) := by
  have moves := maybeTransition_moves p clock c (w.observe (.entered c))
  have closed := maybeTransition_closed p clock c (w.observe (.entered c))
  have calls : (maybeTransition p clock c (w.observe (.entered c))).calls = w.calls :=
    maybeTransition_calls p clock c _
  have followed := stateAfter_maybeTransition p clock c (w := w.observe (.entered c)) recorded
  have lock : (maybeTransition p clock c (w.observe (.entered c))).lock = w.lock :=
    (maybeTransition_lock p clock c _).1
  simp only [enter]
  generalize maybeTransition p clock c (w.observe (.entered c)) = v at moves closed calls followed lock
  have closed : v.state = .closed ↔ w.state = .closed := closed
  have pending : (v.calls c).Pending := .inl (by rw [calls]; exact idle)
  rw [← calls, ← lock]
  split
  · next state =>
      refine ⟨.finished, v.history, rfl, moves, .rejected pending, fun now => ?_, fun _ => ?_⟩
      · rw [closed.mpr now] at state
        cases state
      · simp [Phase.Running]
  · next state =>
      split
      · next free =>
          obtain ⟨phase, updated, observed, _⟩ := acquired_told clock v followed pending
          exact ⟨phase, v.history, updated, moves, observed,
            fun now => by simp [closed.mpr now] at state, fun _ _ => free.1⟩
      · exact ⟨.waiting, v.history, rfl, moves, .waits pending,
          fun now => by simp [closed.mpr now] at state, fun _ => by simp [Phase.Running]⟩
  · next state =>
      exact ⟨.running .direct, v.history, rfl, moves,
        .starts pending _ _ (by simp [followed, state]), fun _ => ⟨_, rfl⟩,
        fun other => absurd (closed.mp state) other⟩

theorem conclude_told (p : Params) (clock : ℕ → ℚ) {mode : Mode} (running : w.calls c = .running mode) (outcome : Outcome) :
    ∃ h, (conclude p clock c mode outcome w).calls = Function.update w.calls c .finished ∧
      Observed w.history c (w.calls c) .finished h ∧
      Moves h (conclude p clock c mode outcome w).history := by
  have executed := execute_handled p clock c
    ((w.setPhase c .finished).observe (.ended c outcome (clock w.ticks))) outcome
  have probed := probe_handled p clock c
    ((w.setPhase c .finished).observe (.ended c outcome (clock w.ticks))) outcome
  refine ⟨_, ?_, .ends mode running outcome (clock w.ticks), ?_⟩
  · cases mode with
    | direct => exact executed.calls_eq
    | resumed => exact executed.calls_eq
    | probe => exact probed.calls_eq
  · cases mode with
    | direct => exact executed.moves
    | resumed => exact executed.moves
    | probe => exact probed.moves

theorem abandon_told (stepped : abandon c w = some w') :
    w'.calls = Function.update w.calls c .finished ∧
      Observed w.history c (w.calls c) .finished w'.history := by
  simp only [abandon] at stepped
  split at stepped
  · cases stepped
    exact ⟨rfl, .cancelled⟩
  · cases stepped
    exact ⟨rfl, .cancelled⟩
  · cases stepped
    exact ⟨rfl, .cancelled⟩
  · cases stepped

end Told

/-! ## The phases agree with the record -/

/-- Where the record puts the calls. -/
structure Traced (calls : ℕ → Phase) (h : List Observation) : Prop where
  probing : ∀ c, c ∈ probesInFlight h ↔ calls c = .running .probe
  unstarted : ∀ c, (calls c).Pending → ∀ instant, .started c instant ∉ h
  accounted : ∀ c, ¬ (calls c).Pending →
    (∃ instant, .started c instant ∈ h) ∨ .rejected c ∈ h ∨ .cancelled c ∈ h

section Records

variable {calls : ℕ → Phase} {h h' : List Observation} {c : ℕ} {phase : Phase}

theorem Moves.barred (moves : Moves h h') : barred h' = barred h := by
  rcases moves with rfl | ⟨_, _, _, rfl⟩ <;> rfl

theorem Moves.probes (moves : Moves h h') : probesInFlight h' = probesInFlight h := by
  rcases moves with rfl | ⟨_, _, _, rfl⟩ <;> rfl

theorem Moves.subset (moves : Moves h h') : h ⊆ h' := by
  rcases moves with rfl | ⟨_, _, _, rfl⟩
  · exact fun _ member => member
  · exact List.subset_cons_self _ _

theorem Moves.started (moves : Moves h h') (instant : ℚ) :
    .started c instant ∈ h' ↔ .started c instant ∈ h := by
  rcases moves with rfl | ⟨_, _, _, rfl⟩
  · rfl
  · simp

theorem Moves.unrun (moves : Moves h h') : Unrun h' ↔ Unrun h := by
  simp only [Unrun, moves.barred, moves.started]

theorem Traced.moves (traced : Traced calls h) (moves : Moves h h') : Traced calls h' where
  probing := by
    rw [moves.probes]
    exact traced.probing
  unstarted c pending instant started :=
    traced.unstarted c pending instant ((moves.started instant).mp started)
  accounted c begun := by
    rcases traced.accounted c begun with ⟨instant, started⟩ | rejected | cancelled
    · exact .inl ⟨instant, moves.subset started⟩
    · exact .inr (.inl (moves.subset rejected))
    · exact .inr (.inr (moves.subset cancelled))

theorem Traced.entered (traced : Traced calls h) (c : ℕ) : Traced calls (.entered c :: h) where
  probing := traced.probing
  unstarted d pending instant := by simpa using traced.unstarted d pending instant
  accounted d begun := by simpa using traced.accounted d begun

theorem Phase.Pending.not_running {mode : Mode} (pending : phase.Pending) : phase ≠ .running mode := by
  rcases pending with rfl | rfl <;> simp

theorem Traced.observed (traced : Traced calls h) (observed : Observed h c (calls c) phase h') :
    Traced (Function.update calls c phase) h' where
  probing d := by
    have others := traced.probing d
    by_cases same : d = c
    · subst same
      rw [Function.update_self]
      cases observed with
      | waits pending => simp [others, pending.not_running]
      | rejected pending => simp [probesInFlight, others, pending.not_running]
      | starts pending mode instant probe =>
          by_cases halfOpen : stateAfter h = .halfOpen
          · simp [probesInFlight, halfOpen, probe.mpr halfOpen]
          · simp [probesInFlight, halfOpen, others, pending.not_running, probe]
      | ends mode running outcome instant => simp [probesInFlight]
      | cancelled => simp [probesInFlight]
    · rw [Function.update_of_ne same]
      cases observed with
      | waits pending => exact others
      | rejected pending => exact others
      | starts pending mode instant probe =>
          by_cases halfOpen : stateAfter h = .halfOpen <;> simp [probesInFlight, halfOpen, same, others]
      | ends mode running outcome instant => simp [probesInFlight, same, others]
      | cancelled => simp [probesInFlight, same, others]
  unstarted d pending' instant := by
    by_cases same : d = c
    · subst same
      rw [Function.update_self] at pending'
      cases observed with
      | waits pending => exact traced.unstarted d pending instant
      | rejected | starts | ends | cancelled => simp [Phase.Pending] at pending'
    · rw [Function.update_of_ne same] at pending'
      have others := traced.unstarted d pending' instant
      cases observed with
      | waits => exact others
      | rejected | starts | ends | cancelled => simp [others, same]
  accounted d begun := by
    by_cases same : d = c
    · subst same
      rw [Function.update_self] at begun
      cases observed with
      | waits pending => simp [Phase.Pending] at begun
      | rejected pending => simp
      | starts pending mode instant probe => exact .inl ⟨instant, List.mem_cons_self⟩
      | ends mode running outcome instant =>
          have running' : ¬ (calls d).Pending := by simp [running, Phase.Pending]
          simpa using traced.accounted d running'
      | cancelled => simp
    · rw [Function.update_of_ne same] at begun
      have others := traced.accounted d begun
      cases observed with
      | waits => exact others
      | rejected | starts | ends | cancelled => simp [others, same]

/-- Only a start can break the promise, when the call is barred. -/
theorem Observed.unrun (observed : Observed h c (calls c) phase h') :
    Unrun h' ↔ Unrun h ∧ (phase.Running → c ∉ barred h) := by
  cases observed with
  | starts pending mode instant probe =>
      simp only [Unrun, barred, List.mem_cons, not_or]
      constructor
      · intro unrun
        refine ⟨fun d member instant' => (unrun d member instant').2, fun _ member => ?_⟩
        exact (unrun c member instant).1 rfl
      · rintro ⟨unrun, unbarred⟩ d member instant'
        refine ⟨fun same => ?_, unrun d member instant'⟩
        cases same
        exact unbarred ⟨mode, rfl⟩ member
  | _ => simp [Unrun, barred, Phase.Running]

theorem Observed.barred (observed : Observed h c (calls c) phase h') : barred h' = barred h := by
  cases observed <;> rfl

end Records

/-! ## One event -/

/-- The invariant: state, lock and phases agree with the record, and a barred call
has entered. -/
structure Guarded (w : Config) : Prop where
  recorded : stateAfter w.history = w.state
  locked : Locked w
  traced : Traced w.calls w.history
  known : ∀ c ∈ barred w.history, w.calls c ≠ .idle

section Steps

variable {p : Params} {clock : ℕ → ℚ} {w w' : Config} {c : ℕ}

/-- With the promise kept so far, whoever was barred waits or was turned away. -/
theorem Guarded.excludes_iff (guarded : Guarded w) : Excluded w ↔ Unrun w.history := by
  constructor
  · exact fun excluded c member => (excluded c member).1
  · intro unrun c member
    refine ⟨unrun c member, ?_⟩
    by_cases pending : (w.calls c).Pending
    · rcases pending with idle | waiting
      · exact absurd idle (guarded.known c member)
      · exact .inl waiting
    · rcases guarded.traced.accounted c pending with ⟨instant, started⟩ | out
      · exact absurd started (unrun c member instant)
      · exact .inr out

/-- A probe in flight holds the lock. -/
theorem Guarded.probes_nil (guarded : Guarded w) (free : w.lock = none) :
    probesInFlight w.history = [] := by
  rw [List.eq_nil_iff_forall_not_mem]
  intro c member
  have held := guarded.locked.holder c .probe ((guarded.traced.probing c).mp member) (by decide)
  rw [free] at held
  cases held

theorem Guarded.in_flight (guarded : Guarded w) :
    (∃ d, w.calls d = .running .probe) ↔ probesInFlight w.history ≠ [] := by
  constructor
  · rintro ⟨d, running⟩
    exact List.ne_nil_of_mem ((guarded.traced.probing d).mpr running)
  · intro some_
    obtain ⟨d, member⟩ := List.exists_mem_of_ne_nil _ some_
    exact ⟨d, (guarded.traced.probing d).mp member⟩

/-- A step of `c` after which `known` still holds. -/
theorem known_update {phase : Phase} {h : List Observation} (known : ∀ d ∈ barred h, d ≠ c → w.calls d ≠ .idle)
    (entered : phase ≠ .idle) (d : ℕ) (member : d ∈ barred h) :
    Function.update w.calls c phase d ≠ .idle := by
  by_cases same : d = c
  · subst same
    rwa [Function.update_self]
  · rw [Function.update_of_ne same]
    exact known d member same

theorem Observed.entered {h h' : List Observation} {before phase : Phase}
    (observed : Observed h c before phase h') : phase ≠ .idle := by
  cases observed <;> simp

theorem mem_barred_entered {h : List Observation} {d : ℕ} :
    d ∈ barred (.entered c :: h) ↔ (d = c ∧ probesInFlight h ≠ []) ∨ d ∈ barred h := by
  by_cases none_ : probesInFlight h = [] <;> simp [barred, none_]

theorem unrun_entered {h : List Observation} (unstarted : ∀ instant, .started c instant ∉ h) :
    Unrun (.entered c :: h) ↔ Unrun h := by
  constructor
  · intro unrun d member instant started
    exact unrun d (mem_barred_entered.mpr (.inr member)) instant (List.mem_cons_of_mem _ started)
  · intro unrun d member instant started
    have earlier : .started d instant ∈ h := by simpa using started
    rcases mem_barred_entered.mp member with ⟨rfl, _⟩ | member
    · exact unstarted instant earlier
    · exact unrun d member instant earlier

/-- A newcomer keeps the promise unless it is started while a probe is in flight. -/
theorem Guarded.call (guarded : Guarded w) (idle : w.calls c = .idle) {phase : Phase}
    {h : List Observation} (calls : w'.calls = Function.update w.calls c phase)
    (moves : Moves (.entered c :: w.history) h)
    (observed : Observed h c (w.calls c) phase w'.history) :
    Traced w'.calls w'.history ∧ (∀ d ∈ barred w'.history, w'.calls d ≠ .idle) ∧
      (Unrun w'.history ↔
        Unrun w.history ∧ (phase.Running → probesInFlight w.history = [])) := by
  have unstarted := guarded.traced.unstarted c (.inl idle)
  have unbarred : c ∉ barred w.history := fun member => guarded.known c member idle
  have same : barred w'.history = barred (.entered c :: w.history) :=
    observed.barred.trans moves.barred
  refine ⟨?_, ?_, ?_⟩
  · rw [calls]
    exact ((guarded.traced.entered c).moves moves).observed observed
  · rw [calls, same]
    refine known_update (fun d member ne => ?_) observed.entered
    rcases mem_barred_entered.mp member with ⟨rfl, _⟩ | member
    · exact absurd rfl ne
    · exact guarded.known d member
  · rw [observed.unrun, moves.unrun, moves.barred, unrun_entered unstarted, mem_barred_entered]
    simp [unbarred]

/-- What the other events do to the promise. -/
theorem Guarded.observed (guarded : Guarded w) {phase : Phase} {h : List Observation}
    (calls : w'.calls = Function.update w.calls c phase)
    (observed : Observed w.history c (w.calls c) phase h) (moves : Moves h w'.history) :
    Traced w'.calls w'.history ∧ (∀ d ∈ barred w'.history, w'.calls d ≠ .idle) ∧
      (Unrun w'.history ↔ Unrun w.history ∧ (phase.Running → c ∉ barred w.history)) := by
  refine ⟨?_, ?_, ?_⟩
  · rw [calls]
    exact (guarded.traced.observed observed).moves moves
  · rw [calls, moves.barred, observed.barred]
    exact known_update (fun d member _ => guarded.known d member) observed.entered
  · rw [moves.unrun, observed.unrun]

/-- One event keeps the invariant, and keeps the promise exactly when it bars. -/
theorem Guarded.step (guarded : Guarded w) {e : Event} (stepped : step p clock w e = some w') :
    Guarded w' ∧ (Unrun w'.history ↔ Unrun w.history ∧ Barring w e) := by
  have recorded := (step_recovered guarded.recorded stepped).1
  have locked := guarded.locked.step stepped
  suffices kept : (Traced w'.calls w'.history ∧ ∀ d ∈ barred w'.history, w'.calls d ≠ .idle) ∧
      (Unrun w'.history ↔ Unrun w.history ∧ Barring w e) from
    ⟨⟨recorded, locked, kept.1.1, kept.1.2⟩, kept.2⟩
  cases e with
  | call c =>
      simp only [CircuitBreaker.step, Option.ite_none_right_eq_some, Option.some.injEq] at stepped
      obtain ⟨idle, rfl⟩ := stepped
      obtain ⟨phase, h, calls, moves, observed, closed, other⟩ :=
        enter_told p clock guarded.recorded idle
      obtain ⟨traced, known, unrun⟩ := guarded.call idle calls moves observed
      refine ⟨⟨traced, known⟩, unrun.trans (and_congr_right fun _ => ?_)⟩
      rw [Barring, guarded.in_flight]
      by_cases state : w.state = .closed
      · simp [state, closed state]
      · refine iff_of_true (fun running => guarded.probes_nil (other state running)) fun _ => state
  | resume c =>
      simp only [CircuitBreaker.step, Option.ite_none_right_eq_some, Option.some.injEq] at stepped
      obtain ⟨⟨_, first⟩, rfl⟩ := stepped
      have waiting := guarded.locked.queued c (List.mem_of_head? first)
      obtain ⟨phase, calls, observed, running⟩ :=
        acquired_told clock { w with waiters := w.waiters.tail } guarded.recorded (.inr waiting)
      obtain ⟨traced, known, unrun⟩ := guarded.observed calls observed (.inl rfl)
      refine ⟨⟨traced, known⟩, unrun.trans (and_congr_right fun _ => ?_)⟩
      rw [running, Barring]
      tauto
  | finish c outcome =>
      simp only [CircuitBreaker.step] at stepped
      split at stepped
      · next mode running =>
          cases stepped
          obtain ⟨h, calls, observed, moves⟩ :=
            conclude_told p clock running outcome
          obtain ⟨traced, known, unrun⟩ := guarded.observed calls observed moves
          exact ⟨⟨traced, known⟩, by simpa [Barring, Phase.Running] using unrun⟩
      · cases stepped
  | cancel c =>
      obtain ⟨calls, observed⟩ := abandon_told stepped
      obtain ⟨traced, known, unrun⟩ := guarded.observed calls observed (.inl rfl)
      exact ⟨⟨traced, known⟩, by simpa [Barring, Phase.Running] using unrun⟩

end Steps

/-! ## Every run -/

theorem guarded_init (clock : ℕ → ℚ) : Guarded (init clock) where
  recorded := rfl
  locked := locked_init clock
  traced := ⟨by simp [init, probesInFlight], by simp [init], by simp [init, Phase.Pending]⟩
  known := by simp [init, barred]

/-- **A probe keeps the others out, exactly when every step bars them.** For every
interleaving, cancellations included, and every clock. -/
theorem excluded_iff (p : Params) (clock : ℕ → ℚ) (es : List Event) (w : Config)
    (ran : exec (step p clock) (init clock) es = some w) :
    Excluded w ↔ Along (step p clock) Barring (init clock) es := by
  have keeps : ∀ v e t, Guarded v → step p clock v e = some t → Guarded t :=
    fun _ _ _ guarded stepped => (guarded.step stepped).1
  have exact_step : ∀ v e t, Guarded v → step p clock v e = some t →
      (Unrun t.history ↔ Unrun v.history ∧ Barring v e) :=
    fun _ _ _ guarded stepped => (guarded.step stepped).2
  have guarded := exec_invariant keeps es _ w (guarded_init clock) ran
  rw [guarded.excludes_iff, exec_iff_along keeps exact_step es _ w (guarded_init clock) ran]
  exact and_iff_right (by simp [Unrun, init, barred])

/-- Call 0 opens the breaker, call 1 is the probe, and call 2 queues behind it. -/
def queuedRun (outcome : Outcome) : List Event :=
  [.call 0, .finish 0 .exception, .call 1, .call 2, .finish 1 outcome, .resume 2]

/-- Satisfiable pole: the probe fails and the waiter is rejected. -/
theorem excluded_iff_queuedRun :
    ∃ w, exec (step ⟨1, 20, 1⟩ Nat.cast) (init Nat.cast) (queuedRun .exception) = some w ∧
      2 ∈ barred w.history ∧ Excluded w := by
  have met : (exec (step ⟨1, 20, 1⟩ Nat.cast) (init Nat.cast) (queuedRun .exception)).map
      (fun w => decide (2 ∈ barred w.history)) = some true := by decide +kernel
  obtain ⟨w, ran, member⟩ := Option.map_eq_some_iff.mp met
  refine ⟨w, ran, of_decide_eq_true member, (excluded_iff _ _ _ w ran).mpr ?_⟩
  have elapsed : (1 : ℚ) ≤ 6 - (2 + 1 + 1 + 1) := by norm_num
  simp [Along, Barring, queuedRun, step, init, enter, Config.observe, maybeTransition, start,
    conclude, Config.setPhase, execute, probe, onFailure, evictOldFailures, transition, acquired,
    elapsed]

/-! ## The waiter -/

/-- Refuting pole: the probe succeeds and the call that queued behind it is run. -/
theorem waiter_runs :
    ∃ w, exec (step ⟨1, 20, 1⟩ Nat.cast) (init Nat.cast) (queuedRun .success) = some w ∧
      2 ∈ barred w.history ∧ .started 2 10 ∈ w.history := by
  have met : (exec (step ⟨1, 20, 1⟩ Nat.cast) (init Nat.cast) (queuedRun .success)).map
      (fun w => decide (2 ∈ barred w.history ∧ .started 2 10 ∈ w.history)) = some true := by
    decide +kernel
  obtain ⟨w, ran, there⟩ := Option.map_eq_some_iff.mp met
  exact ⟨w, ran, of_decide_eq_true there⟩

end InferenceForge.Pipeline.CircuitBreaker
