/-
# InferenceForge.Pipeline.BreakerOutage — what an outage lets through, and its end

While the breaker is not CLOSED it starts probes only. A probe starts at least
`recovery_timeout` after every call that was started before it, whenever that one
ended (`OutageSpaced`), so few of them fit in any interval (`outage_load`).

The record says so by itself: an instant in it is never earlier than one recorded
before, and HALF_OPEN is only ever entered from OPEN (`Chronicle`). Whatever was
started before a probe was then started before the latest opening
(`started_before_opening`), which the admission of the probe is past by the timeout.

Nor can an outage outlast the failures: from every state that a run can reach,
cancellations included, once nothing is in flight and the timeout is over, the next
call is let through, and its outcome decides the state (`recovers`).
-/
import InferenceForge.Library.Spacing
import InferenceForge.Pipeline.BreakerInvariant

namespace InferenceForge.Pipeline.CircuitBreaker

open InferenceForge.Library

set_option autoImplicit false

/-! ## The record in time -/

def instantOf : Observation → Option ℚ
  | .started _ instant | .ended _ _ instant | .moved _ instant _ => some instant
  | _ => none

/-- The instants of the record, newest first. -/
def instants (history : List Observation) : List ℚ := history.filterMap instantOf

/-- HALF_OPEN is only entered from OPEN. -/
def EntersFromOpen : List Observation → Prop
  | [] => True
  | .moved .halfOpen _ _ :: earlier => stateAfter earlier = .opened ∧ EntersFromOpen earlier
  | _ :: earlier => EntersFromOpen earlier

/-- The record is in order, and no later than the clock. -/
structure Chronicle (clock : ℕ → ℚ) (w : Config) : Prop where
  sorted : (instants w.history).Pairwise (· ≥ ·)
  past : ∀ t ∈ instants w.history, t ≤ clock w.ticks
  entered : EntersFromOpen w.history
  state_eq : stateAfter w.history = w.state

section Steps

variable {p : Params} {clock : ℕ → ℚ} {w w' : Config} {c : ℕ}

theorem Chronicle.frame (monotone : Monotone clock) (chronicle : Chronicle clock w)
    (history : w'.history = w.history) (state : w'.state = w.state) (ticks : w.ticks ≤ w'.ticks) :
    Chronicle clock w' where
  sorted := history ▸ chronicle.sorted
  past t member := (chronicle.past t (history ▸ member)).trans (monotone ticks)
  entered := history ▸ chronicle.entered
  state_eq := by rw [history, state, chronicle.state_eq]

/-- One more observation, at an instant of the clock. -/
theorem Chronicle.add (monotone : Monotone clock) (chronicle : Chronicle clock w) {o : Observation}
    (history : w'.history = o :: w.history) (ticks : w.ticks ≤ w'.ticks)
    (dated : ∀ t, instantOf o = some t → clock w.ticks ≤ t ∧ t ≤ clock w'.ticks)
    (entered : EntersFromOpen (o :: w.history)) (state : stateAfter (o :: w.history) = w'.state) :
    Chronicle clock w' where
  sorted := by
    rw [history, instants, List.filterMap_cons]
    cases found : instantOf o with
    | none => exact chronicle.sorted
    | some t =>
        refine List.pairwise_cons.mpr ⟨fun earlier member => ?_, chronicle.sorted⟩
        exact (chronicle.past earlier member).trans (dated t found).1
  past t member := by
    rw [history, instants, List.filterMap_cons] at member
    cases found : instantOf o with
    | none =>
        rw [found] at member
        exact (chronicle.past t member).trans (monotone ticks)
    | some now =>
        rw [found] at member
        rcases List.mem_cons.mp member with rfl | earlier
        · exact (dated t found).2
        · exact (chronicle.past t earlier).trans (monotone ticks)
  entered := history ▸ entered
  state_eq := history ▸ state

/-- An observation that is neither dated nor a transition. -/
theorem Chronicle.observe (chronicle : Chronicle clock w) {o : Observation} (undated : instantOf o = none) :
    Chronicle clock (w.observe o) := by
  obtain ⟨sorted, past, entered, state⟩ := chronicle
  have same : instants (w.observe o).history = instants w.history := by
    rw [instants, Config.observe, List.filterMap_cons, undated]
    rfl
  cases o with
  | started | ended | moved => cases undated
  | entered | rejected | cancelled => exact ⟨same ▸ sorted, same ▸ past, entered, state⟩

theorem Chronicle.transition (monotone : Monotone clock) (chronicle : Chronicle clock w) {target : CBState}
    (from_open : target = .halfOpen → w.state = .opened) :
    Chronicle clock (transition clock target c w) := by
  cases target with
  | closed =>
      refine chronicle.add monotone rfl (Nat.le_succ _) ?_ chronicle.entered rfl
      rintro t ⟨⟩
      exact ⟨le_rfl, monotone (Nat.le_succ _)⟩
  | halfOpen =>
      refine chronicle.add monotone rfl (Nat.le_succ _) ?_ ⟨?_, chronicle.entered⟩ rfl
      · rintro t ⟨⟩
        exact ⟨le_rfl, monotone (Nat.le_succ _)⟩
      · rw [chronicle.state_eq, from_open rfl]
  | opened =>
      refine chronicle.add monotone rfl (Nat.le_add_right _ 2) ?_ chronicle.entered rfl
      rintro t ⟨⟩
      exact ⟨monotone (Nat.le_succ _), monotone (Nat.le_succ _)⟩

theorem Chronicle.maybeTransition (monotone : Monotone clock) (chronicle : Chronicle clock w) :
    Chronicle clock (maybeTransition p clock c w) := by
  rcases maybeTransition_cases p clock c w with ⟨opened, state, _, _, eq⟩ | ⟨_, eq⟩ | eq
  · rw [eq]
    have read : Chronicle clock { w with ticks := w.ticks + 1 } :=
      chronicle.frame monotone rfl rfl (Nat.le_succ _)
    exact read.transition monotone fun _ => state
  · rw [eq]
    exact chronicle.frame monotone rfl rfl (Nat.le_succ _)
  · rwa [eq]

theorem Chronicle.onSuccess (monotone : Monotone clock) (chronicle : Chronicle clock w) :
    Chronicle clock (onSuccess clock c w) := by
  unfold CircuitBreaker.onSuccess
  split
  · have forgotten : Chronicle clock { w with failureTimestamps := [] } :=
      chronicle.frame monotone rfl rfl le_rfl
    exact forgotten.transition monotone nofun
  · exact chronicle

theorem Chronicle.onFailure (monotone : Monotone clock) (chronicle : Chronicle clock w) :
    Chronicle clock (onFailure p clock c w) := by
  unfold CircuitBreaker.onFailure
  dsimp only
  generalize evicted : evictOldFailures p clock _ = v
  have kept : Chronicle clock v := by
    subst evicted
    exact chronicle.frame monotone rfl rfl (Nat.le_add_right _ 2)
  split
  · exact kept.transition monotone nofun
  · split
    · exact kept.transition monotone nofun
    · exact kept
  · exact kept

theorem Chronicle.execute (monotone : Monotone clock) (chronicle : Chronicle clock w) (outcome : Outcome) :
    Chronicle clock (execute p clock c outcome w) := by
  cases outcome with
  | success => exact chronicle.onSuccess monotone
  | openError => exact chronicle
  | exception => exact chronicle.onFailure monotone

theorem Chronicle.probe (monotone : Monotone clock) (chronicle : Chronicle clock w) (outcome : Outcome) :
    Chronicle clock (probe p clock c outcome w) := by
  have executed : Chronicle clock (CircuitBreaker.execute p clock c outcome w) := chronicle.execute monotone outcome
  cases outcome with
  | success => exact executed.onSuccess monotone
  | openError | exception => exact executed.onFailure monotone

theorem Chronicle.start (monotone : Monotone clock) (chronicle : Chronicle clock w) (mode : Mode) :
    Chronicle clock (start clock mode c w) := by
  refine chronicle.add monotone rfl (Nat.le_succ _) ?_ chronicle.entered chronicle.state_eq
  rintro t ⟨⟩
  exact ⟨le_rfl, monotone (Nat.le_succ _)⟩

/-- The phase of a call is not of the record. -/
theorem Chronicle.setPhase (monotone : Monotone clock) (chronicle : Chronicle clock w) (phase : Phase) :
    Chronicle clock (w.setPhase c phase) := chronicle.frame monotone rfl rfl le_rfl

theorem Chronicle.reject (monotone : Monotone clock) (chronicle : Chronicle clock w) :
    Chronicle clock (reject c w) := (chronicle.setPhase monotone .finished).observe rfl

theorem Chronicle.acquired (monotone : Monotone clock) (chronicle : Chronicle clock w) :
    Chronicle clock (acquired clock c w) := by
  have locked : ∀ lock, Chronicle clock { w with lock } := fun _ => chronicle.frame monotone rfl rfl le_rfl
  rcases acquired_cases clock c w with ⟨_, eq⟩ | ⟨_, eq⟩ | ⟨_, eq⟩ <;> rw [eq]
  · exact (locked none).reject monotone
  · exact (locked (some c)).start monotone _
  · exact (locked (some c)).start monotone _

theorem Chronicle.enter (monotone : Monotone clock) (chronicle : Chronicle clock w) :
    Chronicle clock (enter p clock c w) := by
  have moved : Chronicle clock (CircuitBreaker.maybeTransition p clock c (w.observe (.entered c))) :=
    (chronicle.observe rfl).maybeTransition monotone
  unfold CircuitBreaker.enter
  dsimp only
  generalize CircuitBreaker.maybeTransition p clock c (w.observe (.entered c)) = v at moved
  split
  · exact moved.reject monotone
  · split
    · exact moved.acquired monotone
    · exact moved.frame monotone rfl rfl le_rfl
  · exact moved.start monotone _

theorem Chronicle.conclude (monotone : Monotone clock) (chronicle : Chronicle clock w) (mode : Mode)
    (outcome : Outcome) : Chronicle clock (conclude p clock c mode outcome w) := by
  have ended : Chronicle clock ((w.setPhase c .finished).observe (.ended c outcome (clock w.ticks))) := by
    refine chronicle.add monotone rfl le_rfl ?_ chronicle.entered chronicle.state_eq
    rintro t ⟨⟩
    exact ⟨le_rfl, le_rfl⟩
  cases mode with
  | direct => exact ended.execute monotone outcome
  | resumed => exact (ended.execute (p := p) (c := c) monotone outcome).frame monotone rfl rfl le_rfl
  | probe => exact (ended.probe (p := p) (c := c) monotone outcome).frame monotone rfl rfl le_rfl

theorem Chronicle.step (monotone : Monotone clock) (chronicle : Chronicle clock w) {e : Event}
    (stepped : step p clock w e = some w') : Chronicle clock w' := by
  cases e with
  | call c =>
      simp only [CircuitBreaker.step, Option.ite_none_right_eq_some, Option.some.injEq] at stepped
      obtain ⟨_, rfl⟩ := stepped
      exact chronicle.enter monotone
  | resume c =>
      simp only [CircuitBreaker.step, Option.ite_none_right_eq_some, Option.some.injEq] at stepped
      obtain ⟨_, rfl⟩ := stepped
      have dequeued : Chronicle clock { w with waiters := w.waiters.tail } :=
        chronicle.frame monotone rfl rfl le_rfl
      exact dequeued.acquired monotone
  | finish c outcome =>
      simp only [CircuitBreaker.step] at stepped
      split at stepped
      · cases stepped
        exact chronicle.conclude monotone _ outcome
      · cases stepped
  | cancel c =>
      have gone : Chronicle clock ((w.setPhase c .finished).observe (.cancelled c)) :=
        (chronicle.setPhase monotone .finished).observe rfl
      simp only [CircuitBreaker.step, abandon] at stepped
      split at stepped <;> cases stepped
      · exact gone.frame monotone rfl rfl le_rfl
      · exact gone
      · exact gone.frame monotone rfl rfl le_rfl

/-- The call an event is about. -/
def Event.caller : Event → ℕ
  | .call c | .resume c | .finish c _ | .cancel c => c

theorem acquired_calls (clock : ℕ → ℚ) (c : ℕ) (w : Config) :
    ∃ phase, (acquired clock c w).calls = Function.update w.calls c phase := by
  rcases acquired_cases clock c w with ⟨_, eq⟩ | ⟨_, eq⟩ | ⟨_, eq⟩ <;> rw [eq] <;> exact ⟨_, rfl⟩

/-- An event changes the phase of its own call only. -/
theorem step_calls {e : Event} (stepped : step p clock w e = some w') :
    ∃ phase, w'.calls = Function.update w.calls e.caller phase := by
  cases e with
  | call c =>
      simp only [CircuitBreaker.step, Option.ite_none_right_eq_some, Option.some.injEq] at stepped
      obtain ⟨_, rfl⟩ := stepped
      have calls := maybeTransition_calls p clock c (w.observe (.entered c))
      unfold CircuitBreaker.enter
      dsimp only [Event.caller]
      generalize CircuitBreaker.maybeTransition p clock c (w.observe (.entered c)) = v at calls
      rw [← (show v.calls = w.calls from calls)]
      split
      · exact ⟨_, rfl⟩
      · split
        · exact acquired_calls clock c v
        · exact ⟨_, rfl⟩
      · exact ⟨_, rfl⟩
  | resume c =>
      simp only [CircuitBreaker.step, Option.ite_none_right_eq_some, Option.some.injEq] at stepped
      obtain ⟨_, rfl⟩ := stepped
      exact acquired_calls clock c { w with waiters := w.waiters.tail }
  | finish c outcome =>
      simp only [CircuitBreaker.step] at stepped
      split at stepped
      · next mode running =>
          cases stepped
          have executed := execute_handled p clock c
            ((w.setPhase c .finished).observe (.ended c outcome (clock w.ticks))) outcome
          have probed := probe_handled p clock c
            ((w.setPhase c .finished).observe (.ended c outcome (clock w.ticks))) outcome
          cases mode with
          | direct | resumed => exact ⟨_, executed.calls_eq⟩
          | probe => exact ⟨_, probed.calls_eq⟩
      · cases stepped
  | cancel c =>
      simp only [CircuitBreaker.step, abandon] at stepped
      split at stepped <;> cases stepped <;> exact ⟨_, rfl⟩

/-- A call that no event is about stays where it is. -/
theorem exec_calls_of_unmentioned {es : List Event} (ran : exec (step p clock) w es = some w')
    (unmentioned : ∀ e ∈ es, c ≠ e.caller) : w'.calls c = w.calls c := by
  induction es generalizing w with
  | nil =>
      cases ran
      rfl
  | cons e es ih =>
      obtain ⟨v, stepped, rest⟩ := exec_cons_eq_some.mp ran
      obtain ⟨here, later⟩ := List.forall_mem_cons.mp unmentioned
      obtain ⟨phase, calls⟩ := step_calls stepped
      rw [ih rest later, calls, Function.update_of_ne here]

theorem chronicle_init (clock : ℕ → ℚ) : Chronicle clock (init clock) where
  sorted := .nil
  past t member := by cases member
  entered := trivial
  state_eq := rfl

end Steps

/-! ## What a probe follows -/

/-- The instants at which `coro_fn` was started, newest first. -/
def starts : List Observation → List ℚ
  | [] => []
  | .started _ instant :: earlier => instant :: starts earlier
  | _ :: earlier => starts earlier

/-- Those at which the breaker was not CLOSED. -/
def outageStarts : List Observation → List ℚ
  | [] => []
  | .started _ instant :: earlier =>
      if stateAfter earlier ≠ .closed then instant :: outageStarts earlier else outageStarts earlier
  | _ :: earlier => outageStarts earlier

/-- What is started while the breaker is not CLOSED is started at least `recoveryTimeout`
after whatever was started before. -/
def OutageSpaced (p : Params) : List Observation → Prop
  | [] => True
  | .started _ instant :: earlier =>
      (stateAfter earlier ≠ .closed → ∀ t ∈ starts earlier, t + p.recoveryTimeout ≤ instant) ∧
        OutageSpaced p earlier
  | _ :: earlier => OutageSpaced p earlier

section Record

variable {p : Params} {h : List Observation}

theorem starts_subset (h : List Observation) : ∀ t ∈ starts h, t ∈ instants h := by
  induction h with
  | nil => simp [starts]
  | cons o earlier ih =>
      intro t member
      rw [instants, List.filterMap_cons]
      cases o with
      | started c instant =>
          rcases List.mem_cons.mp member with rfl | before
          · exact List.mem_cons_self
          · exact List.mem_cons_of_mem _ (ih t before)
      | ended | moved => exact List.mem_cons_of_mem _ (ih t member)
      | entered | rejected | cancelled => exact ih t member

theorem outageStarts_subset (h : List Observation) : ∀ t ∈ outageStarts h, t ∈ starts h := by
  induction h with
  | nil => simp [outageStarts]
  | cons o earlier ih =>
      intro t member
      cases o with
      | started c instant =>
          rw [outageStarts] at member
          split at member
          · rcases List.mem_cons.mp member with rfl | before
            · exact List.mem_cons_self
            · exact List.mem_cons_of_mem _ (ih t before)
          · exact List.mem_cons_of_mem _ (ih t member)
      | ended | moved | entered | rejected | cancelled => exact ih t member

/-- In OPEN, and in a HALF_OPEN period without a start, whatever was started was started
before the latest opening. -/
theorem started_before_opening (sorted : (instants h).Pairwise (· ≥ ·)) (entered : EntersFromOpen h)
    (safe : AdmissionSafe p h)
    (closed_door : stateAfter h = .opened ∨ (stateAfter h = .halfOpen ∧ startedInPeriod h = [])) :
    ∃ opened, lastOpened h = some opened ∧ ∀ t ∈ starts h, t ≤ opened := by
  induction h with
  | nil => simp [stateAfter] at closed_door
  | cons o earlier ih =>
      cases o with
      | started c instant =>
          obtain ⟨⟨ne, _, _⟩, _⟩ := safe
          rcases closed_door with opened | ⟨_, none_⟩
          · exact absurd opened ne
          · cases none_
      | moved target instant c =>
          obtain ⟨after, in_order⟩ := List.pairwise_cons.mp sorted
          cases target with
          | opened => exact ⟨instant, rfl, fun t member => after t (starts_subset earlier t member)⟩
          | halfOpen => exact ih in_order entered.2 safe (.inl entered.1)
          | closed => simp [stateAfter] at closed_door
      | ended c outcome instant => exact ih (List.pairwise_cons.mp sorted).2 entered safe closed_door
      | entered | rejected | cancelled => exact ih sorted entered safe closed_door

theorem outageSpaced_of_safe (sorted : (instants h).Pairwise (· ≥ ·)) (entered : EntersFromOpen h)
    (safe : AdmissionSafe p h) : OutageSpaced p h := by
  induction h with
  | nil => trivial
  | cons o earlier ih =>
      cases o with
      | started c instant =>
          have sorted := (List.pairwise_cons.mp sorted).2
          obtain ⟨⟨ne, due, first⟩, safe⟩ := safe
          refine ⟨fun outage t member => ?_, ih sorted entered safe⟩
          have halfOpen : stateAfter earlier = .halfOpen := by
            cases state : stateAfter earlier with
            | closed => exact absurd state outage
            | opened => exact absurd state ne
            | halfOpen => rfl
          obtain ⟨opened, last, before⟩ :=
            started_before_opening sorted entered safe (.inr ⟨halfOpen, first halfOpen⟩)
          exact (add_le_add_left (before t member) _).trans (due opened last)
      | moved target instant c =>
          have in_order := (List.pairwise_cons.mp sorted).2
          cases target with
          | halfOpen => exact ih in_order entered.2 safe
          | opened | closed => exact ih in_order entered safe
      | ended c outcome instant => exact ih (List.pairwise_cons.mp sorted).2 entered safe
      | entered | rejected | cancelled => exact ih sorted entered safe

theorem OutageSpaced.apart (spaced : OutageSpaced p h) : Apart p.recoveryTimeout (outageStarts h) := by
  induction h with
  | nil => exact .nil
  | cons o earlier ih =>
      cases o with
      | started c instant =>
          obtain ⟨after, spaced⟩ := spaced
          rw [outageStarts]
          split
          · next outage =>
              exact List.pairwise_cons.mpr
                ⟨fun t member => after outage t (outageStarts_subset earlier t member), ih spaced⟩
          · exact ih spaced
      | ended | moved | entered | rejected | cancelled => exact ih spaced

end Record

/-! ## Every run -/

theorem outageSpaced_of_run (p : Params) (clock : ℕ → ℚ) (monotone : Monotone clock) (es : List Event)
    (kept : ∀ e ∈ es, e.isCancel = false) (w : Config)
    (ran : exec (step p clock) (init clock) es = some w) : OutageSpaced p w.history := by
  have chronicle := exec_invariant (fun _ _ _ chronicle stepped => Chronicle.step monotone chronicle stepped)
    es _ w (chronicle_init clock) ran
  have keeps : ∀ v e t, Admitted p clock v → e.isCancel = false → step p clock v e = some t →
      Admitted p clock t := fun _ _ _ admitted kept stepped => admitted.step monotone kept stepped
  have admitted := exec_invariant_along keeps es _ w (admitted_init p clock) (along_of_forall es _ kept) ran
  exact outageSpaced_of_safe chronicle.sorted chronicle.entered admitted.safe

/-- **The load of an outage.** In every run without cancellations, on a clock that does not
go back: what is started while the breaker is not CLOSED is started at least
`recovery_timeout` after everything before it, and in an interval of length `d` there are
at most `d / recovery_timeout + 1` such starts. -/
theorem outage_load (p : Params) (nonneg : 0 ≤ p.recoveryTimeout) (clock : ℕ → ℚ) (monotone : Monotone clock)
    (es : List Event) (kept : ∀ e ∈ es, e.isCancel = false) (w : Config)
    (ran : exec (step p clock) (init clock) es = some w) :
    OutageSpaced p w.history ∧
      ∀ a b, a ≤ b →
        ((outageStarts w.history).filter fun t => a ≤ t ∧ t ≤ b).length * p.recoveryTimeout ≤
          b - a + p.recoveryTimeout := by
  have spaced := outageSpaced_of_run p clock monotone es kept w ran
  exact ⟨spaced, fun a b le => spaced.apart.length_mul_le le nonneg⟩

/-- Satisfiable pole: a run with a probe, 30 seconds after the calls that opened the breaker. -/
theorem outage_load_staleRun :
    ∃ w, exec (step ⟨1, 20, 30⟩ lateClock) (init lateClock) staleRun = some w ∧ outageStarts w.history = [30] ∧
      OutageSpaced ⟨1, 20, 30⟩ w.history := by
  obtain ⟨w, ran⟩ := Option.isSome_iff_exists.mp staleRun_enabled
  have probed : (exec (step ⟨1, 20, 30⟩ lateClock) (init lateClock) staleRun).map (outageStarts ·.history) =
      some [30] := by decide +kernel
  rw [ran] at probed
  exact ⟨w, ran, Option.some.inj probed,
    (outage_load ⟨1, 20, 30⟩ (by decide) lateClock lateClock_monotone staleRun (by decide) w ran).1⟩

section Recovery

variable {p : Params} {clock : ℕ → ℚ} {w : Config} {c : ℕ}

theorem step_finish {mode : Mode} (running : w.calls c = .running mode) (outcome : Outcome) :
    step p clock w (.finish c outcome) = some (conclude p clock c mode outcome w) := by
  simp only [step, running]

theorem start_calls (mode : Mode) : (start clock mode c w).calls c = .running mode := Function.update_self ..

/-- A newcomer is the probe, where nobody holds the lock or waits for it. -/
theorem enter_probes (free : w.lock = none) (unqueued : w.waiters = [])
    (halfOpen : (maybeTransition p clock c (w.observe (.entered c))).state = .halfOpen) :
    ∃ v, enter p clock c w = start clock .probe c v ∧ v.state = .halfOpen := by
  have quiet : (maybeTransition p clock c (w.observe (.entered c))).lock = none ∧
      (maybeTransition p clock c (w.observe (.entered c))).waiters = [] := by
    rcases maybeTransition_cases p clock c (w.observe (.entered c)) with ⟨_, _, _, _, eq⟩ | ⟨_, eq⟩ | eq <;>
      rw [eq] <;> exact ⟨free, unqueued⟩
  unfold enter
  dsimp only
  generalize maybeTransition p clock c (w.observe (.entered c)) = v at halfOpen quiet
  refine ⟨{ v with lock := some c }, ?_, halfOpen⟩
  rw [halfOpen]
  dsimp only
  rw [if_pos quiet]
  simp only [acquired, halfOpen]

/-- A probe that succeeds closes the breaker. -/
theorem probe_recovers (halfOpen : w.state = .halfOpen) :
    (conclude p clock c .probe .success w).state = .closed ∧
      (conclude p clock c .probe .success w).lock = none ∧
      (conclude p clock c .probe .success w).failureTimestamps = [] := by
  simp [conclude, probe, execute, onSuccess, halfOpen, Config.observe, Config.setPhase, transition]

/-- **An outage can end.** From every state that a run can reach, cancellations included: when
nothing is in flight and, in OPEN, the recovery timeout is over, the next call runs; if it
succeeds, the breaker is CLOSED, its lock is free, and the failures of an outage are
forgotten. -/
theorem recovers (p : Params) (clock : ℕ → ℚ) (monotone : Monotone clock) (es : List Event) (w : Config)
    (ran : exec (step p clock) (init clock) es = some w)
    (settled : ∀ c, w.calls c = .idle ∨ w.calls c = .finished) (c : ℕ) (fresh : w.calls c = .idle)
    (due : w.state = .opened → ∀ opened ∈ w.openedAt, opened + p.recoveryTimeout ≤ clock w.ticks) :
    ∃ w₁ mode w₂, step p clock w (.call c) = some w₁ ∧ w₁.calls c = .running mode ∧
      step p clock w₁ (.finish c .success) = some w₂ ∧ w₂.state = .closed ∧ w₂.lock = none ∧
      (w.state ≠ .closed → w₂.failureTimestamps = []) := by
  have fields := exec_invariant (fun _ _ _ fields stepped => Fields.step monotone fields stepped)
    es _ w (fields_init p clock) ran
  have locked := exec_invariant (fun _ _ _ locked stepped => Locked.step locked stepped) es _ w
    (locked_init clock) ran
  have free : w.lock = none := by
    cases held : w.lock with
    | none => rfl
    | some c =>
        obtain ⟨mode, _, running⟩ := locked.held c held
        rcases settled c with idle | finished
        · cases idle.symm.trans running
        · cases finished.symm.trans running
  have unqueued : w.waiters = [] := by
    refine List.eq_nil_iff_forall_not_mem.mpr fun c member => ?_
    rcases settled c with idle | finished
    · cases idle.symm.trans (locked.queued c member)
    · cases finished.symm.trans (locked.queued c member)
  have entered : step p clock w (.call c) = some (enter p clock c w) := if_pos fresh
  by_cases closed : w.state = .closed
  · have direct : enter p clock c w = start clock .direct c (w.observe (.entered c)) := by
      simp [enter, maybeTransition, Config.observe, closed]
    have running : (enter p clock c w).calls c = .running .direct := by rw [direct, start_calls]
    refine ⟨_, .direct, _, entered, running, step_finish running .success, ?_, ?_, absurd closed⟩
    · simp [direct, conclude, execute, onSuccess, start, Config.observe, Config.setPhase, closed]
    · simp [direct, conclude, execute, onSuccess, start, Config.observe, Config.setPhase, closed, free]
  · have halfOpen : (maybeTransition p clock c (w.observe (.entered c))).state = .halfOpen := by
      cases state : w.state with
      | closed => exact absurd state closed
      | halfOpen => simp [maybeTransition, Config.observe, state]
      | opened =>
          -- in OPEN the instant of the opening is known, and the timeout is over
          cases known : w.openedAt with
          | none => exact absurd (fields.openedAt_iff.mp known) closed
          | some opened =>
              have elapsed : p.recoveryTimeout ≤ clock w.ticks - opened := by
                have := due state opened known
                linarith
              simp [maybeTransition, Config.observe, state, known, elapsed]
    obtain ⟨v, probing, half⟩ := enter_probes free unqueued halfOpen
    have running : (enter p clock c w).calls c = .running .probe := by rw [probing, start_calls]
    obtain ⟨shut, unlocked, forgotten⟩ := @probe_recovers p clock (start clock .probe c v) c half
    rw [← probing] at shut unlocked forgotten
    exact ⟨_, .probe, _, entered, running, step_finish running .success, shut, unlocked, fun _ => forgotten⟩

/-- A failure opens the breaker while another call is in flight. -/
def outageRun : List Event := [.call 0, .call 1, .finish 0 .exception, .finish 1 .success]

/-- Satisfiable pole: both calls of an outage have ended, and 30 seconds have passed. -/
theorem recovers_outageRun :
    ∃ w w₁ mode w₂, exec (step ⟨1, 20, 30⟩ lateClock) (init lateClock) outageRun = some w ∧ w.state = .opened ∧
      step ⟨1, 20, 30⟩ lateClock w (.call 2) = some w₁ ∧ w₁.calls 2 = .running mode ∧
      step ⟨1, 20, 30⟩ lateClock w₁ (.finish 2 .success) = some w₂ ∧ w₂.state = .closed := by
  have looked : (exec (step ⟨1, 20, 30⟩ lateClock) (init lateClock) outageRun).map
      (fun w => (w.state, w.openedAt, w.ticks, w.calls 0, w.calls 1)) =
        some (.opened, some 0, 7, .finished, .finished) := by decide +kernel
  obtain ⟨w, ran, seen⟩ := Option.map_eq_some_iff.mp looked
  simp only [Prod.mk.injEq] at seen
  obtain ⟨state, openedAt, ticks, first, second⟩ := seen
  have idle : ∀ c, 2 ≤ c → w.calls c = .idle := by
    intro c le
    refine exec_calls_of_unmentioned ran fun e member => ?_
    simp only [outageRun, List.mem_cons, List.not_mem_nil, or_false] at member
    rcases member with rfl | rfl | rfl | rfl <;> simp only [Event.caller] <;> omega
  obtain ⟨w₁, mode, w₂, called, running, finished, closed, _⟩ :=
    recovers ⟨1, 20, 30⟩ lateClock lateClock_monotone outageRun w ran (fun c => by
      match c with
      | 0 => exact .inr first
      | 1 => exact .inr second
      | c + 2 => exact .inl (idle (c + 2) (by omega))) 2 (idle 2 le_rfl) (fun _ opened known => by
      rw [openedAt] at known
      cases known
      rw [ticks]
      decide +kernel)
  exact ⟨w, w₁, mode, w₂, ran, state, called, running, finished, closed⟩

end Recovery

end InferenceForge.Pipeline.CircuitBreaker
