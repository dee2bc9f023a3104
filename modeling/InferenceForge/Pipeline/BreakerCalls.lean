/-
# InferenceForge.Pipeline.BreakerCalls — what a caller sees of the breaker

Each event is about one call: it changes the phase of this call alone, and adds it to
the calls that were started or to those that were rejected, or to neither. `Decided` is
what `call` and `resume` can do, `step_finish_told` and `step_cancel_told` the end.

Over runs: who is in flight was started, nobody is started twice (`Begun`), and whoever
waits is in the queue (`Enqueued`), so the first of the queue can go on as soon as the
lock is free.
-/
import InferenceForge.Pipeline.BreakerOutage
import InferenceForge.Pipeline.BreakerProbe

namespace InferenceForge.Pipeline.CircuitBreaker

open InferenceForge.Library

set_option autoImplicit false

/-- The calls that were started, newest first. -/
def startedCalls : List Observation → List ℕ
  | [] => []
  | .started c _ :: earlier => c :: startedCalls earlier
  | _ :: earlier => startedCalls earlier

def rejectedCalls : List Observation → List ℕ
  | [] => []
  | .rejected c :: earlier => c :: rejectedCalls earlier
  | _ :: earlier => rejectedCalls earlier

/-- The record says the same of starts and rejections. -/
def Alike (h h' : List Observation) : Prop :=
  startedCalls h' = startedCalls h ∧ rejectedCalls h' = rejectedCalls h

/-- What is decided for a call that enters, or that has waited. -/
inductive Decided (c : ℕ) (w w' : Config) : Prop
  | runs (mode : Mode) (calls : w'.calls = Function.update w.calls c (.running mode))
      (started : startedCalls w'.history = c :: startedCalls w.history)
      (rejected : rejectedCalls w'.history = rejectedCalls w.history)
  | queued (calls : w'.calls = Function.update w.calls c .waiting) (alike : Alike w.history w'.history)
  | rejected (calls : w'.calls = Function.update w.calls c .finished)
      (started : startedCalls w'.history = startedCalls w.history)
      (rejected : rejectedCalls w'.history = c :: rejectedCalls w.history)

section Told

variable {p : Params} {clock : ℕ → ℚ} {w w' : Config} {c : ℕ} {h h' : List Observation}

theorem Moves.alike (moves : Moves h h') : Alike h h' := by
  rcases moves with rfl | ⟨_, _, _, rfl⟩ <;> exact ⟨rfl, rfl⟩

theorem Alike.trans {h₁ h₂ h₃ : List Observation} (first : Alike h₁ h₂) (second : Alike h₂ h₃) : Alike h₁ h₃ :=
  ⟨second.1.trans first.1, second.2.trans first.2⟩

theorem acquired_decided (clock : ℕ → ℚ) (c : ℕ) (w : Config) : Decided c w (acquired clock c w) := by
  rcases acquired_cases clock c w with ⟨_, eq⟩ | ⟨_, eq⟩ | ⟨_, eq⟩ <;> rw [eq]
  · exact .rejected rfl rfl rfl
  · exact .runs _ rfl rfl rfl
  · exact .runs _ rfl rfl rfl

/-- What was decided after the record was only told of transitions. -/
theorem Decided.after {v : Config} (decided : Decided c v w') (calls : v.calls = w.calls)
    (alike : Alike w.history v.history) : Decided c w w' := by
  cases decided with
  | runs mode updated started rejected =>
      rw [calls] at updated
      exact .runs mode updated (started.trans (congrArg (c :: ·) alike.1)) (rejected.trans alike.2)
  | queued updated same =>
      rw [calls] at updated
      exact .queued updated (alike.trans same)
  | rejected updated started rejected =>
      rw [calls] at updated
      exact .rejected updated (started.trans alike.1) (rejected.trans (congrArg (c :: ·) alike.2))

theorem step_call_decided (stepped : step p clock w (.call c) = some w') : Decided c w w' := by
  simp only [step, Option.ite_none_right_eq_some, Option.some.injEq] at stepped
  obtain ⟨_, rfl⟩ := stepped
  have calls := maybeTransition_calls p clock c (w.observe (.entered c))
  have moves := maybeTransition_moves p clock c (w.observe (.entered c))
  unfold enter
  dsimp only
  generalize maybeTransition p clock c (w.observe (.entered c)) = v at calls moves
  have entered : Alike w.history (.entered c :: w.history) := ⟨rfl, rfl⟩
  have told : Alike w.history v.history := entered.trans moves.alike
  refine Decided.after ?_ calls told
  split
  · exact .rejected rfl rfl rfl
  · split
    · exact acquired_decided clock c v
    · exact .queued rfl ⟨rfl, rfl⟩
  · exact .runs _ rfl rfl rfl

theorem step_resume_decided (stepped : step p clock w (.resume c) = some w') : Decided c w w' := by
  simp only [step, Option.ite_none_right_eq_some, Option.some.injEq] at stepped
  obtain ⟨_, rfl⟩ := stepped
  exact (acquired_decided clock c { w with waiters := w.waiters.tail }).after rfl ⟨rfl, rfl⟩

/-- Past the lock, nobody waits any more. -/
theorem step_resume_waiting (stepped : step p clock w (.resume c) = some w') : w'.calls c ≠ .waiting := by
  simp only [step, Option.ite_none_right_eq_some, Option.some.injEq] at stepped
  obtain ⟨_, rfl⟩ := stepped
  rcases acquired_cases clock c { w with waiters := w.waiters.tail } with ⟨_, eq⟩ | ⟨_, eq⟩ | ⟨_, eq⟩ <;> rw [eq] <;>
    simp [reject, start, Config.setPhase, Config.observe]

theorem Observed.alike {before : Phase} (observed : Observed h c before .finished h') (running : before.Running) :
    Alike h h' := by
  obtain ⟨mode, rfl⟩ := running
  cases observed with
  | rejected pending => exact absurd rfl pending.not_running
  | ends => exact ⟨rfl, rfl⟩
  | cancelled => exact ⟨rfl, rfl⟩

/-- A call that is in flight ends. -/
theorem step_finish_told {outcome : Outcome} (stepped : step p clock w (.finish c outcome) = some w') :
    w'.calls = Function.update w.calls c .finished ∧ Alike w.history w'.history := by
  simp only [step] at stepped
  split at stepped
  · next mode running =>
      cases stepped
      obtain ⟨h, calls, observed, moves⟩ := conclude_told p clock running outcome
      exact ⟨calls, (observed.alike ⟨mode, running⟩).trans moves.alike⟩
  · cases stepped

theorem step_cancel_told (stepped : step p clock w (.cancel c) = some w') :
    w'.calls = Function.update w.calls c .finished ∧ Alike w.history w'.history := by
  simp only [step, abandon] at stepped
  split at stepped <;> cases stepped <;> exact ⟨rfl, rfl, rfl⟩

end Told

/-! ## Over runs -/

/-- Who is in flight was started, who was not yet let through was not, and nobody was
started twice. -/
structure Begun (w : Config) : Prop where
  started : ∀ c, (w.calls c).Running → c ∈ startedCalls w.history
  unstarted : ∀ c, (w.calls c).Pending → c ∉ startedCalls w.history
  once : (startedCalls w.history).Nodup

/-- Who waits is in the queue. -/
def Enqueued (w : Config) : Prop := ∀ c, w.calls c = .waiting → c ∈ w.waiters

section Runs

variable {p : Params} {clock : ℕ → ℚ} {w w' : Config} {c : ℕ}

theorem begun_init (clock : ℕ → ℚ) : Begun (init clock) where
  started c running := by
    obtain ⟨_, impossible⟩ := running
    cases impossible
  unstarted c _ member := by cases member
  once := .nil

/-- A call leaves the ones that wait or run, or is still among those that wait. -/
theorem Begun.quiet (begun : Begun w) {phase : Phase} (calls : w'.calls = Function.update w.calls c phase)
    (alike : startedCalls w'.history = startedCalls w.history) (still : ¬ phase.Running)
    (pending : phase.Pending → (w.calls c).Pending) : Begun w' where
  started d running := by
    rw [alike]
    rw [calls] at running
    by_cases same : d = c
    · subst same
      rw [Function.update_self] at running
      exact absurd running still
    · rw [Function.update_of_ne same] at running
      exact begun.started d running
  unstarted d waits := by
    rw [alike]
    rw [calls] at waits
    by_cases same : d = c
    · subst same
      rw [Function.update_self] at waits
      exact begun.unstarted d (pending waits)
    · rw [Function.update_of_ne same] at waits
      exact begun.unstarted d waits
  once := by
    rw [alike]
    exact begun.once

theorem Begun.decided (begun : Begun w) (decided : Decided c w w') (pending : (w.calls c).Pending) : Begun w' := by
  cases decided with
  | queued calls alike =>
      exact begun.quiet calls alike.1 (by simp [Phase.Running]) fun _ => pending
  | rejected calls started _ =>
      exact begun.quiet calls started (by simp [Phase.Running]) fun _ => pending
  | runs mode calls started _ =>
      refine ⟨fun d running => ?_, fun d waits => ?_, ?_⟩ <;> rw [started]
      · rw [calls] at running
        by_cases same : d = c
        · exact same ▸ List.mem_cons_self
        · rw [Function.update_of_ne same] at running
          exact List.mem_cons_of_mem _ (begun.started d running)
      · rw [calls] at waits
        by_cases same : d = c
        · subst same
          rw [Function.update_self] at waits
          exact absurd rfl waits.not_running
        · rw [Function.update_of_ne same] at waits
          exact List.not_mem_cons_of_ne_of_not_mem same (begun.unstarted d waits)
      · exact List.nodup_cons.mpr ⟨begun.unstarted c pending, begun.once⟩

theorem Begun.step (begun : Begun w) (locked : Locked w) {e : Event} (stepped : step p clock w e = some w') :
    Begun w' := by
  cases e with
  | call c =>
      have decided := step_call_decided stepped
      simp only [CircuitBreaker.step, Option.ite_none_right_eq_some, Option.some.injEq] at stepped
      exact begun.decided decided (.inl stepped.1)
  | resume c =>
      have decided := step_resume_decided stepped
      simp only [CircuitBreaker.step, Option.ite_none_right_eq_some, Option.some.injEq] at stepped
      exact begun.decided decided (.inr (locked.queued c (List.mem_of_head? stepped.1.2)))
  | finish c outcome =>
      obtain ⟨calls, alike⟩ := step_finish_told stepped
      exact begun.quiet calls alike.1 (by simp [Phase.Running]) (by simp [Phase.Pending])
  | cancel c =>
      obtain ⟨calls, alike⟩ := step_cancel_told stepped
      exact begun.quiet calls alike.1 (by simp [Phase.Running]) (by simp [Phase.Pending])

/-- A call that waits no more leaves the queue of the others alone. -/
theorem Enqueued.leave (enqueued : Enqueued w) {phase : Phase} (calls : w'.calls = Function.update w.calls c phase)
    (moves : phase ≠ .waiting) (queue : ∀ d ≠ c, d ∈ w.waiters → d ∈ w'.waiters) : Enqueued w' := by
  intro d waiting
  rw [calls] at waiting
  by_cases same : d = c
  · subst same
    rw [Function.update_self] at waiting
    exact absurd waiting moves
  · rw [Function.update_of_ne same] at waiting
    exact queue d same (enqueued d waiting)

theorem acquired_waiters (clock : ℕ → ℚ) (c : ℕ) (w : Config) : (acquired clock c w).waiters = w.waiters := by
  rcases acquired_cases clock c w with ⟨_, eq⟩ | ⟨_, eq⟩ | ⟨_, eq⟩ <;> rw [eq] <;> rfl

theorem Enqueued.acquired (enqueued : ∀ d ≠ c, w.calls d = .waiting → d ∈ w.waiters) :
    Enqueued (acquired clock c w) := by
  intro d waiting
  rw [acquired_waiters]
  rcases acquired_cases clock c w with ⟨_, eq⟩ | ⟨_, eq⟩ | ⟨_, eq⟩ <;> rw [eq] at waiting <;>
    by_cases same : d = c <;> simp_all [reject, start, Config.setPhase, Config.observe]

theorem Enqueued.enter (enqueued : Enqueued w) : Enqueued (enter p clock c w) := by
  have calls : (maybeTransition p clock c (w.observe (.entered c))).calls = w.calls := maybeTransition_calls p clock c _
  have waiters : (maybeTransition p clock c (w.observe (.entered c))).waiters = w.waiters :=
    (maybeTransition_lock p clock c _).2
  unfold CircuitBreaker.enter
  dsimp only
  generalize maybeTransition p clock c (w.observe (.entered c)) = v at calls waiters
  have before : Enqueued v := by
    intro d waiting
    rw [waiters]
    exact enqueued d (calls ▸ waiting)
  split
  · exact before.leave rfl (by simp) fun _ _ member => member
  · split
    · exact Enqueued.acquired fun d _ waiting => before d waiting
    · intro d waiting
      by_cases same : d = c
      · subst same
        exact List.mem_append_right _ (List.mem_singleton_self d)
      · exact List.mem_append_left _ (before d (by simpa [Config.setPhase, same] using waiting))
  · exact before.leave rfl (by simp) fun _ _ member => member

theorem Enqueued.step (enqueued : Enqueued w) {e : Event} (stepped : step p clock w e = some w') : Enqueued w' := by
  cases e with
  | call c =>
      simp only [CircuitBreaker.step, Option.ite_none_right_eq_some, Option.some.injEq] at stepped
      obtain ⟨_, rfl⟩ := stepped
      exact enqueued.enter
  | resume c =>
      simp only [CircuitBreaker.step, Option.ite_none_right_eq_some, Option.some.injEq] at stepped
      obtain ⟨⟨_, first⟩, rfl⟩ := stepped
      refine Enqueued.acquired fun d ne waiting => ?_
      obtain ⟨rest, queue⟩ := List.head?_eq_some_iff.mp first
      have member := enqueued d waiting
      rw [queue] at member
      simpa [queue] using (List.mem_cons.mp member).resolve_left ne
  | finish c outcome =>
      have calls := (step_finish_told stepped).1
      refine enqueued.leave calls (by simp) fun d _ member => ?_
      simp only [CircuitBreaker.step] at stepped
      split at stepped
      · next mode running =>
          cases stepped
          have executed := execute_handled p clock c
            ((w.setPhase c .finished).observe (.ended c outcome (clock w.ticks))) outcome
          have probed := probe_handled p clock c
            ((w.setPhase c .finished).observe (.ended c outcome (clock w.ticks))) outcome
          cases mode with
          | direct | resumed => exact executed.waiters_eq.symm ▸ member
          | probe => exact probed.waiters_eq.symm ▸ member
      · cases stepped
  | cancel c =>
      have calls := (step_cancel_told stepped).1
      refine enqueued.leave calls (by simp) fun d ne member => ?_
      simp only [CircuitBreaker.step, abandon] at stepped
      split at stepped <;> cases stepped
      · exact (List.mem_erase_of_ne ne).mpr member
      · exact member
      · exact member

/-- The breaker of a run. -/
structure Sound (w : Config) : Prop where
  locked : Locked w
  begun : Begun w
  enqueued : Enqueued w

theorem sound_init (clock : ℕ → ℚ) : Sound (init clock) where
  locked := locked_init clock
  begun := begun_init clock
  enqueued c waiting := by cases waiting

theorem Sound.step (sound : Sound w) {e : Event} (stepped : step p clock w e = some w') : Sound w' where
  locked := sound.locked.step stepped
  begun := sound.begun.step sound.locked stepped
  enqueued := sound.enqueued.step stepped

/-- Somebody who waits can go on, once the lock is free. -/
theorem Sound.resumes (sound : Sound w) (free : w.lock = none) (waiting : w.calls c = .waiting) :
    ∃ first, w.calls first = .waiting ∧ (CircuitBreaker.step p clock w (.resume first)).isSome := by
  cases queue : w.waiters with
  | nil =>
      have member := sound.enqueued c waiting
      rw [queue] at member
      cases member
  | cons first rest =>
      refine ⟨first, sound.locked.queued first (queue ▸ List.mem_cons_self), ?_⟩
      simp [CircuitBreaker.step, free, queue]

end Runs

end InferenceForge.Pipeline.CircuitBreaker
