/-
# InferenceForge.Pipeline.BreakerAccounting — what `failure_count` counts

`failures` reads from the record the calls whose `coro_fn` raised since the
breaker last became CLOSED. The timestamps are what evictions have left of them
(`Tally`), so `failureCount` is the number of distinct calls that failed within
the window, as long as no probe fails: `_execute` and `_half_open_probe` both
record the failure of a probe, and `_half_open_probe` records a
`CircuitBreakerOpenError` as well (`failed_probe_counts_twice`).

`accounted_of_unprobed` is the result over runs whose probes do not fail.
-/
import InferenceForge.Pipeline.BreakerInvariant
import Mathlib.Data.Finset.Card

namespace InferenceForge.Pipeline.CircuitBreaker

open InferenceForge.Library

set_option autoImplicit false

/-! ## What the record says -/

/-- The calls whose `coro_fn` raised since the latest transition to CLOSED, each
with the instant, latest first. -/
def failures : List Observation → List (ℕ × ℚ)
  | [] => []
  | .moved .closed _ _ :: _ => []
  | .ended c .exception instant :: earlier => (c, instant) :: failures earlier
  | _ :: earlier => failures earlier

/-- The distinct calls among them that failed at `cutoff` or later. -/
def failedCalls (cutoff : ℚ) (history : List Observation) : Finset ℕ :=
  (((failures history).filter (cutoff ≤ ·.2)).map Prod.fst).toFinset

/-- Every transition from CLOSED to OPEN in the record directly follows the end of
a call, and as many distinct calls as the threshold asks for failed in the window
that ends there. -/
def RestsOnFailures (p : Params) : List Observation → Prop
  | [] => True
  | .moved .opened _ _ :: earlier =>
      (stateAfter earlier = .closed → ∃ c outcome instant before,
        earlier = .ended c outcome instant :: before ∧
          p.failureThreshold ≤ (failedCalls (instant - p.windowSeconds) earlier).card) ∧
      RestsOnFailures p earlier
  | _ :: earlier => RestsOnFailures p earlier

/-- `failure_count`. -/
def failureCount (p : Params) (clock : ℕ → ℚ) (w : Config) : ℕ :=
  (evictOldFailures p clock w).failureTimestamps.length

/-- The failures are counted once each, and the breaker opens on enough of them. -/
structure Accounted (p : Params) (clock : ℕ → ℚ) (w : Config) : Prop where
  count : failureCount p clock w = (failedCalls (clock w.ticks - p.windowSeconds) w.history).card
  rests : RestsOnFailures p w.history

/-- A step is sound unless it ends a probe with an exception. -/
def ProbeHolds (w : Config) : Event → Prop
  | .finish c outcome => w.calls c = .running .probe → outcome = .success
  | _ => True

/-! ## The invariant -/

section Steps

variable {p : Params} {clock : ℕ → ℚ} {w w' : Config} {c : ℕ}

/-- The timestamps are what is left of the failures. -/
def Tally (p : Params) (clock : ℕ → ℚ) (w : Config) : Prop :=
  Window (clock w.ticks - p.windowSeconds) ((failures w.history).map Prod.snd).reverse
    w.failureTimestamps

/-- Every call failed once. -/
structure Once (w : Config) : Prop where
  distinct : ((failures w.history).map Prod.fst).Nodup
  ended : ∀ failure ∈ failures w.history, w.calls failure.1 = .finished

structure Counting (p : Params) (clock : ℕ → ℚ) (w : Config) : Prop where
  recorded : stateAfter w.history = w.state
  stamps : Stamps clock w
  tally : Tally p clock w
  once : Once w
  rests : RestsOnFailures p w.history

theorem failedCalls_card (distinct : ((failures w.history).map Prod.fst).Nodup) (cutoff : ℚ) :
    (failedCalls cutoff w.history).card =
      ((failures w.history).map Prod.snd).reverse.countP (cutoff ≤ ·) := by
  have some_distinct : (((failures w.history).filter (cutoff ≤ ·.2)).map Prod.fst).Nodup :=
    distinct.sublist (List.filter_sublist.map _)
  rw [failedCalls, List.toFinset_card_of_nodup some_distinct, List.length_map,
    ← List.countP_eq_length_filter, List.countP_reverse, List.countP_map]
  rfl

/-- The window of a later cutoff has no more calls. -/
theorem failedCalls_card_le {history : List Observation} {cutoff cutoff' : ℚ} (le : cutoff ≤ cutoff') :
    (failedCalls cutoff' history).card ≤ (failedCalls cutoff history).card := by
  refine Finset.card_le_card fun c member => ?_
  rw [failedCalls, List.mem_toFinset, List.mem_map] at member ⊢
  obtain ⟨failure, there, same⟩ := member
  obtain ⟨failed, recent⟩ := List.mem_filter.mp there
  refine ⟨failure, List.mem_filter.mpr ⟨failed, ?_⟩, same⟩
  simp only [decide_eq_true_eq] at recent ⊢
  exact le.trans recent

theorem Counting.accounted (counting : Counting p clock w) : Accounted p clock w where
  count := by
    rw [failedCalls_card counting.once.distinct]
    exact counting.tally.length_evict counting.stamps.sorted
  rests := counting.rests

theorem Tally.frame (monotone : Monotone clock) (tally : Tally p clock w)
    (history : failures w'.history = failures w.history)
    (same : w'.failureTimestamps = w.failureTimestamps) (ticks : w.ticks ≤ w'.ticks) :
    Tally p clock w' := by
  have window := Window.mono tally (sub_le_sub_right (monotone ticks) p.windowSeconds)
  rw [Tally, history, same]
  exact window

/-! ## Events that end no call -/

/-- The record and the timestamps are as before, as far as failures go. -/
structure Silent (p : Params) (w w' : Config) : Prop where
  failures_eq : failures w'.history = failures w.history
  stamps_eq : w'.failureTimestamps = w.failureTimestamps
  ticks_le : w.ticks ≤ w'.ticks
  ended : ∀ c, w.calls c = .finished → w'.calls c = .finished
  recorded : stateAfter w.history = w.state → stateAfter w'.history = w'.state
  rests : RestsOnFailures p w.history → RestsOnFailures p w'.history

theorem Silent.trans {w'' : Config} (first : Silent p w w') (second : Silent p w' w'') :
    Silent p w w'' where
  failures_eq := second.failures_eq.trans first.failures_eq
  stamps_eq := second.stamps_eq.trans first.stamps_eq
  ticks_le := first.ticks_le.trans second.ticks_le
  ended c done := second.ended c (first.ended c done)
  recorded known := second.recorded (first.recorded known)
  rests known := second.rests (first.rests known)

theorem silent_maybeTransition (clock : ℕ → ℚ) : Silent p w (maybeTransition p clock c w) := by
  rcases maybeTransition_cases p clock c w with ⟨_, _, _, _, eq⟩ | ⟨_, eq⟩ | eq <;> rw [eq]
  · exact ⟨rfl, rfl, by simp only [transition]; omega, fun _ ended => ended, fun _ => rfl, fun known => known⟩
  · exact ⟨rfl, rfl, Nat.le_succ _, fun _ ended => ended, fun known => known, fun known => known⟩
  · exact ⟨rfl, rfl, le_rfl, fun _ ended => ended, fun known => known, fun known => known⟩

theorem update_finished {phase : Phase} (unfinished : w.calls c ≠ .finished) (c' : ℕ)
    (ended : w.calls c' = .finished) : Function.update w.calls c phase c' = .finished := by
  have ne : c' ≠ c := by
    rintro rfl
    exact unfinished ended
  rwa [Function.update_of_ne ne]

theorem silent_acquired (unfinished : w.calls c ≠ .finished) : Silent p w (acquired clock c w) := by
  rcases acquired_cases clock c w with ⟨_, eq⟩ | ⟨_, eq⟩ | ⟨_, eq⟩ <;> rw [eq]
  · exact ⟨rfl, rfl, le_rfl, update_finished unfinished, fun known => known, fun known => known⟩
  · exact ⟨rfl, rfl, Nat.le_succ _, update_finished unfinished, fun known => known, fun known => known⟩
  · exact ⟨rfl, rfl, Nat.le_succ _, update_finished unfinished, fun known => known, fun known => known⟩

theorem silent_enter (idle : w.calls c = .idle) : Silent p w (enter p clock c w) := by
  have entered : Silent p w (w.observe (.entered c)) :=
    ⟨rfl, rfl, le_rfl, fun _ ended => ended, fun known => known, fun known => known⟩
  have moved := entered.trans (silent_maybeTransition clock (c := c))
  have unfinished : (maybeTransition p clock c (w.observe (.entered c))).calls c ≠ .finished := by
    simp [maybeTransition_calls, Config.observe, idle]
  simp only [enter]
  generalize maybeTransition p clock c (w.observe (.entered c)) = v at moved unfinished
  refine moved.trans ?_
  split
  · exact ⟨rfl, rfl, le_rfl, update_finished unfinished, fun known => known, fun known => known⟩
  · split
    · exact silent_acquired unfinished
    · exact ⟨rfl, rfl, le_rfl, update_finished unfinished, fun known => known, fun known => known⟩
  · exact ⟨rfl, rfl, Nat.le_succ _, update_finished unfinished, fun known => known, fun known => known⟩

/-- Only the end of a call is not silent. -/
theorem silent_step (locked : Locked w) {e : Event} (other : ∀ c outcome, e ≠ .finish c outcome)
    (stepped : step p clock w e = some w') : Silent p w w' := by
  cases e with
  | call c =>
      simp only [step, Option.ite_none_right_eq_some, Option.some.injEq] at stepped
      obtain ⟨idle, rfl⟩ := stepped
      exact silent_enter idle
  | resume c =>
      simp only [step, Option.ite_none_right_eq_some, Option.some.injEq] at stepped
      obtain ⟨⟨_, first⟩, rfl⟩ := stepped
      have waiting := locked.queued c (List.mem_of_head? first)
      have left : Silent p w { w with waiters := w.waiters.tail } :=
        ⟨rfl, rfl, le_rfl, fun _ ended => ended, fun known => known, fun known => known⟩
      refine left.trans (silent_acquired ?_)
      show w.calls c ≠ .finished
      simp [waiting]
  | finish c outcome => exact absurd rfl (other c outcome)
  | cancel c =>
      have cancelled : ∀ phase, w.calls c = phase → phase ≠ .finished →
          ∀ c', w.calls c' = .finished → Function.update w.calls c .finished c' = .finished :=
        fun phase now ne => update_finished (by rw [now]; exact ne)
      simp only [step, abandon] at stepped
      split at stepped
      · next now =>
          cases stepped
          exact ⟨rfl, rfl, le_rfl, cancelled _ now (by simp), fun known => known, fun known => known⟩
      · next now =>
          cases stepped
          exact ⟨rfl, rfl, le_rfl, cancelled _ now (by simp), fun known => known, fun known => known⟩
      · next now =>
          cases stepped
          exact ⟨rfl, rfl, le_rfl, cancelled _ now (by simp), fun known => known, fun known => known⟩
      · cases stepped

theorem Counting.silent (monotone : Monotone clock) (counting : Counting p clock w)
    (silent : Silent p w w') : Counting p clock w' where
  recorded := silent.recorded counting.recorded
  stamps := counting.stamps.frame monotone silent.stamps_eq silent.ticks_le
  tally := counting.tally.frame monotone silent.failures_eq silent.stamps_eq silent.ticks_le
  once := by
    constructor <;> rw [silent.failures_eq]
    · exact counting.once.distinct
    · exact fun failure member => silent.ended failure.1 (counting.once.ended failure member)
  rests := silent.rests counting.rests

/-! ## The end of a call -/

/-- `_on_success` forgets the failures when it closes the breaker. -/
theorem Counting.onSuccess (counting : Counting p clock w) : Counting p clock (onSuccess clock c w) := by
  cases state : w.state with
  | halfOpen =>
      simp only [CircuitBreaker.onSuccess, state, transition]
      exact ⟨rfl, ⟨.nil, by simp⟩, Window.refl _ [], ⟨.nil, by simp [failures]⟩, counting.rests⟩
  | opened => simpa only [CircuitBreaker.onSuccess, state] using counting
  | closed => simpa only [CircuitBreaker.onSuccess, state] using counting

/-- Opening the breaker keeps the failures. -/
theorem Counting.opened (monotone : Monotone clock) (counting : Counting p clock w)
    (rests : w.state = .closed → ∃ c outcome instant before,
      w.history = .ended c outcome instant :: before ∧
        p.failureThreshold ≤ (failedCalls (instant - p.windowSeconds) w.history).card) :
    Counting p clock (transition clock .opened c w) where
  recorded := rfl
  stamps := counting.stamps.frame monotone rfl (by simp [transition])
  tally := counting.tally.frame monotone rfl rfl (by simp [transition])
  once := ⟨counting.once.distinct, counting.once.ended⟩
  rests := ⟨fun closed => rests (counting.recorded.symm.trans closed), counting.rests⟩

theorem Counting.unlock (counting : Counting p clock w) :
    Counting p clock { w with lock := none } :=
  ⟨counting.recorded, ⟨counting.stamps.sorted, counting.stamps.past⟩, counting.tally,
    ⟨counting.once.distinct, counting.once.ended⟩, counting.rests⟩

/-- `_on_failure` records the call that has just ended. -/
theorem Counting.onFailure (monotone : Monotone clock) {before : List Observation}
    (recorded : stateAfter before = w.state) (stamps : Stamps clock w)
    (window : Window (clock w.ticks - p.windowSeconds) ((failures before).map Prod.snd).reverse
      w.failureTimestamps)
    (ended : w.history = .ended c .exception (clock w.ticks) :: before)
    (once : Once w) (rests : RestsOnFailures p before) : Counting p clock (onFailure p clock c w) := by
  have later : clock w.ticks ≤ clock (w.ticks + 1) := monotone (Nat.le_succ _)
  have latest : clock w.ticks ≤ clock (w.ticks + 1 + 1) := monotone (by omega)
  have cutoffs : clock w.ticks - p.windowSeconds ≤ clock (w.ticks + 1) - p.windowSeconds :=
    sub_le_sub_right later _
  have all : ((failures w.history).map Prod.snd).reverse =
      ((failures before).map Prod.snd).reverse ++ [clock w.ticks] := by
    rw [ended]
    simp [failures]
  have pushed := (window.mono cutoffs).push (clock w.ticks)
  rw [← all] at pushed
  have evicted : Counting p clock (evictOldFailures p clock (recordFailure clock w)) := by
    refine ⟨?_, (stamps.append monotone).evict monotone, ?_, ⟨once.distinct, once.ended⟩, ?_⟩
    · show stateAfter w.history = w.state
      rw [ended, ← recorded]
      rfl
    · exact pushed.evict.mono (sub_le_sub_right (monotone (Nat.le_succ _)) _)
    · show RestsOnFailures p w.history
      rw [ended]
      exact rests
  have count := pushed.length_evict (pairwise_push stamps.sorted stamps.past)
  rw [← failedCalls_card once.distinct] at count
  unfold CircuitBreaker.onFailure
  simp only
  split
  · next state =>
      refine evicted.opened monotone fun closed => ?_
      have closed : w.state = .closed := closed
      rw [closed] at state
      cases state
  · next state =>
      split
      · next many =>
          refine evicted.opened monotone fun _ => ⟨c, .exception, clock w.ticks, before, ended, ?_⟩
          refine many.trans (Int.ofNat_le.mpr (count.trans_le ?_))
          exact failedCalls_card_le cutoffs
      · exact evicted
  · exact evicted

/-- A call whose end is sound. -/
theorem Counting.conclude (monotone : Monotone clock) (counting : Counting p clock w) {mode : Mode}
    {outcome : Outcome} (running : w.calls c = .running mode)
    (holds : ProbeHolds w (.finish c outcome)) :
    Counting p clock (conclude p clock c mode outcome w) := by
  obtain ⟨recorded, stamps, tally, ⟨distinct, ended⟩, rests⟩ := counting
  let v := (w.setPhase c .finished).observe (.ended c outcome (clock w.ticks))
  have still : ∀ failure ∈ failures w.history, v.calls failure.1 = .finished := fun failure member =>
    update_finished (by simp [running]) failure.1 (ended failure member)
  have unrecorded : outcome ≠ .exception → Counting p clock v := by
    intro other
    have same : failures v.history = failures w.history := by
      cases outcome with
      | exception => exact absurd rfl other
      | success | openError => rfl
    refine ⟨recorded, stamps.frame monotone rfl le_rfl, tally.frame monotone same rfl le_rfl, ?_, rests⟩
    constructor <;> rw [same]
    · exact distinct
    · exact still
  -- `_execute` records every end at most once
  have executed : Counting p clock (execute p clock c outcome v) := by
    cases outcome with
    | success => exact (unrecorded (by simp)).onSuccess
    | openError => exact unrecorded (by simp)
    | exception =>
        refine Counting.onFailure (w := v) monotone recorded (stamps.frame monotone rfl le_rfl) tally
          rfl ⟨?_, ?_⟩ rests
        · show (c :: (failures w.history).map Prod.fst).Nodup
          refine List.nodup_cons.mpr ⟨fun member => ?_, distinct⟩
          obtain ⟨failure, there, same⟩ := List.mem_map.mp member
          have finished := ended failure there
          rw [same, running] at finished
          cases finished
        · intro failure member
          rcases List.mem_cons.mp member with rfl | earlier
          · simp [v, Config.observe, Config.setPhase]
          · exact still failure earlier
  cases mode with
  | direct => exact executed
  | resumed => exact executed.unlock
  | probe =>
      obtain rfl : outcome = .success := holds running
      have probed : Counting p clock (probe p clock c .success v) := executed.onSuccess
      exact probed.unlock

theorem Counting.step (monotone : Monotone clock) (locked : Locked w) (counting : Counting p clock w)
    {e : Event} (holds : ProbeHolds w e) (stepped : step p clock w e = some w') :
    Counting p clock w' := by
  have silent := fun other => counting.silent monotone (silent_step locked other stepped)
  cases e with
  | finish c outcome =>
      simp only [CircuitBreaker.step] at stepped
      split at stepped
      · next mode running =>
          cases stepped
          exact counting.conclude monotone running holds
      · cases stepped
  | call c => exact silent (by simp)
  | resume c => exact silent (by simp)
  | cancel c => exact silent (by simp)

end Steps

/-! ## Every run -/

theorem counting_init (p : Params) (clock : ℕ → ℚ) : Counting p clock (init clock) where
  recorded := rfl
  stamps := ⟨.nil, by simp [init]⟩
  tally := Window.refl _ []
  once := ⟨.nil, by simp [init, failures]⟩
  rests := trivial

/-- **Failure accounting.** In every state of every run in which no probe fails,
for every interleaving and every cancellation, `failure_count` is the number of
distinct calls that failed within the window since the breaker last became CLOSED,
and every opening of a closed breaker rests on as many of them as the threshold
asks for. -/
theorem accounted_of_unprobed (p : Params) (clock : ℕ → ℚ) (monotone : Monotone clock)
    (es : List Event) (w : Config) (ran : exec (step p clock) (init clock) es = some w)
    (holds : Along (step p clock) ProbeHolds (init clock) es) : Accounted p clock w := by
  have keeps : ∀ v e t, (Locked v ∧ Counting p clock v) → ProbeHolds v e →
      step p clock v e = some t → Locked t ∧ Counting p clock t :=
    fun _ _ _ ⟨locked, counting⟩ holds stepped =>
      ⟨locked.step stepped, counting.step monotone locked holds stepped⟩
  have start : Locked (init clock) ∧ Counting p clock (init clock) :=
    ⟨locked_init clock, counting_init p clock⟩
  exact (exec_invariant_along keeps es _ w start holds ran).2.accounted

/-- Call 1 opens the breaker, call 2 closes it as the probe, call 0 opens it again. -/
def reopenedRun : List Event :=
  [.call 0, .call 1, .finish 1 .exception, .call 2, .finish 2 .success, .finish 0 .exception]

/-- Satisfiable pole: a run that opens, probes, closes and opens. -/
theorem accounted_of_unprobed_reopenedRun :
    ∃ w, exec (step ⟨1, 20, 30⟩ lateClock) (init lateClock) reopenedRun = some w ∧
      Accounted ⟨1, 20, 30⟩ lateClock w := by
  have enabled : (exec (step ⟨1, 20, 30⟩ lateClock) (init lateClock) reopenedRun).isSome := by
    decide +kernel
  obtain ⟨w, ran⟩ := Option.isSome_iff_exists.mp enabled
  refine ⟨w, ran, accounted_of_unprobed _ _ lateClock_monotone reopenedRun w ran ?_⟩
  simp [Along, ProbeHolds, reopenedRun, step, init, enter, Config.observe, maybeTransition, start,
    conclude, Config.setPhase, execute, probe, onFailure, evictOldFailures, transition, onSuccess,
    acquired, lateClock]

/-! ## The failed probe -/

/-- Calls 1 and 2 open the breaker, call 3 is the probe; call 0, which was started
before, closes the breaker under it, and then the probe fails. -/
def failedProbeRun : List Event :=
  [.call 0, .call 1, .call 2, .finish 1 .exception, .finish 2 .exception, .call 3,
    .finish 0 .success, .finish 3 .exception]

/-- An opening of a closed breaker that rests on too few calls. -/
theorem not_rests {p : Params} {instant instant' : ℚ} {c c' : ℕ} {outcome : Outcome}
    {before : List Observation} (closed : stateAfter before = .closed)
    (few : ((failedCalls (instant - p.windowSeconds) (.ended c outcome instant :: before)).card : ℤ) <
      p.failureThreshold) :
    ¬ RestsOnFailures p (.moved .opened instant' c' :: .ended c outcome instant :: before) := by
  rintro ⟨rests, _⟩
  obtain ⟨c, outcome, instant, before, same, many⟩ := rests closed
  cases same
  exact absurd many (not_le.mpr few)

/-- Refuting pole: with a threshold of two, one failed call is counted as two and
opens the closed breaker. -/
theorem failed_probe_counts_twice :
    ∃ w, exec (step ⟨2, 20, 1⟩ Nat.cast) (init Nat.cast) failedProbeRun = some w ∧
      failureCount ⟨2, 20, 1⟩ Nat.cast w = 2 ∧
      (failedCalls (w.ticks - 20) w.history).card = 1 ∧
      ¬ RestsOnFailures ⟨2, 20, 1⟩ w.history := by
  have met : (exec (step ⟨2, 20, 1⟩ Nat.cast) (init Nat.cast) failedProbeRun).map (fun w =>
      decide ((failureCount ⟨2, 20, 1⟩ Nat.cast w = 2 ∧
          (failedCalls (w.ticks - 20) w.history).card = 1) ∧
        w.history.take 2 = [.moved .opened 19 3, .ended 3 .exception 14] ∧
        stateAfter (w.history.drop 2) = .closed ∧
        ((failedCalls (14 - 20) (.ended 3 .exception 14 :: w.history.drop 2)).card : ℤ) < 2)) =
      some true := by
    decide +kernel
  obtain ⟨w, ran, there⟩ := Option.map_eq_some_iff.mp met
  obtain ⟨⟨two, one⟩, latest, closed, few⟩ := of_decide_eq_true there
  refine ⟨w, ran, two, one, ?_⟩
  rw [← List.take_append_drop 2 w.history, latest]
  exact not_rests closed few

end InferenceForge.Pipeline.CircuitBreaker
