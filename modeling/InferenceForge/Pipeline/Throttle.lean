/-
# InferenceForge.Pipeline.Throttle — the spacing of requests

The throttle of `_single_api_call`: under `_rate_limit_lock` a call reads the clock,
sleeps until `_last_call_ts` is `min_interval` ago, and writes the time it leaves at.
A `Section` is what the calls share. An event takes one call from one suspension to
the next, so a run is any interleaving of any number of calls, with any durations of
what lies between and any cancellations.

What is assumed of asyncio stands in `step`: the lock is given to one call at a time
(in any order), the clock does not go back, and a sleep lasts at least as long as it
was asked to.

`Spaced` is the invariant: no departure is later than `_last_call_ts`, and the sleeper
is not due before `min_interval` after it. A sleeper that is cancelled leaves
`_last_call_ts` as it was, which is why the next call may rely on it.
-/
import InferenceForge.Library.Run
import InferenceForge.Pipeline.RetryRuns

namespace InferenceForge.Pipeline.Throttle

open InferenceForge.Python InferenceForge.Library

set_option autoImplicit false

/-! ## The section -/

structure Section (ι : Type) where
  /-- The last reading of `time.monotonic()`. -/
  clock : ℚ
  lastCallTs : ℚ
  /-- The calls that wait for `_rate_limit_lock`. -/
  waiting : List ι
  /-- The call that holds the lock and sleeps, and the instant its sleep is over at. -/
  sleeping : Option (ι × ℚ)
  /-- The calls that left the section and when, the latest first. -/
  departures : List (ι × ℚ)

inductive Event (ι : Type)
  /-- The call comes to `async with _rate_limit_lock`. -/
  | request (call : ι)
  /-- The call gets the lock and reads the clock, and once more if it need not wait. -/
  | enter (call : ι) (now again : ℚ)
  /-- The sleeper resumes and reads the clock. -/
  | resume (now : ℚ)
  | cancel (call : ι)

def minInterval (settings : Settings) : ℚ := settings.sarvamMinIntervalMs / 1000

section System

variable {ι : Type} [DecidableEq ι]

/-- `_last_call_ts = time.monotonic()` at `now`, and the end of the section. -/
def Section.leave (s : Section ι) (call : ι) (now : ℚ) : Section ι :=
  { s with
    clock := now
    lastCallTs := now
    sleeping := none
    departures := (call, now) :: s.departures }

def step (settings : Settings) (s : Section ι) : Event ι → Option (Section ι)
  | .request call => some { s with waiting := call :: s.waiting }
  | .enter call now again =>
      if call ∈ s.waiting ∧ s.sleeping = none ∧ s.clock ≤ now then
        let wait := minInterval settings - (now - s.lastCallTs)
        let entered := { s with clock := now, waiting := s.waiting.erase call }
        if 0 < wait then some { entered with sleeping := some (call, now + wait) }
        else if now ≤ again then some (entered.leave call again)
        else none
      else none
  | .resume now =>
      match s.sleeping with
      | some (call, due) => if due ≤ now ∧ s.clock ≤ now then some (s.leave call now) else none
      | none => none
  | .cancel call =>
      -- leaving `async with` by an exception releases the lock
      some { s with
        waiting := s.waiting.erase call
        sleeping := s.sleeping.filter fun sleeper => sleeper.1 ≠ call }

/-- Nobody has come to the section; `_last_call_ts` may hold anything. -/
def idle (clock lastCallTs : ℚ) : Section ι where
  clock := clock
  lastCallTs := lastCallTs
  waiting := []
  sleeping := none
  departures := []

/-! ## The invariant -/

/-- Any two departures are at least `interval` apart. -/
def Apart (interval : ℚ) (departures : List (ι × ℚ)) : Prop :=
  departures.Pairwise fun later earlier => earlier.2 + interval ≤ later.2

structure Spaced (interval : ℚ) (s : Section ι) : Prop where
  apart : Apart interval s.departures
  last : ∀ departure ∈ s.departures, departure.2 ≤ s.lastCallTs
  due : ∀ sleeper ∈ s.sleeping, s.lastCallTs + interval ≤ sleeper.2

variable {settings : Settings} {s t : Section ι} {interval : ℚ}

omit [DecidableEq ι] in
theorem spaced_idle (clock lastCallTs : ℚ) : Spaced interval (idle clock lastCallTs : Section ι) where
  apart := List.Pairwise.nil
  last := by simp [idle]
  due := by simp [idle]

omit [DecidableEq ι] in
/-- A call may leave once the interval is over. -/
theorem Spaced.leave (spaced : Spaced interval s) (nonneg : 0 ≤ interval) (call : ι) {now : ℚ}
    (elapsed : s.lastCallTs + interval ≤ now) : Spaced interval (s.leave call now) := by
  constructor
  · apply List.Pairwise.cons _ spaced.apart
    intro departure member
    have earlier := spaced.last departure member
    show departure.2 + interval ≤ now
    linarith
  · intro departure member
    show departure.2 ≤ now
    rcases List.mem_cons.mp member with rfl | before
    · exact le_refl now
    · have earlier := spaced.last departure before
      linarith
  · intro sleeper member
    cases member

theorem Spaced.step {event : Event ι} (nonneg : 0 ≤ minInterval settings)
    (spaced : Spaced (minInterval settings) s) (stepped : step settings s event = some t) :
    Spaced (minInterval settings) t := by
  cases event with
  | request call =>
      cases stepped
      exact ⟨spaced.apart, spaced.last, spaced.due⟩
  | enter call now again =>
      unfold Throttle.step at stepped
      dsimp only at stepped
      split at stepped
      · next free =>
          split at stepped
          · -- the sleep ends `min_interval` after the last departure
            cases stepped
            refine ⟨spaced.apart, spaced.last, ?_⟩
            rintro sleeper ⟨⟩
            show s.lastCallTs + minInterval settings ≤ now + (minInterval settings - (now - s.lastCallTs))
            linarith
          · next waited =>
              split at stepped
              · next later =>
                  cases stepped
                  have entered : Spaced (minInterval settings)
                      { s with clock := now, waiting := s.waiting.erase call } :=
                    ⟨spaced.apart, spaced.last, spaced.due⟩
                  apply entered.leave nonneg
                  show s.lastCallTs + minInterval settings ≤ again
                  linarith
              · cases stepped
      · cases stepped
  | resume now =>
      unfold Throttle.step at stepped
      dsimp only at stepped
      split at stepped
      · next call due asleep =>
          split at stepped
          · next awake =>
              cases stepped
              apply spaced.leave nonneg
              have slept := spaced.due (call, due) asleep
              exact slept.trans awake.1
          · cases stepped
      · cases stepped
  | cancel call =>
      cases stepped
      refine ⟨spaced.apart, spaced.last, ?_⟩
      intro sleeper member
      exact spaced.due sleeper (Option.mem_filter_iff.mp member).1

theorem minInterval_nonneg (settings : Settings) : 0 ≤ minInterval settings := by
  unfold minInterval
  positivity

end System

/-! ## The request behind the throttle -/

section Request

variable {settings : Settings} {host : Host} {ticket : String} {n : ℕ} {trace : TicketTrace}

/-- The throttle and the request of a call. -/
def isThrottled : TicketOp → Bool
  | .throttle _ | .post _ _ => true
  | _ => false

/-- A call passes the throttle once, and its request is what it does next; or it does
neither. -/
def RequestFollows (ticket : String) (n : ℕ) (trace : TicketTrace) : Prop :=
  (∀ asked ∈ trace, isThrottled asked.1 = false) ∨
    ∃ response rest, trace = ⟨.throttle n, ()⟩ :: ⟨.post ticket n, response⟩ :: rest ∧
      ∀ asked ∈ rest, isThrottled asked.1 = false

theorem successCount_unthrottled (read : Except Exn (Json × Json)) :
    ∀ asked ∈ successCount read, isThrottled asked.1 = false := by
  intro asked member
  unfold successCount countOf at member
  split at member
  · split at member <;>
    · rw [List.mem_singleton.mp member]
      rfl
  · cases member

theorem request_follows (spaced : 0 < settings.sarvamMinIntervalMs) {answer : Except Exn (Json × Json)}
    (ran : Runs (singleApiCall settings host ticket n) trace answer) : RequestFollows ticket n trace := by
  cases singleApiCall_runs_iff.mp ran with
  | mocked mock slept =>
      left
      intro asked member
      have waits := (asks_when (sleep_waits _)).of_runs slept asked member
      unfold isThrottled
      split
      · next op => simp_all [Waiting]
      · next op => simp_all [Waiting]
      · rfl
  | requested real response =>
      right
      refine ⟨response, successCount (response.bind (Response.parsed host)), ?_, successCount_unthrottled _⟩
      rw [throttled, if_pos spaced]
      rfl

end Request

/-- **The throttle spaces the requests.** In every run of the section any two departures
are at least `min_interval` apart, and a call that leaves it issues its request next. -/
theorem throttle_spacing {ι : Type} [DecidableEq ι] (settings : Settings)
    (enabled : 0 < settings.sarvamMinIntervalMs) (events : List (Event ι)) (clock lastCallTs : ℚ)
    (s : Section ι) (ran : exec (step settings) (idle clock lastCallTs) events = some s) :
    Apart (minInterval settings) s.departures ∧
      ∀ host ticket n trace answer, Runs (singleApiCall settings host ticket n) trace answer →
        RequestFollows ticket n trace := by
  constructor
  · have spaced : Spaced (minInterval settings) s :=
      exec_invariant (fun _ _ _ spaced stepped => spaced.step (minInterval_nonneg settings) stepped)
        events _ _ (spaced_idle clock lastCallTs) ran
    exact spaced.apart
  · intro host ticket n trace answer called
    exact request_follows enabled called

/-! ## Poles -/

section Poles

/-- One request a second. -/
def everySecond : Settings := { Settings.defaults with sarvamMinIntervalMs := 1000 }

/-- Call 0 leaves at once; call 1 sleeps and is cancelled; call 2 sleeps instead. -/
def queueOfThree : List (Event ℕ) :=
  [.request 0, .request 1, .request 2, .enter 0 5 5, .enter 1 (11 / 2) 0, .cancel 1, .enter 2 (23 / 4) 0,
    .resume (25 / 4)]

theorem queueOfThree_departures :
    (exec (step everySecond) (idle 5 0) queueOfThree).map Section.departures = some [(2, 25 / 4), (0, 5)] := by
  decide +kernel

/-- Satisfiable pole: three calls, one of them cancelled in its sleep. -/
theorem throttle_spacing_three :
    ∃ s, exec (step everySecond) (idle 5 0) queueOfThree = some s ∧ s.departures = [(2, 25 / 4), (0, 5)] ∧
      Apart (minInterval everySecond) s.departures := by
  obtain ⟨s, ran, left⟩ := Option.map_eq_some_iff.mp queueOfThree_departures
  exact ⟨s, ran, left, (throttle_spacing everySecond (by decide) queueOfThree 5 0 s ran).1⟩

end Poles

end InferenceForge.Pipeline.Throttle
