/-
# InferenceForge.Pipeline.CircuitBreaker — the breaker and its concurrent callers

`src/src/inference_forge/pipeline/circuit_breaker.py`, as the code runs it under
asyncio. Between two suspension points a coroutine runs alone, so each maximal
stretch without suspension is one event of a guarded step function (`step`):

* `call c`: a call enters, runs `_maybe_transition` and either is rejected,
  starts its `coro_fn`, or queues on `_probe_lock`;
* `resume c`: the first waiter of a released `_probe_lock` runs on;
* `finish c o`: the `coro_fn` of `c` ends and its handlers run;
* `cancel c`: the task of `c` is cancelled where it is suspended.

`time.monotonic()` is a sequence `clock : ℕ → ℚ` of readings; `ticks` counts the
readings taken, so two reads inside one event may differ. The start of a
`coro_fn` also takes an element of the sequence: the instant at which it starts.

`history` is the observable record of the run, newest first; the fields of the
breaker never read it. The properties of the breaker are predicates of that
record alone (`AdmissionSafe`, `RecoveredByProbe`).
-/
import InferenceForge.Library.Run
import Mathlib.Data.Rat.Defs
import Mathlib.Algebra.Order.Ring.Rat
import Mathlib.Tactic.Linarith
import Mathlib.Logic.Function.Basic

namespace InferenceForge.Pipeline.CircuitBreaker

set_option autoImplicit false

/-- `CBState`. The source's `OPEN` is `opened` here: `open` is a Lean keyword. -/
inductive CBState
  | closed
  | opened
  | halfOpen
  deriving DecidableEq, Repr

/-- The arguments of `CircuitBreaker.__init__`. -/
structure Params where
  failureThreshold : ℤ
  windowSeconds : ℚ
  recoveryTimeout : ℚ

/-- How `coro_fn` ends, as the handlers tell it apart: `openError` is a
`CircuitBreakerOpenError`, `exception` any other subclass of `Exception`. -/
inductive Outcome
  | success
  | openError
  | exception
  deriving DecidableEq, Repr

/-- Which `await coro_fn` a running call is in: the one of the CLOSED path, the
one of a waiter that found the probe resolved, or the probe itself. The last two
run under `_probe_lock`. -/
inductive Mode
  | direct
  | resumed
  | probe
  deriving DecidableEq, Repr

inductive Phase
  | idle
  | waiting
  | running (mode : Mode)
  | finished
  deriving DecidableEq, Repr

inductive Observation
  | entered (call : ℕ)
  | started (call : ℕ) (instant : ℚ)
  | ended (call : ℕ) (outcome : Outcome) (instant : ℚ)
  | moved (target : CBState) (instant : ℚ) (call : ℕ)
  | rejected (call : ℕ)
  | cancelled (call : ℕ)
  deriving DecidableEq

inductive Event
  | call (c : ℕ)
  | resume (c : ℕ)
  | finish (c : ℕ) (outcome : Outcome)
  | cancel (c : ℕ)
  deriving DecidableEq, Repr

def Event.isCancel : Event → Bool
  | .cancel _ => true
  | _ => false

/-- The instance fields and the gauge, the lock (`lock` names its holder), and
where every call is. -/
structure Config where
  state : CBState
  failureTimestamps : List ℚ
  openedAt : Option ℚ
  lastStateChange : ℚ
  gauge : ℕ
  lock : Option ℕ
  waiters : List ℕ
  calls : ℕ → Phase
  ticks : ℕ
  history : List Observation

def Config.setPhase (w : Config) (c : ℕ) (phase : Phase) : Config :=
  { w with calls := Function.update w.calls c phase }

def Config.observe (w : Config) (o : Observation) : Config :=
  { w with history := o :: w.history }

section Code

variable (p : Params) (clock : ℕ → ℚ)

/-- `CircuitBreaker.__init__`. -/
def init : Config where
  state := .closed
  failureTimestamps := []
  openedAt := none
  lastStateChange := clock 0
  gauge := 0
  lock := none
  waiters := []
  calls := fun _ => .idle
  ticks := 1
  history := []

/-- `_transition`; `c` is the call that runs it. -/
def transition (target : CBState) (c : ℕ) (w : Config) : Config :=
  let changed := clock w.ticks
  match target with
  | .opened =>
      { w with
        state := .opened
        lastStateChange := changed
        openedAt := some (clock (w.ticks + 1))
        gauge := 2
        ticks := w.ticks + 2
        history := .moved .opened (clock (w.ticks + 1)) c :: w.history }
  | .halfOpen =>
      { w with
        state := .halfOpen
        lastStateChange := changed
        gauge := 1
        ticks := w.ticks + 1
        history := .moved .halfOpen changed c :: w.history }
  | .closed =>
      { w with
        state := .closed
        lastStateChange := changed
        openedAt := none
        gauge := 0
        ticks := w.ticks + 1
        history := .moved .closed changed c :: w.history }

/-- `_evict_old_failures`. -/
def evictOldFailures (w : Config) : Config :=
  let cutoff := clock w.ticks - p.windowSeconds
  { w with
    failureTimestamps := w.failureTimestamps.dropWhile (· < cutoff)
    ticks := w.ticks + 1 }

/-- `_maybe_transition`. -/
def maybeTransition (c : ℕ) (w : Config) : Config :=
  match w.state, w.openedAt with
  | .opened, some openedAt =>
      let elapsed := clock w.ticks - openedAt
      let w := { w with ticks := w.ticks + 1 }
      if p.recoveryTimeout ≤ elapsed then transition clock .halfOpen c w else w
  | _, _ => w

/-- `_on_success`. -/
def onSuccess (c : ℕ) (w : Config) : Config :=
  match w.state with
  | .halfOpen => transition clock .closed c { w with failureTimestamps := [] }
  | _ => w

/-- `_on_failure`. -/
def onFailure (c : ℕ) (w : Config) : Config :=
  let now := clock w.ticks
  let w := { w with
    failureTimestamps := w.failureTimestamps ++ [now]
    ticks := w.ticks + 1 }
  let w := evictOldFailures p clock w
  match w.state with
  | .halfOpen => transition clock .opened c w
  | .closed =>
      if p.failureThreshold ≤ w.failureTimestamps.length then transition clock .opened c w else w
  | .opened => w

/-- `await coro_fn(...)` begins. -/
def start (mode : Mode) (c : ℕ) (w : Config) : Config :=
  { w with
    calls := Function.update w.calls c (.running mode)
    ticks := w.ticks + 1
    history := .started c (clock w.ticks) :: w.history }

def reject (c : ℕ) (w : Config) : Config :=
  (w.setPhase c .finished).observe (.rejected c)

/-- `_execute` once `coro_fn` has ended. -/
def execute (c : ℕ) (outcome : Outcome) (w : Config) : Config :=
  match outcome with
  | .success => onSuccess clock c w
  | .openError => w
  | .exception => onFailure p clock c w

/-- The `try` of `_half_open_probe` once its `_execute` has ended. Its
`except Exception` also sees what `_execute` has already recorded. -/
def probe (c : ℕ) (outcome : Outcome) (w : Config) : Config :=
  let w := execute p clock c outcome w
  match outcome with
  | .success => onSuccess clock c w
  | .openError | .exception => onFailure p clock c w

/-- The body of `async with self._probe_lock`, from the acquisition to the start
of `coro_fn` or to the rejection. Leaving the body releases the lock. -/
def acquired (c : ℕ) (w : Config) : Config :=
  match w.state with
  | .opened => reject c { w with lock := none }
  | .closed => start clock .resumed c { w with lock := some c }
  | .halfOpen => start clock .probe c { w with lock := some c }

/-- `call`, up to its first suspension. `asyncio.Lock` hands itself over in
order: a newcomer waits also when the lock is free but somebody is queued. -/
def enter (c : ℕ) (w : Config) : Config :=
  let w := maybeTransition p clock c (w.observe (.entered c))
  match w.state with
  | .opened => reject c w
  | .halfOpen =>
      if w.lock = none ∧ w.waiters = [] then acquired clock c w
      else { w.setPhase c .waiting with waiters := w.waiters ++ [c] }
  | .closed => start clock .direct c w

/-- `coro_fn` of a running call ends. -/
def conclude (c : ℕ) (mode : Mode) (outcome : Outcome) (w : Config) : Config :=
  let w := (w.setPhase c .finished).observe (.ended c outcome (clock w.ticks))
  match mode with
  | .direct => execute p clock c outcome w
  | .resumed => { execute p clock c outcome w with lock := none }
  | .probe => { probe p clock c outcome w with lock := none }

/-- `CancelledError` at the suspension point of `c`: no handler of the breaker
catches it, but the lock is released or the queue is left. -/
def abandon (c : ℕ) (w : Config) : Option Config :=
  let gone := (w.setPhase c .finished).observe (.cancelled c)
  match w.calls c with
  | .waiting => some { gone with waiters := w.waiters.erase c }
  | .running .direct => some gone
  | .running _ => some { gone with lock := none }
  | _ => none

/-- One event. A call identifier is used once; a waiter resumes when the lock is
free and it is first in the queue. -/
def step (w : Config) : Event → Option Config
  | .call c => if w.calls c = .idle then some (enter p clock c w) else none
  | .resume c =>
      if w.lock = none ∧ w.waiters.head? = some c then
        some (acquired clock c { w with waiters := w.waiters.tail })
      else none
  | .finish c outcome =>
      match w.calls c with
      | .running mode => some (conclude p clock c mode outcome w)
      | _ => none
  | .cancel c => abandon c w

end Code

/-! ## What the record says -/

/-- The state the record ends in: the target of the latest transition. -/
def stateAfter : List Observation → CBState
  | [] => .closed
  | .moved target _ _ :: _ => target
  | _ :: earlier => stateAfter earlier

/-- The instant of the most recent transition to OPEN. -/
def lastOpened : List Observation → Option ℚ
  | [] => none
  | .moved .opened instant _ :: _ => some instant
  | _ :: earlier => lastOpened earlier

/-- The calls whose `coro_fn` was started since the latest transition. -/
def startedInPeriod : List Observation → List ℕ
  | [] => []
  | .moved _ _ _ :: _ => []
  | .started c _ :: earlier => c :: startedInPeriod earlier
  | _ :: earlier => startedInPeriod earlier

/-- Every start of a `coro_fn` in the record happens outside OPEN, no earlier
than `recoveryTimeout` after the most recent transition to OPEN, and, in
HALF_OPEN, as the first start of the period. -/
def AdmissionSafe (p : Params) : List Observation → Prop
  | [] => True
  | .started _ instant :: earlier =>
      (stateAfter earlier ≠ .opened ∧
        (∀ opened ∈ lastOpened earlier, opened + p.recoveryTimeout ≤ instant) ∧
        (stateAfter earlier = .halfOpen → startedInPeriod earlier = [])) ∧
      AdmissionSafe p earlier
  | _ :: earlier => AdmissionSafe p earlier

/-- Every transition out of HALF_OPEN in the record directly follows the end of
a call whose `coro_fn` was started in the HALF_OPEN period it ends. -/
def RecoveredByProbe : List Observation → Prop
  | [] => True
  | .moved _ _ c :: earlier =>
      (stateAfter earlier = .halfOpen →
        ∃ outcome instant before, earlier = .ended c outcome instant :: before ∧
          c ∈ startedInPeriod before) ∧
      RecoveredByProbe earlier
  | _ :: earlier => RecoveredByProbe earlier

end InferenceForge.Pipeline.CircuitBreaker
