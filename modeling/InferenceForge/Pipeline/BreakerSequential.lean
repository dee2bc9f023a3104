/-
# InferenceForge.Pipeline.BreakerSequential — one call after the other

A sequential run is a list of calls, each with the instant it is made, the instant
its `coro_fn` ends and how it ends. `serve` runs one call through the events of the
breaker, whose clock stands still within an event (`serve_events`), and `reports` a
whole run, whose events are `eventsOf` the calls and what they met.

`specReport` says what a call should meet, from the full history of the calls
before it and what they met; it knows neither deque nor eviction. `reports_eq` is
the refinement: the breaker and the specification report the same of every call of
every chronological run. The relation behind it (`Agrees`) ties the deque to the
history in CLOSED only. What the deque holds in OPEN is never read: the only way
out is a probe that succeeds, and it clears the deque.
-/
import InferenceForge.Library.SlidingWindow
import InferenceForge.Pipeline.BreakerSteps
import Mathlib.Tactic.NormNum

namespace InferenceForge.Pipeline.CircuitBreaker

open InferenceForge.Library

set_option autoImplicit false

/-- A call: when it is made, and when and how its `coro_fn` ends if it is run. -/
structure Call where
  begins : ℚ
  ends : ℚ
  failed : Bool
  ordered : begins ≤ ends

def Call.outcome (call : Call) : Outcome := if call.failed then .exception else .success

/-- Each call is made after the one before has ended. -/
def Chronological : ℚ → List Call → Prop
  | _, [] => True
  | now, call :: rest => now ≤ call.begins ∧ Chronological call.ends rest

/-- What a caller and an observer of `state` see of a call: whether `coro_fn` was
run, whether it was the probe, and the state the call leaves. -/
inductive Report
  | rejected
  | ran (probe : Bool) (after : CBState)
  deriving DecidableEq

section Code

variable (p : Params)

/-- One call, from its entry to its end. -/
def serve (c : ℕ) (call : Call) (w : Config) : Report × Config :=
  let entered := enter p (fun _ => call.begins) c w
  match entered.calls c with
  | .running mode =>
      let ended := conclude p (fun _ => call.ends) c mode call.outcome entered
      (.ran (mode = .probe) ended.state, ended)
  | _ => (.rejected, entered)

/-- A sequential run; the calls are numbered from `c`. -/
def reports : ℕ → Config → List Call → List Report
  | _, _, [] => []
  | c, w, call :: rest => (serve p c call w).1 :: reports (c + 1) (serve p c call w).2 rest

/-- The breaker after a sequential run. -/
def afterCalls : ℕ → Config → List Call → Config
  | _, w, [] => w
  | c, w, call :: rest => afterCalls (c + 1) (serve p c call w).2 rest

/-- The events of one call that meets `report`: its entry, and its end if it was run. -/
def callEvents (c : ℕ) (call : Call) (report : Report) : List (Event × ℚ) :=
  (.call c, call.begins) :: if report = .rejected then [] else [(.finish c call.outcome, call.ends)]

/-- The events of a sequential run, each with its instant. -/
def eventsOf : ℕ → List Call → List Report → List (Event × ℚ)
  | c, call :: rest, report :: later => callEvents c call report ++ eventsOf (c + 1) rest later
  | _, _, _ => []

/-- An event at an instant: the clock is read once. -/
def stepAt (w : Config) (event : Event × ℚ) : Option Config := step p (fun _ => event.2) w event.1

theorem serve_running {p : Params} {c : ℕ} {call : Call} {w : Config} {mode : Mode}
    (running : (enter p (fun _ => call.begins) c w).calls c = .running mode) :
    serve p c call w =
      (.ran (mode = .probe) (conclude p (fun _ => call.ends) c mode call.outcome
          (enter p (fun _ => call.begins) c w)).state,
        conclude p (fun _ => call.ends) c mode call.outcome
          (enter p (fun _ => call.begins) c w)) := by
  simp only [serve, running]

theorem serve_not_running {p : Params} {c : ℕ} {call : Call} {w : Config}
    (other : ∀ mode, (enter p (fun _ => call.begins) c w).calls c ≠ .running mode) :
    serve p c call w = (.rejected, enter p (fun _ => call.begins) c w) := by
  simp only [serve]

/-- `serve` takes the events of the call. -/
theorem serve_events (c : ℕ) (call : Call) (w : Config) (idle : w.calls c = .idle) :
    exec (stepAt p) w (callEvents c call (serve p c call w).1) = some (serve p c call w).2 := by
  rw [callEvents, exec_cons_eq_some]
  refine ⟨enter p (fun _ => call.begins) c w, by simp [stepAt, step, idle], ?_⟩
  by_cases runs : ∃ mode, (enter p (fun _ => call.begins) c w).calls c = .running mode
  · obtain ⟨mode, running⟩ := runs
    rw [serve_running running]
    simp [exec, stepAt, step, running]
  · rw [serve_not_running (not_exists.mp runs)]
    simp

end Code

/-! ## The specification -/

/-- The calls before a call with what they met, latest first. -/
abbrev Past := List (Call × Report)

/-- When the breaker opened, if its last transition was to OPEN. -/
def openedSince : Past → Option ℚ
  | [] => none
  | (_, .rejected) :: earlier => openedSince earlier
  | (call, .ran _ after) :: _ => if after = .opened then some call.ends else none

/-- The failing calls since the breaker last became CLOSED, or was created. -/
def failingSince : Past → List Call
  | [] => []
  | (_, .rejected) :: earlier => failingSince earlier
  | (call, .ran probe after) :: earlier =>
      if probe ∧ after = .closed then []
      else if call.failed then call :: failingSince earlier
      else failingSince earlier

/-- The failing calls, `call` included, that ended in the window up to its end. -/
def failuresInWindow (p : Params) (past : Past) (call : Call) : ℕ :=
  (call :: failingSince past).countP fun other =>
    call.ends - p.windowSeconds ≤ other.ends ∧ other.ends ≤ call.ends

/-- What a call meets. While the last transition is to OPEN it is rejected before
`recoveryTimeout` has elapsed, and the probe from then on. Otherwise it opens the
breaker if it fails and enough calls have failed in the window. -/
def specReport (p : Params) (past : Past) (call : Call) : Report :=
  match openedSince past with
  | some opened =>
      if call.begins - opened < p.recoveryTimeout then .rejected
      else .ran true (if call.failed then .opened else .closed)
  | none =>
      .ran false
        (if call.failed ∧ p.failureThreshold ≤ failuresInWindow p past call then .opened else .closed)

def specReports (p : Params) : Past → List Call → List Report
  | _, [] => []
  | past, call :: rest =>
      specReport p past call :: specReports p ((call, specReport p past call) :: past) rest

/-! ## The simulation -/

/-- The deque in CLOSED: what evictions have left of the failing calls. -/
structure Deque (p : Params) (now : ℚ) (failing : List Call) (stamps : List ℚ) : Prop where
  window : Window (now - p.windowSeconds) (failing.map Call.ends).reverse stamps
  sorted : stamps.Pairwise (· ≤ ·)
  ended : ∀ call ∈ failing, call.ends ≤ now

/-- Between two calls at `now`, `w` is the breaker after the calls of `past`. -/
structure Agrees (p : Params) (now : ℚ) (c : ℕ) (past : Past) (w : Config) : Prop where
  unlocked : w.lock = none ∧ w.waiters = []
  fresh : ∀ d, c ≤ d → w.calls d = .idle
  openedAt : w.openedAt = openedSince past
  state : w.state = if (openedSince past).isSome then .opened else .closed
  deque : openedSince past = none → Deque p now (failingSince past) w.failureTimestamps

section Simulation

variable {p : Params} {now : ℚ} {c : ℕ} {past : Past} {call : Call} {w : Config}

theorem fresh_succ {w' : Config} (fresh : ∀ d, c ≤ d → w.calls d = .idle)
    (others : ∀ d, d ≠ c → w'.calls d = w.calls d) (d : ℕ) (later : c + 1 ≤ d) :
    w'.calls d = .idle := by
  rw [others d (by omega)]
  exact fresh d (by omega)

/-! ### The call that finds the breaker open -/

theorem serve_early {opened : ℚ} (state : w.state = .opened) (openedAt : w.openedAt = some opened)
    (early : call.begins - opened < p.recoveryTimeout) :
    serve p c call w =
      (.rejected, reject c { w.observe (.entered c) with ticks := w.ticks + 1 }) := by
  have entered : enter p (fun _ => call.begins) c w =
      reject c { w.observe (.entered c) with ticks := w.ticks + 1 } := by
    simp [enter, maybeTransition, Config.observe, state, openedAt, not_le.mpr early]
  rw [serve_not_running, entered]
  rw [entered]
  simp [reject, Config.setPhase, Config.observe]

theorem serve_due {opened : ℚ} (unlocked : w.lock = none ∧ w.waiters = [])
    (state : w.state = .opened) (openedAt : w.openedAt = some opened)
    (due : p.recoveryTimeout ≤ call.begins - opened) :
    ∃ v : Config, v.state = .halfOpen ∧ v.waiters = [] ∧ (∀ d, d ≠ c → v.calls d = w.calls d) ∧
      serve p c call w =
        (.ran true (conclude p (fun _ => call.ends) c .probe call.outcome v).state,
          conclude p (fun _ => call.ends) c .probe call.outcome v) := by
  obtain ⟨lock, waiters⟩ := unlocked
  have entered : enter p (fun _ => call.begins) c w =
      start (fun _ => call.begins) .probe c
        { transition (fun _ => call.begins) .halfOpen c
            { w.observe (.entered c) with ticks := w.ticks + 1 } with
          lock := some c } := by
    simp [enter, maybeTransition, Config.observe, state, openedAt, due, transition, lock, waiters,
      acquired]
  refine ⟨enter p (fun _ => call.begins) c w, ?_, ?_, fun d ne => ?_, ?_⟩
  · rw [entered]
    rfl
  · rw [entered]
    exact waiters
  · rw [entered]
    simp [start, transition, Config.observe, ne]
  · have running : (enter p (fun _ => call.begins) c w).calls c = .running .probe := by
      rw [entered]
      simp [start]
    rw [serve_running running]
    simp

theorem conclude_frame (clock : ℕ → ℚ) (mode : Mode) (outcome : Outcome) :
    (conclude p clock c mode outcome w).waiters = w.waiters ∧
      ∀ d, d ≠ c → (conclude p clock c mode outcome w).calls d = w.calls d := by
  have executed := execute_handled p clock c
    ((w.setPhase c .finished).observe (.ended c outcome (clock w.ticks))) outcome
  have probed := probe_handled p clock c
    ((w.setPhase c .finished).observe (.ended c outcome (clock w.ticks))) outcome
  have others : ∀ d, d ≠ c → Function.update w.calls c Phase.finished d = w.calls d :=
    fun d ne => Function.update_of_ne ne _ _
  cases mode with
  | direct => exact ⟨executed.waiters_eq, fun d ne => (congrFun executed.calls_eq d).trans (others d ne)⟩
  | resumed => exact ⟨executed.waiters_eq, fun d ne => (congrFun executed.calls_eq d).trans (others d ne)⟩
  | probe => exact ⟨probed.waiters_eq, fun d ne => (congrFun probed.calls_eq d).trans (others d ne)⟩

/-- The probe closes the breaker and clears the deque, or opens it again. -/
theorem conclude_probe (p : Params) (c : ℕ) (call : Call) {v : Config} (halfOpen : v.state = .halfOpen) :
    let after := conclude p (fun _ => call.ends) c .probe call.outcome v
    after.lock = none ∧
      if call.failed then after.state = .opened ∧ after.openedAt = some call.ends
      else after.state = .closed ∧ after.openedAt = none ∧ after.failureTimestamps = [] := by
  cases failed : call.failed <;>
    simp [conclude, Call.outcome, failed, probe, execute, onSuccess, onFailure, evictOldFailures,
      transition, Config.setPhase, Config.observe, halfOpen]

theorem Agrees.probe (agrees : Agrees p now c past w) {opened : ℚ}
    (open_ : openedSince past = some opened) (due : p.recoveryTimeout ≤ call.begins - opened) :
    (serve p c call w).1 = specReport p past call ∧
      Agrees p call.ends (c + 1) ((call, specReport p past call) :: past) (serve p c call w).2 := by
  have spec : specReport p past call = .ran true (if call.failed then .opened else .closed) := by
    simp [specReport, open_, not_lt.mpr due]
  obtain ⟨v, halfOpen, waiters, others, served⟩ := serve_due agrees.unlocked
    (by rw [agrees.state, open_]; rfl) (agrees.openedAt.trans open_) due
  obtain ⟨waiters', others'⟩ := conclude_frame (p := p) (c := c) (w := v) (fun _ => call.ends) .probe call.outcome
  obtain ⟨lock, decided⟩ := conclude_probe p c call halfOpen
  have fresh := fresh_succ agrees.fresh fun d ne => (others' d ne).trans (others d ne)
  rw [served, spec]
  cases failed : call.failed with
  | true =>
      simp only [failed, if_true] at decided
      obtain ⟨state, openedAt⟩ := decided
      refine ⟨by rw [state]; rfl, ⟨lock, waiters'.trans waiters⟩, fresh, ?_, ?_, ?_⟩
      · simpa [openedSince] using openedAt
      · simpa [openedSince] using state
      · simp [openedSince]
  | false =>
      simp only [failed, Bool.false_eq_true, if_false] at decided
      obtain ⟨state, openedAt, empty⟩ := decided
      refine ⟨by rw [state]; rfl, ⟨lock, waiters'.trans waiters⟩, fresh, ?_, ?_, fun _ => ?_⟩
      · simpa [openedSince] using openedAt
      · simpa [openedSince] using state
      · rw [empty]
        exact ⟨by simpa [failingSince] using Window.refl _ [], .nil, by simp [failingSince]⟩

theorem Agrees.reject (agrees : Agrees p now c past w) {opened : ℚ}
    (open_ : openedSince past = some opened) (early : call.begins - opened < p.recoveryTimeout) :
    (serve p c call w).1 = specReport p past call ∧
      Agrees p call.ends (c + 1) ((call, specReport p past call) :: past) (serve p c call w).2 := by
  have spec : specReport p past call = .rejected := by simp [specReport, open_, early]
  have state : w.state = .opened := by rw [agrees.state, open_]; rfl
  rw [serve_early state (agrees.openedAt.trans open_) early, spec]
  refine ⟨rfl, agrees.unlocked, fresh_succ agrees.fresh fun d ne => ?_, ?_, ?_, ?_⟩
  · exact Function.update_of_ne ne _ _
  · exact agrees.openedAt
  · exact agrees.state
  · simp [openedSince, open_]

/-! ### The call that finds the breaker closed -/

theorem serve_closed (p : Params) (c : ℕ) (call : Call) (state : w.state = .closed) :
    ∃ v : Config, v.state = .closed ∧ v.openedAt = w.openedAt ∧ v.lock = w.lock ∧
      v.waiters = w.waiters ∧ v.failureTimestamps = w.failureTimestamps ∧
      (∀ d, d ≠ c → v.calls d = w.calls d) ∧
      serve p c call w =
        (.ran false (execute p (fun _ => call.ends) c call.outcome v).state,
          execute p (fun _ => call.ends) c call.outcome v) := by
  have entered : enter p (fun _ => call.begins) c w =
      start (fun _ => call.begins) .direct c (w.observe (.entered c)) := by
    simp [enter, maybeTransition, Config.observe, state]
  have running : (enter p (fun _ => call.begins) c w).calls c = .running .direct := by
    rw [entered]
    simp [start]
  refine ⟨_, ?_, ?_, ?_, ?_, ?_, fun d ne => ?_, serve_running running⟩ <;> rw [entered]
  · exact state
  · rfl
  · rfl
  · rfl
  · rfl
  · simp [Config.setPhase, Config.observe, start, ne]

theorem Deque.last {failing : List Call} {stamps : List ℚ} (deque : Deque p now failing stamps) :
    ∀ t ∈ stamps, t ≤ now := by
  obtain ⟨gone, all, _⟩ := deque.window
  intro t member
  have recorded : t ∈ (failing.map Call.ends).reverse := by
    rw [all]
    exact List.mem_append_right gone member
  obtain ⟨other, failed, rfl⟩ := List.mem_map.mp (List.mem_reverse.mp recorded)
  exact deque.ended other failed

theorem Deque.mono {now' : ℚ} {failing : List Call} {stamps : List ℚ}
    (deque : Deque p now failing stamps) (later : now ≤ now') : Deque p now' failing stamps where
  window := deque.window.mono (sub_le_sub_right later p.windowSeconds)
  sorted := deque.sorted
  ended other failed := (deque.ended other failed).trans later

/-- The deque after a failure is recorded and the window evicted. -/
theorem Deque.record {failing : List Call} {stamps : List ℚ}
    (deque : Deque p call.ends failing stamps) :
    Deque p call.ends (call :: failing)
      ((stamps ++ [call.ends]).dropWhile (· < call.ends - p.windowSeconds)) where
  window := by
    rw [List.map_cons, List.reverse_cons]
    exact (deque.window.push call.ends).evict
  sorted := (pairwise_push deque.sorted deque.last).sublist (List.dropWhile_sublist _)
  ended other member := by
    rcases List.mem_cons.mp member with rfl | earlier
    · exact le_rfl
    · exact deque.ended other earlier

/-- The eviction leaves as many timestamps as calls failed in the window. -/
theorem Deque.length {stamps : List ℚ} (deque : Deque p call.ends (failingSince past) stamps) :
    ((stamps ++ [call.ends]).dropWhile (· < call.ends - p.windowSeconds)).length =
      failuresInWindow p past call := by
  have window := deque.window.push call.ends
  rw [window.length_evict (pairwise_push deque.sorted deque.last), List.countP_append,
    List.countP_singleton, List.countP_reverse, List.countP_map, failuresInWindow, List.countP_cons]
  refine congrArg₂ (· + ·) (List.countP_congr fun other failed => ?_) (by simp)
  simp [deque.ended other failed]

/-- A closed breaker records a failure and opens on enough of them. -/
theorem execute_closed (p : Params) (c : ℕ) (call : Call) {v : Config} (state : v.state = .closed) :
    let after := execute p (fun _ => call.ends) c call.outcome v
    let recorded := (v.failureTimestamps ++ [call.ends]).dropWhile (· < call.ends - p.windowSeconds)
    if call.failed then
      after.failureTimestamps = recorded ∧
        if p.failureThreshold ≤ recorded.length then
          after.state = .opened ∧ after.openedAt = some call.ends
        else after.state = .closed ∧ after.openedAt = v.openedAt
    else after = v := by
  cases failed : call.failed with
  | false => simp [Call.outcome, failed, execute, onSuccess, state]
  | true =>
      simp only [Call.outcome, failed, if_true, execute, onFailure, evictOldFailures, state]
      split
      · exact ⟨rfl, rfl, rfl⟩
      · exact ⟨rfl, rfl, rfl⟩

theorem Agrees.closed (agrees : Agrees p now c past w) (later : now ≤ call.begins)
    (unopened : openedSince past = none) :
    (serve p c call w).1 = specReport p past call ∧
      Agrees p call.ends (c + 1) ((call, specReport p past call) :: past) (serve p c call w).2 := by
  obtain ⟨v, state, openedAt, lock, waiters, stamps, others, served⟩ :=
    serve_closed p c call (by rw [agrees.state, unopened]; rfl)
  have deque : Deque p call.ends (failingSince past) v.failureTimestamps := by
    rw [stamps]
    exact (agrees.deque unopened).mono (later.trans call.ordered)
  have openedAt : v.openedAt = none := by rw [openedAt, agrees.openedAt, unopened]
  have handled := execute_handled p (fun _ => call.ends) c v call.outcome
  have unlocked := And.intro (handled.lock_eq.trans (lock.trans agrees.unlocked.1))
    (handled.waiters_eq.trans (waiters.trans agrees.unlocked.2))
  have fresh := fresh_succ agrees.fresh fun d ne => (congrFun handled.calls_eq d).trans (others d ne)
  have executed := execute_closed p c call state
  rw [served]
  cases failed : call.failed with
  | false =>
      have spec : specReport p past call = .ran false .closed := by simp [specReport, unopened, failed]
      simp only [failed, Bool.false_eq_true, if_false] at executed
      rw [spec]
      refine ⟨by rw [executed, state], unlocked, fresh, ?_, ?_, fun _ => ?_⟩ <;> simp only [executed]
      · simpa [openedSince] using openedAt
      · simpa [openedSince] using state
      · simpa [failingSince, failed] using deque
  | true =>
      simp only [failed, if_true, deque.length] at executed
      obtain ⟨recorded, decided⟩ := executed
      by_cases many : p.failureThreshold ≤ failuresInWindow p past call
      · rw [if_pos many] at decided
        have spec : specReport p past call = .ran false .opened := by
          simp [specReport, unopened, failed, many]
        rw [spec]
        refine ⟨by rw [decided.1], unlocked, fresh, ?_, ?_, by simp [openedSince]⟩
        · simpa [openedSince] using decided.2
        · simpa [openedSince] using decided.1
      · rw [if_neg many] at decided
        have spec : specReport p past call = .ran false .closed := by
          simp [specReport, unopened, many]
        rw [spec]
        refine ⟨by rw [decided.1], unlocked, fresh, ?_, ?_, fun _ => ?_⟩
        · simpa [openedSince] using decided.2.trans openedAt
        · simpa [openedSince] using decided.1
        · rw [recorded]
          simpa [failingSince, failed] using deque.record

/-- One call meets what the specification says, and the relation goes on. -/
theorem Agrees.serve (agrees : Agrees p now c past w) (later : now ≤ call.begins) :
    (serve p c call w).1 = specReport p past call ∧
      Agrees p call.ends (c + 1) ((call, specReport p past call) :: past) (serve p c call w).2 := by
  cases open_ : openedSince past with
  | none => exact agrees.closed later open_
  | some opened =>
      by_cases early : call.begins - opened < p.recoveryTimeout
      · exact agrees.reject open_ early
      · exact agrees.probe open_ (not_lt.mp early)

theorem Agrees.every_report :
    ∀ (calls : List Call) (now : ℚ) (c : ℕ) (past : Past) (w : Config), Agrees p now c past w →
      Chronological now calls → reports p c w calls = specReports p past calls ∧
        exec (stepAt p) w (eventsOf c calls (specReports p past calls)) = some (afterCalls p c w calls)
  | [], _, _, _, _, _, _ => ⟨rfl, rfl⟩
  | call :: rest, now, c, past, w, agrees, ⟨later, chronological⟩ => by
      have ran := serve_events p c call w (agrees.fresh c le_rfl)
      obtain ⟨report, agrees⟩ := agrees.serve later
      obtain ⟨same, went⟩ := Agrees.every_report rest call.ends (c + 1) _ _ agrees chronological
      rw [reports, specReports, report, same]
      rw [report] at ran
      exact ⟨rfl, by rw [eventsOf, exec_append, ran]; exact went⟩

end Simulation

/-! ## Every run -/

theorem agrees_init (p : Params) (created : ℚ) : Agrees p created 0 [] (init fun _ => created) where
  unlocked := ⟨rfl, rfl⟩
  fresh _ _ := rfl
  openedAt := rfl
  state := rfl
  deque _ := ⟨Window.refl _ [], .nil, by simp [failingSince]⟩

/-- **The breaker refines its history specification**: every call of every
sequential run meets what the history of the calls before it says, and what is
done meanwhile are steps of the breaker. -/
theorem reports_eq (p : Params) (created : ℚ) (calls : List Call)
    (chronological : Chronological created calls) :
    reports p 0 (init fun _ => created) calls = specReports p [] calls ∧
      exec (stepAt p) (init fun _ => created) (eventsOf 0 calls (specReports p [] calls)) =
        some (afterCalls p 0 (init fun _ => created) calls) :=
  Agrees.every_report calls created 0 [] _ (agrees_init p created) chronological

/-- Two failures, an early call, a probe that fails and one that succeeds, and a
failure too old for the window of the last one. -/
def outage : List Call :=
  [⟨0, 1, true, by norm_num⟩, ⟨2, 3, true, by norm_num⟩, ⟨10, 11, false, by norm_num⟩,
    ⟨40, 41, true, by norm_num⟩, ⟨80, 81, false, by norm_num⟩, ⟨82, 83, true, by norm_num⟩,
    ⟨110, 111, true, by norm_num⟩]

/-- Satisfiable pole. -/
theorem reports_eq_outage :
    reports ⟨2, 20, 30⟩ 0 (init fun _ => 0) outage =
      [.ran false .closed, .ran false .opened, .rejected, .ran true .opened, .ran true .closed,
        .ran false .closed, .ran false .closed] := by
  rw [(reports_eq ⟨2, 20, 30⟩ 0 outage (by norm_num [outage, Chronological])).1]
  decide +kernel

end InferenceForge.Pipeline.CircuitBreaker
