/-
# InferenceForge.Api.Health — the metrics of the process, and what `/health` shows

The counters and the module state of `metrics.py` that `record_api_call`,
`record_latency`, `get_percentiles` and `get_summary` are about, and the handler of
`/health`. Any number of tickets run over it, in any order of steps, with a clock that
does not go back. Numbers are exact. NumPy and the validation of an `int` field are
whatever follows their rules (`NumPy`, `IntField`).

The window then holds the latest 1000 entries of the log of the run, each the time a ticket
waited for an answer that could be classified (`latency_window`). The percentiles are
between the latencies of the window and in order, each with its share of the window below
it, and with no more than 1000 latencies the order in which they were recorded makes no
difference (`percentiles_of_window`).

`HealthResponse` takes whole numbers of tokens. While what was recorded stays below `2^63`,
`/health` answers exactly when it adds up to a whole number, and once a number of tokens
was NaN or infinite it never answers again (`health_answers_iff`).
-/
import InferenceForge.Api.CacheStatistics
import InferenceForge.Library.Quantile
import InferenceForge.Library.SlidingWindow
import InferenceForge.Pipeline.CircuitBreaker
import InferenceForge.Pipeline.MeteredCalls
import InferenceForge.Pipeline.UpstreamAccounting
import Mathlib.Algebra.Order.Floor.Semifield
import Mathlib.Data.Rat.Floor

namespace InferenceForge.Api.Health

open InferenceForge.Python InferenceForge.Library InferenceForge.Pipeline
open InferenceForge.Pipeline.Metered
open InferenceForge.Pipeline.CircuitBreaker (CBState)
open InferenceForge.Api.Statistics (CacheCounters RawAnswer cacheHitRate)

set_option autoImplicit false

/-! ## What is imported -/

/-- `np.percentile` interpolates linearly. -/
structure NumPy where
  percentile : List ℚ → ℚ → ℚ
  linear : ∀ samples ≠ [], ∀ q, 0 ≤ q → q ≤ 100 → percentile samples q = quantile (q / 100) samples

/-- The validation of an `int` field. It changes no value, and takes every whole number below
`2^63`; from there on it depends on whether the number is a `float`. -/
structure IntField where
  validate : Number → Except Exn ℤ
  unchanged : ∀ total n, validate total = .ok n → total = .finite n
  takes : ∀ n : ℤ, 0 ≤ n → (n : ℚ) < 2 ^ 63 → validate (.finite n) = .ok n

/-! ## The metrics -/

/-- `api_calls_total` by status, `tokens_total`, `_latency_window` and the running totals. -/
structure Metrics where
  apiCallsTotal : String → ℕ
  tokensTotal : Number
  latencyWindow : List ℚ
  totalTokens : Number
  totalApiCalls : ℕ
  cache : CacheCounters

namespace Metrics

def init : Metrics where
  apiCallsTotal := fun _ => 0
  tokensTotal := 0
  latencyWindow := []
  totalTokens := 0
  totalApiCalls := 0
  cache := ⟨0, 0, 0, 0⟩

def recordLatency (m : Metrics) (ms : ℚ) : Metrics := { m with latencyWindow := pushBounded 1000 m.latencyWindow ms }

def incApiCalls (m : Metrics) (status : String) : Metrics :=
  { m with apiCallsTotal := Function.update m.apiCallsTotal status (m.apiCallsTotal status + 1) }

def incTokens (m : Metrics) (tokens : Number) : Metrics := { m with tokensTotal := m.tokensTotal + tokens }

def addTotals (m : Metrics) (tokens : Number) : Metrics :=
  { m with totalTokens := m.totalTokens + tokens, totalApiCalls := m.totalApiCalls + 1 }

/-- `record_api_call` with a number of tokens that the counter takes. With any other it ends after
its first step. -/
def recordApiCall (m : Metrics) (status : String) (tokens : Number) : Metrics :=
  ((m.incApiCalls status).incTokens tokens).addTotals tokens

/-- `get_percentiles`. -/
def getPercentiles (numpy : NumPy) (m : Metrics) : Summary :=
  if m.latencyWindow = [] then ⟨0, 0, 0⟩
  else {
    p50Ms := numpy.percentile m.latencyWindow 50
    p95Ms := numpy.percentile m.latencyWindow 95
    p99Ms := numpy.percentile m.latencyWindow 99 }

end Metrics

structure MetricsSummary where
  totalApiCalls : ℕ
  totalTokensUsed : Number
  estimatedCostUsd : Number
  cacheHitRate : ℚ
  percentiles : Summary

/-- `get_summary`. -/
def getSummary (numpy : NumPy) (settings : Settings) (m : Metrics) : MetricsSummary where
  totalApiCalls := m.totalApiCalls
  totalTokensUsed := m.totalTokens
  estimatedCostUsd := ((m.totalTokens.scale (1 / 1000)).scale settings.costPer1kTokens).round 6
  cacheHitRate := cacheHitRate m.cache
  percentiles := m.getPercentiles numpy

/-! ## GET /health -/

structure HealthMetrics where
  totalApiCalls : ℕ
  totalTokensUsed : ℤ
  estimatedCostUsd : Number
  p95LatencyMs : ℚ

structure HealthResponse where
  status : String
  circuitBreaker : String
  redis : String
  cacheHitRate : ℚ
  queueDepth : ℕ
  activeJobs : ℤ
  metrics : HealthMetrics

def stateValue : CBState → String
  | .closed => "CLOSED"
  | .opened => "OPEN"
  | .halfOpen => "HALF_OPEN"

/-- `redis_status`: any `Exception` of the ping says that Redis is not there. -/
def redisStatus : Except Exn Unit → Except Exn String
  | .ok _ => .ok "connected"
  | .error e => if e.isException then .ok "disconnected" else .error e

/-- `health_check`. -/
def healthCheck (numpy : NumPy) (intField : IntField) (settings : Settings) (ping : Except Exn Unit) (m : Metrics)
    (state : CBState) (queueDepth : ℕ) (activeJobCount : ℤ) : Except Exn HealthResponse := do
  let redis ← redisStatus ping
  let summary := getSummary numpy settings m
  let totalTokensUsed ← intField.validate summary.totalTokensUsed
  return {
    status := "ok"
    circuitBreaker := stateValue state
    redis
    cacheHitRate := summary.cacheHitRate
    queueDepth
    activeJobs := activeJobCount
    metrics := {
      totalApiCalls := summary.totalApiCalls
      totalTokensUsed
      estimatedCostUsd := summary.estimatedCostUsd
      p95LatencyMs := summary.percentiles.p95Ms } }

/-! ## Any number of tickets -/

/-- The module state, and the steps so far; `clock` says what time it is then. -/
structure Shared where
  ticks : ℕ
  metrics : Metrics

def Shared.init : Shared := ⟨0, .init⟩

section System

variable {ι : Type} (clock : ℕ → ℚ)
  (outside : ι → MeteredTrace → (op : TicketOp) → Option (TicketAnswer op))
  (redis : ι → MeteredTrace → String → Option RawAnswer)

/-- The clock, the metrics, the look-ups in Redis, and all else. -/
def serve : Serve MeteredOp MeteredAnswer ι Shared := fun i trace s op =>
  match op with
  | .monotonic => some (clock s.ticks, { s with ticks := s.ticks + 1 })
  | .recordLatency ms => some ((), { ticks := s.ticks + 1, metrics := s.metrics.recordLatency ms })
  | .ticket (.count status tokens) =>
      some ((), { ticks := s.ticks + 1, metrics := s.metrics.recordApiCall status tokens })
  | .ticket (.countStatus status) => some ((), { ticks := s.ticks + 1, metrics := s.metrics.incApiCalls status })
  | .ticket (.cacheGet key) => (redis i trace key).map fun raw =>
      let looked := Statistics.get s.metrics.cache raw
      (looked.2, { ticks := s.ticks + 1, metrics := { s.metrics with cache := looked.1 } })
  | .ticket op => (outside i trace op).map (·, { s with ticks := s.ticks + 1 })

abbrev Tickets (ι : Type) := Pool MeteredOp MeteredAnswer Exn Dict ι Shared

def start (settings : Settings) (host : Host) (tickets : ι → String) : Tickets ι :=
  Pool.init .init fun i => Metered.processTicket settings host (tickets i)

/-- The tokens a ticket has recorded. -/
def tokensOf (trace : MeteredTrace) : List Number := Accounting.counted (trace.filterMap unmetered)

/-- The status that a call of `record_api_call` has counted. -/
def statusAsked : Asked MeteredOp MeteredAnswer → Option String
  | ⟨.ticket (.count status _), _⟩ | ⟨.ticket (.countStatus status), _⟩ => some status
  | _ => none

def statusesOf (trace : MeteredTrace) : List String := trace.filterMap statusAsked

/-- The latencies of a log, and the tickets they were recorded for. -/
def latencyEntries (done : List (ι × Asked MeteredOp MeteredAnswer)) : List (ι × ℚ) :=
  done.filterMap fun entry => (latencyOf entry.2).map (entry.1, ·)

/-- The latencies of a run, in the order in which they were recorded. -/
def latencyLog [DecidableEq ι] (settings : Settings) (host : Host) (tickets : ι → String) (schedule : List ι) :
    List (ι × ℚ) :=
  latencyEntries (Pool.log (serve clock outside redis) (start settings host tickets) schedule)

end System

/-! ### One operation -/

section Served

variable {ι : Type} {clock : ℕ → ℚ} {outside : ι → MeteredTrace → (op : TicketOp) → Option (TicketAnswer op)}
  {redis : ι → MeteredTrace → String → Option RawAnswer}

def tokensAsked (asked : Asked MeteredOp MeteredAnswer) : List Number :=
  ((unmetered asked).bind Accounting.countedOf).toList

/-- What an operation does to the shared state. -/
structure Served (clock : ℕ → ℚ) (s s' : Shared) (asked : Asked MeteredOp MeteredAnswer) : Prop where
  ticked : s'.ticks = s.ticks + 1
  read : ∀ now ∈ readingOf asked, now = clock s.ticks
  window : s'.metrics.latencyWindow =
    (latencyOf asked).elim s.metrics.latencyWindow (pushBounded 1000 s.metrics.latencyWindow)
  tokens : s'.metrics.totalTokens = s.metrics.totalTokens + (tokensAsked asked).sum
  calls : s'.metrics.totalApiCalls = s.metrics.totalApiCalls + (tokensAsked asked).length
  counter : s'.metrics.tokensTotal = s.metrics.tokensTotal + (tokensAsked asked).sum
  statuses : ∀ status, s'.metrics.apiCallsTotal status =
    s.metrics.apiCallsTotal status + (statusAsked asked).toList.count status

/-- An operation that records nothing. -/
theorem served_aside {s : Shared} {cache : CacheCounters} {asked : Asked MeteredOp MeteredAnswer}
    (read : ∀ now ∈ readingOf asked, now = clock s.ticks) (latency : latencyOf asked = none)
    (tokens : tokensAsked asked = []) (status : statusAsked asked = none) :
    Served clock s { ticks := s.ticks + 1, metrics := { s.metrics with cache := cache } } asked where
  ticked := rfl
  read := read
  window := by rw [latency, Option.elim_none]
  tokens := by rw [tokens, List.sum_nil, add_zero]
  calls := by simp only [tokens, List.length_nil, Nat.add_zero]
  counter := by rw [tokens, List.sum_nil, add_zero]
  statuses _ := by simp only [status, Option.toList_none, List.count_nil, Nat.add_zero]

/-- What the status counters show after one more call. -/
theorem incApiCalls_count (m : Metrics) (status other : String) :
    (m.incApiCalls status).apiCallsTotal other = m.apiCallsTotal other + [status].count other := by
  change Function.update m.apiCallsTotal status (m.apiCallsTotal status + 1) other = _
  by_cases same : other = status
  · rw [same, Function.update_self, List.count_singleton_self]
  · rw [Function.update_of_ne same, List.count_singleton, if_neg (by simpa using Ne.symm same),
      Nat.add_zero]

theorem serve_spec {i : ι} {trace : MeteredTrace} {s s' : Shared} {op : MeteredOp} {answer : MeteredAnswer op}
    (served : serve clock outside redis i trace s op = some (answer, s')) :
    Served clock s s' ⟨op, answer⟩ := by
  cases op with
  | monotonic =>
      cases served
      exact served_aside (by simp [readingOf]) rfl rfl rfl
  | recordLatency ms =>
      cases served
      refine ⟨rfl, by simp [readingOf], ?_, ?_, ?_, ?_, ?_⟩ <;>
        simp [latencyOf, tokensAsked, statusAsked, unmetered, Metrics.recordLatency]
  | ticket op =>
      cases op with
      | count status tokens =>
          cases served
          have summed : (tokensAsked ⟨.ticket (.count status tokens), ()⟩).sum = tokens := List.sum_singleton
          refine ⟨rfl, by simp [readingOf], rfl, ?_, rfl, ?_, incApiCalls_count s.metrics status⟩
          · rw [summed]
            rfl
          · rw [summed]
            rfl
      | countStatus status =>
          cases served
          exact ⟨rfl, by simp [readingOf], rfl, (add_zero _).symm, rfl, (add_zero _).symm,
            incApiCalls_count s.metrics status⟩
      | cacheGet key =>
          obtain ⟨raw, _, same⟩ := Option.map_eq_some_iff.mp served
          cases same
          exact served_aside (by simp [readingOf]) rfl rfl rfl
      | _ =>
          obtain ⟨_, _, same⟩ := Option.map_eq_some_iff.mp served
          cases same
          exact served_aside (by simp [readingOf]) rfl rfl rfl

theorem tokensOf_concat (trace : MeteredTrace) (asked : Asked MeteredOp MeteredAnswer) :
    tokensOf (trace ++ [asked]) = tokensOf trace ++ tokensAsked asked := by
  rw [tokensOf, List.filterMap_append, tokensAsked]
  cases seen : unmetered asked with
  | none => simp [tokensOf, seen]
  | some asked =>
      rw [List.filterMap_cons_some seen]
      exact Accounting.counted_concat _ asked

theorem latencies_concat (trace : MeteredTrace) (asked : Asked MeteredOp MeteredAnswer) :
    latencies (trace ++ [asked]) = latencies trace ++ (latencyOf asked).toList := by
  rw [latencies, List.filterMap_append]
  cases found : latencyOf asked <;> simp [found, latencies]

theorem readings_concat (trace : MeteredTrace) (asked : Asked MeteredOp MeteredAnswer) :
    readings (trace ++ [asked]) = readings trace ++ (readingOf asked).toList := by
  rw [readings, List.filterMap_append]
  cases found : readingOf asked <;> simp [found, readings]

theorem statusesOf_concat (trace : MeteredTrace) (asked : Asked MeteredOp MeteredAnswer) :
    statusesOf (trace ++ [asked]) = statusesOf trace ++ (statusAsked asked).toList := by
  rw [statusesOf, List.filterMap_append]
  cases found : statusAsked asked <;> simp [found, statusesOf]

theorem latencyEntries_concat (done : List (ι × Asked MeteredOp MeteredAnswer)) (i : ι)
    (asked : Asked MeteredOp MeteredAnswer) :
    latencyEntries (done ++ [(i, asked)]) = latencyEntries done ++ (latencyOf asked).toList.map (i, ·) := by
  rw [latencyEntries, List.filterMap_append]
  cases found : latencyOf asked <;> simp [found, latencyEntries]

end Served

/-! ### The invariant -/

section Invariant

variable {ι : Type} [Fintype ι] [DecidableEq ι] {clock : ℕ → ℚ}
  {outside : ι → MeteredTrace → (op : TicketOp) → Option (TicketAnswer op)}
  {redis : ι → MeteredTrace → String → Option RawAnswer} {settings : Settings} {host : Host}
  {tickets : ι → String}
  {w w' : Tickets ι} {i : ι}

/-- All latencies that were recorded. -/
def recorded (w : Tickets ι) : Multiset ℚ := ∑ i, (latencies (w.traces i) : Multiset ℚ)

/-- What holds after `done`. -/
structure Inv (clock : ℕ → ℚ) (w : Tickets ι) (done : List (ι × Asked MeteredOp MeteredAnswer)) : Prop where
  sorted : ∀ i, (readings (w.traces i)).Pairwise (· ≤ ·)
  past : ∀ i, ∀ now ∈ readings (w.traces i), now ≤ clock w.shared.ticks
  window : w.shared.metrics.latencyWindow = latest 1000 ((latencyEntries done).map Prod.snd)
  each : ∀ i, ((latencyEntries done).filter (·.1 = i)).map Prod.snd = latencies (w.traces i)
  all : (((latencyEntries done).map Prod.snd : List ℚ) : Multiset ℚ) = recorded w
  tokens : w.shared.metrics.totalTokens = ∑ i, (tokensOf (w.traces i)).sum
  calls : w.shared.metrics.totalApiCalls = ∑ i, (tokensOf (w.traces i)).length
  counter : w.shared.metrics.tokensTotal = w.shared.metrics.totalTokens
  statuses : ∀ status, w.shared.metrics.apiCallsTotal status = ∑ i, (statusesOf (w.traces i)).count status

theorem inv_init : Inv clock (start settings host tickets : Tickets ι) [] where
  sorted _ := .nil
  past _ _ member := by cases member
  window := (latest_of_le (Nat.zero_le _)).symm
  each _ := rfl
  all := by simp [recorded, start, Pool.init, latencies, latencyEntries]
  tokens := by simp [start, Pool.init, tokensOf, Accounting.counted, Shared.init, Metrics.init]
  calls := by simp [start, Pool.init, tokensOf, Accounting.counted, Shared.init, Metrics.init]
  counter := rfl
  statuses status := by simp [start, Pool.init, statusesOf, Shared.init, Metrics.init]

theorem Inv.step (monotone : Monotone clock) {done : List (ι × Asked MeteredOp MeteredAnswer)} (inv : Inv clock w done)
    {op : MeteredOp} {next : MeteredAnswer op → MeteredCoroutine Dict} {answer : MeteredAnswer op} {shared : Shared}
    (given : serve clock outside redis i (w.traces i) w.shared op = some (answer, shared)) :
    Inv clock (w.served i op answer (next answer) shared) (done ++ [(i, ⟨op, answer⟩)]) := by
  have served := serve_spec given
  have later : clock w.shared.ticks ≤ clock shared.ticks := monotone (by rw [served.ticked]; omega)
  constructor
  · intro j
    by_cases same : j = i
    · subst same
      rw [Pool.served_traces_self, readings_concat]
      refine List.pairwise_append.mpr ⟨inv.sorted j, ?_, ?_⟩
      · cases readingOf ⟨op, answer⟩ <;> simp
      · intro before member now read
        rw [served.read now (Option.mem_toList.mp read)]
        exact inv.past j before member
    · rw [Pool.served_traces_of_ne same]
      exact inv.sorted j
  · intro j now member
    by_cases same : j = i
    · subst same
      rw [Pool.served_traces_self, readings_concat, List.mem_append] at member
      rcases member with before | new
      · exact (inv.past j now before).trans later
      · rw [served.read now (Option.mem_toList.mp new)]
        exact later
    · rw [Pool.served_traces_of_ne same] at member
      exact (inv.past j now member).trans later
  · rw [Pool.served_shared, served.window, inv.window, latencyEntries_concat, List.map_append]
    cases latencyOf ⟨op, answer⟩ with
    | none => rw [Option.elim_none, Option.toList_none, List.map_nil, List.map_nil, List.append_nil]
    | some ms => rw [Option.elim_some, Option.toList_some, List.map_singleton, List.map_singleton, pushBounded_latest]
  · intro j
    rw [latencyEntries_concat, List.filter_append, List.map_append, inv.each j]
    by_cases same : j = i
    · subst same
      rw [Pool.served_traces_self, latencies_concat]
      cases latencyOf ⟨op, answer⟩ <;> simp
    · rw [Pool.served_traces_of_ne same]
      cases latencyOf ⟨op, answer⟩ <;> simp [Ne.symm same]
  · have grown : recorded (w.served i op answer (next answer) shared) =
        recorded w + ((latencyOf ⟨op, answer⟩).toList : Multiset ℚ) :=
      Pool.sum_served_add (fun trace => (latencies trace : Multiset ℚ)) _ (by
        rw [latencies_concat, Multiset.coe_add])
    rw [grown, ← inv.all, latencyEntries_concat, List.map_append, Multiset.coe_add]
    cases latencyOf ⟨op, answer⟩ <;> simp
  · rw [Pool.served_shared, served.tokens, inv.tokens]
    symm
    apply Pool.sum_served_add fun trace => (tokensOf trace).sum
    rw [tokensOf_concat, List.sum_append]
  · rw [Pool.served_shared, served.calls, inv.calls]
    symm
    apply Pool.sum_served_add fun trace => (tokensOf trace).length
    rw [tokensOf_concat, List.length_append]
  · rw [Pool.served_shared, served.counter, inv.counter, served.tokens]
  · intro status
    rw [Pool.served_shared, served.statuses, inv.statuses]
    symm
    apply Pool.sum_served_add fun trace => (statusesOf trace).count status
    rw [statusesOf_concat, List.count_append]

theorem inv_of_ran (monotone : Monotone clock) {schedule : List ι}
    (ran : exec (Pool.step (serve clock outside redis)) (start settings host tickets) schedule = some w) :
    Inv clock w (Pool.log (serve clock outside redis) (start settings host tickets) schedule) :=
  Pool.exec_log (fun _ _ _ _ _ _ _ inv _ given => inv.step monotone given) inv_init ran

omit [Fintype ι] in
theorem faithful_of_ran {schedule : List ι}
    (ran : exec (Pool.step (serve clock outside redis)) (start settings host tickets) schedule = some w) :
    Pool.Faithful (fun i => Metered.processTicket settings host (tickets i)) w :=
  exec_invariant (fun _ _ _ faithful stepped => faithful.step stepped) schedule _ _ (Pool.faithful_init _ _) ran

omit [Fintype ι] in
/-- Where each ticket is with its measurement. -/
theorem timed_of_ran {schedule : List ι}
    (ran : exec (Pool.step (serve clock outside redis)) (start settings host tickets) schedule = some w) (i : ι) :
    ∃ watch, Timed host (w.traces i) watch ∧ (w.threads i).Safe (stopwatch host) (fun _ => True) Idle watch := by
  obtain ⟨followed, safe⟩ := Metered.processTicket_timed.now (faithful_of_ran ran i)
  exact ⟨_, timed_of_exec followed, safe⟩

end Invariant

/-! ## The latencies -/

section Latencies

variable {ι : Type} [Fintype ι] [DecidableEq ι] {clock : ℕ → ℚ}
  {outside : ι → MeteredTrace → (op : TicketOp) → Option (TicketAnswer op)}
  {redis : ι → MeteredTrace → String → Option RawAnswer} {settings : Settings} {host : Host}
  {tickets : ι → String}
  {w : Tickets ι}

/-- It has returned or raised. -/
def Complete (p : MeteredCoroutine Dict) : Prop := ∀ op next, p ≠ .ask op next

/-- **The latency window** holds the latest 1000 entries of the log of the run. The entries of
a ticket are what it has recorded, in its order: each is the time between the readings around a
request of it whose answer could be classified, and of a ticket that is through each such answer
was recorded. Without the clock, it has then run as the `processTicket` of `Caller`. -/
theorem latency_window (monotone : Monotone clock) {schedule : List ι}
    (ran : exec (Pool.step (serve clock outside redis)) (start settings host tickets) schedule = some w) :
    w.shared.metrics.latencyWindow =
      latest 1000 ((latencyLog clock outside redis settings host tickets schedule).map Prod.snd) ∧
    ∀ i,
      ((latencyLog clock outside redis settings host tickets schedule).filter (·.1 = i)).map Prod.snd =
        latencies (w.traces i) ∧
      (∀ ms ∈ latencies (w.traces i), 0 ≤ ms ∧ Measured host (w.traces i) ms) ∧
      (latencies (w.traces i)).length ≤ (classified host (w.traces i)).length ∧
      (Complete (w.threads i) → (latencies (w.traces i)).length = (classified host (w.traces i)).length) ∧
      ∀ result, Runs (w.threads i) [] result →
        Runs (Pipeline.processTicket settings host (tickets i)) ((w.traces i).filterMap unmetered) result := by
  have inv := inv_of_ran monotone ran
  refine ⟨inv.window, fun i => ⟨inv.each i, ?_⟩⟩
  obtain ⟨watch, timed, safe⟩ := timed_of_ran ran i
  refine ⟨fun ms member => ?_, ?_, fun complete => ?_, fun result ended => ?_⟩
  · have measured := timed.measured ms member
    exact ⟨measured.nonneg (inv.sorted i), measured⟩
  · exact (Nat.le_add_right _ _).trans timed.sampled.le
  · have idle : watch = .idle := by
      cases ended : w.threads i with
      | done | raise =>
          rw [ended] at safe
          exact safe
      | ask op next => exact absurd ended (complete op next)
    have sampled := timed.sampled
    rwa [idle] at sampled
  · have whole := (faithful_of_ran ran i).runs ended
    rw [List.append_nil] at whole
    exact processTicket_refines.runs whole

/-- A value between the samples that has the share `q` of them on its left. -/
structure Percentile (window : List ℚ) (q value : ℚ) : Prop where
  least : ∀ least, (∀ ms ∈ window, least ≤ ms) → least ≤ value
  greatest : ∀ greatest, (∀ ms ∈ window, ms ≤ greatest) → value ≤ greatest
  reached : q * (window.length - 1 : ℕ) < window.countP (· ≤ value)
  below : (window.countP (· < value) : ℚ) < q * (window.length - 1 : ℕ) + 1

variable {numpy : NumPy}

theorem percentile_quantile {window : List ℚ} (some : window ≠ []) {q : ℚ} (nonneg : 0 ≤ q) (le_one : q ≤ 1) :
    Percentile window q (quantile q window) where
  least _ below := le_quantile some nonneg below
  greatest _ above := quantile_le some q above
  reached := place_lt_countP_le some nonneg le_one
  below := countP_lt_lt_place nonneg window

theorem getPercentiles_of_some {m : Metrics} (some : m.latencyWindow ≠ []) :
    m.getPercentiles numpy = {
      p50Ms := quantile (50 / 100) m.latencyWindow
      p95Ms := quantile (95 / 100) m.latencyWindow
      p99Ms := quantile (99 / 100) m.latencyWindow } := by
  have linear := numpy.linear m.latencyWindow some
  rw [Metrics.getPercentiles, if_neg some, linear 50 (by norm_num) (by norm_num), linear 95 (by norm_num) (by norm_num),
    linear 99 (by norm_num) (by norm_num)]

variable (numpy) in
/-- The percentiles of any moment are in order, and not negative. -/
theorem percentiles_ordered (monotone : Monotone clock) {schedule : List ι}
    (ran : exec (Pool.step (serve clock outside redis)) (start settings host tickets) schedule = some w) :
    0 ≤ (w.shared.metrics.getPercentiles numpy).p50Ms ∧
      (w.shared.metrics.getPercentiles numpy).p50Ms ≤ (w.shared.metrics.getPercentiles numpy).p95Ms ∧
      (w.shared.metrics.getPercentiles numpy).p95Ms ≤ (w.shared.metrics.getPercentiles numpy).p99Ms := by
  have inv := inv_of_ran monotone ran
  have nonneg : ∀ ms ∈ w.shared.metrics.latencyWindow, 0 ≤ ms := by
    intro ms member
    rw [inv.window] at member
    have listed : ms ∈ recorded w := by
      rw [← inv.all]
      exact Multiset.mem_coe.mpr (mem_of_mem_latest member)
    obtain ⟨i, _, here⟩ := Multiset.mem_sum.mp listed
    obtain ⟨watch, timed, _⟩ := timed_of_ran ran i
    exact (timed.measured ms (Multiset.mem_coe.mp here)).nonneg (inv.sorted i)
  by_cases empty : w.shared.metrics.latencyWindow = []
  · rw [Metrics.getPercentiles, if_pos empty]
    exact ⟨le_rfl, le_rfl, le_rfl⟩
  · rw [getPercentiles_of_some empty]
    exact ⟨le_quantile empty (by norm_num) nonneg, quantile_mono (by norm_num) (by norm_num) _,
      quantile_mono (by norm_num) (by norm_num) _⟩

/-- **The percentiles** are in order and not negative; of a window that is not empty each is
the percentile it is called. While no more than 1000 latencies were recorded, they are those
of all latencies, in whatever order these are listed. -/
theorem percentiles_of_window (monotone : Monotone clock) {schedule : List ι}
    (ran : exec (Pool.step (serve clock outside redis)) (start settings host tickets) schedule = some w) :
    (0 ≤ (w.shared.metrics.getPercentiles numpy).p50Ms ∧
      (w.shared.metrics.getPercentiles numpy).p50Ms ≤ (w.shared.metrics.getPercentiles numpy).p95Ms ∧
      (w.shared.metrics.getPercentiles numpy).p95Ms ≤ (w.shared.metrics.getPercentiles numpy).p99Ms) ∧
    (w.shared.metrics.latencyWindow ≠ [] →
      Percentile w.shared.metrics.latencyWindow (50 / 100) (w.shared.metrics.getPercentiles numpy).p50Ms ∧
      Percentile w.shared.metrics.latencyWindow (95 / 100) (w.shared.metrics.getPercentiles numpy).p95Ms ∧
      Percentile w.shared.metrics.latencyWindow (99 / 100) (w.shared.metrics.getPercentiles numpy).p99Ms) ∧
    ∀ listed : List ℚ, (listed : Multiset ℚ) = ∑ i, (latencies (w.traces i) : Multiset ℚ) →
      listed.length ≤ 1000 → listed ≠ [] →
      w.shared.metrics.getPercentiles numpy =
        ⟨quantile (50 / 100) listed, quantile (95 / 100) listed, quantile (99 / 100) listed⟩ := by
  have inv := inv_of_ran monotone ran
  refine ⟨percentiles_ordered numpy monotone ran, fun some => ?_, fun listed same short some => ?_⟩
  · rw [getPercentiles_of_some some]
    exact ⟨percentile_quantile some (by norm_num) (by norm_num), percentile_quantile some (by norm_num) (by norm_num),
      percentile_quantile some (by norm_num) (by norm_num)⟩
  · -- nothing was dropped, and the order does not matter
    have perm := Multiset.coe_eq_coe.mp (inv.all.trans same.symm)
    have whole := inv.window.trans (latest_of_le (perm.length_eq ▸ short))
    have filled : w.shared.metrics.latencyWindow ≠ [] := by
      intro empty
      rw [← whole, empty] at perm
      exact some (List.nil_perm.mp perm)
    rw [getPercentiles_of_some filled, whole, quantile_perm perm, quantile_perm perm, quantile_perm perm]

end Latencies

/-! ## The totals -/

section Numbers

variable {a b : Number} {q : ℚ}

theorem add_eq_finite (same : a + b = .finite q) : ∃ x y, a = .finite x ∧ b = .finite y ∧ q = x + y := by
  change Number.add a b = .finite q at same
  cases a <;> cases b <;> simp_all [Number.add]

theorem isNegative_add (left : a.isNegative = false) (right : b.isNegative = false) :
    (a + b).isNegative = false := by
  change (Number.add a b).isNegative = false
  cases a <;> cases b <;> simp_all [Number.add, Number.isNegative]
  linarith

/-- A sum that is finite has finite summands. -/
theorem finite_of_mem {summands : List Number} {t : Number} (member : t ∈ summands)
    (finite : ∃ q, summands.sum = .finite q) : ∃ q, t = .finite q := by
  induction summands with
  | nil => cases member
  | cons first rest ih =>
      obtain ⟨q, same⟩ := finite
      rw [List.sum_cons] at same
      obtain ⟨x, y, head, tail, _⟩ := add_eq_finite same
      rcases List.mem_cons.mp member with rfl | later
      · exact ⟨x, head⟩
      · exact ih later ⟨y, tail⟩

theorem isNegative_sum {summands : List Number} (nonneg : ∀ t ∈ summands, t.isNegative = false) :
    summands.sum.isNegative = false := by
  induction summands with
  | nil => rfl
  | cons first rest ih =>
      obtain ⟨head, tail⟩ := List.forall_mem_cons.mp nonneg
      rw [List.sum_cons]
      exact isNegative_add head (ih tail)

/-- The finite part of a finite sum is the sum. -/
theorem finitePart_sum {summands : List Number} (same : summands.sum = .finite q) :
    (summands.map Accounting.finitePart).sum = q := by
  induction summands generalizing q with
  | nil =>
      cases same
      rfl
  | cons first rest ih =>
      rw [List.sum_cons] at same
      obtain ⟨x, y, head, tail, rfl⟩ := add_eq_finite same
      rw [List.map_cons, List.sum_cons, ih tail, head]
      rfl

end Numbers

section Totals

variable {numpy : NumPy} {intField : IntField} {settings : Settings} {ping : Except Exn Unit} {m : Metrics} {state : CBState} {queueDepth : ℕ}
  {activeJobCount : ℤ}

theorem healthCheck_eq_ok {response : HealthResponse} :
    healthCheck numpy intField settings ping m state queueDepth activeJobCount = .ok response ↔
      ∃ redis, ∃ n : ℤ, redisStatus ping = .ok redis ∧ intField.validate m.totalTokens = .ok n ∧ response = {
        status := "ok"
        circuitBreaker := stateValue state
        redis
        cacheHitRate := cacheHitRate m.cache
        queueDepth
        activeJobs := activeJobCount
        metrics := {
          totalApiCalls := m.totalApiCalls
          totalTokensUsed := n
          estimatedCostUsd := (getSummary numpy settings m).estimatedCostUsd
          p95LatencyMs := (m.getPercentiles numpy).p95Ms } } := by
  unfold healthCheck
  rw [bind_ok_iff]
  constructor
  · rintro ⟨redis, told, rest⟩
    obtain ⟨n, taken, same⟩ := bind_ok_iff.mp rest
    cases same
    exact ⟨redis, n, told, taken, rfl⟩
  · rintro ⟨redis, n, told, taken, rfl⟩
    exact ⟨redis, told, bind_ok_iff.mpr ⟨n, taken, rfl⟩⟩

theorem cacheHitRate_mem (counters : CacheCounters) : 0 ≤ cacheHitRate counters ∧ cacheHitRate counters ≤ 1 := by
  unfold cacheHitRate rate
  split
  · exact round_ratio (Nat.le_add_right _ _)
  · exact ⟨round_nonneg le_rfl, round_le_one zero_le_one⟩

end Totals

section System

variable {ι : Type} [Fintype ι] [DecidableEq ι] {clock : ℕ → ℚ}
  {outside : ι → MeteredTrace → (op : TicketOp) → Option (TicketAnswer op)}
  {redis : ι → MeteredTrace → String → Option RawAnswer} {settings : Settings} {host : Host}
  {tickets : ι → String}
  {w w' : Tickets ι}

theorem mem_tokensOf {trace : MeteredTrace} {tokens : Number} (member : tokens ∈ tokensOf trace) :
    ∃ status, ⟨.ticket (.count status tokens), ()⟩ ∈ trace := by
  obtain ⟨asked, inside, counted⟩ := List.mem_filterMap.mp member
  obtain ⟨metered, here, seen⟩ := List.mem_filterMap.mp inside
  obtain ⟨status, same⟩ := Accounting.count_of_counted counted
  obtain ⟨op, answer⟩ := asked
  obtain rfl : op = .count status tokens := same
  unfold unmetered at seen
  split at seen
  · cases seen
    exact ⟨status, here⟩
  · cases seen

omit [Fintype ι] in
/-- What the tickets have recorded since. -/
theorem tokens_later {schedule : List ι} (ran : exec (Pool.step (serve clock outside redis)) w schedule = some w') :
    ∃ more : ι → List Number, ∀ i, tokensOf (w'.traces i) = tokensOf (w.traces i) ++ more i := by
  have grown : ∀ i, ∃ more, tokensOf (w'.traces i) = tokensOf (w.traces i) ++ more := by
    intro i
    obtain ⟨later, same⟩ := Pool.traces_prefix ran i
    refine ⟨tokensOf later, ?_⟩
    rw [← same, tokensOf, List.filterMap_append, Accounting.counted, List.filterMap_append]
    rfl
  exact ⟨fun i => (grown i).choose, fun i => (grown i).choose_spec⟩

omit [Fintype ι] in
theorem ran_further {first : Tickets ι} {schedule later : List ι}
    (ran : exec (Pool.step (serve clock outside redis)) first schedule = some w)
    (further : exec (Pool.step (serve clock outside redis)) w later = some w') :
    exec (Pool.step (serve clock outside redis)) first (schedule ++ later) = some w' := by
  rw [exec_append]
  exact Option.bind_eq_some_iff.mpr ⟨w, ran, further⟩

/-- The totals after more of the run. -/
theorem tokens_add {schedule : List ι} {done done' : List (ι × Asked MeteredOp MeteredAnswer)}
    (inv : Inv clock w done) (inv' : Inv clock w' done')
    (ran : exec (Pool.step (serve clock outside redis)) w schedule = some w') :
    ∃ more : ι → List Number, (∀ i, tokensOf (w'.traces i) = tokensOf (w.traces i) ++ more i) ∧
      w'.shared.metrics.totalTokens = w.shared.metrics.totalTokens + ∑ i, (more i).sum := by
  obtain ⟨more, grown⟩ := tokens_later ran
  refine ⟨more, grown, ?_⟩
  rw [inv'.tokens, inv.tokens, ← Finset.sum_add_distrib]
  refine Finset.sum_congr rfl fun i _ => ?_
  rw [grown, List.sum_append]

omit [Fintype ι] in
theorem tokens_nonneg {schedule : List ι}
    (ran : exec (Pool.step (serve clock outside redis)) (start settings host tickets) schedule = some w) (i : ι) :
    ∀ tokens ∈ tokensOf (w.traces i), tokens.isNegative = false := by
  intro tokens member
  obtain ⟨status, counted⟩ := mem_tokensOf member
  obtain ⟨_, timed, _⟩ := timed_of_ran ran i
  exact timed.counts status tokens counted

omit [DecidableEq ι] in
theorem isNegative_total {summands : ι → List Number} (nonneg : ∀ i, ∀ t ∈ summands i, t.isNegative = false) :
    (∑ i, (summands i).sum).isNegative = false :=
  Finset.sum_induction _ (fun t : Number => t.isNegative = false) (fun _ _ => isNegative_add) rfl
    fun i _ => isNegative_sum (nonneg i)

theorem tokensOf_length_le (trace : MeteredTrace) : (tokensOf trace).length ≤ (statusesOf trace).length := by
  induction trace using List.reverseRecOn with
  | nil => exact le_rfl
  | append_singleton trace asked ih =>
      have each : (tokensAsked asked).length ≤ (statusAsked asked).toList.length := by
        obtain ⟨op, answer⟩ := asked
        cases op with
        | ticket op => cases op <;> first | exact le_rfl | exact Nat.zero_le _
        | _ => exact Nat.zero_le _
      rw [tokensOf_concat, statusesOf_concat, List.length_append, List.length_append]
      exact Nat.add_le_add ih each

/-- **The counters** show the tokens of the totals, and for every status the calls recorded with it.
The totals leave out those whose number of tokens was refused. -/
theorem counters_counted (monotone : Monotone clock) {schedule : List ι}
    (ran : exec (Pool.step (serve clock outside redis)) (start settings host tickets) schedule = some w) :
    w.shared.metrics.tokensTotal = w.shared.metrics.totalTokens ∧
    (∀ status, w.shared.metrics.apiCallsTotal status = ∑ i, (statusesOf (w.traces i)).count status) ∧
    w.shared.metrics.totalApiCalls ≤ ∑ i, (statusesOf (w.traces i)).length := by
  have inv := inv_of_ran monotone ran
  refine ⟨inv.counter, inv.statuses, ?_⟩
  rw [inv.calls]
  exact Finset.sum_le_sum fun i _ => tokensOf_length_le _

/-- What the finite numbers of tokens recorded so far add up to. -/
def finiteTotal (w : Tickets ι) : ℚ := ∑ i, ((tokensOf (w.traces i)).map Accounting.finitePart).sum

omit [DecidableEq ι] in
theorem finiteTotal_of_total {q : ℚ} (total : ∑ i, (tokensOf (w.traces i)).sum = .finite q) : finiteTotal w = q := by
  have each : ∀ s : Finset ι, ∀ q, ∑ i ∈ s, (tokensOf (w.traces i)).sum = .finite q →
      ∑ i ∈ s, ((tokensOf (w.traces i)).map Accounting.finitePart).sum = q := by
    intro s
    induction s using Finset.cons_induction with
    | empty =>
        rintro q same
        cases same
        rfl
    | cons i s outside ih =>
        intro q same
        rw [Finset.sum_cons] at same
        obtain ⟨x, y, mine, others, rfl⟩ := add_eq_finite same
        rw [Finset.sum_cons, finitePart_sum mine, ih y others]
  exact each _ q total

/-- `/health` answers, when it is asked with these metrics. -/
def Answers (numpy : NumPy) (intField : IntField) (settings : Settings) (m : Metrics) : Prop :=
  ∃ ping state queueDepth activeJobCount response,
    healthCheck numpy intField settings ping m state queueDepth activeJobCount = .ok response

variable {numpy : NumPy} {intField : IntField}

/-- **`/health` answers**, while the finite numbers of tokens recorded so far add up to less than
`2^63`, exactly when all of them add up to a whole number, and then it shows this number and
that of the records. Once a number of tokens was not finite, it does not answer again. -/
theorem health_answers_iff (monotone : Monotone clock) {schedule : List ι}
    (ran : exec (Pool.step (serve clock outside redis)) (start settings host tickets) schedule = some w)
    (small : finiteTotal w < 2 ^ 63) :
    (Answers numpy intField settings w.shared.metrics ↔ ∃ n : ℤ, ∑ i, (tokensOf (w.traces i)).sum = .finite n) ∧
    (∀ ping state queueDepth activeJobCount response,
      healthCheck numpy intField settings ping w.shared.metrics state queueDepth activeJobCount = .ok response →
      ∑ i, (tokensOf (w.traces i)).sum = .finite response.metrics.totalTokensUsed ∧
      response.metrics.totalApiCalls = ∑ i, (tokensOf (w.traces i)).length ∧
      0 ≤ response.cacheHitRate ∧ response.cacheHitRate ≤ 1 ∧ 0 ≤ response.metrics.p95LatencyMs) ∧
    ∀ i, ∀ tokens ∈ tokensOf (w.traces i), (∀ q, tokens ≠ .finite q) → ∀ later w',
      exec (Pool.step (serve clock outside redis)) w later = some w' → finiteTotal w' < 2 ^ 63 →
      ¬ Answers numpy intField settings w'.shared.metrics := by
  have inv := inv_of_ran monotone ran
  refine ⟨⟨?_, ?_⟩, ?_, ?_⟩
  · rintro ⟨ping, state, queueDepth, activeJobCount, response, answered⟩
    obtain ⟨_, n, _, taken, _⟩ := healthCheck_eq_ok.mp answered
    exact ⟨n, inv.tokens.symm.trans (intField.unchanged _ n taken)⟩
  · rintro ⟨n, total⟩
    have nonneg := isNegative_total fun i => tokens_nonneg ran i
    rw [total] at nonneg
    have positive : 0 ≤ n := by simpa [Number.isNegative] using nonneg
    rw [finiteTotal_of_total total] at small
    have taken : intField.validate w.shared.metrics.totalTokens = .ok n := by
      rw [inv.tokens, total]
      exact intField.takes n positive small
    exact ⟨.ok (), .closed, 0, 0, _, healthCheck_eq_ok.mpr ⟨_, n, rfl, taken, rfl⟩⟩
  · intro ping state queueDepth activeJobCount response answered
    obtain ⟨_, n, _, taken, rfl⟩ := healthCheck_eq_ok.mp answered
    obtain ⟨low, high⟩ := cacheHitRate_mem w.shared.metrics.cache
    obtain ⟨p50, up, _⟩ := percentiles_ordered numpy monotone ran
    exact ⟨inv.tokens.symm.trans (intField.unchanged _ n taken), inv.calls, low, high, p50.trans up⟩
  · rintro i tokens member infinite later w' further _ ⟨ping, state, queueDepth, activeJobCount, response, answered⟩
    obtain ⟨_, n, _, taken, _⟩ := healthCheck_eq_ok.mp answered
    have total := intField.unchanged _ n taken
    have inv' := inv_of_ran monotone (ran_further ran further)
    -- the sum of this ticket is a summand of the total
    rw [inv'.tokens, ← Finset.add_sum_erase _ _ (Finset.mem_univ i)] at total
    obtain ⟨x, _, mine, _⟩ := add_eq_finite total
    obtain ⟨more, grown⟩ := tokens_later further
    obtain ⟨q, finite⟩ := finite_of_mem (by rw [grown]; exact List.mem_append_left _ member) ⟨x, mine⟩
    exact infinite q finite

/-- **The totals that `/health` shows never decrease**, nor does the cost while a token has none
that is negative. -/
theorem totals_grow (monotone : Monotone clock) {schedule later : List ι}
    (ran : exec (Pool.step (serve clock outside redis)) (start settings host tickets) schedule = some w)
    (further : exec (Pool.step (serve clock outside redis)) w later = some w')
    {ping ping' : Except Exn Unit} {state state' : CBState} {queueDepth queueDepth' : ℕ}
    {activeJobCount activeJobCount' : ℤ} {response response' : HealthResponse}
    (before : healthCheck numpy intField settings ping w.shared.metrics state queueDepth activeJobCount = .ok response)
    (after : healthCheck numpy intField settings ping' w'.shared.metrics state' queueDepth' activeJobCount' = .ok response') :
    response.metrics.totalApiCalls ≤ response'.metrics.totalApiCalls ∧
      response.metrics.totalTokensUsed ≤ response'.metrics.totalTokensUsed ∧
      (0 ≤ settings.costPer1kTokens → ∃ cost cost', response.metrics.estimatedCostUsd = .finite cost ∧
        response'.metrics.estimatedCostUsd = .finite cost' ∧ cost ≤ cost') := by
  have inv := inv_of_ran monotone ran
  have whole := ran_further ran further
  have inv' := inv_of_ran monotone whole
  obtain ⟨_, n, _, taken, rfl⟩ := healthCheck_eq_ok.mp before
  obtain ⟨_, n', _, taken', rfl⟩ := healthCheck_eq_ok.mp after
  have total := intField.unchanged _ n taken
  have total' := intField.unchanged _ n' taken'
  obtain ⟨more, grown, added⟩ := tokens_add inv inv' further
  have rest : (∑ i, (more i).sum).isNegative = false := by
    refine isNegative_total fun i t member => tokens_nonneg whole i t ?_
    rw [grown]
    exact List.mem_append_right _ member
  rw [total, total'] at added
  obtain ⟨x, d, same, extra, sum⟩ := add_eq_finite added.symm
  cases same
  rw [extra] at rest
  have positive : 0 ≤ d := by simpa [Number.isNegative] using rest
  have le : (n : ℚ) ≤ n' := by rw [sum]; linarith
  refine ⟨?_, by exact_mod_cast le, fun rate => ?_⟩
  · change w.shared.metrics.totalApiCalls ≤ w'.shared.metrics.totalApiCalls
    rw [inv.calls, inv'.calls]
    refine Finset.sum_le_sum fun i _ => ?_
    rw [grown, List.length_append]
    exact Nat.le_add_right _ _
  · refine ⟨round 6 (n * (1 / 1000) * settings.costPer1kTokens), round 6 (n' * (1 / 1000) * settings.costPer1kTokens),
      ?_, ?_, ?_⟩
    · change (Number.scale _ (Number.scale _ w.shared.metrics.totalTokens)).round 6 = _
      rw [total]
      rfl
    · change (Number.scale _ (Number.scale _ w'.shared.metrics.totalTokens)).round 6 = _
      rw [total']
      rfl
    · exact round_mono (by gcongr)

end System

/-! ## Poles -/

section Poles

/-- The linear rule itself. -/
def NumPy.linearRule : NumPy := ⟨fun samples q => quantile (q / 100) samples, fun _ _ _ _ _ => rfl⟩

/-- A field that takes no `float` from `2^63` on. -/
def IntField.ofFloat : IntField where
  validate
    | .finite value =>
        if value.den ≠ 1 then .error { kind := .other "ValidationError", message := "int_from_float" }
        else if value < 2 ^ 63 then .ok value.num
        else .error { kind := .other "ValidationError", message := "int_parsing_size" }
    | _ => .error { kind := .other "ValidationError", message := "finite_number" }
  unchanged total n taken := by
    cases total with
    | finite value =>
        by_cases whole : value.den = 1
        · by_cases small : value < 2 ^ 63
          · simp only [whole, small, ne_eq, not_true, if_false, if_true] at taken
            cases taken
            rw [Rat.den_eq_one_iff value |>.mp whole]
          · simp [whole, small] at taken
        · simp [whole] at taken
    | _ => cases taken
  takes n _ small := by simp [small]

/-- A clock that goes faster and faster. -/
def squares : ℕ → ℚ := fun n => n ^ 2

theorem squares_monotone : Monotone squares := fun _ _ le => by
  unfold squares
  gcongr

def twoTickets : Bool → String
  | false => "help"
  | true => "crash"

def amount : Bool → ℚ
  | false => 7
  | true => 5

theorem amount_taken (i : Bool) : incrementTokens (.number (.finite (amount i))) = .ok (.finite (amount i)) := by
  cases i
  · exact incrementTokens_finite (by norm_num [amount]) (lt_overflow (n := 7) (by decide))
  · exact incrementTokens_finite (by norm_num [amount]) (lt_overflow (n := 5) (by decide))

/-- What a ticket is answered. -/
def okAnswer (i : Bool) : Response := completion (String.ofList okText) (amount i)

/-- Upstream answers, and the breaker lets everything through. -/
def answering : Bool → MeteredTrace → (op : TicketOp) → Option (TicketAnswer op) := fun i _ op =>
  match op with
  | .cacheGet _ => some (.ok none)
  | .cacheSet _ _ | .sleep _ => some (.ok ())
  | .acquire | .release | .throttle _ | .count _ _ | .countStatus _ => some ()
  | .admission _ => some true
  | .post _ _ => some (.ok (okAnswer i))
  | .uniform _ => some (0 : ℚ)

/-- Nothing is cached. -/
def emptyCache : Bool → MeteredTrace → String → Option RawAnswer := fun _ _ _ => some .absent

def okRecord (i : Bool) : Dict := Dict.set (summarized ['o', 'k']) "tokens" (.number (.finite (amount i)))

/-- The request of a ticket between two readings of the clock. -/
abbrev callTrace (i : Bool) (start stop : ℚ) : MeteredTrace :=
  [⟨.monotonic, start⟩, ⟨.ticket (.post (twoTickets i) 1), .ok (okAnswer i)⟩, ⟨.monotonic, stop⟩,
    ⟨.recordLatency ((stop - start) * 1000), ()⟩, ⟨.ticket (.count "success" (.finite (amount i))), ()⟩]

abbrev okTrace (i : Bool) (start stop : ℚ) : MeteredTrace :=
  ⟨.ticket (.cacheGet (ticketKey (hostWith okLoads) (twoTickets i))), .ok none⟩ :: ⟨.ticket .acquire, ()⟩ ::
    ((⟨.ticket (.admission 1), true⟩ :: callTrace i start stop ++ []) ++ [⟨.ticket .release, ()⟩]) ++
      ([⟨.ticket (.cacheSet (ticketKey (hostWith okLoads) (twoTickets i)) (Dict.drop (okRecord i) "cache_hit")),
        .ok ()⟩] ++ [])

theorem okAnswer_classified (i : Bool) : parsedAnswer (hostWith okLoads) (okAnswer i) =
    .ok (.object (summarized ['o', 'k']), .number (.finite (amount i))) := by
  have stripped : stripThinkTags okText = okText := stripThinkTags_plain (by decide) (by decide)
  have parsed : parseContent okLoads (String.ofList okText).toList = .ok (.object (summarized ['o', 'k'])) := by
    rw [String.toList_ofList, parseContent_tried, tried, stripped]
    exact firstJson_of_ok _ okLoads_okText
  change ((parseContent okLoads (String.ofList okText).toList).bind fun result => Except.ok (result, _)) = _
  rw [parsed]
  rfl

theorem call_runs (i : Bool) (start stop : ℚ) :
    Runs (Metered.singleApiCall .defaults (hostWith okLoads) (twoTickets i) 1) (callTrace i start stop)
      (.ok (.object (summarized ['o', 'k']), .number (.finite (amount i)))) := by
  have counted : Pipeline.recordApiCall "success" (.number (.finite (amount i))) =
      Pipeline.await (.count "success" (.finite (amount i))) := by
    rw [Pipeline.recordApiCall, amount_taken]
  refine .ask (.ask (.ask ?_))
  change Runs (Program.ofResult (parsedAnswer (hostWith okLoads) (okAnswer i)) >>= fun result =>
    meter (.recordLatency ((stop - start) * 1000)) >>= fun _ =>
      plain (Pipeline.recordApiCall "success" result.2) >>= fun _ => pure result) _ _
  rw [okAnswer_classified]
  refine .ask ?_
  change Runs (plain (Pipeline.recordApiCall "success" (.number (.finite (amount i)))) >>= fun _ => pure _) _ _
  rw [counted]
  exact .ask (.done _)

theorem ok_runs (i : Bool) (start stop : ℚ) : ∃ result,
    Runs (Metered.processTicket .defaults (hostWith okLoads) (twoTickets i)) (okTrace i start stop) (.ok result) := by
  have first : Runs (Metered.tryAttempt .defaults (hostWith okLoads) (twoTickets i) 1)
      (⟨.ticket (.admission 1), true⟩ :: callTrace i start stop ++ []) (.ok (some (okRecord i))) :=
    runs_bind_iff.mpr (.inr ⟨_, _, [], rfl, .ask (call_runs i start stop), .done _⟩)
  have returned : Runs (Metered.callWithRetry .defaults (hostWith okLoads) (twoTickets i))
      (⟨.ticket (.admission 1), true⟩ :: callTrace i start stop ++ []) (.ok (okRecord i)) :=
    runs_bind_iff.mpr
      (.inr ⟨_, _, [], (List.append_nil _).symm, runs_rescue_iff.mpr (.inl ⟨_, first, rfl⟩), .done _⟩)
  have released : Runs ((Metered.callWithRetry .defaults (hostWith okLoads) (twoTickets i)).tryFinally
      (plain (Pipeline.await .release)))
      ((⟨.ticket (.admission 1), true⟩ :: callTrace i start stop ++ []) ++ [⟨.ticket .release, ()⟩])
      (.ok (okRecord i)) := by
    refine (runs_tryFinally_iff ?_).mpr ⟨_, _, rfl, returned, .ask (.done _)⟩
    rintro e after raised
    cases raised with
    | ask rest => cases rest
  have stored : Runs ((Metered.callWithRetry .defaults (hostWith okLoads) (twoTickets i)).tryFinally
      (plain (Pipeline.await .release)) >>= fun result =>
        (plain (cacheSet (hostWith okLoads) (twoTickets i) (Dict.drop result "cache_hit"))).when
          (Dict.isNone result "error") >>= fun _ => pure (Dict.set result "cache_hit" (.bool false)))
      (((⟨.ticket (.admission 1), true⟩ :: callTrace i start stop ++ []) ++ [⟨.ticket .release, ()⟩]) ++
        ([⟨.ticket (.cacheSet (ticketKey (hostWith okLoads) (twoTickets i)) (Dict.drop (okRecord i) "cache_hit")),
          .ok ()⟩] ++ []))
      (.ok (Dict.set (okRecord i) "cache_hit" (.bool false))) :=
    runs_bind_iff.mpr (.inr ⟨_, _, _, rfl, released, .ask (.done _)⟩)
  exact ⟨_, .ask (.ask stored)⟩

/-- Two tickets, one after the other, and what they did. -/
theorem two_ran : ∃ w schedule, exec (Pool.step (serve squares answering emptyCache))
      (start .defaults (hostWith okLoads) twoTickets) schedule = some w ∧
    w.traces false = okTrace false (squares 3) (squares 5) ∧ w.traces true = okTrace true (squares 13) (squares 15) ∧
    latencyLog squares answering emptyCache .defaults (hostWith okLoads) twoTickets schedule =
      [(false, 16000), (true, 56000)] := by
  obtain ⟨_, runs⟩ := ok_runs false (squares 3) (squares 5)
  obtain ⟨_, runs'⟩ := ok_runs true (squares 13) (squares 15)
  have first : ∃ shared, Pool.Alone (serve squares answering emptyCache) false [] Shared.init
      (okTrace false (squares 3) (squares 5)) shared ∧ Pool.Alone (serve squares answering emptyCache) true [] shared
      (okTrace true (squares 13) (squares 15)) _ :=
    ⟨_, .cons rfl <| .cons rfl <| .cons rfl <| .cons rfl <| .cons rfl <| .cons rfl <| .cons rfl <| .cons rfl <|
        .cons rfl <| .cons rfl .nil,
      .cons rfl <| .cons rfl <| .cons rfl <| .cons rfl <| .cons rfl <| .cons rfl <| .cons rfl <| .cons rfl <|
        .cons rfl <| .cons rfl .nil⟩
  obtain ⟨shared, alone, alone'⟩ := first
  obtain ⟨w, ran, _, traced, _, traced', _, logged⟩ := alone.exec_turns
    (fun i => Metered.processTicket .defaults (hostWith okLoads) (twoTickets i)) (by decide)
    (leads_of_runs runs) alone' (leads_of_runs runs')
  refine ⟨w, _, ran, traced, traced', ?_⟩
  rw [latencyLog, start, logged]
  change [(false, (squares 5 - squares 3) * 1000), (true, (squares 15 - squares 13) * 1000)] = _
  norm_num [squares]

theorem okTrace_latencies (i : Bool) (start stop : ℚ) : latencies (okTrace i start stop) = [(stop - start) * 1000] :=
  rfl

theorem okTrace_tokens (i : Bool) (start stop : ℚ) : tokensOf (okTrace i start stop) = [.finite (amount i)] := rfl

/-- Satisfiable pole: requests of 16 and 56 seconds. -/
theorem latency_window_two : ∃ w schedule, exec (Pool.step (serve squares answering emptyCache))
      (start .defaults (hostWith okLoads) twoTickets) schedule = some w ∧
    w.shared.metrics.latencyWindow = [16000, 56000] := by
  obtain ⟨w, schedule, ran, _, _, logged⟩ := two_ran
  refine ⟨w, schedule, ran, ?_⟩
  rw [(latency_window squares_monotone ran).1, logged]
  exact latest_of_le (by norm_num)

/-- Satisfiable pole: half of the two latencies is between them. -/
theorem percentiles_of_window_two : ∃ w schedule, exec (Pool.step (serve squares answering emptyCache))
      (start .defaults (hostWith okLoads) twoTickets) schedule = some w ∧
    w.shared.metrics.getPercentiles .linearRule = ⟨36000, 54000, 55600⟩ := by
  obtain ⟨w, schedule, ran, traced, traced', _⟩ := two_ran
  have whole : (([56000, 16000] : List ℚ) : Multiset ℚ) = ∑ i, (latencies (w.traces i) : Multiset ℚ) := by
    rw [Fintype.univ_bool, Finset.sum_pair (by decide), traced', traced, okTrace_latencies, okTrace_latencies,
      Multiset.coe_add]
    norm_num [squares]
  have shown : w.shared.metrics.getPercentiles .linearRule = _ :=
    (percentiles_of_window squares_monotone ran).2.2 [56000, 16000] whole (by norm_num) (List.cons_ne_nil _ _)
  refine ⟨w, schedule, ran, ?_⟩
  rw [shown]
  norm_num [quantile, place, nthLeast]

theorem two_total {w : Tickets Bool} (traced : w.traces false = okTrace false (squares 3) (squares 5))
    (traced' : w.traces true = okTrace true (squares 13) (squares 15)) :
    ∑ i, (tokensOf (w.traces i)).sum = .finite ((12 : ℤ) : ℚ) := by
  rw [Fintype.univ_bool, Finset.sum_pair (by decide), traced', traced, okTrace_tokens, okTrace_tokens, List.sum_singleton, List.sum_singleton]
  change Number.finite (5 + 7) = _
  norm_num

/-- Satisfiable pole: `/health` answers after 12 tokens. -/
theorem health_answers_iff_two : ∃ w schedule, exec (Pool.step (serve squares answering emptyCache))
      (start .defaults (hostWith okLoads) twoTickets) schedule = some w ∧
    Answers .linearRule .ofFloat .defaults w.shared.metrics := by
  obtain ⟨w, schedule, ran, traced, traced', _⟩ := two_ran
  have total := two_total traced traced'
  have small : finiteTotal w < 2 ^ 63 := by
    rw [finiteTotal_of_total total]
    norm_num
  exact ⟨w, schedule, ran, (health_answers_iff squares_monotone ran small).1.mpr ⟨12, total⟩⟩

/-- Satisfiable pole: no token at first, and 12 in the end. -/
theorem totals_grow_two : ∃ w schedule before after, exec (Pool.step (serve squares answering emptyCache))
      (start .defaults (hostWith okLoads) twoTickets) schedule = some w ∧
    healthCheck .linearRule .ofFloat .defaults (.ok ()) Metrics.init .closed 0 0 = .ok before ∧
    healthCheck .linearRule .ofFloat .defaults (.ok ()) w.shared.metrics .closed 0 0 = .ok after ∧
    before.metrics.totalTokensUsed ≤ after.metrics.totalTokensUsed := by
  obtain ⟨w, schedule, ran, traced, traced', _⟩ := two_ran
  have total := (inv_of_ran squares_monotone ran).tokens.trans (two_total traced traced')
  have none_ : Metrics.init.totalTokens = .finite ((0 : ℤ) : ℚ) := rfl
  have before : healthCheck .linearRule .ofFloat .defaults (.ok ()) Metrics.init .closed 0 0 = .ok _ :=
    healthCheck_eq_ok.mpr ⟨"connected", 0, rfl, by rw [none_]; exact IntField.takes _ 0 le_rfl (by norm_num), rfl⟩
  have after : healthCheck .linearRule .ofFloat .defaults (.ok ()) w.shared.metrics .closed 0 0 = .ok _ :=
    healthCheck_eq_ok.mpr
      ⟨"connected", 12, rfl, by rw [total]; exact IntField.takes _ 12 (by norm_num) (by norm_num), rfl⟩
  have begun : exec (Pool.step (serve squares answering emptyCache))
      (start .defaults (hostWith okLoads) twoTickets) [] = some _ := rfl
  exact ⟨w, schedule, _, _, ran, before, after, (totals_grow squares_monotone begun ran before after).2.1⟩

end Poles

end InferenceForge.Api.Health
