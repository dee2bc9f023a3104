/-
# InferenceForge.Pipeline.JobStore — the job in Redis

`job_store.py`: every method that writes or publishes is a `StoreCall`, and its
`roundTrips` are the exchanges with Redis it awaits, each a command or a pipeline
that runs as one transaction. `time.time()` is the instant of the exchange.

A call may raise (`Reply.raised`); the number of exchanges that took effect
before is part of the reply, though the caller does not see it: an error may be
reported for a write that was applied.
-/
import InferenceForge.Config
import InferenceForge.Library.Redis
import InferenceForge.Pipeline.Exceptions

namespace InferenceForge.Pipeline

open InferenceForge.Python InferenceForge.Library

set_option autoImplicit false

namespace JobStore

/-- What the job's keys hold and its channel carries: the list of results, and
JSON objects. -/
abbrev JobRedis := Redis.Server (List Dict) Dict

abbrev JobCommand := Redis.Command (List Dict) Dict

/-- `_job_key`. -/
def jobKey (jobId : String) : String := "job:" ++ jobId

/-- `_event_channel`. -/
def eventChannel (jobId : String) : String := "job:" ++ jobId ++ ":events"

/-- `_results_key`. -/
def resultsKey (jobId : String) : String := "job:" ++ jobId ++ ":results"

inductive StoreCall
  | create (total : ℕ)
  | start
  | incrementProgress (completed failed cacheHits : ℕ)
  | finish (results : List Dict)
  | fail (reason : String)
  | publishProgress (completed total cacheHits failed : ℕ) (etaSeconds : ℚ)
  | publishDone (results : List Dict) (stats : Dict)

def count (n : ℕ) : Json := .number (.finite n)

/-- The payload of `publish_progress`. -/
def progressEvent (completed total cacheHits failed : ℕ) (etaSeconds : ℚ) : Dict :=
  [("completed", count completed), ("total", count total), ("cache_hits", count cacheHits),
    ("failed", count failed), ("eta_seconds", .number (.finite (round 1 etaSeconds)))]

/-- The payload of `publish_done`. -/
def doneEvent (results : List Dict) (stats : Dict) : Dict :=
  [("status", .string "done"), ("results", .array (results.map .object)), ("stats", .object stats)]

section Methods

variable (settings : Settings) (jobId : String) (now : ℚ)

def create (total : ℕ) : List (List JobCommand) :=
  [[.hset (jobKey jobId) [("status", .text "pending"), ("total", .int total), ("completed", .int 0),
      ("failed_count", .int 0), ("cache_hits", .int 0), ("created_at", .real now),
      ("started_at", .text ""), ("completed_at", .text "")]],
    [.expire (jobKey jobId) settings.jobTtlSeconds]]

def start : List (List JobCommand) :=
  [[.hset (jobKey jobId) [("status", .text "processing"), ("started_at", .real now)]]]

def incrementProgress (completed failed cacheHits : ℕ) : List (List JobCommand) :=
  [[("completed", completed), ("failed_count", failed), ("cache_hits", cacheHits)].filterMap
    fun (field, amount) =>
      if amount ≠ 0 then some (.hincrby (jobKey jobId) field amount) else none]

def finish (results : List Dict) : List (List JobCommand) :=
  [[.hset (jobKey jobId) [("status", .text "done"), ("completed_at", .real now)],
    .set (resultsKey jobId) results,
    .expire (resultsKey jobId) settings.jobTtlSeconds]]

def fail (reason : String) : List (List JobCommand) :=
  [[.hset (jobKey jobId) [("status", .text "failed"), ("completed_at", .real now),
    ("error", .text reason)]]]

/-- `publish_progress` and `publish_done`. -/
def publish (payload : Dict) : List (List JobCommand) := [[.publish (eventChannel jobId) payload]]

/-- The exchanges a method awaits, in order. -/
def roundTrips : StoreCall → List (List JobCommand)
  | .create total => create settings jobId now total
  | .start => start jobId now
  | .incrementProgress completed failed cacheHits =>
      incrementProgress jobId completed failed cacheHits
  | .finish results => finish settings jobId now results
  | .fail reason => fail jobId now reason
  | .publishProgress completed total cacheHits failed eta =>
      publish jobId (progressEvent completed total cacheHits failed eta)
  | .publishDone results stats => publish jobId (doneEvent results stats)

end Methods

inductive Reply
  | ok
  /-- The call raised after `applied` of its exchanges had taken effect. -/
  | raised (e : Exn) (applied : ℕ)

/-- What the caller sees of a reply. -/
def Reply.seen : Reply → Except Exn Unit
  | .ok => .ok ()
  | .raised e _ => .error e

/-- A call with its reply. -/
abbrev Act := StoreCall × Reply

/-- The exchanges of a call that took effect. -/
def applied (settings : Settings) (jobId : String) (now : ℚ) : Act → List (List JobCommand)
  | (call, .ok) => roundTrips settings jobId now call
  | (call, .raised _ n) => (roundTrips settings jobId now call).take n

/-- The server after a call at instant `now`. -/
def perform (settings : Settings) (jobId : String) (s : JobRedis) (act : ℚ × Act) : JobRedis :=
  (applied settings jobId act.1 act.2).foldl (Redis.transaction act.1) s

/-- The server after a sequence of calls. -/
def performAll (settings : Settings) (jobId : String) (s : JobRedis) (acts : List (ℚ × Act)) :
    JobRedis :=
  acts.foldl (perform settings jobId) s

/-! ## Reads -/

/-- `get_state`. -/
def getState (jobId : String) (now : ℚ) (s : JobRedis) : Option Hash :=
  Redis.hgetall now s (jobKey jobId)

/-- `get_results`. -/
def getResults (jobId : String) (now : ℚ) (s : JobRedis) : Option (List Dict) :=
  Redis.get now s (resultsKey jobId)

/-- `exists`. -/
def jobExists (jobId : String) (now : ℚ) (s : JobRedis) : Bool :=
  Redis.present now s (jobKey jobId)

end JobStore

end InferenceForge.Pipeline
