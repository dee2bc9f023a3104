/-
# InferenceForge.Api.Routes — the background task and the request handlers

`_process_job` and `process_tickets` as programs over what they wait for
(`RouteOp`), and `get_results` as a function of what Redis holds. The queue is any
`TicketQueue`; the shared estimator, the clock and the metrics are answered by
the environment; a batch is answered by how the coroutine of each ticket ended.

`drain` is the loop of `_process_job`. It needs no bound: every round shortens
the queue (`PriorityBatcher.drainBatch_card_lt`).
-/
import InferenceForge.Pipeline.Batcher
import InferenceForge.Pipeline.Caller
import InferenceForge.Pipeline.JobStore

namespace InferenceForge.Api

open InferenceForge.Python InferenceForge.Library InferenceForge.Pipeline
open InferenceForge.Pipeline.JobStore (StoreCall Reply JobRedis)

set_option autoImplicit false

/-! ## Requests and responses -/

/-- A request that passed validation. -/
structure ProcessRequest (settings : Settings) where
  tickets : List String
  nonempty : tickets ≠ []
  bounded : tickets.length ≤ settings.maxTicketsPerRequest
  short : ∀ ticket ∈ tickets, ticket.length ≤ settings.maxTicketChars
  nonblank : ∀ ticket ∈ tickets, strip ticket.toList ≠ []

structure ProcessResponse where
  jobId : String
  total : ℕ
  cached : ℕ
  unique : ℕ
  estimatedSeconds : ℚ
  complexityBreakdown : ComplexityBreakdown

structure ResultsResponse where
  status : String
  progress : Option ℚ := none
  results : Option (List Dict) := none
  failures : Option (List Dict) := none
  stats : Option Dict := none

/-- The arguments of `_process_job`. -/
structure Job where
  jobId : String
  uniqueTickets : List String
  totalTickets : ℕ
  preCached : ℕ
  preCachedResults : List Dict

/-! ## What the handlers wait for -/

/-- What `get_summary` tells a job: the latency percentiles. -/
structure Summary where
  p50Ms : ℚ
  p95Ms : ℚ
  p99Ms : ℚ

/-- What `asyncio.gather(return_exceptions=True)` returns for a batch: how each
of its tickets ended, in order. -/
abbrev Gathered (batch : Batch) :=
  { raw : List (Except Exn Dict) // raw.length = batch.tickets.length }

inductive RouteOp
  /-- A method of the job store. -/
  | store (call : StoreCall)
  /-- Redis `GET key` of the cache, with `json.loads` of what it finds. -/
  | cacheGet (key : String)
  /-- The awaits of `enqueue_many` and of `drain_batch`. -/
  | enqueueMany
  | drainBatch
  | gather (batch : Batch)
  /-- `_active_job_count` and the `active_jobs` gauge. -/
  | activeJobs (change : ℤ)
  | queueDepth (depth : ℕ)
  | monotonic
  | etaUpdate (observed : ℚ)
  | etaEstimate (remaining : ℕ) (bucket : Complexity)
  | etaInitial (unique : ℕ) (breakdown : ComplexityBreakdown)
  | summary
  | uuid
  | createTask (job : Job)

abbrev RouteAnswer : RouteOp → Type
  | .store _ => Reply
  | .cacheGet _ => Except Exn (Option Dict)
  | .enqueueMany => Except Exn Unit
  | .drainBatch => Except Exn Unit
  | .gather batch => Except Exn (Gathered batch)
  | .activeJobs _ => Unit
  | .queueDepth _ => Unit
  | .monotonic => ℚ
  | .etaUpdate _ => Unit
  | .etaEstimate _ _ => ℚ
  | .etaInitial _ _ => ℚ
  | .summary => Summary
  | .uuid => String
  | .createTask _ => Unit

abbrev Handler (α : Type) := Program RouteOp RouteAnswer Exn α

def await (op : RouteOp) : Handler (RouteAnswer op) := .perform op

def store (call : StoreCall) : Handler Unit := .call (.store call) Reply.seen

/-! ## The background task -/

/-- The totals `_process_job` keeps. -/
structure Totals where
  results : List Dict
  completed : ℕ
  failedCount : ℕ
  cacheHits : ℕ

/-- The entries of a batch: every result with its ticket. -/
def batchEntries (batch : Batch) (raw : Gathered batch) : List Dict :=
  List.zipWith (fun ticket result => Dict.set result "ticket" (.string ticket)) batch.tickets
    (processBatch batch.tickets raw.1)

def batchFailed (entries : List Dict) : ℕ := entries.countP fun entry => Dict.truthy entry "error"

def batchCompleted (entries : List Dict) : ℕ :=
  entries.countP fun entry => !Dict.truthy entry "error"

def batchCacheHits (entries : List Dict) : ℕ :=
  entries.countP fun entry => Dict.truthy entry "cache_hit"

/-- The totals after a batch. -/
def Totals.absorb (totals : Totals) (entries : List Dict) : Totals where
  results := totals.results ++ entries
  completed := totals.completed + (batchCompleted entries + batchFailed entries)
  failedCount := totals.failedCount + batchFailed entries
  cacheHits := totals.cacheHits + batchCacheHits entries

section ProcessJob

variable (Q : TicketQueue) (settings : Settings) (job : Job)

/-- The body of the loop, for a drained batch. -/
def processRound (batch : Batch) (totals : Totals) : Handler Totals := do
  let batchStart ← await .monotonic
  let raw ← Program.call (.gather batch) id
  let batchEnd ← await .monotonic
  await (.etaUpdate (batchEnd - batchStart))
  let entries := batchEntries batch raw
  let totals := totals.absorb entries
  store (.incrementProgress (batchCompleted entries) (batchFailed entries) (batchCacheHits entries))
  let remaining : ℤ := job.totalTickets - totals.completed
  let eta ← await (.etaEstimate (max 0 remaining).toNat batch.complexity)
  store (.publishProgress totals.completed job.totalTickets totals.cacheHits totals.failedCount eta)
  return totals

/-- The loop of `_process_job`. -/
def drain (queue : Q.Carrier) (totals : Totals) : Handler Totals := do
  Program.call .drainBatch id
  match _drained : PriorityBatcher.drainBatch Q queue with
  | none => return totals
  | some (batch, rest) =>
      await (.queueDepth (Q.items rest).card)
      let totals ← processRound job batch totals
      drain rest totals
termination_by (PriorityBatcher.entries Q queue).card
decreasing_by exact PriorityBatcher.drainBatch_card_lt _drained

/-- `numerator / total if total else 0.0`. -/
def rate (numerator total : ℕ) : ℚ := if total ≠ 0 then numerator / total else 0

def finalStats (totals : Totals) (totalTokens : Number) (percentiles : Summary) (duration : ℚ) :
    Dict :=
  let costUsd := (totalTokens.scale (1 / 1000)).scale settings.costPer1kTokens
  [("total_tokens", .number totalTokens), ("cost_usd", .number (costUsd.round 6)),
    ("p50_ms", .number (.finite percentiles.p50Ms)), ("p95_ms", .number (.finite percentiles.p95Ms)),
    ("p99_ms", .number (.finite percentiles.p99Ms)),
    ("cache_hit_rate", .number (.finite (round 4 (rate totals.cacheHits job.totalTickets)))),
    ("failure_rate", .number (.finite (round 4 (rate totals.failedCount job.totalTickets)))),
    ("duration_seconds", .number (.finite (round 2 duration)))]

/-- `sum(r.get("tokens", 0) for r in all_results)`. -/
def totalTokens (results : List Dict) : Except Exn Number :=
  match sum (results.map fun r => (Dict.get? r "tokens").getD (.number (.finite 0))) with
  | some total => .ok total
  | none => .error (.typeError "unsupported operand type(s) for +")

/-- What follows the loop. -/
def finishJob (jobStart : ℚ) (totals : Totals) : Handler Unit := do
  let jobEnd ← await .monotonic
  let tokens ← Program.ofResult (totalTokens totals.results)
  let percentiles ← await .summary
  let stats := finalStats settings job totals tokens percentiles (jobEnd - jobStart)
  store (.finish totals.results)
  store (.publishDone totals.results stats)

/-- `except Exception as exc`. -/
def jobFailed (e : Exn) : Handler Unit :=
  if e.isException then store (.fail e.message) else .raise e

/-- The totals before the loop: the tickets found in the cache are done. -/
def initialTotals : Totals where
  results := job.preCachedResults
  completed := job.preCached
  failedCount := 0
  cacheHits := job.preCached

/-- The `try` of `_process_job`. -/
def jobBody (queue : Q.Carrier) (jobStart : ℚ) : Handler Unit := do
  let totals ← drain Q job queue (initialTotals job)
  finishJob settings job jobStart totals

/-- `_process_job`. -/
def processJob : Handler Unit := do
  await (.activeJobs 1)
  let jobStart ← await .monotonic
  Program.call .enqueueMany id
  let queue := PriorityBatcher.enqueueMany Q Q.empty job.uniqueTickets
  await (.queueDepth (Q.items queue).card)
  store .start
  ((jobBody Q settings job queue jobStart).rescue jobFailed).tryFinally (await (.activeJobs (-1)))

end ProcessJob

/-! ## POST /process -/

/-- What the deduplication of a request has found so far. -/
structure Dedup where
  /-- Normalised ticket → first occurrence. -/
  seen : List (String × String) := []
  uniqueTickets : List String := []
  preCachedResults : List Dict := []
  cachedCount : ℕ := 0

/-- The result of a ticket that is found in the cache. -/
def preCachedEntry (ticket : String) (cached : Dict) : Dict :=
  Dict.set (Dict.set cached "ticket" (.string ticket)) "cache_hit" (.bool true)

section ProcessTickets

variable (settings : Settings) (host : Host)

/-- The loop of `process_tickets`. -/
def deduplicate : List String → Dedup → Handler Dedup
  | [], found => return found
  | ticket :: rest, found =>
      let normalized := normalize host ticket
      if (found.seen.lookup normalized).isSome then
        -- exact duplicate within request
        deduplicate rest { found with cachedCount := found.cachedCount + 1 }
      else do
        let seen := found.seen ++ [(normalized, ticket)]
        match ← Program.call (.cacheGet (ticketKey host ticket)) id with
        | some cached =>
            deduplicate rest { found with
              seen
              preCachedResults := found.preCachedResults ++ [preCachedEntry ticket cached]
              cachedCount := found.cachedCount + 1 }
        | none =>
            deduplicate rest { found with
              seen
              uniqueTickets := found.uniqueTickets ++ [ticket] }

/-- The job a request starts. -/
def Dedup.job (found : Dedup) (jobId : String) (total : ℕ) : Job where
  jobId := jobId
  uniqueTickets := found.uniqueTickets
  totalTickets := total
  preCached := found.cachedCount
  preCachedResults := found.preCachedResults

/-- `process_tickets`. -/
def processTickets (body : ProcessRequest settings) : Handler ProcessResponse := do
  let jobId ← await .uuid
  let found ← deduplicate host body.tickets {}
  let total := body.tickets.length
  let unique := found.uniqueTickets.length
  let bd := breakdown found.uniqueTickets
  let estimatedSeconds ← await (.etaInitial unique bd)
  store (.create total)
  (store (.incrementProgress found.cachedCount 0 found.cachedCount)).when (found.cachedCount ≠ 0)
  await (.createTask (found.job jobId total))
  await (.queueDepth unique)
  return {
    jobId
    total
    cached := found.cachedCount
    unique
    estimatedSeconds := round 1 estimatedSeconds
    complexityBreakdown := bd }

end ProcessTickets

/-! ## GET /results/{job_id} -/

/-- The text of a field of the job's hash. -/
def fieldText : Field → String
  | .text value => value
  | .int value => toString value
  | .real value => toString value

/-- `int(value)` of a field. -/
def fieldInt : Field → Except Exn ℤ
  | .int value => .ok value
  | field => .error (.valueError s!"invalid literal for int(): {fieldText field}")

/-- `round(completed / total, 4) if total else 0.0`, from the fields of the hash. -/
def progressOf (state : Hash) : Except Exn ℚ := do
  let total ← ((state "total").map fieldInt).getD (.ok 1)
  let completed ← ((state "completed").map fieldInt).getD (.ok 0)
  return if total ≠ 0 then round 4 (completed / total) else 0

/-- The status a reader sees. -/
def statusOf (state : Hash) : String := ((state "status").map fieldText).getD "pending"

/-- `get_results`, given what its reads find: the state and, for a job that is done, the results.
`none` is the 404. -/
def respond (state : Option Hash) (results : Option (List Dict)) : Except Exn (Option ResultsResponse) :=
  match state with
  | none => .ok none
  | some state =>
      if statusOf state = "done" then
        match results with
        | none => .error (.typeError "'NoneType' object is not iterable")
        | some allResults =>
            let failures := allResults.filter fun r => Dict.truthy r "error"
            .ok (some {
              status := "done"
              results := some (allResults.filter fun r => !Dict.truthy r "error")
              failures := if failures.isEmpty then none else some failures })
      else if statusOf state = "failed" then do
        let progress ← progressOf state
        let error := ((state "error").map fieldText).getD ""
        let reason := if error ≠ "" then error else "unknown_error"
        return some {
          status := "failed"
          progress := some progress
          stats := some [("reason", .string reason)] }
      else do
        let progress ← progressOf state
        return some { status := statusOf state, progress := some progress }

/-- `get_results`: the state is read from the server at one moment, and the results at a later one. -/
def getResults (jobId : String) (now : ℚ) (s : JobRedis) (later : ℚ) (s' : JobRedis) :
    Except Exn (Option ResultsResponse) :=
  respond (JobStore.getState jobId now s) (JobStore.getResults jobId later s')

end InferenceForge.Api
