/-
# InferenceForge.Pipeline.Caller — the life of one ticket

`caller.py` and `cache.py` as programs over what a ticket's coroutine waits for
(`TicketOp`): the cache in Redis, the semaphore, the circuit breaker's decision,
the HTTP exchange, random jitter and `asyncio.sleep`. Logging is left out, and
so are the latencies that only the metrics read.

The messages of the exceptions `callWithRetry` catches are only logged; they are
shortened here.
-/
import InferenceForge.Config
import InferenceForge.Library.Program
import InferenceForge.Pipeline.ModelOutput

namespace InferenceForge.Pipeline

open InferenceForge.Python InferenceForge.Library

set_option autoImplicit false

/-! ## What the coroutine waits for -/

structure Response where
  statusCode : ℕ
  /-- The `Retry-After` header. -/
  retryAfter : Option String
  /-- `response.json()`. -/
  json : Except Exn Json

inductive TicketOp
  /-- Redis `GET key`, with `json.loads` of what it finds. -/
  | cacheGet (key : String)
  /-- Redis `SET key value NX EX`. -/
  | cacheSet (key : String) (value : Dict)
  | acquire
  | release
  /-- Whether the circuit breaker runs the attempt or rejects it. -/
  | admission (attempt : ℕ)
  | throttle (attempt : ℕ)
  | post (ticket : String) (attempt : ℕ)
  /-- `record_api_call`: the status counter, the token counter and the running totals. -/
  | count (status : String) (tokens : Number)
  /-- `record_api_call` where the token counter raises: the status counter has been incremented. -/
  | countStatus (status : String)
  /-- `random.uniform(-0.2, 0.2)`. -/
  | uniform (attempt : ℕ)
  | sleep (wait : Number)

abbrev TicketAnswer : TicketOp → Type
  | .cacheGet _ => Except Exn (Option Dict)
  | .cacheSet _ _ => Except Exn Unit
  | .acquire => Unit
  | .release => Unit
  | .admission _ => Bool
  | .throttle _ => Unit
  | .post _ _ => Except Exn Response
  | .count _ _ => Unit
  | .countStatus _ => Unit
  | .uniform _ => ℚ
  | .sleep _ => Except Exn Unit

abbrev Coroutine (α : Type) := Program TicketOp TicketAnswer Exn α

def await (op : TicketOp) : Coroutine (TicketAnswer op) := .perform op

/-! ## The cache -/

/-- `ticket.strip().lower()`. -/
def normalize (host : Host) (ticket : String) : String :=
  host.lower (String.ofList (strip ticket.toList))

/-- `_ticket_key`. -/
def ticketKey (host : Host) (ticket : String) : String :=
  "cache:" ++ host.sha256 (normalize host ticket)

/-- `DeduplicationCache.get`. -/
def cacheGet (host : Host) (ticket : String) : Coroutine (Option Dict) :=
  .call (.cacheGet (ticketKey host ticket)) id

/-- `DeduplicationCache.set`. -/
def cacheSet (host : Host) (ticket : String) (result : Dict) : Coroutine Unit :=
  .call (.cacheSet (ticketKey host ticket) result) id

/-! ## One attempt -/

def fatalStatusCodes : List ℕ := [400, 401, 403, 422]

def retryableStatusCodes : List ℕ := [429, 500, 503]

/-- `value[key]` for a string `key`. -/
def item (key : String) : Json → Except Exn Json
  | .object fields =>
      match Dict.get? fields key with
      | some value => .ok value
      | none => .error { kind := .other "KeyError", message := key }
  | _ => .error (.typeError "not subscriptable by a string")

/-- `value[0]`. -/
def first : Json → Except Exn Json
  | .array (value :: _) => .ok value
  | .array [] => .error { kind := .other "IndexError", message := "list index out of range" }
  | .string text =>
      match text.toList with
      | c :: _ => .ok (.string (String.ofList [c]))
      | [] => .error { kind := .other "IndexError", message := "string index out of range" }
  | .object _ => .error { kind := .other "KeyError", message := "0" }
  | _ => .error (.typeError "not subscriptable")

/-- `value.get(key, default)`. -/
def getOr (key : String) (default : Json) : Json → Except Exn Json
  | .object fields => .ok ((Dict.get? fields key).getD default)
  | _ => .error { kind := .other "AttributeError", message := "no attribute 'get'" }

/-- The content of a completion and its number of tokens. -/
def readCompletion (data : Json) : Except Exn (Json × Json) := do
  let choices ← item "choices" data
  let choice ← first choices
  let message ← item "message" choice
  let content ← item "content" message
  let usage ← getOr "usage" (.object []) data
  let totalTokens ← getOr "total_tokens" (.number (.finite 0)) usage
  return (content, totalTokens)

section Caller

variable (settings : Settings) (host : Host)

/-- `tokens_total.inc(token_count)`, which adds a number that is not negative to a `float`. -/
def incrementTokens (tokenCount : Json) : Except Exn Number :=
  match tokenCount.toNumber? with
  | none => .error (.typeError "not a number")
  | some tokens =>
      if tokens.isNegative then
        .error (.valueError "Counters can only be incremented by non-negative amounts.")
      else if tokens.overflows then
        .error { kind := .other "OverflowError", message := "int too large to convert to float" }
      else .ok tokens

/-- `record_api_call`. Nothing is awaited in it. -/
def recordApiCall (status : String) (tokenCount : Json) : Coroutine Unit :=
  match incrementTokens tokenCount with
  | .ok tokens => await (.count status tokens)
  | .error e => do
      await (.countStatus status)
      Program.raise e

def sleep (wait : Number) : Coroutine Unit := .call (.sleep wait) id

/-- The parsing of the content, which has to be a string. -/
def classificationOf : Json → Except Exn Json
  | .string content => parseContent host.loads content.toList
  | _ => .error (.typeError "expected string or bytes-like object")

def mockClassification : Dict :=
  [("category", .string "other"), ("priority", .string "low"),
    ("summary", .string "Mock classification response.")]

/-- `_single_api_call` once the response has come. -/
def readResponse (response : Response) : Coroutine (Json × Json) :=
  -- raise_for_status()
  if response.statusCode < 200 ∨ 300 ≤ response.statusCode then
    .raise {
      kind := .httpStatus response.statusCode response.retryAfter
      message := s!"HTTP status {response.statusCode}" }
  else do
    let data ← Program.ofResult response.json
    let completion ← Program.ofResult (readCompletion data)
    let result ← Program.ofResult (classificationOf host completion.1)
    recordApiCall "success" completion.2
    return (result, completion.2)

/-- `_single_api_call`. -/
def singleApiCall (ticket : String) (attempt : ℕ) : Coroutine (Json × Json) :=
  if settings.sarvamMockMode then do
    (sleep (.finite (settings.sarvamMockLatencyMs / 1000))).when (0 < settings.sarvamMockLatencyMs)
    return (.object mockClassification, .number (.finite 0))
  else do
    (await (.throttle attempt)).when (0 < settings.sarvamMinIntervalMs)
    let response ← Program.call (.post ticket attempt) id
    readResponse host response

/-- `circuit_breaker.call(...)`, or the call itself when the breaker is off. -/
def guarded {α : Type} (attempt : ℕ) (call : Coroutine α) : Coroutine α :=
  if settings.cbEnabled then do
    if ← await (.admission attempt) then call
    else Program.raise { kind := .circuitBreakerOpen, message := "Circuit breaker is OPEN." }
  else call

/-! ## The retry loop -/

/-- `_failure_result`. -/
def failureResult (ticket error : String) : Dict :=
  [("category", .null), ("priority", .null), ("summary", .null), ("error", .string error),
    ("ticket", .string ticket), ("tokens", .number (.finite 0))]

/-- `_backoff_for_attempt`. -/
def backoffForAttempt (attempt : ℕ) : ℚ := settings.retryBackoffBase * 2 ^ (attempt - 1)

/-- `asyncio.sleep(_jittered(_backoff_for_attempt(attempt)))`. -/
def backoff (attempt : ℕ) : Coroutine Unit := do
  let jitter ← await (.uniform attempt)
  sleep (.finite (backoffForAttempt settings attempt * (1 + jitter)))

/-- The `try` of the loop: the classification with its tokens is returned. -/
def tryAttempt (ticket : String) (attempt : ℕ) : Coroutine (Option Dict) := do
  let answer ← guarded settings attempt (singleApiCall settings host ticket attempt)
  match answer.1 with
  | .object fields => return some (Dict.set fields "tokens" answer.2)
  | _ => Program.raise (.typeError "object is not a mapping")

/-- The wait before the next attempt after a 429. `float` may refuse the header. -/
def rateLimitWait (attempt : ℕ) (retryAfter : Option String) : Coroutine Unit :=
  match retryAfter with
  | some header =>
      if header ≠ "" then
        match float header.toList with
        | some wait => sleep wait
        | none => .raise (.valueError s!"could not convert string to float: {host.repr header}")
      else backoff settings attempt
  | none => backoff settings attempt

/-- The `except` clauses of the loop: a failure record is returned (`some`), or
the loop goes on. -/
def onError (ticket : String) (attempt : ℕ) (e : Exn) : Coroutine (Option Dict) :=
  match e.kind with
  | .circuitBreakerOpen => return some (failureResult ticket "circuit_breaker_open")
  | .httpStatus statusCode retryAfter => do
      recordApiCall (toString statusCode) (.number (.finite 0))
      if statusCode ∈ fatalStatusCodes then
        return some (failureResult ticket s!"http_{statusCode}")
      else if statusCode = 429 ∧ attempt < settings.maxRetries then
        rateLimitWait settings host attempt retryAfter
        return none
      else if statusCode ∈ retryableStatusCodes ∧ attempt < settings.maxRetries then
        backoff settings attempt
        return none
      else return none
  | .jsonDecode | .other _ => do
      (backoff settings attempt).when (attempt < settings.maxRetries)
      return none
  | .base _ => .raise e

/-- The loop of `_call_with_retry` over the attempts still to make. -/
def attempts (ticket : String) : List ℕ → Coroutine Dict
  | [] => return failureResult ticket "max_retries_exceeded"
  | attempt :: rest => do
      let ended ← (tryAttempt settings host ticket attempt).rescue
        (onError settings host ticket attempt)
      match ended with
      | some result => return result
      | none => attempts ticket rest

/-- `_call_with_retry`. -/
def callWithRetry (ticket : String) : Coroutine Dict :=
  attempts settings host ticket (List.range' 1 settings.maxRetries)

/-! ## The ticket -/

/-- `SarvamCaller.process_ticket`. -/
def processTicket (ticket : String) : Coroutine Dict := do
  match ← cacheGet host ticket with
  | some cached => return Dict.set cached "cache_hit" (.bool true)
  | none =>
      await .acquire
      let result ← (callWithRetry settings host ticket).tryFinally (await .release)
      (cacheSet host ticket (Dict.drop result "cache_hit")).when (Dict.isNone result "error")
      return Dict.set result "cache_hit" (.bool false)

end Caller

/-- The error text `process_batch` records for an exception. -/
def errorText (e : Exn) : String :=
  String.ofList (s!"{e.typeName}: {e.message}".toList.take 500)

/-- What `process_batch` makes of how a ticket's coroutine ended. -/
def settle (ticket : String) : Except Exn Dict → Dict
  | .ok result => result
  | .error e => failureResult ticket (errorText e)

/-- `SarvamCaller.process_batch`, given what `asyncio.gather` returned. -/
def processBatch (tickets : List String) (raw : List (Except Exn Dict)) : List Dict :=
  List.zipWith settle tickets raw

end InferenceForge.Pipeline
