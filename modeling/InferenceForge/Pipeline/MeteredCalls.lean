/-
# InferenceForge.Pipeline.MeteredCalls — a ticket and its latencies

`Caller` leaves out the clock. Here `_single_api_call` reads it before and after the
request and hands the difference to `record_latency`, once the answer is parsed.
`Metered.processTicket` is the ticket's coroutine with this call.

Seen without the clock (`unmetered`) it is `processTicket` (`processTicket_refines`).
The `stopwatch` follows it: a request is sent between two readings, an answer that can be
classified is recorded before anything else, with the time between the two, and no other
is (`processTicket_timed`). So a latency that a ticket has recorded is the time it waited
for such an answer, and each such answer is recorded once (`timed_of_exec`).
-/
import InferenceForge.Pipeline.GuardedCalls

namespace InferenceForge.Pipeline.Metered

open InferenceForge.Python InferenceForge.Library
open InferenceForge.Pipeline.Composed (asks_any)

set_option autoImplicit false

/-! ## The coroutine -/

inductive MeteredOp
  | ticket (op : TicketOp)
  /-- `time.monotonic()`. -/
  | monotonic
  /-- `record_latency`. -/
  | recordLatency (ms : ℚ)

abbrev MeteredAnswer : MeteredOp → Type
  | .ticket op => TicketAnswer op
  | .monotonic => ℚ
  | .recordLatency _ => Unit

abbrev MeteredCoroutine (α : Type) := Program MeteredOp MeteredAnswer Exn α

abbrev MeteredTrace := List (Asked MeteredOp MeteredAnswer)

def meter (op : MeteredOp) : MeteredCoroutine (MeteredAnswer op) := .perform op

/-- What has nothing to do with the latency. -/
def plain {α : Type} (p : Coroutine α) : MeteredCoroutine α := p.embed .ticket fun _ answer => answer

section Coroutine

variable (settings : Settings) (host : Host)

/-- `_single_api_call` from `raise_for_status()` to the parsed content. -/
def parsedAnswer (response : Response) : Except Exn (Json × Json) :=
  if response.statusCode < 200 ∨ 300 ≤ response.statusCode then
    .error {
      kind := .httpStatus response.statusCode response.retryAfter
      message := s!"HTTP status {response.statusCode}" }
  else do
    let data ← response.json
    let completion ← readCompletion data
    let result ← classificationOf host completion.1
    return (result, completion.2)

/-- `_single_api_call`. -/
def singleApiCall (ticket : String) (attempt : ℕ) : MeteredCoroutine (Json × Json) :=
  if settings.sarvamMockMode then do
    plain ((sleep (.finite (settings.sarvamMockLatencyMs / 1000))).when (0 < settings.sarvamMockLatencyMs))
    return (.object mockClassification, .number (.finite 0))
  else do
    plain ((await (.throttle attempt)).when (0 < settings.sarvamMinIntervalMs))
    let start ← meter .monotonic
    let response ← plain (Program.call (.post ticket attempt) id)
    let stop ← meter .monotonic
    let result ← Program.ofResult (parsedAnswer host response)
    meter (.recordLatency ((stop - start) * 1000))
    plain (recordApiCall "success" result.2)
    return result

/-- `circuit_breaker.call(...)`, or the call itself when the breaker is off. -/
def guarded {α : Type} (attempt : ℕ) (call : MeteredCoroutine α) : MeteredCoroutine α :=
  if settings.cbEnabled then do
    if ← plain (await (.admission attempt)) then call
    else Program.raise { kind := .circuitBreakerOpen, message := "Circuit breaker is OPEN." }
  else call

/-- The `try` of the loop. -/
def tryAttempt (ticket : String) (attempt : ℕ) : MeteredCoroutine (Option Dict) := do
  let answer ← guarded settings attempt (singleApiCall settings host ticket attempt)
  match answer.1 with
  | .object fields => return some (Dict.set fields "tokens" answer.2)
  | _ => Program.raise (.typeError "object is not a mapping")

/-- The loop of `_call_with_retry`. -/
def attempts (ticket : String) : List ℕ → MeteredCoroutine Dict
  | [] => return failureResult ticket "max_retries_exceeded"
  | attempt :: rest => do
      let ended ← (tryAttempt settings host ticket attempt).rescue fun e =>
        plain (onError settings host ticket attempt e)
      match ended with
      | some result => return result
      | none => attempts ticket rest

/-- `_call_with_retry`. -/
def callWithRetry (ticket : String) : MeteredCoroutine Dict :=
  attempts settings host ticket (List.range' 1 settings.maxRetries)

/-- `SarvamCaller.process_ticket`. -/
def processTicket (ticket : String) : MeteredCoroutine Dict := do
  match ← plain (cacheGet host ticket) with
  | some cached => return Dict.set cached "cache_hit" (.bool true)
  | none =>
      plain (await .acquire)
      let result ← (callWithRetry settings host ticket).tryFinally (plain (await .release))
      (plain (cacheSet host ticket (Dict.drop result "cache_hit"))).when (Dict.isNone result "error")
      return Dict.set result "cache_hit" (.bool false)

end Coroutine

/-! ## Seen without the clock -/

def unmetered : View MeteredOp MeteredAnswer TicketOp TicketAnswer
  | ⟨.ticket op, answer⟩ => some ⟨op, answer⟩
  | _ => none

section Refinement

variable {α β : Type} {settings : Settings} {host : Host} {ticket : String}

theorem plain_refines (p : Coroutine α) : (plain p).Refines unmetered p :=
  refines_embed (asks_any p) fun _ _ _ => rfl

/-- A reading of the clock, or a latency, before the rest. -/
theorem meter_refines {op : MeteredOp} (unseen : ∀ answer, unmetered ⟨op, answer⟩ = none)
    {f : MeteredAnswer op → MeteredCoroutine α} {q : Coroutine α}
    (rest : ∀ answer, (f answer).Refines unmetered q) :
    (meter op >>= f).Refines unmetered q :=
  refines_ask_unseen unseen rest

/-- What follows the response, with all of its parsing first. -/
theorem readResponse_eq (response : Response) :
    readResponse host response = Program.ofResult (parsedAnswer host response) >>= fun result =>
      recordApiCall "success" result.2 >>= fun _ => pure result := by
  unfold readResponse parsedAnswer
  split
  · rfl
  · cases response.json with
    | error e => rfl
    | ok data =>
        change Program.ofResult (readCompletion data) >>= _ = Program.ofResult (readCompletion data >>= _) >>= _
        cases readCompletion data with
        | error e => rfl
        | ok completion =>
            change Program.ofResult (classificationOf host completion.1) >>= _ =
              Program.ofResult (classificationOf host completion.1 >>= _) >>= _
            cases classificationOf host completion.1 <;> rfl

theorem singleApiCall_refines (attempt : ℕ) :
    (singleApiCall settings host ticket attempt).Refines unmetered
      (Pipeline.singleApiCall settings host ticket attempt) := by
  unfold singleApiCall Pipeline.singleApiCall
  split
  · exact refines_bind (plain_refines _) fun _ => refines_pure
  · refine refines_bind (plain_refines _) fun _ => meter_refines (fun _ => rfl) fun start => ?_
    refine refines_bind (plain_refines _) fun response => meter_refines (fun _ => rfl) fun stop => ?_
    rw [readResponse_eq]
    refine refines_bind (refines_ofResult _) fun result => meter_refines (fun _ => rfl) fun _ => ?_
    exact refines_bind (plain_refines _) fun _ => refines_pure

theorem guarded_refines (attempt : ℕ) {call : MeteredCoroutine α} {call' : Coroutine α}
    (refines : call.Refines unmetered call') :
    (guarded settings attempt call).Refines unmetered (Pipeline.guarded settings attempt call') := by
  unfold guarded Pipeline.guarded
  split
  · refine refines_bind (plain_refines _) fun admitted => ?_
    cases admitted with
    | true => exact refines
    | false => exact refines_raise
  · exact refines

theorem attempts_refines (remaining : List ℕ) :
    (attempts settings host ticket remaining).Refines unmetered (Pipeline.attempts settings host ticket remaining) := by
  induction remaining with
  | nil => rfl
  | cons attempt rest ih =>
      refine refines_bind (refines_rescue ?_ fun e => plain_refines _) fun ended => ?_
      · refine refines_bind (guarded_refines attempt (singleApiCall_refines attempt)) fun answer => ?_
        obtain ⟨answer, tokens⟩ := answer
        cases answer <;> rfl
      · cases ended with
        | some result => rfl
        | none => exact ih

/-- **Seen without the clock**, the coroutine is the one of `Caller`. -/
theorem processTicket_refines :
    (processTicket settings host ticket).Refines unmetered (Pipeline.processTicket settings host ticket) := by
  refine refines_bind (plain_refines _) fun cached => ?_
  cases cached with
  | some cached => rfl
  | none =>
      refine refines_bind (plain_refines _) fun _ => ?_
      refine refines_bind ?_ fun result => ?_
      · exact refines_tryFinally (attempts_refines _) (plain_refines _)
      · exact refines_bind (refines_when (plain_refines _)) fun _ => refines_pure

end Refinement

/-! ## The stopwatch -/

/-- Where a ticket is with its measurement: outside of one, or after the first reading, the
answer, or the second reading that follows an answer it has to record. -/
inductive Watch
  | idle
  | started (start : ℚ)
  | answered (start : ℚ) (response : Response)
  | stopped (ms : ℚ)

/-- The answer can be classified. -/
def Classified (host : Host) (response : Response) : Prop := ∃ result, parsedAnswer host response = .ok result

instance (host : Host) (response : Response) : Decidable (Classified host response) :=
  match found : parsedAnswer host response with
  | .ok result => isTrue ⟨result, found⟩
  | .error _ => isFalse fun ⟨_, other⟩ => by rw [found] at other; cases other

/-- Not a request, and no record of a negative number of tokens. -/
def Unsent : TicketOp → Prop
  | .post _ _ => False
  | .count _ tokens => tokens.isNegative = false
  | _ => True

def stopwatch (host : Host) : Monitor MeteredOp MeteredAnswer Watch
  | .idle, ⟨.monotonic, now⟩ => some (.started now)
  | .idle, ⟨.ticket op, _⟩ =>
      match op with
      | .post _ _ => none
      | .count _ tokens => if tokens.isNegative then none else some .idle
      | _ => some .idle
  | .started start, ⟨.ticket (.post _ _), answer⟩ =>
      match answer with
      | .ok response => some (.answered start response)
      | .error _ => some .idle
  | .answered start response, ⟨.monotonic, stop⟩ =>
      some (if Classified host response then .stopped ((stop - start) * 1000) else .idle)
  | .stopped ms, ⟨.recordLatency recorded, _⟩ => if recorded = ms then some .idle else none
  | _, _ => none

section Timed

variable {α : Type} {settings : Settings} {host : Host} {ticket : String}
  {allowed : Asked MeteredOp MeteredAnswer → Prop}

theorem Waiting.unsent : ∀ op, Waiting op → Unsent op
  | .uniform _, _ | .sleep _, _ => trivial

/-- A counter refuses negative numbers. -/
theorem recordApiCall_unsent (status : String) (tokenCount : Json) :
    (Pipeline.recordApiCall status tokenCount).Asks Unsent :=
  asks_recordApiCall (fun _ taken => (incrementTokens_ok_iff.mp taken).2.1) trivial

theorem onError_unsent (attempt : ℕ) (e : Exn) : (onError settings host ticket attempt e).Asks Unsent := by
  unfold onError
  split
  · trivial
  · refine asks_bind (recordApiCall_unsent _ _) fun _ => ?_
    exact (statusHandler_waits settings host ticket attempt _ _).mono Waiting.unsent
  · exact (retry_waits settings attempt).mono Waiting.unsent
  · exact (retry_waits settings attempt).mono Waiting.unsent
  · trivial

theorem stopwatch_unsent {op : TicketOp} (answer : TicketAnswer op) (unsent : Unsent op) :
    stopwatch host .idle ⟨.ticket op, answer⟩ = some .idle := by
  cases op with
  | post => exact unsent.elim
  | count status tokens => exact if_neg (ne_true_of_eq_false unsent)
  | _ => rfl

/-- No measurement is open. -/
def Idle {β : Type} (_ : Except Exn β) (watch : Watch) : Prop := watch = .idle

theorem plain_timed {p : Coroutine α} (asks : p.Asks Unsent) :
    (plain p).Safe (stopwatch host) allowed Idle .idle :=
  safe_embed asks fun _ answer unsent => stopwatch_unsent answer unsent

/-- How the request ends after the first reading. -/
def Posted (start : ℚ) : Except Exn Response → Watch → Prop
  | .ok response, watch => watch = .answered start response
  | .error _, watch => watch = .idle

theorem post_timed (attempt : ℕ) (start : ℚ) :
    (plain (Program.call (.post ticket attempt) id)).Safe (stopwatch host) allowed (Posted start)
      (.started start) := by
  intro answer _
  cases answer with
  | ok response => exact ⟨.answered start response, rfl, rfl⟩
  | error e => exact ⟨.idle, rfl, rfl⟩

theorem singleApiCall_timed (attempt : ℕ) :
    (singleApiCall settings host ticket attempt).Safe (stopwatch host) allowed Idle .idle := by
  unfold singleApiCall
  split
  · refine safe_bind (plain_timed (asks_when ?_)) (fun _ _ idle => idle) fun _ _ idle => idle
    exact (sleep_waits _).mono Waiting.unsent
  · refine safe_bind (plain_timed (asks_when (asks_perform trivial))) ?_ fun _ _ idle => idle
    rintro _ _ rfl
    refine fun start _ => ⟨.started start, rfl, ?_⟩
    refine safe_bind (Q := Posted start) (post_timed attempt start) ?_ fun _ _ idle => idle
    rintro response _ rfl
    refine fun stop _ => ⟨_, rfl, ?_⟩
    cases classified : parsedAnswer host response with
    | error e =>
        have unread : ¬ Classified host response := by
          rintro ⟨result, found⟩
          rw [classified] at found
          cases found
        exact if_neg unread
    | ok result =>
        rw [if_pos ⟨result, classified⟩]
        refine fun _ _ => ⟨.idle, if_pos rfl, ?_⟩
        change (plain (recordApiCall "success" result.2) >>= fun _ => pure result).Safe _ _ _ _
        refine safe_bind (Q := Idle) (plain_timed (recordApiCall_unsent _ _)) ?_
          fun _ _ idle => idle
        rintro _ _ rfl
        exact safe_pure rfl

theorem guarded_timed (attempt : ℕ) {call : MeteredCoroutine α}
    (timed : call.Safe (stopwatch host) allowed Idle .idle) :
    (guarded settings attempt call).Safe (stopwatch host) allowed Idle .idle := by
  unfold guarded
  split
  · refine safe_bind (plain_timed (asks_perform trivial)) ?_ fun _ _ idle => idle
    rintro admitted _ rfl
    cases admitted with
    | true => exact timed
    | false => exact safe_raise rfl
  · exact timed

theorem attempts_timed (remaining : List ℕ) :
    (attempts settings host ticket remaining).Safe (stopwatch host) allowed Idle .idle := by
  induction remaining with
  | nil => exact safe_pure rfl
  | cons attempt rest ih =>
      refine safe_bind (safe_rescue (Q := Idle) ?_ (fun _ _ idle => idle) ?_) ?_ fun _ _ idle => idle
      · refine safe_bind (guarded_timed attempt (singleApiCall_timed attempt)) ?_ fun _ _ idle => idle
        rintro ⟨answer, tokens⟩ _ rfl
        cases answer <;> exact rfl
      · rintro e _ rfl
        exact plain_timed (onError_unsent attempt e)
      · rintro ended _ rfl
        cases ended with
        | some result => exact safe_pure rfl
        | none => exact ih

/-- **The stopwatch** follows every ticket. -/
theorem processTicket_timed :
    (processTicket settings host ticket).Safe (stopwatch host) allowed Idle .idle := by
  refine safe_bind (plain_timed (asks_call trivial)) ?_ fun _ _ idle => idle
  rintro cached _ rfl
  cases cached with
  | some cached => exact safe_pure rfl
  | none =>
      refine safe_bind (plain_timed (asks_perform trivial)) ?_ fun _ _ idle => idle
      rintro _ _ rfl
      refine safe_bind (Q := Idle) ?_ ?_ fun _ _ idle => idle
      · refine safe_tryFinally (attempts_timed _) ?_
        rintro result _ rfl
        exact plain_timed (asks_perform trivial)
      · rintro result _ rfl
        refine safe_bind (Q := Idle) (safe_when (plain_timed (asks_call trivial)) rfl) (fun _ _ idle => idle)
          fun _ _ idle => idle

end Timed

/-! ## What a ticket has recorded -/

def latencyOf : Asked MeteredOp MeteredAnswer → Option ℚ
  | ⟨.recordLatency ms, _⟩ => some ms
  | _ => none

def latencies (trace : MeteredTrace) : List ℚ := trace.filterMap latencyOf

def readingOf : Asked MeteredOp MeteredAnswer → Option ℚ
  | ⟨.monotonic, now⟩ => some now
  | _ => none

def readings (trace : MeteredTrace) : List ℚ := trace.filterMap readingOf

section Recorded

variable (host : Host)

def classifiedOf : Asked MeteredOp MeteredAnswer → Option Response
  | ⟨.ticket (.post _ _), .ok response⟩ => if Classified host response then some response else none
  | _ => none

/-- The answers of a ticket that can be classified. -/
def classified (trace : MeteredTrace) : List Response := trace.filterMap (classifiedOf host)

/-- The time between the readings around a request, whose answer can be classified. -/
def Measured (trace : MeteredTrace) (ms : ℚ) : Prop :=
  ∃ start ticket attempt response stop,
    [⟨.monotonic, start⟩, ⟨.ticket (.post ticket attempt), .ok response⟩, ⟨.monotonic, stop⟩,
      ⟨.recordLatency ms, ()⟩] <:+: trace ∧ Classified host response ∧ ms = (stop - start) * 1000

/-- What an operation does to the stopwatch. -/
inductive Clocked : Watch → Asked MeteredOp MeteredAnswer → Watch → Prop
  | start {now : ℚ} : Clocked .idle ⟨.monotonic, now⟩ (.started now)
  | aside {op : TicketOp} {answer : TicketAnswer op} (unsent : Unsent op) :
      Clocked .idle ⟨.ticket op, answer⟩ .idle
  | answer {start : ℚ} {ticket : String} {attempt : ℕ} {response : Response} :
      Clocked (.started start) ⟨.ticket (.post ticket attempt), .ok response⟩ (.answered start response)
  | fail {start : ℚ} {ticket : String} {attempt : ℕ} {e : Exn} :
      Clocked (.started start) ⟨.ticket (.post ticket attempt), .error e⟩ .idle
  | stop {start stop : ℚ} {response : Response} (classified : Classified host response) :
      Clocked (.answered start response) ⟨.monotonic, stop⟩ (.stopped ((stop - start) * 1000))
  | drop {start stop : ℚ} {response : Response} (unclassified : ¬ Classified host response) :
      Clocked (.answered start response) ⟨.monotonic, stop⟩ .idle
  | record {ms : ℚ} : Clocked (.stopped ms) ⟨.recordLatency ms, ()⟩ .idle

theorem stopwatch_clocked {watch watch' : Watch} {asked : Asked MeteredOp MeteredAnswer}
    (followed : stopwatch host watch asked = some watch') : Clocked host watch asked watch' := by
  obtain ⟨op, answer⟩ := asked
  cases watch with
  | idle =>
      cases op with
      | monotonic =>
          cases followed
          exact .start
      | ticket op =>
          cases op with
          | post => cases followed
          | count status tokens =>
              by_cases negative : tokens.isNegative = true
              · rw [stopwatch, if_pos negative] at followed
                cases followed
              · rw [stopwatch, if_neg negative] at followed
                cases followed
                exact .aside (eq_false_of_ne_true negative)
          | _ =>
              cases followed
              exact .aside trivial
      | recordLatency => cases followed
  | started start =>
      cases op with
      | ticket op =>
          cases op with
          | post =>
              cases answer with
              | ok response =>
                  cases followed
                  exact .answer
              | error e =>
                  cases followed
                  exact .fail
          | _ => cases followed
      | _ => cases followed
  | answered start response =>
      cases op with
      | monotonic =>
          by_cases classified : Classified host response
          · rw [stopwatch, if_pos classified] at followed
            cases followed
            exact .stop classified
          · rw [stopwatch, if_neg classified] at followed
            cases followed
            exact .drop classified
      | _ => cases followed
  | stopped ms =>
      cases op with
      | recordLatency recorded =>
          by_cases same : recorded = ms
          · rw [stopwatch, if_pos same] at followed
            cases followed
            cases same
            exact .record
          · rw [stopwatch, if_neg same] at followed
            cases followed
      | _ => cases followed

/-- What a trace ends with while a measurement is open. -/
def Opened (trace : MeteredTrace) : Watch → Prop
  | .idle => True
  | .started start => ∃ before, trace = before ++ [⟨.monotonic, start⟩]
  | .answered start response => ∃ before ticket attempt,
      trace = before ++ [⟨.monotonic, start⟩, ⟨.ticket (.post ticket attempt), .ok response⟩]
  | .stopped ms => ∃ before start ticket attempt response stop, Classified host response ∧
      ms = (stop - start) * 1000 ∧
      trace = before ++
        [⟨.monotonic, start⟩, ⟨.ticket (.post ticket attempt), .ok response⟩, ⟨.monotonic, stop⟩]

/-- The answers still to be recorded. -/
def due : Watch → ℕ
  | .answered _ response => if Classified host response then 1 else 0
  | .stopped _ => 1
  | _ => 0

structure Timed (trace : MeteredTrace) (watch : Watch) : Prop where
  opened : Opened host trace watch
  measured : ∀ ms ∈ latencies trace, Measured host trace ms
  sampled : (latencies trace).length + due host watch = (classified host trace).length
  counts : ∀ status tokens, ⟨.ticket (.count status tokens), ()⟩ ∈ trace → tokens.isNegative = false

variable {host} {trace : MeteredTrace} {watch watch' : Watch}

theorem Measured.append {ms : ℚ} (measured : Measured host trace ms) (later : MeteredTrace) :
    Measured host (trace ++ later) ms := by
  obtain ⟨start, ticket, attempt, response, stop, inside, rest⟩ := measured
  exact ⟨start, ticket, attempt, response, stop, inside.trans (List.prefix_append _ _).isInfix, rest⟩

theorem classified_concat (trace : MeteredTrace) (asked : Asked MeteredOp MeteredAnswer) :
    (classified host (trace ++ [asked])).length =
      (classified host trace).length + (classifiedOf host asked).toList.length := by
  rw [classified, List.filterMap_append, List.length_append]
  cases found : classifiedOf host asked <;> simp [found, classified]

theorem timed_nil : Timed host [] .idle := by
  refine ⟨trivial, ?_, rfl, ?_⟩
  · intro ms member
    cases member
  · intro status tokens member
    cases member

/-- An operation that records nothing and is no answer to classify. -/
theorem Timed.pass (timed : Timed host trace watch) {asked : Asked MeteredOp MeteredAnswer}
    (opened : Opened host (trace ++ [asked]) watch') (unrecorded : latencyOf asked = none)
    (due_eq : due host watch' = due host watch + (classifiedOf host asked).toList.length)
    (counts : ∀ status tokens, asked = ⟨.ticket (.count status tokens), ()⟩ → tokens.isNegative = false) :
    Timed host (trace ++ [asked]) watch' := by
  have same : latencies (trace ++ [asked]) = latencies trace := by
    rw [latencies, List.filterMap_append, List.filterMap_cons_none unrecorded, List.filterMap_nil, List.append_nil]
    rfl
  refine ⟨opened, ?_, ?_, ?_⟩
  · rw [same]
    exact fun ms member => (timed.measured ms member).append _
  · rw [same, due_eq, ← Nat.add_assoc, timed.sampled, classified_concat]
  · intro status tokens member
    rcases List.mem_append.mp member with before | now
    · exact timed.counts status tokens before
    · exact counts status tokens (List.mem_singleton.mp now).symm

theorem Timed.step (timed : Timed host trace watch) {asked : Asked MeteredOp MeteredAnswer}
    (clocked : Clocked host watch asked watch') : Timed host (trace ++ [asked]) watch' := by
  cases clocked with
  | start => exact timed.pass ⟨trace, rfl⟩ rfl rfl (by simp)
  | @aside op answer unsent =>
      refine timed.pass trivial rfl ?_ ?_
      · cases op <;> first | exact unsent.elim | rfl
      · rintro status tokens ⟨⟩
        exact unsent
  | @answer start ticket attempt response =>
      obtain ⟨before, rfl⟩ := timed.opened
      refine timed.pass ⟨before, ticket, attempt, by rw [List.append_assoc]; rfl⟩ rfl ?_ (by simp)
      by_cases readable : Classified host response <;> simp [due, classifiedOf, readable]
  | fail => exact timed.pass trivial rfl rfl (by simp)
  | @stop start stop response readable =>
      obtain ⟨before, ticket, attempt, rfl⟩ := timed.opened
      refine timed.pass ⟨before, start, ticket, attempt, response, stop, readable, rfl, ?_⟩ rfl ?_ (by simp)
      · rw [List.append_assoc]
        rfl
      · simp [due, readable, classifiedOf]
  | drop unreadable =>
      refine timed.pass trivial rfl ?_ (by simp)
      simp [due, unreadable, classifiedOf]
  | @record ms =>
      obtain ⟨before, start, ticket, attempt, response, stop, readable, rfl, rfl⟩ := timed.opened
      have recorded : ∀ trace : MeteredTrace, ∀ ms : ℚ,
          latencies (trace ++ [⟨.recordLatency ms, ()⟩]) = latencies trace ++ [ms] := by
        intro trace ms
        rw [latencies, List.filterMap_append]
        rfl
      refine ⟨trivial, ?_, ?_, ?_⟩
      · rw [recorded]
        intro ms member
        rcases List.mem_append.mp member with old | new
        · exact (timed.measured ms old).append _
        · rw [List.mem_singleton.mp new]
          exact ⟨start, ticket, attempt, response, stop, ⟨before, [], by simp⟩, readable, rfl⟩
      · rw [recorded, List.length_append, classified_concat]
        exact timed.sampled
      · intro status tokens member
        rcases List.mem_append.mp member with before | now
        · exact timed.counts status tokens before
        · cases List.mem_singleton.mp now

theorem timed_of_exec (ran : exec (stopwatch host) .idle trace = some watch) : Timed host trace watch := by
  induction trace using List.reverseRecOn generalizing watch with
  | nil =>
      cases ran
      exact timed_nil
  | append_singleton trace asked ih =>
      rw [exec_append] at ran
      obtain ⟨between, first, last⟩ := Option.bind_eq_some_iff.mp ran
      obtain ⟨_, followed, ended⟩ := exec_cons_eq_some.mp last
      cases ended
      exact (ih first).step (stopwatch_clocked host followed)

/-- A latency is not negative where the clock has not gone back between two readings. -/
theorem Measured.nonneg {ms : ℚ} (measured : Measured host trace ms)
    (sorted : (readings trace).Pairwise (· ≤ ·)) : 0 ≤ ms := by
  obtain ⟨start, ticket, attempt, response, stop, inside, _, rfl⟩ := measured
  have both : [start, stop].Sublist (readings trace) := inside.sublist.filterMap readingOf
  have le : start ≤ stop := (List.pairwise_pair.mp (sorted.sublist both))
  linarith

end Recorded

end InferenceForge.Pipeline.Metered
