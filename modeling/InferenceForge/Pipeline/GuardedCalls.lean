/-
# InferenceForge.Pipeline.GuardedCalls — a ticket and the circuit breaker

In `callWithRetry` the decision of the breaker is an answer. Here the ticket's coroutine
takes part in the breaker: `breakerCall` enters it (`enter`), may wait for `_probe_lock`
(`resume`), and tells it how `coro_fn` has ended (`leave`), which is when the handlers
of the breaker run. `Composed.processTicket` is `processTicket` with this call.

Seen without the breaker (`seen`) it is `processTicket`, with the decisions of the
breaker as answers (`processTicket_refines`). Seen from the breaker (`follow`) it makes
its calls one after another, each with a new number, leaves every call it was let
through, and sends at most one request in it and none outside (`processTicket_follows`).
And it performs a bounded number of operations (`processTicket_within`).
-/
import InferenceForge.Library.Halting
import InferenceForge.Pipeline.CircuitBreaker
import InferenceForge.Pipeline.TicketRuns

namespace InferenceForge.Pipeline.Composed

open InferenceForge.Python InferenceForge.Library
open InferenceForge.Pipeline.CircuitBreaker (Outcome)

set_option autoImplicit false

/-! ## The coroutine -/

inductive GuardedOp
  | ticket (op : TicketOp)
  /-- `circuit_breaker.call`, up to its first suspension. -/
  | enter (attempt : ℕ)
  /-- `async with self._probe_lock`. -/
  | resume (attempt : ℕ)
  /-- The handlers around `await coro_fn(...)`; `none` is a `BaseException`, which none
  of them catches. -/
  | leave (attempt : ℕ) (outcome : Option Outcome)

inductive Admission
  | runs
  | queued
  | rejected
  deriving DecidableEq

abbrev GuardedAnswer : GuardedOp → Type
  | .ticket op => TicketAnswer op
  | .enter _ => Admission
  | .resume _ => Bool
  | .leave _ _ => Unit

abbrev GuardedCoroutine (α : Type) := Program GuardedOp GuardedAnswer Exn α

def breaker (op : GuardedOp) : GuardedCoroutine (GuardedAnswer op) := .perform op

/-- What has nothing to do with the breaker. -/
def plain {α : Type} (p : Coroutine α) : GuardedCoroutine α := p.embed .ticket fun _ answer => answer

/-- How the handlers of the breaker see the end of `coro_fn`. -/
def outcomeOf {α : Type} : Except Exn α → Option Outcome
  | .ok _ => some .success
  | .error e =>
      match e.kind with
      | .circuitBreakerOpen => some .openError
      | .base _ => none
      | _ => some .exception

/-- Whether `coro_fn` is run. -/
def admitted (attempt : ℕ) : GuardedCoroutine Bool := do
  match ← breaker (.enter attempt) with
  | .runs => return true
  | .rejected => return false
  | .queued => breaker (.resume attempt)

/-- `await coro_fn(...)` with the handlers around it. -/
def executed {α : Type} (attempt : ℕ) (coroFn : Coroutine α) : GuardedCoroutine α :=
  Program.attempt (plain coroFn) >>= fun ended => do
    breaker (.leave attempt (outcomeOf ended))
    Program.ofResult ended

/-- `CircuitBreaker.call`. -/
def breakerCall {α : Type} (attempt : ℕ) (coroFn : Coroutine α) : GuardedCoroutine α := do
  if ← admitted attempt then executed attempt coroFn
  else Program.raise { kind := .circuitBreakerOpen, message := "Circuit breaker is OPEN." }

section Coroutine

variable (settings : Settings) (host : Host)

/-- The `try` of the loop. -/
def tryAttempt (ticket : String) (attempt : ℕ) : GuardedCoroutine (Option Dict) := do
  let answer ← breakerCall attempt (singleApiCall settings host ticket attempt)
  match answer.1 with
  | .object fields => return some (Dict.set fields "tokens" answer.2)
  | _ => Program.raise (.typeError "object is not a mapping")

/-- The loop of `_call_with_retry`. -/
def attempts (ticket : String) : List ℕ → GuardedCoroutine Dict
  | [] => return failureResult ticket "max_retries_exceeded"
  | attempt :: rest => do
      let ended ← (tryAttempt settings host ticket attempt).rescue fun e =>
        plain (onError settings host ticket attempt e)
      match ended with
      | some result => return result
      | none => attempts ticket rest

/-- `_call_with_retry`. -/
def callWithRetry (ticket : String) : GuardedCoroutine Dict :=
  attempts settings host ticket (List.range' 1 settings.maxRetries)

/-- `SarvamCaller.process_ticket`. -/
def processTicket (ticket : String) : GuardedCoroutine Dict := do
  match ← plain (cacheGet host ticket) with
  | some cached => return Dict.set cached "cache_hit" (.bool true)
  | none =>
      plain (await .acquire)
      let result ← (callWithRetry settings host ticket).tryFinally (plain (await .release))
      (plain (cacheSet host ticket (Dict.drop result "cache_hit"))).when (Dict.isNone result "error")
      return Dict.set result "cache_hit" (.bool false)

end Coroutine

/-! ## Seen without the breaker -/

/-- The decision of the breaker is the answer to `admission`. -/
def seen : View GuardedOp GuardedAnswer TicketOp TicketAnswer
  | ⟨.ticket op, answer⟩ => some ⟨op, answer⟩
  | ⟨.enter attempt, .runs⟩ => some ⟨.admission attempt, true⟩
  | ⟨.enter attempt, .rejected⟩ => some ⟨.admission attempt, false⟩
  | ⟨.enter _, .queued⟩ => none
  | ⟨.resume attempt, decision⟩ => some ⟨.admission attempt, decision⟩
  | ⟨.leave _ _, _⟩ => none

section Refinement

variable {α : Type} {settings : Settings} {host : Host} {ticket : String}

theorem asks_any {Op : Type} {Answer : Op → Type} {ε : Type} (p : Program Op Answer ε α) :
    p.Asks fun _ => True := by
  induction p with
  | done value => trivial
  | raise error => trivial
  | ask op next ih => exact ⟨trivial, ih⟩

theorem plain_refines (p : Coroutine α) : (plain p).Refines seen p :=
  refines_embed (asks_any p) fun _ _ _ => rfl

/-- Once it is let through, the call is `coro_fn`. -/
theorem executed_refines (attempt : ℕ) (coroFn : Coroutine α) :
    (executed attempt coroFn).Refines seen coroFn :=
  refines_report (plain_refines coroFn) fun result =>
    refines_ask_unseen (fun _ => rfl) fun _ => refines_ofResult result

theorem breakerCall_refines (enabled : settings.cbEnabled = true) (attempt : ℕ) (coroFn : Coroutine α) :
    (breakerCall attempt coroFn).Refines seen (guarded settings attempt coroFn) := by
  unfold guarded
  rw [if_pos enabled]
  intro decision
  cases decision with
  | runs => exact ⟨_, rfl, executed_refines attempt coroFn⟩
  | rejected => exact ⟨_, rfl, refines_raise⟩
  | queued =>
      intro decision
      cases decision with
      | true => exact ⟨_, rfl, executed_refines attempt coroFn⟩
      | false => exact ⟨_, rfl, refines_raise⟩

theorem tryAttempt_refines (enabled : settings.cbEnabled = true) (attempt : ℕ) :
    (tryAttempt settings host ticket attempt).Refines seen (Pipeline.tryAttempt settings host ticket attempt) := by
  refine refines_bind (breakerCall_refines enabled attempt _) fun answer => ?_
  obtain ⟨answer, tokens⟩ := answer
  cases answer <;> rfl

theorem attempts_refines (enabled : settings.cbEnabled = true) (remaining : List ℕ) :
    (attempts settings host ticket remaining).Refines seen (Pipeline.attempts settings host ticket remaining) := by
  induction remaining with
  | nil => rfl
  | cons attempt rest ih =>
      refine refines_bind ?_ fun ended => ?_
      · exact refines_rescue (tryAttempt_refines enabled attempt) fun e => plain_refines _
      · cases ended with
        | some result => rfl
        | none => exact ih

/-- **Seen without the breaker**, the coroutine is the one of `Caller`. -/
theorem processTicket_refines (enabled : settings.cbEnabled = true) :
    (processTicket settings host ticket).Refines seen (Pipeline.processTicket settings host ticket) := by
  refine refines_bind (plain_refines _) fun cached => ?_
  cases cached with
  | some cached => rfl
  | none =>
      refine refines_bind (plain_refines _) fun _ => ?_
      refine refines_bind ?_ fun result => ?_
      · exact refines_tryFinally (attempts_refines enabled _) (plain_refines _)
      · exact refines_bind (refines_when (plain_refines _)) fun _ => refines_pure

end Refinement

/-! ## Seen from the breaker -/

/-- Where a ticket is: outside of its calls, of which the next one is known, in the
queue for the probe, or in a call, where it may have sent its request. -/
inductive Stage
  | outside (next : ℕ)
  | queued (attempt : ℕ)
  | running (attempt : ℕ) (sent : Bool)
  deriving DecidableEq

/-- One request for an attempt, and nothing that is not of a call. -/
def sender (attempt : ℕ) : Monitor TicketOp TicketAnswer Bool := fun sent asked =>
  match asked.1 with
  | .post _ k => if k = attempt ∧ sent = false then some true else none
  | .throttle _ | .count _ _ | .countStatus _ | .uniform _ | .sleep _ => some sent
  | _ => none

/-- Of a call, but neither its request nor a decision of the breaker. -/
def Beside : TicketOp → Prop
  | .throttle _ | .count _ _ | .countStatus _ | .uniform _ | .sleep _ => True
  | _ => False

/-- Neither a request nor a decision of the breaker. -/
def Aside : TicketOp → Prop
  | .post _ _ | .admission _ => False
  | _ => True

/-- The breaker's account of a ticket. -/
def follow : Monitor GuardedOp GuardedAnswer Stage
  | .outside next, ⟨.enter attempt, decision⟩ =>
      if attempt = next then
        match decision with
        | .runs => some (.running next false)
        | .queued => some (.queued next)
        | .rejected => some (.outside (next + 1))
      else none
  | .outside next, ⟨.ticket op, _⟩ =>
      match op with
      | .post _ _ | .admission _ => none
      | _ => some (.outside next)
  | .queued attempt, ⟨.resume k, decision⟩ =>
      if k = attempt then some (if decision then .running attempt false else .outside (attempt + 1)) else none
  | .running attempt sent, ⟨.ticket op, answer⟩ => (sender attempt sent ⟨op, answer⟩).map (.running attempt)
  | .running attempt _, ⟨.leave k _, _⟩ => if k = attempt then some (.outside (attempt + 1)) else none
  | _, _ => none

section Account

variable {α : Type} {settings : Settings} {host : Host} {ticket : String} {allowed : Asked GuardedOp GuardedAnswer → Prop}

theorem Waiting.beside : ∀ op, Waiting op → Beside op
  | .uniform _, _ | .sleep _, _ => trivial

theorem Beside.aside : ∀ op, Beside op → Aside op
  | .throttle _, _ | .count _ _, _ | .countStatus _, _ | .uniform _, _ | .sleep _, _ => trivial

theorem recordApiCall_beside (status : String) (tokenCount : Json) :
    (recordApiCall status tokenCount).Asks Beside := asks_recordApiCall (fun _ _ => trivial) trivial

theorem readResponse_beside (response : Response) : (readResponse host response).Asks Beside := by
  unfold readResponse
  split
  · trivial
  · refine asks_bind (asks_ofResult _) fun data => asks_bind (asks_ofResult _) fun found => ?_
    exact asks_bind (asks_ofResult _) fun _ => asks_bind (recordApiCall_beside _ _) fun _ => trivial

theorem onError_beside (attempt : ℕ) (e : Exn) : (onError settings host ticket attempt e).Asks Beside := by
  unfold onError
  split
  · trivial
  · refine asks_bind (recordApiCall_beside _ _) fun _ => ?_
    exact (statusHandler_waits settings host ticket attempt _ _).mono Waiting.beside
  · exact (retry_waits settings attempt).mono Waiting.beside
  · exact (retry_waits settings attempt).mono Waiting.beside
  · trivial

theorem sender_beside {attempt : ℕ} {sent : Bool} {op : TicketOp} (answer : TicketAnswer op) (beside : Beside op) :
    sender attempt sent ⟨op, answer⟩ = some sent := by
  cases op <;> first | exact beside.elim | rfl

theorem follow_aside {next : ℕ} {op : TicketOp} (answer : TicketAnswer op) (aside : Aside op) :
    follow (.outside next) ⟨.ticket op, answer⟩ = some (.outside next) := by
  cases op <;> first | exact aside.elim | rfl

/-- `_single_api_call` sends one request at most. -/
theorem singleApiCall_sends (attempt : ℕ) :
    (singleApiCall settings host ticket attempt).Safe (sender attempt) (fun _ => True) (fun _ _ => True) false := by
  have quiet : ∀ {β : Type} {sent : Bool} {p : Coroutine β}, p.Asks Beside →
      p.Safe (sender attempt) (fun _ => True) (fun _ s => s = sent) sent := fun asks =>
    safe_of_asks asks fun _ answer beside _ => sender_beside answer beside
  unfold singleApiCall
  split
  · refine safe_bind (Q := fun _ s => s = false) (quiet (asks_when ?_)) (fun _ _ _ => trivial) fun _ _ _ => trivial
    exact (sleep_waits _).mono Waiting.beside
  · refine safe_bind (Q := fun _ s => s = false) (quiet (asks_when ?_)) ?_ fun _ _ _ => trivial
    · exact asks_perform trivial
    rintro _ _ rfl
    refine safe_bind (Q := fun _ s => s = true) (safe_call fun answer _ => ⟨true, ?_, rfl⟩) ?_ fun _ _ _ => trivial
    · exact if_pos ⟨rfl, rfl⟩
    · rintro response _ rfl
      exact (quiet (readResponse_beside response)).mono fun _ _ _ => trivial

/-- The ticket is outside, before the attempt `next`. -/
def Outside (next : ℕ) {β : Type} (_ : Except Exn β) (stage : Stage) : Prop := stage = .outside next

theorem plain_follows {next : ℕ} {p : Coroutine α} (asks : p.Asks Aside) :
    (plain p).Safe follow allowed (Outside next) (.outside next) :=
  safe_embed asks fun _ answer aside => follow_aside answer aside

/-- A call that is let through leaves the breaker, however it ends. -/
theorem executed_follows (attempt : ℕ) {coroFn : Coroutine α}
    (sends : coroFn.Safe (sender attempt) (fun _ => True) (fun _ _ => True) false) :
    (executed attempt coroFn).Safe follow allowed (Outside (attempt + 1)) (.running attempt false) := by
  have sent : (plain coroFn).Safe follow allowed (fun _ stage => ∃ sent, stage = .running attempt sent ∧ True)
      (.running attempt false) := by
    refine sends.embed (Stage.running attempt) fun s op answer s' followed => ?_
    simp only [follow, followed, Option.map_some]
  refine safe_bind (safe_attempt sent) ?_ ?_
  · rintro ended _ ⟨_, ⟨⟩, sent, rfl, _⟩
    intro _ _
    refine ⟨.outside (attempt + 1), if_pos rfl, ?_⟩
    cases ended <;> exact rfl
  · rintro _ _ ⟨_, impossible, _⟩
    cases impossible

theorem breakerCall_follows (attempt : ℕ) {coroFn : Coroutine α}
    (sends : coroFn.Safe (sender attempt) (fun _ => True) (fun _ _ => True) false) :
    (breakerCall attempt coroFn).Safe follow allowed (Outside (attempt + 1)) (.outside attempt) := by
  have running : (executed attempt coroFn).Safe follow allowed (Outside (attempt + 1)) (.running attempt false) :=
    executed_follows attempt sends
  intro decision _
  cases decision with
  | runs => exact ⟨_, if_pos rfl, running⟩
  | rejected => exact ⟨_, if_pos rfl, rfl⟩
  | queued =>
      refine ⟨_, if_pos rfl, fun decision _ => ?_⟩
      cases decision with
      | true => exact ⟨_, if_pos rfl, running⟩
      | false => exact ⟨_, if_pos rfl, rfl⟩

theorem tryAttempt_follows (attempt : ℕ) :
    (tryAttempt settings host ticket attempt).Safe follow allowed (Outside (attempt + 1)) (.outside attempt) := by
  refine safe_bind (breakerCall_follows attempt (singleApiCall_sends attempt)) ?_ fun _ _ ended => ended
  rintro answer _ rfl
  split
  · exact safe_pure rfl
  · exact safe_raise rfl

/-- The attempts of the loop are numbered without a gap. -/
theorem attempts_follows (remaining next : ℕ) :
    (attempts settings host ticket (List.range' next remaining)).Safe follow allowed
      (fun _ stage => ∃ next, stage = .outside next) (.outside next) := by
  induction remaining generalizing next with
  | zero => exact ⟨next, rfl⟩
  | succ remaining ih =>
      refine safe_bind (Q := Outside (next + 1)) ?_ ?_ fun _ _ ended => ⟨_, ended⟩
      · refine safe_rescue (tryAttempt_follows next) (fun _ _ ended => ended) ?_
        rintro e _ rfl
        exact plain_follows ((onError_beside next e).mono Beside.aside)
      · rintro ended _ rfl
        cases ended with
        | some result => exact ⟨_, rfl⟩
        | none => exact ih (next + 1)

/-- **Seen from the breaker**, a ticket makes calls one after another and leaves each. -/
theorem processTicket_follows :
    (processTicket settings host ticket).Safe follow allowed (fun _ stage => ∃ next, stage = .outside next)
      (.outside 1) := by
  refine safe_bind (Q := Outside 1) (plain_follows ?_) ?_ fun _ _ ended => ⟨1, ended⟩
  · exact asks_call trivial
  rintro cached _ rfl
  cases cached with
  | some cached => exact ⟨1, rfl⟩
  | none =>
      refine safe_bind (Q := Outside 1) (plain_follows ?_) ?_ fun _ _ ended => ⟨1, ended⟩
      · exact asks_perform trivial
      rintro _ _ rfl
      refine safe_bind (Q := fun _ stage => ∃ next, stage = .outside next) ?_ ?_ fun _ _ ended => ended
      · refine safe_tryFinally (attempts_follows settings.maxRetries 1) ?_
        rintro result _ ⟨next, rfl⟩
        refine (plain_follows ?_).mono fun _ _ ended => ⟨next, ended⟩
        exact asks_perform trivial
      · rintro result _ ⟨next, rfl⟩
        refine safe_bind (Q := Outside next) ?_ (fun _ _ ended => ⟨next, ended⟩) fun _ _ ended => ⟨next, ended⟩
        refine safe_when (plain_follows ?_) rfl
        exact asks_call trivial

end Account

/-! ## How long it takes -/

section Length

variable {α : Type} {settings : Settings} {host : Host} {ticket : String}

theorem plain_within {n : ℕ} {p : Coroutine α} (within : p.Within n) : (plain p).Within n := within_embed within

theorem backoff_within (attempt : ℕ) : (backoff settings attempt).Within 2 :=
  costs_bind (n := 1) (m := 1) (costs_perform _) fun _ => costs_call

/-- What it costs to record a call. -/
theorem costs_recordApiCall {cost : TicketOp → ℕ} {n : ℕ} {status : String} {tokenCount : Json}
    (counts : ∀ tokens, cost (.count status tokens) ≤ n) (refused : cost (.countStatus status) ≤ n) :
    (recordApiCall status tokenCount).Costs cost n := by
  unfold recordApiCall
  split
  · exact (costs_perform _).mono (counts _)
  · exact (costs_bind (m := 0) (costs_perform _) fun _ => costs_raise).mono refused

theorem recordApiCall_within (status : String) (tokenCount : Json) : (recordApiCall status tokenCount).Within 1 :=
  costs_recordApiCall (fun _ => le_rfl) le_rfl

theorem readResponse_within (response : Response) : (readResponse host response).Within 1 := by
  unfold readResponse
  split
  · trivial
  · refine costs_bind (n := 0) (m := 1) (costs_ofResult _) fun data => ?_
    refine costs_bind (n := 0) (m := 1) (costs_ofResult _) fun found => ?_
    refine costs_bind (n := 0) (m := 1) (costs_ofResult _) fun result => ?_
    exact costs_bind (n := 1) (m := 0) (recordApiCall_within _ _) fun _ => costs_pure

theorem singleApiCall_within (attempt : ℕ) : (singleApiCall settings host ticket attempt).Within 3 := by
  unfold singleApiCall
  split
  · exact (costs_bind (costs_when costs_call) fun _ => costs_pure (n := 0)).mono (by omega)
  · refine costs_bind (n := 1) (m := 2) (costs_when ?_) fun _ => ?_
    · exact costs_perform _
    · exact costs_bind (n := 1) (m := 1) costs_call fun response => readResponse_within response

theorem rateLimitWait_within (attempt : ℕ) (retryAfter : Option String) :
    (rateLimitWait settings host attempt retryAfter).Within 2 := by
  unfold rateLimitWait
  split
  · split
    · split
      · exact costs_call.mono (by omega)
      · trivial
    · exact backoff_within attempt
  · exact backoff_within attempt

theorem onError_within (attempt : ℕ) (e : Exn) : (onError settings host ticket attempt e).Within 3 := by
  unfold onError
  split
  · trivial
  · refine costs_bind (n := 1) (m := 2) (recordApiCall_within _ _) fun _ => ?_
    split
    · trivial
    · split
      · exact costs_bind (n := 2) (m := 0) (rateLimitWait_within attempt _) fun _ => costs_pure
      · split
        · exact costs_bind (n := 2) (m := 0) (backoff_within attempt) fun _ => costs_pure
        · trivial
  · exact (costs_bind (costs_when (backoff_within attempt)) fun _ => costs_pure (n := 0)).mono (by omega)
  · exact (costs_bind (costs_when (backoff_within attempt)) fun _ => costs_pure (n := 0)).mono (by omega)
  · trivial

theorem breakerCall_within {n : ℕ} (attempt : ℕ) {coroFn : Coroutine α} (within : coroFn.Within n) :
    (breakerCall attempt coroFn).Within (2 + (n + 1)) := by
  refine costs_bind (n := 2) (m := n + 1) ?_ fun decision => ?_
  · refine costs_bind (n := 1) (m := 1) (costs_perform _) fun decision => ?_
    cases decision with
    | runs | rejected => trivial
    | queued => exact costs_perform _
  · split
    · refine costs_bind (costs_attempt (plain_within within)) fun ended => ?_
      exact costs_bind (n := 1) (m := 0) (costs_perform _) fun _ => costs_ofResult ended
    · trivial

theorem attempts_within (remaining : List ℕ) :
    (attempts settings host ticket remaining).Within (remaining.length * 9) := by
  induction remaining with
  | nil => trivial
  | cons attempt rest ih =>
      rw [List.length_cons, Nat.succ_mul, Nat.add_comm]
      refine costs_bind (n := 6 + 3) ?_ fun ended => ?_
      · refine costs_rescue ?_ fun e => plain_within (onError_within attempt e)
        refine costs_bind (m := 0) (breakerCall_within attempt (singleApiCall_within attempt)) fun answer => ?_
        split <;> trivial
      · cases ended with
        | some result => trivial
        | none => exact ih

theorem processTicket_within : (processTicket settings host ticket).Within (settings.maxRetries * 9 + 4) := by
  have called : (callWithRetry settings host ticket).Within (settings.maxRetries * 9) := by
    have attempted := @attempts_within settings host ticket (List.range' 1 settings.maxRetries)
    rwa [List.length_range'] at attempted
  have whole : (processTicket settings host ticket).Within (1 + (1 + ((settings.maxRetries * 9 + 1) + (1 + 0)))) := by
    refine costs_bind (plain_within costs_call) fun cached => ?_
    cases cached with
    | some cached => trivial
    | none =>
        refine costs_bind (plain_within (costs_perform _)) fun _ => ?_
        refine costs_bind (costs_tryFinally called (plain_within (costs_perform _))) fun result => ?_
        exact costs_bind (costs_when (plain_within costs_call)) fun _ => costs_pure
  exact whole.mono (by omega)

end Length

end InferenceForge.Pipeline.Composed
