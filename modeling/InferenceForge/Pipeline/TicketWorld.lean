/-
# InferenceForge.Pipeline.TicketWorld — one ticket and what it meets

A `TicketWorld` fixes what happens to one ticket: what the cache holds, what the
circuit breaker decides, how each request ends, and how `asyncio.sleep` behaves.
`TicketWorld.attempt` is what an attempt comes to in it.

A ticket always ends, unless an attempt that is not the last is answered 429 with
a `Retry-After` that `float` reads as infinity, after attempts the loop goes on
from: then the `asyncio.sleep` has no end (`processTicket_stuck_iff`).
-/
import InferenceForge.Pipeline.Caller
import InferenceForge.Python.Text

namespace InferenceForge.Pipeline

open InferenceForge.Python InferenceForge.Library

set_option autoImplicit false

structure TicketWorld where
  /-- What the cache holds for the ticket. -/
  cached : Option Dict
  /-- Whether the circuit breaker runs an attempt. -/
  admits : ℕ → Bool
  /-- How the request of an attempt ends. -/
  response : ℕ → Except Exn Response
  jitter : ℕ → ℚ
  /-- How `asyncio.sleep` of a NaN ends, which is up to the version of Python. -/
  nanSleep : Except Exn Unit

/-! ## An attempt -/

/-- How `record_api_call` ends for a number of tokens. -/
def recorded (tokenCount : Json) : Except Exn Unit := (incrementTokens tokenCount).map fun _ => ()

theorem incrementTokens_finite {tokens : ℚ} (nonneg : 0 ≤ tokens) (small : tokens < overflow) :
    incrementTokens (.number (.finite tokens)) = .ok (.finite tokens) := by
  simp [incrementTokens, Json.toNumber?, Number.isNegative, Number.overflows, not_lt.mpr nonneg, not_le.mpr small]

theorem recorded_finite {tokens : ℚ} (nonneg : 0 ≤ tokens) (small : tokens < overflow) :
    recorded (.number (.finite tokens)) = .ok () := by
  rw [recorded, incrementTokens_finite nonneg small]
  rfl

theorem recorded_zero : recorded (.number (.finite 0)) = .ok () := recorded_finite le_rfl overflow_pos

theorem recorded_ok_iff {tokenCount : Json} :
    recorded tokenCount = .ok () ↔ ∃ tokens, incrementTokens tokenCount = .ok tokens := by
  unfold recorded
  cases incrementTokens tokenCount <;> simp [Except.map]

/-- `{**result, "tokens": tokens}`. -/
def withTokens : Json × Json → Except Exn Dict
  | (.object fields, tokens) => .ok (Dict.set fields "tokens" tokens)
  | _ => .error (.typeError "object is not a mapping")

/-- What a response comes to before it is recorded: the classification and its tokens, or an exception. -/
def Response.parsed (host : Host) (response : Response) : Except Exn (Json × Json) :=
  if response.statusCode < 200 ∨ 300 ≤ response.statusCode then
    .error {
      kind := .httpStatus response.statusCode response.retryAfter
      message := s!"HTTP status {response.statusCode}" }
  else do
    let data ← response.json
    let completion ← readCompletion data
    let result ← classificationOf host completion.1
    return (result, completion.2)

/-- And once it is recorded. -/
def Response.read (host : Host) (response : Response) : Except Exn (Json × Json) := do
  let answer ← response.parsed host
  recorded answer.2
  return answer

/-- A response is read, and then recorded. -/
theorem readResponse_eq (host : Host) (response : Response) :
    readResponse host response = Program.ofResult (response.parsed host) >>= fun answer =>
      recordApiCall "success" answer.2 >>= fun _ => pure answer := by
  unfold readResponse Response.parsed
  split
  · rfl
  · cases response.json with
    | error e => rfl
    | ok data =>
        cases given : readCompletion data with
        | error e => simp only [Program.ofResult, bind, Program.bind, Except.bind, given]
        | ok completion =>
            cases parsed : classificationOf host completion.1 with
            | error e => simp only [Program.ofResult, bind, Program.bind, Except.bind, given, parsed]
            | ok result =>
                simp only [Program.ofResult, bind, Program.bind, Except.bind, given, parsed]
                rfl

/-- The exception of a 429 whose `Retry-After` is infinite. -/
def Endless (e : Exn) : Prop :=
  ∃ header, e.kind = .httpStatus 429 (some header) ∧ float header.toList = some .inf

namespace TicketWorld

/-- How an `asyncio.sleep` ends; an infinite one does not. -/
def slept (w : TicketWorld) : Number → Option (Except Exn Unit)
  | .finite _ | .negInf => some (.ok ())
  | .inf => none
  | .nan => some w.nanSleep

/-- The answers a ticket gets. -/
def answer (w : TicketWorld) : (op : TicketOp) → Option (TicketAnswer op)
  | .cacheGet _ => some (.ok w.cached)
  | .cacheSet _ _ => some (.ok ())
  | .acquire | .release | .throttle _ | .count _ _ | .countStatus _ => some ()
  | .admission attempt => some (w.admits attempt)
  | .post _ attempt => some (w.response attempt)
  | .uniform attempt => some (w.jitter attempt)
  | .sleep wait => w.slept wait

/-- What the call of an attempt comes to, if it is made. -/
def exchange (settings : Settings) (host : Host) (w : TicketWorld) (attempt : ℕ) :
    Except Exn (Json × Json) :=
  if settings.sarvamMockMode then .ok (.object mockClassification, .number (.finite 0))
  else do
    let response ← w.response attempt
    response.read host

/-- What an attempt comes to. -/
def attempt (settings : Settings) (host : Host) (w : TicketWorld) (attempt : ℕ) : Except Exn Dict :=
  if settings.cbEnabled = true ∧ w.admits attempt = false then
    .error { kind := .circuitBreakerOpen, message := "Circuit breaker is OPEN." }
  else do
    let answer ← w.exchange settings host attempt
    withTokens answer

/-- The loop goes on after the exception, if there is another attempt. -/
def GoesOn (w : TicketWorld) (e : Exn) : Prop :=
  match e.kind with
  | .circuitBreakerOpen | .base _ => False
  | .jsonDecode | .other _ => True
  | .httpStatus statusCode retryAfter =>
      statusCode ∉ fatalStatusCodes ∧
        (statusCode = 429 → ∀ header ∈ retryAfter, header ≠ "" →
          ∃ wait, float header.toList = some wait ∧ w.slept wait = some (.ok ()))

/-- A ticket that never ends. -/
def WaitsForever (settings : Settings) (host : Host) (w : TicketWorld) : Prop :=
  w.cached = none ∧ ∃ k, 1 ≤ k ∧ k < settings.maxRetries ∧
    (∃ e, w.attempt settings host k = .error e ∧ Endless e) ∧
    ∀ j, 1 ≤ j → j < k → ∃ e, w.attempt settings host j = .error e ∧ w.GoesOn e

end TicketWorld

section Outcomes

variable {settings : Settings} {host : Host} {ticket : String} {w : TicketWorld} {k : ℕ}

/-! ## What the coroutine does in it -/

theorem outcome_sleep (wait : Number) : (sleep wait).outcome w.answer = w.slept wait := by
  rw [sleep, outcome_call]
  exact Option.map_id' (α := Except Exn Unit)

theorem outcome_backoff (attempt : ℕ) :
    (backoff settings attempt).outcome w.answer = some (.ok ()) := rfl

theorem outcome_recordApiCall (status : String) (tokenCount : Json) :
    (recordApiCall status tokenCount).outcome w.answer = some (recorded tokenCount) := by
  unfold recordApiCall recorded
  cases incrementTokens tokenCount <;> rfl

theorem outcome_readResponse (response : Response) :
    (readResponse host response).outcome w.answer = some (response.read host) := by
  rw [readResponse_eq, outcome_bind, outcome_ofResult, Option.bind_some]
  unfold Response.read
  cases response.parsed host with
  | error e => rfl
  | ok answer =>
      dsimp only
      rw [outcome_bind, outcome_recordApiCall, Option.bind_some]
      cases ended : recorded answer.2 with
      | error e => simp [ended, bind, Except.bind]
      | ok _ =>
          simp only [ended, bind, Except.bind]
          exact outcome_pure _

theorem outcome_singleApiCall :
    (singleApiCall settings host ticket k).outcome w.answer =
      some (w.exchange settings host k) := by
  unfold singleApiCall TicketWorld.exchange
  split
  · rw [outcome_bind, outcome_when]
    split <;> rfl
  · have throttled : ((await (.throttle k)).when (0 < settings.sarvamMinIntervalMs)).outcome
        w.answer = some (.ok ()) := by
      rw [outcome_when]
      split <;> rfl
    have posted : (Program.call (.post ticket k) id : Coroutine Response).outcome w.answer =
        some (w.response k) := outcome_call _ _
    rw [outcome_bind, throttled, Option.bind_some, outcome_bind, posted, Option.bind_some]
    cases w.response k with
    | error e => rfl
    | ok response => exact outcome_readResponse response

theorem outcome_tryAttempt :
    (tryAttempt settings host ticket k).outcome w.answer =
      some ((w.attempt settings host k).map some) := by
  have guarded_outcome : (guarded settings k (singleApiCall settings host ticket k)).outcome w.answer =
      some (if settings.cbEnabled = true ∧ w.admits k = false then
        .error { kind := .circuitBreakerOpen, message := "Circuit breaker is OPEN." }
      else w.exchange settings host k) := by
    unfold guarded
    cases enabled : settings.cbEnabled with
    | false => simpa using outcome_singleApiCall
    | true =>
        rw [if_pos rfl, outcome_bind]
        have asked : (await (.admission k)).outcome w.answer = some (.ok (w.admits k)) := rfl
        rw [asked, Option.bind_some]
        cases w.admits k with
        | false => rfl
        | true => simpa using outcome_singleApiCall
  unfold tryAttempt TicketWorld.attempt
  rw [outcome_bind, guarded_outcome, Option.bind_some]
  by_cases rejected : settings.cbEnabled = true ∧ w.admits k = false
  · rw [if_pos rejected, if_pos rejected]
    rfl
  · rw [if_neg rejected, if_neg rejected]
    cases w.exchange settings host k with
    | error e => rfl
    | ok answer =>
        obtain ⟨result, tokens⟩ := answer
        cases result <;> rfl

/-! ## After an exception -/

theorem float_empty : float "".toList = none := by decide

theorem not_endless_of_goesOn {e : Exn} (goes : w.GoesOn e) : ¬ Endless e := by
  rintro ⟨header, kind, endless⟩
  have nonempty : header ≠ "" := by
    rintro rfl
    rw [float_empty] at endless
    cases endless
  simp only [TicketWorld.GoesOn, kind] at goes
  obtain ⟨wait, given, slept⟩ := goes.2 trivial header rfl nonempty
  cases endless.symm.trans given
  cases slept

theorem outcome_recorded_status (status : String) :
    (recordApiCall status (.number (.finite 0))).outcome w.answer = some (.ok ()) := by
  rw [outcome_recordApiCall, recorded_zero]

theorem outcome_rateLimitWait (retryAfter : Option String) :
    (rateLimitWait settings host k retryAfter).outcome w.answer =
      match retryAfter with
      | none => some (.ok ())
      | some header =>
          if header = "" then some (.ok ())
          else
            match float header.toList with
            | some wait => w.slept wait
            | none =>
                some (.error (.valueError s!"could not convert string to float: {host.repr header}")) := by
  cases retryAfter with
  | none => rfl
  | some header =>
      unfold rateLimitWait
      by_cases empty : header = ""
      · simp only [empty, ne_eq, not_true_eq_false, if_false, if_true]
        rfl
      · simp only [empty, ne_eq, not_false_eq_true, if_true, if_false]
        cases float header.toList with
        | none => rfl
        | some wait => exact outcome_sleep wait

/-- How an attempt that is not the last goes on after an exception. -/
inductive AfterError (w : TicketWorld) (e : Exn) : Option (Except Exn (Option Dict)) → Prop
  | stuck (endless : Endless e) : AfterError w e none
  | next (goes : w.GoesOn e) : AfterError w e (some (.ok none))
  | ended (finite : ¬ Endless e) (stops : ¬ w.GoesOn e) (result : Except Exn (Option Dict))
      (last : result ≠ .ok none) : AfterError w e (some result)

/-- The handler of a 429. -/
theorem afterError_of_limited {e : Exn} {retryAfter : Option String}
    (kind : e.kind = .httpStatus 429 retryAfter) :
    AfterError w e (((rateLimitWait settings host k retryAfter) >>= fun _ => return none :
      Coroutine (Option Dict)).outcome w.answer) := by
  have finite_of : (∀ header ∈ retryAfter, float header.toList ≠ some .inf) → ¬ Endless e := by
    rintro finite ⟨header, same, endless⟩
    rw [kind] at same
    cases same
    exact finite header rfl endless
  have goes_of : (∀ header ∈ retryAfter, header ≠ "" → ∃ wait, float header.toList = some wait ∧
      w.slept wait = some (.ok ())) → w.GoesOn e := by
    intro slept
    simp only [TicketWorld.GoesOn, kind]
    exact ⟨by decide, fun _ => slept⟩
  have slept_of : w.GoesOn e → ∀ header ∈ retryAfter, header ≠ "" →
      ∃ wait, float header.toList = some wait ∧ w.slept wait = some (.ok ()) := by
    intro goes
    simp only [TicketWorld.GoesOn, kind] at goes
    exact goes.2 trivial
  rw [outcome_bind, outcome_rateLimitWait]
  cases retryAfter with
  | none => exact .next (goes_of (by simp))
  | some header =>
      dsimp only
      by_cases empty : header = ""
      · rw [if_pos empty]
        exact .next (goes_of (by simp [empty]))
      · rw [if_neg empty]
        cases given : float header.toList with
        | none =>
            refine .ended (finite_of (by simp [given])) (fun goes => ?_) _ (by simp)
            obtain ⟨wait, same, _⟩ := slept_of goes header rfl empty
            cases given.symm.trans same
        | some wait =>
            dsimp only
            cases slept : w.slept wait with
            | none =>
                cases wait with
                | inf => exact .stuck ⟨header, kind, given⟩
                | finite _ | negInf | nan => cases slept
            | some ended =>
                cases ended with
                | ok _ => exact .next (goes_of (by simp [given, slept]))
                | error e' =>
                    refine .ended (finite_of ?_) (fun goes => ?_) _ (by simp)
                    · rintro _ ⟨⟩ endless
                      cases given.symm.trans endless
                      cases slept
                    · obtain ⟨_, same, slept'⟩ := slept_of goes header rfl empty
                      cases given.symm.trans same
                      cases slept.symm.trans slept'

theorem afterError_of_lt {e : Exn} (host : Host) (ticket : String)
    (more : k < settings.maxRetries) :
    AfterError w e ((onError settings host ticket k e).outcome w.answer) := by
  unfold onError
  cases kind : e.kind with
  | circuitBreakerOpen =>
      refine .ended ?_ (by simp [TicketWorld.GoesOn, kind]) _ (by simp)
      rintro ⟨_, same, _⟩
      cases kind.symm.trans same
  | jsonDecode | other _ =>
      dsimp only
      rw [outcome_bind, outcome_when, if_pos more, outcome_backoff]
      exact .next (by simp [TicketWorld.GoesOn, kind])
  | base _ =>
      refine .ended ?_ (by simp [TicketWorld.GoesOn, kind]) _ (by simp)
      rintro ⟨_, same, _⟩
      cases kind.symm.trans same
  | httpStatus statusCode retryAfter =>
      dsimp only
      rw [outcome_bind, outcome_recorded_status, Option.bind_some]
      dsimp only
      split
      · next fatal =>
          refine .ended ?_ (fun goes => ?_) _ (by simp)
          · rintro ⟨_, same, _⟩
            cases kind.symm.trans same
            exact absurd fatal (by decide)
          · simp only [TicketWorld.GoesOn, kind] at goes
            exact goes.1 fatal
      · next transient =>
          split
          · next limited =>
              obtain ⟨rfl, _⟩ := limited
              exact afterError_of_limited kind
          · next unlimited =>
              have other : statusCode ≠ 429 := fun same => unlimited ⟨same, more⟩
              have goes : w.GoesOn e := by
                simp only [TicketWorld.GoesOn, kind]
                exact ⟨transient, fun same => absurd same other⟩
              split
              · rw [outcome_bind, outcome_backoff]
                exact .next goes
              · exact .next goes

/-- An exception in the last attempt ends the ticket. -/
theorem outcome_onError_of_last {e : Exn} (host : Host) (ticket : String)
    (last : ¬ k < settings.maxRetries) :
    ∃ ended, (onError settings host ticket k e).outcome w.answer = some ended := by
  unfold onError
  split
  · exact ⟨_, rfl⟩
  · rw [outcome_bind, outcome_recorded_status, Option.bind_some]
    dsimp only
    split
    · exact ⟨_, rfl⟩
    · rw [if_neg fun both => last both.2, if_neg fun both => last both.2]
      exact ⟨_, rfl⟩
  · rw [outcome_bind, outcome_when, if_neg last]
    exact ⟨_, rfl⟩
  · rw [outcome_bind, outcome_when, if_neg last]
    exact ⟨_, rfl⟩
  · exact ⟨_, rfl⟩

/-! ## The loop and the ticket -/

/-- The loop comes to the attempt: it goes on after each of those before it. -/
def TicketWorld.ComesTo (settings : Settings) (host : Host) (w : TicketWorld) (k j : ℕ) : Prop :=
  ∀ i, k ≤ i → i < j → ∃ e, w.attempt settings host i = .error e ∧ w.GoesOn e

section ComesTo

variable {host : Host} {j : ℕ} {e : Exn}

theorem TicketWorld.ComesTo.start (k : ℕ) : w.ComesTo settings host k k := by
  intro i le lt
  omega

theorem TicketWorld.ComesTo.later (comes : w.ComesTo settings host k j) : w.ComesTo settings host (k + 1) j :=
  fun i le => comes i (by omega)

theorem TicketWorld.ComesTo.after (comes : w.ComesTo settings host (k + 1) j)
    (met : w.attempt settings host k = .error e) (goes : w.GoesOn e) : w.ComesTo settings host k j := by
  intro i le lt
  rcases Nat.eq_or_lt_of_le le with rfl | after
  · exact ⟨e, met, goes⟩
  · exact comes i after lt

/-- Behind an attempt that returns, the loop comes to none. -/
theorem TicketWorld.ComesTo.eq_of_ok {record : Dict} (comes : w.ComesTo settings host k j) (le : k ≤ j)
    (met : w.attempt settings host k = .ok record) : k = j := by
  rcases Nat.eq_or_lt_of_le le with same | after
  · exact same
  · obtain ⟨_, raised, _⟩ := comes k le_rfl after
    cases met.symm.trans raised

/-- Behind an attempt that ends the loop, it comes to none. -/
theorem TicketWorld.ComesTo.eq_of_stops (comes : w.ComesTo settings host k j) (le : k ≤ j)
    (met : w.attempt settings host k = .error e) (stops : ¬ w.GoesOn e) : k = j := by
  rcases Nat.eq_or_lt_of_le le with same | after
  · exact same
  · obtain ⟨_, raised, goes⟩ := comes k le_rfl after
    cases met.symm.trans raised
    exact absurd goes stops

end ComesTo

/-- The loop never ends exactly when an attempt it comes to is answered so. -/
theorem outcome_attempts_eq_none_iff (host : Host) (ticket : String) (n : ℕ)
    (rest : k + n = settings.maxRetries + 1) :
    (attempts settings host ticket (List.range' k n)).outcome w.answer = none ↔
      ∃ j, k ≤ j ∧ j < settings.maxRetries ∧
        (∃ e, w.attempt settings host j = .error e ∧ Endless e) ∧ w.ComesTo settings host k j := by
  induction n generalizing k with
  | zero =>
      refine iff_of_false (by simp [attempts]) ?_
      rintro ⟨j, le, lt, _⟩
      omega
  | succ n ih =>
      have later := ih (k := k + 1) (by omega)
      rw [List.range'_succ, attempts, outcome_bind, outcome_rescue, outcome_tryAttempt,
        Option.bind_some]
      cases met : w.attempt settings host k with
      | ok result =>
          refine iff_of_false (by simp [Except.map]) ?_
          rintro ⟨j, le, lt, ⟨e, raised, _⟩, comes⟩
          obtain rfl := comes.eq_of_ok le met
          cases met.symm.trans raised
      | error e =>
          simp only [Except.map]
          by_cases more : k < settings.maxRetries
          · have handled := afterError_of_lt (w := w) (e := e) host ticket more
            generalize (onError settings host ticket k e).outcome w.answer = ended at handled
            cases handled with
            | stuck endless =>
                exact iff_of_true rfl ⟨k, le_rfl, more, ⟨e, met, endless⟩, .start k⟩
            | next goes =>
                refine later.trans ⟨?_, ?_⟩
                · rintro ⟨j, le, lt, endless, comes⟩
                  exact ⟨j, by omega, lt, endless, comes.after met goes⟩
                · rintro ⟨j, le, lt, ⟨e', raised, endless⟩, comes⟩
                  rcases Nat.eq_or_lt_of_le le with rfl | after
                  · cases met.symm.trans raised
                    exact absurd endless (not_endless_of_goesOn goes)
                  · exact ⟨j, after, lt, ⟨e', raised, endless⟩, comes.later⟩
            | ended finite stops result last =>
                refine iff_of_false ?_ ?_
                · match result with
                  | .ok none => exact absurd rfl last
                  | .ok (some result) | .error e' => simp
                · rintro ⟨j, le, lt, ⟨e', raised, endless⟩, comes⟩
                  obtain rfl := comes.eq_of_stops le met stops
                  cases met.symm.trans raised
                  exact finite endless
          · obtain rfl : n = 0 := by omega
            obtain ⟨ended, same⟩ := outcome_onError_of_last (w := w) (e := e) host ticket more
            refine iff_of_false ?_ ?_
            · rw [same]
              match ended with
              | .ok none | .ok (some result) | .error e' => simp [attempts]
            · rintro ⟨j, le, lt, _⟩
              omega

/-- **A ticket never ends** exactly when it waits for an infinite `Retry-After`. -/
theorem processTicket_stuck_iff (ticket : String) :
    (processTicket settings host ticket).outcome w.answer = none ↔
      w.WaitsForever settings host := by
  have looked : (cacheGet host ticket).outcome w.answer = some (.ok w.cached) := outcome_call _ _
  unfold processTicket TicketWorld.WaitsForever
  rw [outcome_bind, looked, Option.bind_some]
  cases w.cached with
  | some cached => simp
  | none =>
      have loop := outcome_attempts_eq_none_iff (w := w) (k := 1) host ticket settings.maxRetries
        (Nat.add_comm _ _)
      unfold TicketWorld.ComesTo at loop
      rw [← loop, and_iff_right rfl]
      have acquired : (await .acquire).outcome w.answer = some (.ok ()) := rfl
      have released : (await .release).outcome w.answer = some (.ok ()) := rfl
      have stored : ∀ result, (cacheSet host ticket result).outcome w.answer = some (.ok ()) :=
        fun result => outcome_call _ _
      show ((await .acquire >>= fun _ => _ : Coroutine Dict).outcome w.answer) = none ↔
        (callWithRetry settings host ticket).outcome w.answer = none
      rw [outcome_bind, acquired, Option.bind_some]
      dsimp only
      rw [outcome_bind, Program.tryFinally, outcome_bind, outcome_attempt]
      cases (callWithRetry settings host ticket).outcome w.answer with
      | none => simp
      | some ended =>
          rw [Option.map_some, Option.bind_some]
          dsimp only
          rw [outcome_bind, released, Option.bind_some]
          dsimp only
          rw [outcome_ofResult, Option.bind_some]
          cases ended with
          | error e => simp
          | ok result =>
              dsimp only
              rw [outcome_bind, outcome_when, stored]
              split <;> simp

end Outcomes

end InferenceForge.Pipeline
