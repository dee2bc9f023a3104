/-
# InferenceForge.Pipeline.RetryOutcomes — what the retry loop ends with

`outcome_onError` computes what the `except` clauses make of an exception in a
`TicketWorld`. All but one of them only count, wait for a time of the loop's own
choosing, and return: the handler of a 429 waits for as long as the upstream says,
and hands its `Retry-After` to `float` and to `asyncio.sleep`.

So the loop returns a success or one of its failure records exactly when every
`Retry-After` that it comes to can be waited for (`contained_iff`). A date, which the
header may carry, cannot: `date_escapes`.
-/
import InferenceForge.Pipeline.RetryHandlers

namespace InferenceForge.Pipeline

open InferenceForge.Python InferenceForge.Library

set_option autoImplicit false

/-! ## What an exception comes to -/

section Handler

variable {settings : Settings} {host : Host} {ticket : String} {w : TicketWorld} {k : ℕ}

theorem outcome_then_none (waits : Coroutine Unit) :
    (waits >>= fun _ => (return none : Coroutine (Option Dict))).outcome w.answer =
      (waits.outcome w.answer).map fun slept => slept.map fun _ => none := by
  rw [outcome_bind]
  cases waits.outcome w.answer with
  | none => rfl
  | some slept => cases slept <;> rfl

/-- What the `except` clauses make of an exception. -/
theorem outcome_onError (settings : Settings) (host : Host) (ticket : String) (w : TicketWorld) (k : ℕ)
    (e : Exn) :
    (onError settings host ticket k e).outcome w.answer =
      match e.kind with
      | .circuitBreakerOpen => some (.ok (some (failureResult ticket "circuit_breaker_open")))
      | .httpStatus code header =>
          if code ∈ fatalStatusCodes then some (.ok (some (failureResult ticket s!"http_{code}")))
          else if code = 429 ∧ k < settings.maxRetries then
            ((rateLimitWait settings host k header).outcome w.answer).map fun slept => slept.map fun _ => none
          else some (.ok none)
      | .jsonDecode | .other _ => some (.ok none)
      | .base _ => some (.error e) := by
  unfold onError
  cases kind : e.kind with
  | circuitBreakerOpen => rfl
  | base _ => rfl
  | jsonDecode | other _ =>
      dsimp only
      rw [outcome_then_none, outcome_when]
      split <;> rfl
  | httpStatus code header =>
      dsimp only
      rw [outcome_bind, outcome_recorded_status, Option.bind_some]
      dsimp only
      by_cases fatal : code ∈ fatalStatusCodes
      · rw [if_pos fatal, if_pos fatal]
        rfl
      · rw [if_neg fatal, if_neg fatal]
        by_cases limited : code = 429 ∧ k < settings.maxRetries
        · rw [if_pos limited, if_pos limited, outcome_then_none]
        · rw [if_neg limited, if_neg limited]
          split
          · rw [outcome_then_none, outcome_backoff]
            rfl
          · rfl

/-- If the exception is a 429 with a `Retry-After`, that is a number that
`asyncio.sleep` can wait for. -/
def Waitable (w : TicketWorld) (e : Exn) : Prop :=
  ∀ header, e.kind = .httpStatus 429 (some header) → header ≠ "" →
    ∃ wait, float header.toList = some wait ∧ w.slept wait = some (.ok ())

theorem outcome_rateLimitWait_ok_iff {header : Option String} :
    (rateLimitWait settings host k header).outcome w.answer = some (.ok ()) ↔
      ∀ text ∈ header, text ≠ "" → ∃ wait, float text.toList = some wait ∧ w.slept wait = some (.ok ()) := by
  rw [outcome_rateLimitWait]
  cases header with
  | none => simp
  | some text =>
      by_cases empty : text = ""
      · simp [empty]
      · cases given : float text.toList <;> simp [empty, given]

/-- A record that the loop may end with. -/
inductive Contained (settings : Settings) (host : Host) (w : TicketWorld) (ticket : String) : Dict → Prop
  /-- The classification of an attempt with its token count. -/
  | success {k : ℕ} {fields : Dict} {tokens : Json}
      (answered : w.exchange settings host k = .ok (.object fields, tokens)) :
      Contained settings host w ticket (Dict.set fields "tokens" tokens)
  | rejected : Contained settings host w ticket (failureResult ticket "circuit_breaker_open")
  | fatal {code : ℕ} (listed : code ∈ fatalStatusCodes) :
      Contained settings host w ticket (failureResult ticket s!"http_{code}")
  | exhausted : Contained settings host w ticket (failureResult ticket "max_retries_exceeded")

theorem contained_of_attempt {record : Dict} (returned : w.attempt settings host k = .ok record) :
    Contained settings host w ticket record := by
  unfold TicketWorld.attempt at returned
  split at returned
  · cases returned
  · cases answered : w.exchange settings host k with
    | error e =>
        rw [answered] at returned
        cases returned
    | ok answer =>
        rw [answered] at returned
        obtain ⟨value, tokens⟩ := answer
        cases value <;> cases returned
        exact .success answered

/-- What the handler of a waitable exception does: it goes on, or returns a failure
record. -/
theorem outcome_onError_of_waitable {e : Exn} (caught : e.isException = true)
    (waitable : k < settings.maxRetries → Waitable w e) :
    ((onError settings host ticket k e).outcome w.answer = some (.ok none) ∧
        (k < settings.maxRetries → w.GoesOn e)) ∨
      ∃ record, (onError settings host ticket k e).outcome w.answer = some (.ok (some record)) ∧
        Contained settings host w ticket record ∧ ¬ w.GoesOn e := by
  rw [outcome_onError]
  unfold TicketWorld.GoesOn
  cases kind : e.kind with
  | circuitBreakerOpen => exact .inr ⟨_, rfl, .rejected, id⟩
  | jsonDecode | other _ => exact .inl ⟨rfl, fun _ => trivial⟩
  | base name =>
      simp only [Exn.isException, kind] at caught
      cases caught
  | httpStatus code header =>
      dsimp only
      by_cases fatal : code ∈ fatalStatusCodes
      · rw [if_pos fatal]
        exact .inr ⟨_, rfl, .fatal fatal, fun goes => goes.1 fatal⟩
      · have slept : k < settings.maxRetries → code = 429 → ∀ text ∈ header, text ≠ "" →
            ∃ wait, float text.toList = some wait ∧ w.slept wait = some (.ok ()) := by
          rintro more rfl text rfl nonempty
          exact waitable more text kind nonempty
        refine .inl ⟨?_, fun more => ⟨fatal, slept more⟩⟩
        rw [if_neg fatal]
        split
        · next limited =>
            rw [outcome_rateLimitWait_ok_iff.mpr (slept limited.2 limited.1)]
            rfl
        · rfl

/-- The wait for a `Retry-After` that is not waitable does not end, or raises. -/
theorem outcome_onError_of_not_waitable {e : Exn} (more : k < settings.maxRetries)
    (unwaitable : ¬ Waitable w e) (ended : Option Dict) :
    (onError settings host ticket k e).outcome w.answer ≠ some (.ok ended) := by
  intro returned
  apply unwaitable
  intro header kind nonempty
  rw [outcome_onError, kind] at returned
  dsimp only at returned
  rw [if_neg (by decide), if_pos ⟨rfl, more⟩] at returned
  obtain ⟨slept, waited, returned⟩ := Option.map_eq_some_iff.mp returned
  obtain rfl : slept = .ok () := by cases slept <;> cases returned; rfl
  exact outcome_rateLimitWait_ok_iff.mp waited header rfl nonempty

end Handler

/-! ## The loop -/

section Loop

variable {settings : Settings} {host : Host} {ticket : String} {w : TicketWorld} {k n : ℕ}

theorem outcome_attempts_contained_iff (ticket : String)
    (caught : ∀ k e, w.attempt settings host k = .error e → e.isException = true)
    (rest : k + n = settings.maxRetries + 1) :
    (∃ record, (attempts settings host ticket (List.range' k n)).outcome w.answer = some (.ok record) ∧
        Contained settings host w ticket record) ↔
      ∀ j, k ≤ j → j < settings.maxRetries → w.ComesTo settings host k j →
        ∀ e, w.attempt settings host j = .error e → Waitable w e := by
  induction n generalizing k with
  | zero =>
      refine iff_of_true ⟨_, rfl, .exhausted⟩ ?_
      intro j le lt
      omega
  | succ n ih =>
      have later := ih (k := k + 1) (by omega)
      rw [List.range'_succ, attempts, outcome_bind, outcome_rescue, outcome_tryAttempt, Option.bind_some]
      cases met : w.attempt settings host k with
      | ok record =>
          refine iff_of_true ⟨record, rfl, contained_of_attempt met⟩ ?_
          intro j le lt comes e raised
          obtain rfl := comes.eq_of_ok le met
          cases met.symm.trans raised
      | error e =>
          simp only [Except.map]
          by_cases waitable : k < settings.maxRetries → Waitable w e
          · rcases @outcome_onError_of_waitable settings host ticket w k e (caught k e met) waitable with
              ⟨handled, goes⟩ | ⟨record, handled, contained, stops⟩
            · rw [handled]
              refine later.trans ⟨fun all => ?_, fun all => ?_⟩
              · intro j le lt comes e' raised
                rcases Nat.eq_or_lt_of_le le with rfl | after
                · cases met.symm.trans raised
                  exact waitable lt
                · exact all j after lt comes.later e' raised
              · intro j le lt comes
                exact all j (by omega) lt (comes.after met (goes (by omega)))
            · rw [handled]
              refine iff_of_true ⟨record, rfl, contained⟩ ?_
              intro j le lt comes e' raised
              obtain rfl := comes.eq_of_stops le met stops
              cases met.symm.trans raised
              exact waitable lt
          · obtain ⟨more, unwaitable⟩ := not_forall.mp waitable
            have escapes := @outcome_onError_of_not_waitable settings host ticket w k e more unwaitable
            refine iff_of_false ?_ ?_
            · rintro ⟨record, returned, _⟩
              generalize (onError settings host ticket k e).outcome w.answer = handled at returned escapes
              cases handled with
              | none => cases returned
              | some outcome =>
                  cases outcome with
                  | error e' => cases returned
                  | ok ended => exact escapes ended rfl
            · intro all
              exact unwaitable (all k le_rfl more (.start k) e met)

/-- **The loop contains every upstream error** exactly when it can wait for every
`Retry-After` it comes to before the last attempt. -/
theorem contained_iff (settings : Settings) (host : Host) (ticket : String) (w : TicketWorld)
    (caught : ∀ k e, w.attempt settings host k = .error e → e.isException = true) :
    (∃ record, (callWithRetry settings host ticket).outcome w.answer = some (.ok record) ∧
        Contained settings host w ticket record) ↔
      ∀ j, 1 ≤ j → j < settings.maxRetries → w.ComesTo settings host 1 j →
        ∀ e, w.attempt settings host j = .error e → Waitable w e :=
  outcome_attempts_contained_iff ticket caught (Nat.add_comm _ _)

end Loop

/-! ## Poles -/

section Poles

/-- Every request is answered 429, with the header. -/
def rateLimited (header : String) : TicketWorld where
  cached := none
  admits _ := true
  response _ := .ok { statusCode := 429, retryAfter := some header, json := .ok .null }
  jitter _ := 0
  nanSleep := .ok ()

/-- What an attempt comes to there. -/
def tooManyRequests (header : String) : Exn where
  kind := .httpStatus 429 (some header)
  message := s!"HTTP status {429}"

theorem rateLimited_attempt (header : String) (k : ℕ) :
    (rateLimited header).attempt .defaults plainestHost k = .error (tooManyRequests header) := rfl

theorem rateLimited_caught (header : String) (k : ℕ) (e : Exn)
    (raised : (rateLimited header).attempt .defaults plainestHost k = .error e) : e.isException = true := by
  cases (rateLimited_attempt header k).symm.trans raised
  rfl

/-- `Retry-After` may be a date. -/
def date : String := "Wed, 21 Oct 2015 07:28:00 GMT"

theorem float_date : float date.toList = none := by decide

/-- **Refuting pole.** The `ValueError` of a date in `Retry-After` escapes. -/
theorem date_escapes :
    (callWithRetry .defaults plainestHost "help").outcome (rateLimited date).answer =
        some (.error (.valueError s!"could not convert string to float: {date}")) ∧
      (∀ k e, (rateLimited date).attempt .defaults plainestHost k = .error e → e.isException = true) ∧
      ¬ ∃ record, (callWithRetry .defaults plainestHost "help").outcome (rateLimited date).answer =
          some (.ok record) ∧
        Contained .defaults plainestHost (rateLimited date) "help" record := by
  have refused : (rateLimitWait .defaults plainestHost 1 (some date)).outcome (rateLimited date).answer =
      some (.error (.valueError s!"could not convert string to float: {date}")) := by
    rw [outcome_rateLimitWait]
    dsimp only
    rw [if_neg (by decide), float_date]
    rfl
  have handled : (onError .defaults plainestHost "help" 1 (tooManyRequests date)).outcome (rateLimited date).answer =
      some (.error (.valueError s!"could not convert string to float: {date}")) := by
    rw [outcome_onError]
    show ((rateLimitWait .defaults plainestHost 1 (some date)).outcome (rateLimited date).answer).map _ = _
    rw [refused]
    rfl
  have escaped : (callWithRetry .defaults plainestHost "help").outcome (rateLimited date).answer =
      some (.error (.valueError s!"could not convert string to float: {date}")) := by
    show (attempts .defaults plainestHost "help" [1, 2, 3]).outcome _ = _
    rw [attempts, outcome_bind, outcome_rescue, outcome_tryAttempt, rateLimited_attempt, Option.bind_some]
    show ((onError .defaults plainestHost "help" 1 (tooManyRequests date)).outcome _).bind _ = _
    rw [handled]
    rfl
  refine ⟨escaped, rateLimited_caught date, ?_⟩
  rintro ⟨record, returned, _⟩
  cases escaped.symm.trans returned

theorem two_lt_overflow : 2 < overflow := lt_overflow (n := 2) (by decide)

theorem float_two : float "2".toList = some (.finite 2) := by
  have read : float "2".toList =
      some (if overflow ≤ ((2 : ℕ) : ℚ) * 10 ^ (0 - ((0 : ℕ) : ℤ)) then .inf
        else .finite (((2 : ℕ) : ℚ) * 10 ^ (0 - ((0 : ℕ) : ℤ)))) := rfl
  have two : ((2 : ℕ) : ℚ) * 10 ^ (0 - ((0 : ℕ) : ℤ)) = 2 := by norm_num
  rw [read, two, if_neg (not_le.mpr two_lt_overflow)]

/-- Satisfiable pole: two seconds can be waited for. -/
theorem contained_iff_seconds :
    ∃ record, (callWithRetry .defaults plainestHost "help").outcome (rateLimited "2").answer = some (.ok record) ∧
      Contained .defaults plainestHost (rateLimited "2") "help" record := by
  refine (contained_iff _ _ _ _ (rateLimited_caught "2")).mpr ?_
  intro j _ _ _ e raised header kind _
  cases (rateLimited_attempt "2" j).symm.trans raised
  cases kind
  exact ⟨.finite 2, float_two, rfl⟩

end Poles

end InferenceForge.Pipeline
