/-
# InferenceForge.Pipeline.RetryPolicy — the loop follows its policy

The policy of the retry loop is `Library.retry`: an attempt decides if it is a
success, a rejection or a fatal status, and behind any other attempt but the last the
loop waits, for as long as a `Retry-After` says or by exponential backoff.

Where every attempt ends in one of the ways the policy knows (`Listed`), what the loop
does is the report of that policy (`LoopRun.report`); `retry_policy` reads off it how
many attempts are made, the result, and the waits.
-/
import InferenceForge.Library.Retry
import InferenceForge.Pipeline.RetryOutcomes

namespace InferenceForge.Pipeline

open InferenceForge.Python InferenceForge.Library

set_option autoImplicit false

/-! ## The policy -/

/-- What an attempt decides: the record it returned, or that of its failure. -/
def decision (ticket : String) : Except Exn Dict → Option Dict
  | .ok record => some record
  | .error e =>
      match e.kind with
      | .circuitBreakerOpen => some (failureResult ticket "circuit_breaker_open")
      | .httpStatus code _ =>
          if code ∈ fatalStatusCodes then some (failureResult ticket s!"http_{code}") else none
      | _ => none

/-- The seconds a 429 says to wait for. -/
def retryAfterOf : Except Exn Dict → Option ℚ
  | .ok _ => none
  | .error e =>
      match e.kind with
      | .httpStatus code (some header) =>
          if code = 429 then
            match float header.toList with
            | some (.finite seconds) => some seconds
            | _ => none
          else none
      | _ => none

/-- The header, if there is one, is a decimal number that is not negative. -/
def Decimal (header : Option String) : Prop :=
  ∀ text ∈ header, ∃ seconds, float text.toList = some (.finite seconds) ∧ 0 ≤ seconds

/-- The ways of ending an attempt that the policy knows. -/
inductive Listed : Except Exn Dict → Prop
  | success (record : Dict) : Listed (.ok record)
  | rejected {e : Exn} (kind : e.kind = .circuitBreakerOpen) : Listed (.error e)
  | fatal {e : Exn} {code : ℕ} {header : Option String} (kind : e.kind = .httpStatus code header)
      (listed : code ∈ fatalStatusCodes) : Listed (.error e)
  | retryable {e : Exn} {code : ℕ} {header : Option String} (kind : e.kind = .httpStatus code header)
      (listed : code ∈ retryableStatusCodes) (number : code = 429 → Decimal header) : Listed (.error e)
  | malformed {e : Exn} (kind : e.kind = .jsonDecode) : Listed (.error e)
  | unexpected {e : Exn} {name : String} (kind : e.kind = .other name) : Listed (.error e)

/-- The waits of a trace. -/
def sleeps (trace : TicketTrace) : List Number :=
  trace.filterMap fun asked =>
    match asked.1 with
    | .sleep wait => some wait
    | _ => none

section Handler

variable {settings : Settings} {host : Host} {ticket : String} {w : TicketWorld} {n : ℕ} {e : Exn}
  {handled : TicketTrace} {ended : Except Exn (Option Dict)}

/-- The wait behind an attempt. -/
def waitBehind (settings : Settings) (w : TicketWorld) (n : ℕ) (outcome : Except Exn Dict) : ℚ :=
  (retryAfterOf outcome).getD (backoffForAttempt settings n * (1 + w.jitter n))

/-- The trace is what the world answers. -/
def TicketWorld.Answers (w : TicketWorld) (trace : TicketTrace) : Prop :=
  ∀ asked ∈ trace, w.answer asked.1 = some asked.2

theorem TicketWorld.answers_append {before after : TicketTrace} :
    w.Answers (before ++ after) ↔ w.Answers before ∧ w.Answers after :=
  List.forall_mem_append

theorem TicketWorld.answers_cons {asked : Asked TicketOp TicketAnswer} {rest : TicketTrace} :
    w.Answers (asked :: rest) ↔ w.answer asked.1 = some asked.2 ∧ w.Answers rest :=
  List.forall_mem_cons

theorem backoff_answered {waits : TicketTrace} {slept : Except Exn Unit}
    (ran : Runs (backoff settings n) waits slept) (answered : w.Answers waits) :
    sleeps waits = [.finite (backoffForAttempt settings n * (1 + w.jitter n))] ∧ slept = .ok () := by
  obtain ⟨jitter, rfl⟩ := backoff_runs ran
  obtain ⟨drawn, answered⟩ := TicketWorld.answers_cons.mp answered
  have woken := (TicketWorld.answers_cons.mp answered).1
  obtain rfl : w.jitter n = jitter := Option.some.inj drawn
  exact ⟨rfl, (Option.some.inj woken).symm⟩

theorem sleep_answered {waits : TicketTrace} {slept : Except Exn Unit} {seconds : ℚ}
    (ran : Runs (sleep (.finite seconds)) waits slept) (answered : w.Answers waits) :
    sleeps waits = [.finite seconds] ∧ slept = .ok () := by
  obtain ⟨answer, rfl, rfl⟩ := runs_call_iff.mp ran
  have woken := (TicketWorld.answers_cons.mp answered).1
  exact ⟨rfl, (Option.some.inj woken).symm⟩

/-- The wait behind a 429, if its `Retry-After` is a number. -/
theorem rateLimitWait_answered {header : Option String} {waits : TicketTrace} {slept : Except Exn Unit}
    (kind : e.kind = .httpStatus 429 header)
    (number : Decimal header)
    (ran : Runs (rateLimitWait settings host n header) waits slept) (answered : w.Answers waits) :
    sleeps waits = [.finite (waitBehind settings w n (.error e))] ∧ slept = .ok () := by
  unfold rateLimitWait at ran
  unfold waitBehind
  cases header with
  | none =>
      have unheaded : retryAfterOf (.error e) = none := by simp [retryAfterOf, kind]
      rw [unheaded, Option.getD_none]
      exact backoff_answered ran answered
  | some text =>
      obtain ⟨seconds, read, _⟩ := number text rfl
      have nonempty : text ≠ "" := by
        rintro rfl
        cases float_empty.symm.trans read
      have headed : retryAfterOf (.error e) = some seconds := by simp [retryAfterOf, kind, read]
      dsimp only at ran
      rw [if_pos nonempty, read] at ran
      rw [headed, Option.getD_some]
      exact sleep_answered ran answered

theorem not_fatal_of_retryable {code : ℕ} (listed : code ∈ retryableStatusCodes) : code ∉ fatalStatusCodes := by
  revert code
  decide

/-- Only a 429 says how long to wait. -/
theorem retryAfterOf_of_ne (other : ∀ header, e.kind ≠ .httpStatus 429 header) :
    retryAfterOf (.error e) = none := by
  unfold retryAfterOf
  dsimp only
  split
  · next code header kind =>
      refine if_neg fun same => ?_
      rw [same] at kind
      exact other _ kind
  · rfl

/-- A status that the policy knows is fatal or retryable. -/
theorem Listed.of_status {code : ℕ} {header : Option String} (listed : Listed (.error e))
    (kind : e.kind = .httpStatus code header) :
    code ∈ fatalStatusCodes ∨ (code ∈ retryableStatusCodes ∧ (code = 429 → Decimal header)) := by
  cases listed with
  | fatal kind' fatal =>
      cases kind.symm.trans kind'
      exact .inl fatal
  | retryable kind' retryable number =>
      cases kind.symm.trans kind'
      exact .inr ⟨retryable, number⟩
  | rejected kind' | malformed kind' | unexpected kind' => cases kind.symm.trans kind'

theorem Listed.isException {outcome : Except Exn Dict} (listed : Listed outcome) (raised : outcome = .error e) :
    e.isException = true := by
  cases listed with
  | success record => cases raised
  | rejected kind | fatal kind _ | retryable kind _ _ | malformed kind | unexpected kind =>
      cases raised
      simp only [Exn.isException, kind]

theorem Listed.decimal {header : Option String} (listed : Listed (.error e))
    (kind : e.kind = .httpStatus 429 header) : Decimal header := by
  rcases listed.of_status kind with fatal | ⟨_, number⟩
  · exact absurd fatal (by decide)
  · exact number rfl

theorem Listed.waitable (listed : Listed (.error e)) : Waitable w e := by
  intro header kind _
  obtain ⟨seconds, read, _⟩ := listed.decimal kind header rfl
  exact ⟨.finite seconds, read, rfl⟩

/-- What the handler does is what the policy says of the attempt. -/
theorem HandlerRun.follows (run : HandlerRun settings host ticket n e handled ended)
    (listed : Listed (.error e)) (answered : w.Answers handled) :
    (∃ result, decision ticket (.error e) = some result ∧ sleeps handled = [] ∧ ended = .ok (some result)) ∨
      (decision ticket (.error e) = none ∧ ended = .ok none ∧
        sleeps handled = if n < settings.maxRetries then [.finite (waitBehind settings w n (.error e))] else []) := by
  cases run with
  | rejected kind => exact .inl ⟨_, by simp [decision, kind], rfl, rfl⟩
  | fatal kind fatal => exact .inl ⟨_, by simp [decision, kind, fatal], rfl, rfl⟩
  | escaped kind =>
      have caught := listed.isException rfl
      simp only [Exn.isException, kind] at caught
      cases caught
  | passed kind mild spent =>
      have last : ¬ n < settings.maxRetries := by
        intro more
        rcases listed.of_status kind with fatal | ⟨retryable, _⟩
        · exact mild fatal
        · exact spent ⟨retryable, more⟩
      refine .inr ⟨by simp [decision, kind, mild], rfl, ?_⟩
      rw [if_neg last]
      rfl
  | limited kind more ran =>
      obtain ⟨waited, rfl⟩ :=
        rateLimitWait_answered kind (listed.decimal kind) ran (TicketWorld.answers_cons.mp answered).2
      refine .inr ⟨by simp [decision, kind, fatalStatusCodes], rfl, ?_⟩
      rw [if_pos more]
      exact waited
  | transient kind listed' other more ran =>
      obtain ⟨waited, rfl⟩ := backoff_answered ran (TicketWorld.answers_cons.mp answered).2
      have mild := not_fatal_of_retryable listed'
      have unheaded := retryAfterOf_of_ne (e := e) (fun _ same => by
        cases kind.symm.trans same
        exact other rfl)
      refine .inr ⟨by simp [decision, kind, mild], rfl, ?_⟩
      rw [if_pos more, waitBehind, unheaded]
      exact waited
  | retried kind ran =>
      have undecided : decision ticket (.error e) = none := by rcases kind with kind | ⟨_, kind⟩ <;> simp [decision, kind]
      have unheaded := retryAfterOf_of_ne (e := e) (fun _ same => by
        rcases kind with kind | ⟨_, kind⟩ <;> cases kind.symm.trans same)
      rcases runs_when_iff.mp ran with ⟨more, ran⟩ | ⟨last, rfl, rfl⟩
      · obtain ⟨waited, rfl⟩ := backoff_answered ran answered
        refine .inr ⟨undecided, rfl, ?_⟩
        rw [if_pos more, waitBehind, unheaded]
        exact waited
      · refine .inr ⟨undecided, rfl, ?_⟩
        rw [if_neg last]
        rfl

end Handler

/-! ## The loop follows it -/

section Loop

variable {settings : Settings} {host : Host} {ticket : String} {w : TicketWorld} {k n : ℕ}
  {rounds : List Round} {ended : Except Exn Dict}

/-- The wait behind an attempt of the world. -/
def TicketWorld.wait (settings : Settings) (host : Host) (w : TicketWorld) (n : ℕ) : ℚ :=
  waitBehind settings w n (w.attempt settings host n)

/-- The report of the policy: `n` attempts from the `k`-th on. -/
def policyReport (settings : Settings) (host : Host) (ticket : String) (w : TicketWorld) (k n : ℕ) :
    Report Dict ℚ :=
  retry (fun i => decision ticket (w.attempt settings host i)) (w.wait settings host)
    (failureResult ticket "max_retries_exceeded") k n

/-- What a round was: its number and the waits behind it. -/
def Round.entry (round : Round) : ℕ × List Number := (round.number, sleeps round.handled)

theorem called_answered {called : TicketTrace} {answer : Except Exn (Json × Json)}
    (ran : Runs (guarded settings n (singleApiCall settings host ticket n)) called answer)
    (answered : w.Answers called) : answer.bind withTokens = w.attempt settings host n := by
  have tried := outcome_of_runs (tryAttempt_runs_iff.mpr ⟨answer, ran, rfl⟩) answered
  rw [outcome_tryAttempt] at tried
  have same := Option.some.inj tried
  cases left : w.attempt settings host n <;> cases right : answer.bind withTokens <;>
    simp [left, right, Except.map] at same <;> rw [same]

/-- A failed attempt of the world, and what the handler does then. -/
theorem failed_follows {called handled : TicketTrace} {answer : Except Exn (Json × Json)} {e : Exn}
    {result : Except Exn (Option Dict)}
    (ran : Runs (guarded settings n (singleApiCall settings host ticket n)) called answer)
    (caught : answer.bind withTokens = .error e) (handling : Runs (onError settings host ticket n e) handled result)
    (listed : Listed (w.attempt settings host n)) (asked : w.Answers (called ++ handled)) :
    w.attempt settings host n = .error e ∧
      ((∃ record, decision ticket (w.attempt settings host n) = some record ∧ sleeps handled = [] ∧
          result = .ok (some record)) ∨
        (decision ticket (w.attempt settings host n) = none ∧ result = .ok none ∧
          sleeps handled = if n < settings.maxRetries then [.finite (w.wait settings host n)] else [])) := by
  obtain ⟨first, second⟩ := TicketWorld.answers_append.mp asked
  have attempted : w.attempt settings host n = .error e := (called_answered ran first).symm.trans caught
  refine ⟨attempted, ?_⟩
  rw [attempted] at listed
  rw [TicketWorld.wait, attempted]
  exact (onError_runs handling).follows listed second

theorem policyReport_of_decided {result : Dict}
    (decides : decision ticket (w.attempt settings host k) = some result) :
    policyReport settings host ticket w k (n + 1) = ⟨[(k, [])], result⟩ := by
  rw [policyReport, retry, decides]

theorem policyReport_of_undecided (undecided : decision ticket (w.attempt settings host k) = none) :
    policyReport settings host ticket w k (n + 1) =
      ⟨(k, if n = 0 then [] else [w.wait settings host k]) ::
        (policyReport settings host ticket w (k + 1) n).log, (policyReport settings host ticket w (k + 1) n).result⟩ := by
  rw [policyReport, retry, undecided]
  rfl

/-- **The loop does what the policy reports.** -/
theorem LoopRun.report (run : LoopRun settings host ticket (List.range' k n) rounds ended)
    (rest : k + n = settings.maxRetries + 1) (listed : ∀ i, Listed (w.attempt settings host i))
    (answered : w.Answers (rounds.flatMap Round.trace)) :
    ended = .ok (policyReport settings host ticket w k n).result ∧
      rounds.map Round.entry =
        (policyReport settings host ticket w k n).log.map (Prod.map id (List.map Number.finite)) ∧
      ∀ round ∈ rounds, round.answer.bind withTokens = w.attempt settings host round.number := by
  induction n generalizing k rounds with
  | zero =>
      cases run
      exact ⟨rfl, rfl, by simp⟩
  | succ n ih =>
      rw [List.range'_succ] at run
      cases run with
      | @returned _ _ called answer record ran merged =>
          have asked : w.Answers called := by simpa [Round.trace] using answered
          have met := called_answered ran asked
          have decides : decision ticket (w.attempt settings host k) = some record := by
            rw [← met, merged]
            rfl
          rw [policyReport_of_decided decides]
          exact ⟨rfl, rfl, by simpa using met⟩
      | @failed _ _ called handled answer e record ran caught handling =>
          have asked : w.Answers (called ++ handled) := by simpa [Round.trace] using answered
          obtain ⟨attempted, follows⟩ := failed_follows ran caught handling (listed k) asked
          rcases follows with ⟨result, decides, none_, same⟩ | ⟨_, goes, _⟩
          · cases same
            rw [policyReport_of_decided decides]
            exact ⟨rfl, by simp [Round.entry, none_], by simpa using caught.trans attempted.symm⟩
          · cases goes
      | @raised _ _ called handled answer e e' ran caught handling =>
          have asked : w.Answers (called ++ handled) := by simpa [Round.trace] using answered
          obtain ⟨_, ⟨_, _, _, impossible⟩ | ⟨_, impossible, _⟩⟩ := failed_follows ran caught handling (listed k) asked
          · cases impossible
          · cases impossible
      | @again _ _ called handled answer e rounds _ ran caught handling later =>
          rw [List.flatMap_cons] at answered
          obtain ⟨asked, others⟩ := TicketWorld.answers_append.mp answered
          obtain ⟨attempted, follows⟩ := failed_follows ran caught handling (listed k) asked
          rcases follows with ⟨_, _, _, impossible⟩ | ⟨undecided, _, waited⟩
          · cases impossible
          · obtain ⟨same, entries, outcomes⟩ := ih later (by omega) others
            rw [policyReport_of_undecided undecided]
            refine ⟨same, ?_, List.forall_mem_cons.mpr ⟨caught.trans attempted.symm, outcomes⟩⟩
            have entry : Round.entry ⟨k, called, answer, handled⟩ = (k, _) := congrArg (Prod.mk k) waited
            rw [List.map_cons, List.map_cons, entries, entry]
            -- an attempt is left behind this one exactly if it is not the last
            have more : k < settings.maxRetries ↔ ¬ n = 0 := by omega
            by_cases last : n = 0 <;> simp [last, more]

/-- What the policy promises of the rounds of a call and of how it ends. -/
structure FollowsPolicy (settings : Settings) (host : Host) (ticket : String) (w : TicketWorld)
    (rounds : List Round) (ended : Except Exn Dict) : Prop where
  numbered : rounds.map Round.number = List.range' 1 rounds.length
  attempted : ∀ round ∈ rounds, round.answer.bind withTokens = w.attempt settings host round.number
  /-- The `k`-th attempt is the first to decide. -/
  decided : ∀ k result, 1 ≤ k → (∀ j, 1 ≤ j → j < k → decision ticket (w.attempt settings host j) = none) →
    decision ticket (w.attempt settings host k) = some result →
    rounds.length = min k settings.maxRetries ∧
      ended = .ok (if k ≤ settings.maxRetries then result else failureResult ticket "max_retries_exceeded")
  undecided : (∀ k, 1 ≤ k → decision ticket (w.attempt settings host k) = none) →
    rounds.length = settings.maxRetries ∧ ended = .ok (failureResult ticket "max_retries_exceeded")
  last : ∀ round ∈ rounds, round.number = rounds.length → sleeps round.handled = []
  spaced : ∀ round ∈ rounds, round.number < rounds.length →
    ∃ wait, sleeps round.handled = [.finite wait] ∧
      (∀ seconds, retryAfterOf (w.attempt settings host round.number) = some seconds → wait = seconds) ∧
      (retryAfterOf (w.attempt settings host round.number) = none →
        4 / 5 * (settings.retryBackoffBase * 2 ^ (round.number - 1)) ≤ wait ∧
          wait ≤ 6 / 5 * (settings.retryBackoffBase * 2 ^ (round.number - 1)))
  total : (∀ round ∈ rounds, retryAfterOf (w.attempt settings host round.number) = none) →
    ∃ waits : List ℚ, (rounds.flatMap fun round => sleeps round.handled) = waits.map Number.finite ∧
      waits.sum ≤ 6 / 5 * settings.retryBackoffBase * (2 ^ (settings.maxRetries - 1) - 1)

/-- A wait of the loop's own choosing is within a fifth of the backoff. -/
theorem waitBehind_bounds {outcome : Except Exn Dict} (base : 0 ≤ settings.retryBackoffBase)
    (jitter : -(1 / 5) ≤ w.jitter n ∧ w.jitter n ≤ 1 / 5) (unheaded : retryAfterOf outcome = none) :
    4 / 5 * (settings.retryBackoffBase * 2 ^ (n - 1)) ≤ waitBehind settings w n outcome ∧
      waitBehind settings w n outcome ≤ 6 / 5 * (settings.retryBackoffBase * 2 ^ (n - 1)) := by
  have backoff_nonneg : 0 ≤ settings.retryBackoffBase * 2 ^ (n - 1) := by positivity
  rw [waitBehind, unheaded, Option.getD_none, backoffForAttempt]
  constructor
  · rw [mul_comm (4 / 5)]
    exact mul_le_mul_of_nonneg_left (by linarith [jitter.1]) backoff_nonneg
  · rw [mul_comm (6 / 5)]
    exact mul_le_mul_of_nonneg_left (by linarith [jitter.2]) backoff_nonneg

theorem policyReport_decided {result : Dict} (first : 1 ≤ k) (inside : k ≤ n)
    (before : ∀ j, 1 ≤ j → j < k → decision ticket (w.attempt settings host j) = none)
    (decides : decision ticket (w.attempt settings host k) = some result) :
    policyReport settings host ticket w 1 n = ⟨spacedLog (w.wait settings host) 1 (k - 1), result⟩ := by
  apply retry_of_decided
  · intro j le lt
    exact before j le (by omega)
  · rwa [Nat.add_sub_cancel' first]
  · omega

theorem policyReport_undecided
    (before : ∀ j, 1 ≤ j → j ≤ settings.maxRetries → decision ticket (w.attempt settings host j) = none) :
    policyReport settings host ticket w 1 settings.maxRetries =
      ⟨spacedLog (w.wait settings host) 1 (settings.maxRetries - 1), failureResult ticket "max_retries_exceeded"⟩ := by
  have some_ := settings.maxRetries_pos
  obtain ⟨n, bound⟩ : ∃ n, settings.maxRetries = n + 1 := ⟨settings.maxRetries - 1, by omega⟩
  rw [bound, Nat.add_sub_cancel]
  apply retry_of_undecided
  intro j le lt
  exact before j le (by omega)

theorem policyReport_log (settings : Settings) (host : Host) (ticket : String) (w : TicketWorld) :
    ∃ m < settings.maxRetries,
      (policyReport settings host ticket w 1 settings.maxRetries).log = spacedLog (w.wait settings host) 1 m := by
  have some_ := settings.maxRetries_pos
  obtain ⟨n, bound⟩ : ∃ n, settings.maxRetries = n + 1 := ⟨settings.maxRetries - 1, by omega⟩
  rw [bound]
  obtain ⟨m, le, shape⟩ := retry_log (fun i => decision ticket (w.attempt settings host i))
    (w.wait settings host) (failureResult ticket "max_retries_exceeded") 1 n
  exact ⟨m, Nat.lt_succ_of_le le, shape⟩

/-- The rounds have the entries of the log, with one wait between two of them. -/
def Logs (rounds : List Round) (log : List (ℕ × List ℚ)) : Prop :=
  rounds.map Round.entry = log.map (Prod.map id (List.map Number.finite))

section Logs

variable {wait : ℕ → ℚ} {m : ℕ}

theorem Logs.length (logs : Logs rounds (spacedLog wait 1 m)) : rounds.length = m + 1 := by
  have same := congrArg List.length logs
  simpa using same

theorem Logs.numbers (logs : Logs rounds (spacedLog wait 1 m)) :
    rounds.map Round.number = List.range' 1 rounds.length := by
  have same := congrArg (List.map Prod.fst) logs
  rw [List.map_map, List.map_map] at same
  rw [logs.length, ← spacedLog_numbers wait]
  exact same

theorem Logs.waits (logs : Logs rounds (spacedLog wait 1 m)) {round : Round} (member : round ∈ rounds) :
    sleeps round.handled = if round.number < rounds.length then [.finite (wait round.number)] else [] := by
  have inLog := List.mem_map_of_mem (f := Round.entry) member
  rw [logs] at inLog
  obtain ⟨⟨i, behind⟩, inLog, same⟩ := List.mem_map.mp inLog
  obtain ⟨rfl, waited⟩ := Prod.mk.inj same
  rw [← waited, mem_spacedLog inLog, logs.length, Nat.add_comm 1 m]
  show List.map Number.finite (if round.number < m + 1 then [wait round.number] else []) = _
  split <;> rfl

theorem Logs.flat (logs : Logs rounds (spacedLog wait 1 m)) :
    (rounds.flatMap fun round => sleeps round.handled) = ((List.range' 1 m).map wait).map Number.finite := by
  have flat := congrArg (List.flatMap Prod.snd) logs
  rw [List.flatMap_map, List.flatMap_map] at flat
  rw [← spacedLog_waits, List.map_flatMap]
  exact flat

end Logs

/-- What the report of the policy says of the rounds. -/
theorem followsPolicy_of_report (base : 0 ≤ settings.retryBackoffBase)
    (jitter : ∀ i, -(1 / 5) ≤ w.jitter i ∧ w.jitter i ≤ 1 / 5)
    (result : ended = .ok (policyReport settings host ticket w 1 settings.maxRetries).result)
    (logs : Logs rounds (policyReport settings host ticket w 1 settings.maxRetries).log)
    (outcomes : ∀ round ∈ rounds, round.answer.bind withTokens = w.attempt settings host round.number) :
    FollowsPolicy settings host ticket w rounds ended := by
  have some_ := settings.maxRetries_pos
  obtain ⟨m, le, shape⟩ := policyReport_log settings host ticket w
  have spaced : Logs rounds (spacedLog (w.wait settings host) 1 m) := shape ▸ logs
  refine ⟨spaced.numbers, outcomes, ?_, ?_, ?_, ?_, ?_⟩
  · intro k record first before decides
    by_cases inside : k ≤ settings.maxRetries
    · rw [policyReport_decided first inside before decides] at result logs
      have length := logs.length
      rw [if_pos inside]
      exact ⟨by omega, result⟩
    · rw [policyReport_undecided fun j le lt => before j le (by omega)] at result logs
      have length := logs.length
      rw [if_neg inside]
      exact ⟨by omega, result⟩
  · intro undecided
    rw [policyReport_undecided fun j le _ => undecided j le] at result logs
    have length := logs.length
    exact ⟨by omega, result⟩
  · intro round member last
    rw [spaced.waits member, if_neg (by omega)]
  · intro round member more
    refine ⟨w.wait settings host round.number, by rw [spaced.waits member, if_pos more], ?_, ?_⟩
    · intro seconds headed
      rw [TicketWorld.wait, waitBehind, headed, Option.getD_some]
    · exact waitBehind_bounds base (jitter _)
  · intro unheaded
    refine ⟨(List.range' 1 m).map (w.wait settings host), spaced.flat, ?_⟩
    have bounded : ∀ i, 1 ≤ i → i ≤ m → w.wait settings host i ≤ 6 / 5 * settings.retryBackoffBase * 2 ^ (i - 1) := by
      intro i ge le
      have made : i ∈ rounds.map Round.number := by
        rw [spaced.numbers, spaced.length, List.mem_range'_1]
        omega
      obtain ⟨round, member, rfl⟩ := List.mem_map.mp made
      rw [mul_assoc]
      exact (waitBehind_bounds base (jitter _) (unheaded round member)).2
    have grows : (2 : ℚ) ^ m ≤ 2 ^ (settings.maxRetries - 1) := pow_le_pow_right₀ (by norm_num) (by omega)
    calc ((List.range' 1 m).map (w.wait settings host)).sum
        ≤ 6 / 5 * settings.retryBackoffBase * (2 ^ m - 1) := sum_map_le_of_doubling bounded
      _ ≤ 6 / 5 * settings.retryBackoffBase * (2 ^ (settings.maxRetries - 1) - 1) :=
          mul_le_mul_of_nonneg_left (by linarith) (by positivity)

/-- **The retry loop matches its policy.** There is a run of it that the world answers and that
returns, and every run of it that the world answers follows the policy in its rounds. -/
theorem retry_policy (settings : Settings) (host : Host) (ticket : String) (w : TicketWorld)
    (base : 0 ≤ settings.retryBackoffBase) (jitter : ∀ i, -(1 / 5) ≤ w.jitter i ∧ w.jitter i ≤ 1 / 5)
    (listed : ∀ i, Listed (w.attempt settings host i)) :
    (∃ trace record, Runs (callWithRetry settings host ticket) trace (.ok record) ∧ w.Answers trace) ∧
      ∀ trace ended, Runs (callWithRetry settings host ticket) trace ended → w.Answers trace →
        (∃ rounds, RoundsOf settings host ticket trace ended rounds) ∧
        ∀ rounds, RoundsOf settings host ticket trace ended rounds →
          FollowsPolicy settings host ticket w rounds ended := by
  constructor
  · have caught : ∀ k e, w.attempt settings host k = .error e → e.isException = true :=
      fun k e raised => (listed k).isException raised
    have contained := (outcome_attempts_contained_iff ticket caught (Nat.add_comm _ _)).mpr
      fun j _ _ _ e raised => (raised ▸ listed j : Listed (.error e)).waitable
    obtain ⟨record, returned, _⟩ := contained
    obtain ⟨trace, ran, answered⟩ := outcome_runs returned
    exact ⟨trace, record, ran, answered⟩
  · intro trace ended ran answered
    refine ⟨callWithRetry_runs_iff.mp ran, fun rounds made => ?_⟩
    rw [made.made] at answered
    obtain ⟨result, entries, outcomes⟩ := made.run.report (Nat.add_comm _ _) listed answered
    exact followsPolicy_of_report base jitter result entries outcomes

end Loop

/-! ## Poles -/

section Poles

theorem rateLimited_listed (k : ℕ) : Listed ((rateLimited "2").attempt .defaults plainestHost k) := by
  rw [rateLimited_attempt]
  refine .retryable rfl (by decide) ?_
  rintro _ text ⟨⟩
  exact ⟨2, float_two, by norm_num⟩

/-- An attempt that is answered 429 with two seconds. -/
def limitedRound (n : ℕ) (waits : TicketTrace) : Round where
  number := n
  called := [⟨.admission n, true⟩, ⟨.post "help" n, (rateLimited "2").response n⟩]
  answer := .error (tooManyRequests "2")
  handled := countedStatus 429 :: waits

def twoSeconds : TicketTrace := [⟨.sleep (.finite 2), .ok ()⟩]

/-- Three attempts, with two seconds between two of them. -/
def limitedRounds : List Round := [limitedRound 1 twoSeconds, limitedRound 2 twoSeconds, limitedRound 3 []]

theorem limitedRound_called (n : ℕ) (waits : TicketTrace) :
    Runs (guarded .defaults n (singleApiCall .defaults plainestHost "help" n)) (limitedRound n waits).called
      (limitedRound n waits).answer :=
  guarded_runs_iff.mpr (CallRun.ran (.requested rfl ((rateLimited "2").response n)))

/-- Behind an attempt that is not the last, the handler waits for as long as it is told. -/
theorem limited_waits (n : ℕ) (more : n < 3) : Runs (onError .defaults plainestHost "help" n (tooManyRequests "2"))
    (countedStatus 429 :: twoSeconds) (.ok none) := by
  have told : rateLimitWait .defaults plainestHost n (some "2") = sleep (.finite 2) := by
    unfold rateLimitWait
    dsimp only
    rw [if_pos (by decide), float_two]
  have counted : recordApiCall (toString 429) (.number (.finite 0)) = await (.count (toString 429) (.finite 0)) := by
    rw [recordApiCall, incrementTokens_finite le_rfl overflow_pos]
  change Runs (recordApiCall (toString 429) (.number (.finite 0)) >>= fun _ =>
    if 429 ∈ fatalStatusCodes then _ else if 429 = 429 ∧ n < 3 then _ else _) _ _
  rw [counted, if_neg (by decide), if_pos ⟨rfl, more⟩, told]
  exact .ask (.ask (.done none))

theorem limitedRounds_run : LoopRun .defaults plainestHost "help" (List.range' 1 3) limitedRounds
    (.ok (failureResult "help" "max_retries_exceeded")) := by
  have last : Runs (onError .defaults plainestHost "help" 3 (tooManyRequests "2")) [countedStatus 429] (.ok none) :=
    .ask (.done none)
  exact .again (limitedRound_called 1 twoSeconds) rfl (limited_waits 1 (by decide))
    (.again (limitedRound_called 2 twoSeconds) rfl (limited_waits 2 (by decide))
      (.again (limitedRound_called 3 []) rfl last .exhausted))

/-- These are the answers of the world. -/
theorem limitedRounds_answered : (rateLimited "2").Answers (limitedRounds.flatMap Round.trace) := by
  intro asked member
  simp only [limitedRounds, limitedRound, Round.trace, twoSeconds, countedStatus, List.flatMap_cons, List.flatMap_nil,
    List.cons_append, List.nil_append, List.append_nil, List.mem_cons, List.not_mem_nil, or_false] at member
  rcases member with rfl | rfl | rfl | rfl | rfl | rfl | rfl | rfl | rfl | rfl | rfl <;> rfl

/-- Satisfiable pole: 429 with two seconds, always. -/
theorem retry_policy_seconds :
    Runs (callWithRetry .defaults plainestHost "help") (limitedRounds.flatMap Round.trace)
        (.ok (failureResult "help" "max_retries_exceeded")) ∧
      FollowsPolicy .defaults plainestHost "help" (rateLimited "2") limitedRounds
        (.ok (failureResult "help" "max_retries_exceeded")) := by
  have made : RoundsOf .defaults plainestHost "help" _ _ limitedRounds := ⟨limitedRounds_run, rfl⟩
  have ran := callWithRetry_runs_iff.mpr ⟨_, made⟩
  have policy := retry_policy .defaults plainestHost "help" (rateLimited "2") (by decide)
    (fun _ => ⟨by norm_num [rateLimited], by norm_num [rateLimited]⟩) rateLimited_listed
  exact ⟨ran, (policy.2 _ _ ran limitedRounds_answered).2 _ made⟩

end Poles

end InferenceForge.Pipeline
