/-
# InferenceForge.Pipeline.RetryHandlers — what an exception does to the loop

`HandlerRun` lists what the `except` clauses of `_call_with_retry` can do with an
exception: return a failure record, wait and go on, go on at once, or raise.

A status of neither list falls through all of them, and the loop goes on at once as
if the status could be retried. So only retryable statuses are retried, and a wait
stands between the attempts, exactly in the runs that meet such a status in the last
attempt at most (`retries_only_iff`); `not_found_retried` is a run that does not.
-/
import InferenceForge.Pipeline.RetryRuns

namespace InferenceForge.Pipeline

open InferenceForge.Python InferenceForge.Library

set_option autoImplicit false

/-! ## The handler -/

section Handler

variable (settings : Settings) (host : Host) (ticket : String) (n : ℕ) (e : Exn)

/-- A status is counted, without tokens. -/
def countedStatus (code : ℕ) : Asked TicketOp TicketAnswer := ⟨.count (toString code) (.finite 0), ()⟩

/-- The ways the `except` clauses can go. -/
inductive HandlerRun : TicketTrace → Except Exn (Option Dict) → Prop
  | rejected (kind : e.kind = .circuitBreakerOpen) :
      HandlerRun [] (.ok (some (failureResult ticket "circuit_breaker_open")))
  | fatal {code : ℕ} {header : Option String} (kind : e.kind = .httpStatus code header)
      (listed : code ∈ fatalStatusCodes) :
      HandlerRun [countedStatus code] (.ok (some (failureResult ticket s!"http_{code}")))
  | limited {header : Option String} {waits : TicketTrace} {slept : Except Exn Unit}
      (kind : e.kind = .httpStatus 429 header) (more : n < settings.maxRetries)
      (ran : Runs (rateLimitWait settings host n header) waits slept) :
      HandlerRun (countedStatus 429 :: waits) (slept.map fun _ => none)
  | transient {code : ℕ} {header : Option String} {waits : TicketTrace} {slept : Except Exn Unit}
      (kind : e.kind = .httpStatus code header) (listed : code ∈ retryableStatusCodes)
      (other : code ≠ 429) (more : n < settings.maxRetries)
      (ran : Runs (backoff settings n) waits slept) :
      HandlerRun (countedStatus code :: waits) (slept.map fun _ => none)
  /-- No clause of the handler applies. -/
  | passed {code : ℕ} {header : Option String} (kind : e.kind = .httpStatus code header)
      (mild : code ∉ fatalStatusCodes)
      (spent : ¬ (code ∈ retryableStatusCodes ∧ n < settings.maxRetries)) :
      HandlerRun [countedStatus code] (.ok none)
  | retried {waits : TicketTrace} {slept : Except Exn Unit}
      (kind : e.kind = .jsonDecode ∨ ∃ name, e.kind = .other name)
      (ran : Runs ((backoff settings n).when (n < settings.maxRetries)) waits slept) :
      HandlerRun waits (slept.map fun _ => none)
  | escaped {name : String} (kind : e.kind = .base name) : HandlerRun [] (.error e)

variable {settings host ticket n e} {trace : TicketTrace}

theorem then_none_runs {waits : Coroutine Unit} {ended : Except Exn (Option Dict)}
    (ran : Runs (waits >>= fun _ => (return none : Coroutine (Option Dict))) trace ended) :
    ∃ slept, Runs waits trace slept ∧ ended = slept.map fun _ => none := by
  rcases runs_bind_iff.mp ran with ⟨e', raised, rfl⟩ | ⟨_, before, after, rfl, slept, ended⟩
  · exact ⟨.error e', raised, rfl⟩
  · obtain ⟨rfl, rfl⟩ := runs_pure_iff.mp ended
    rw [List.append_nil]
    exact ⟨.ok (), slept, rfl⟩

theorem recordStatus_runs {code : ℕ} {result : Except Exn Unit}
    (ran : Runs (recordApiCall (toString code) (.number (.finite 0))) trace result) :
    trace = [countedStatus code] ∧ result = .ok () := by
  obtain ⟨rfl, rfl⟩ := recordApiCall_runs_iff.mp ran
  exact ⟨countOf_zero _, recorded_zero⟩

/-- **The runs of the handler** are those `HandlerRun` lists. -/
theorem onError_runs {ended : Except Exn (Option Dict)}
    (ran : Runs (onError settings host ticket n e) trace ended) :
    HandlerRun settings host ticket n e trace ended := by
  unfold onError at ran
  split at ran
  · next kind =>
      obtain ⟨rfl, rfl⟩ := runs_pure_iff.mp ran
      exact .rejected kind
  · next code header kind =>
      rcases runs_bind_iff.mp ran with ⟨_, raised, _⟩ | ⟨_, before, after, rfl, counted, rest⟩
      · cases (recordStatus_runs raised).2
      · obtain ⟨rfl, _⟩ := recordStatus_runs counted
        split at rest
        · next fatal =>
            obtain ⟨rfl, rfl⟩ := runs_pure_iff.mp rest
            exact .fatal kind fatal
        · next mild =>
            split at rest
            · next limited =>
                obtain ⟨rfl, more⟩ := limited
                obtain ⟨slept, waited, rfl⟩ := then_none_runs rest
                exact .limited kind more waited
            · next unlimited =>
                split at rest
                · next transient =>
                    obtain ⟨slept, waited, rfl⟩ := then_none_runs rest
                    have other : code ≠ 429 := fun same => unlimited ⟨same, transient.2⟩
                    exact .transient kind transient.1 other transient.2 waited
                · next spent =>
                    obtain ⟨rfl, rfl⟩ := runs_pure_iff.mp rest
                    exact .passed kind mild spent
  · next kind =>
      obtain ⟨slept, waited, rfl⟩ := then_none_runs ran
      exact .retried (.inl kind) waited
  · next name kind =>
      obtain ⟨slept, waited, rfl⟩ := then_none_runs ran
      exact .retried (.inr ⟨name, kind⟩) waited
  · next name kind =>
      obtain ⟨rfl, rfl⟩ := runs_raise_iff.mp ran
      exact .escaped kind

/-- A wait of the loop's own choosing. -/
theorem backoff_runs {result : Except Exn Unit} (ran : Runs (backoff settings n) trace result) :
    ∃ jitter : ℚ, trace = [⟨.uniform n, jitter⟩,
      ⟨.sleep (.finite (backoffForAttempt settings n * (1 + jitter))), result⟩] := by
  obtain ⟨jitter, rest, rfl, slept⟩ := runs_perform_bind_iff.mp ran
  obtain ⟨answer, rfl, same⟩ := runs_call_iff.mp slept
  exact ⟨jitter, by rw [same]; rfl⟩

/-- A backoff wait, with its jitter, ends the trace. -/
def BackedOff (settings : Settings) (n : ℕ) (trace : TicketTrace) : Prop :=
  ∃ (counted : TicketTrace) (jitter : ℚ), trace = counted ++ [⟨.uniform n, jitter⟩,
    ⟨.sleep (.finite (backoffForAttempt settings n * (1 + jitter))), .ok ()⟩]

/-- What the handler does with an HTTP error: it returns a failure record, it waits
unless a `Retry-After` says how long or the wait is cut short, or it goes on at once. -/
theorem HandlerRun.of_status {code : ℕ} {header : Option String} {ended : Except Exn (Option Dict)}
    (run : HandlerRun settings host ticket n e trace ended) (kind : e.kind = .httpStatus code header) :
    (code ∈ fatalStatusCodes ∧ ∃ record, ended = .ok (some record)) ∨
      (code ∈ retryableStatusCodes ∧ n < settings.maxRetries ∧ (∀ record, ended ≠ .ok (some record)) ∧
        (header = none → ended = .ok none → BackedOff settings n trace)) ∨
      (code ∉ fatalStatusCodes ∧ ¬ (code ∈ retryableStatusCodes ∧ n < settings.maxRetries) ∧
        ended = .ok none) := by
  have waited : ∀ {waits slept}, Runs (backoff settings n) waits slept →
      slept.map (fun _ => (none : Option Dict)) = .ok none → BackedOff settings n (countedStatus code :: waits) := by
    intro waits slept ran awake
    obtain rfl : slept = .ok () := by cases slept <;> cases awake; rfl
    obtain ⟨jitter, rfl⟩ := backoff_runs ran
    exact ⟨[countedStatus code], jitter, rfl⟩
  have unreturned : ∀ (slept : Except Exn Unit) (record : Dict),
      slept.map (fun _ => none) ≠ .ok (some record) := by
    intro slept record returned
    cases slept <;> cases returned
  cases run with
  | rejected kind' => cases kind.symm.trans kind'
  | fatal kind' listed =>
      cases kind.symm.trans kind'
      exact .inl ⟨listed, _, rfl⟩
  | limited kind' more ran =>
      cases kind.symm.trans kind'
      refine .inr (.inl ⟨by decide, more, unreturned _, ?_⟩)
      rintro rfl awake
      exact waited ran awake
  | transient kind' listed other more ran =>
      cases kind.symm.trans kind'
      exact .inr (.inl ⟨listed, more, unreturned _, fun _ => waited ran⟩)
  | passed kind' mild spent =>
      cases kind.symm.trans kind'
      exact .inr (.inr ⟨mild, spent, rfl⟩)
  | retried kind' ran => rcases kind' with kind' | ⟨_, kind'⟩ <;> cases kind.symm.trans kind'
  | escaped kind' => cases kind.symm.trans kind'

end Handler

/-! ## Which statuses are retried -/

section Retried

variable {settings : Settings} {host : Host} {ticket : String} {rounds before after : List Round}
  {round next : Round} {result : Except Exn Dict} {k n : ℕ}

/-- The attempt ended with an HTTP error. -/
def Round.FailedWith (round : Round) (code : ℕ) (header : Option String) : Prop :=
  ∃ e, round.answer = .error e ∧ e.kind = .httpStatus code header

/-- An attempt that ended with a status that is not retryable is the last, and nothing
is requested after it. Behind an HTTP error without a `Retry-After`, the next attempt
waits. -/
structure RetriesOnly (settings : Settings) (rounds : List Round) : Prop where
  last : ∀ before round after code header, rounds = before ++ round :: after →
    round.FailedWith code header → code ∉ retryableStatusCodes →
      after = [] ∧ ∀ ticket attempt response, ⟨.post ticket attempt, response⟩ ∉ round.handled
  spaced : ∀ before round next after code, rounds = before ++ round :: next :: after →
    round.FailedWith code none → BackedOff settings round.number round.handled

/-- What follows in a run is the run of the attempts that were left. -/
theorem LoopRun.suffix (run : LoopRun settings host ticket (List.range' k n) (before ++ round :: after) result) :
    ∃ m, n = before.length + (m + 1) ∧ round.number = k + before.length ∧
      LoopRun settings host ticket (List.range' round.number (m + 1)) (round :: after) result := by
  induction before generalizing k n with
  | nil =>
      cases n with
      | zero => cases run
      | succ n =>
          have first : round.number = k := by cases run <;> rfl
          rw [List.nil_append, ← first] at run
          exact ⟨n, by simp, first, run⟩
  | cons earlier before ih =>
      cases n with
      | zero =>
          generalize split : earlier :: before ++ round :: after = rest at run
          cases run
          simp at split
      | succ n =>
          -- an earlier attempt was not the last
          have later : LoopRun settings host ticket (List.range' (k + 1) n) (before ++ round :: after) result := by
            rw [List.cons_append, List.range'_succ] at run
            generalize split : before ++ round :: after = rest at run ⊢
            cases run with
            | returned ran merged => simp at split
            | failed ran caught ended => simp at split
            | raised ran caught ended => simp at split
            | again ran caught ended later => exact later
          obtain ⟨m, left, number, run'⟩ := ih later
          refine ⟨m, ?_, ?_, run'⟩
          · rw [left, List.length_cons]
            omega
          · rw [number, List.length_cons]
            omega

theorem Round.FailedWith.caught {code : ℕ} {header : Option String} (failed : round.FailedWith code header) :
    ∃ e, round.answer.bind withTokens = .error e ∧ e.kind = .httpStatus code header := by
  obtain ⟨e, answer, kind⟩ := failed
  exact ⟨e, by rw [answer]; rfl, kind⟩

/-- What follows a round that has ended with an HTTP error: nothing, an attempt after a
wait, or one at once. -/
theorem LoopRun.after_status {code : ℕ} {header : Option String}
    (run : LoopRun settings host ticket (List.range' round.number (n + 1)) (round :: after) result)
    (failed : round.FailedWith code header) :
    (code ∈ fatalStatusCodes ∧ after = []) ∨
      (code ∈ retryableStatusCodes ∧
        (after ≠ [] → header = none → BackedOff settings round.number round.handled)) ∨
      (code ∉ fatalStatusCodes ∧ ¬ (code ∈ retryableStatusCodes ∧ round.number < settings.maxRetries) ∧
        LoopRun settings host ticket (List.range' (round.number + 1) n) after result) := by
  obtain ⟨number, called, answer, handled⟩ := round
  obtain ⟨e, caught, kind⟩ := failed.caught
  -- the exception that the handler of the round has caught
  have same : ∀ {e'}, answer.bind withTokens = .error e' → e' = e := by
    intro e' caught'
    cases caught'.symm.trans caught
    rfl
  simp only [List.range'_succ] at run
  cases run with
  | returned ran merged => cases merged.symm.trans caught
  | failed ran caught' ended =>
      obtain rfl := same caught'
      rcases (onError_runs ended).of_status kind with ⟨fatal, _⟩ | ⟨_, _, waits, _⟩ | ⟨_, _, goes⟩
      · exact .inl ⟨fatal, rfl⟩
      · exact absurd rfl (waits _)
      · cases goes
  | raised ran caught' ended =>
      obtain rfl := same caught'
      rcases (onError_runs ended).of_status kind with ⟨_, _, returned⟩ | ⟨listed, _⟩ | ⟨_, _, goes⟩
      · cases returned
      · exact .inr (.inl ⟨listed, fun some => absurd rfl some⟩)
      · cases goes
  | again ran caught' ended later =>
      obtain rfl := same caught'
      rcases (onError_runs ended).of_status kind with ⟨_, _, returned⟩ | ⟨listed, _, _, waited⟩ | ⟨mild, spent, _⟩
      · cases returned
      · exact .inr (.inl ⟨listed, fun _ unheaded => waited unheaded rfl⟩)
      · exact .inr (.inr ⟨mild, spent, later⟩)

/-- The handler of a round requests nothing. -/
theorem Round.Handled.no_post (handled : round.Handled) {asked : String} {attempt : ℕ}
    {response : Except Exn Response} : ⟨.post asked attempt, response⟩ ∉ round.handled := by
  rcases handled with ⟨_, _, none_⟩ | ⟨e, waits, _, shape, idle⟩
  · simp [none_]
  · rw [shape, List.mem_append, not_or]
    exact ⟨post_notMem_statusCount e, fun member => (idle _ member).elim⟩

/-- Every attempt before the last that fails with a status fails with one of the two lists. -/
def FailsAsListed (settings : Settings) (rounds : List Round) : Prop :=
  ∀ round ∈ rounds, ∀ code header, round.FailedWith code header → round.number < settings.maxRetries →
    code ∈ fatalStatusCodes ∨ code ∈ retryableStatusCodes

theorem LoopRun.retries_iff
    (run : LoopRun settings host ticket (List.range' 1 settings.maxRetries) rounds result) :
    RetriesOnly settings rounds ↔ FailsAsListed settings rounds := by
  constructor
  · intro retries round member code header failed more
    obtain ⟨before, after, rfl⟩ := List.append_of_mem member
    obtain ⟨m, left, number, suffix⟩ := run.suffix
    rcases suffix.after_status failed with ⟨fatal, _⟩ | ⟨listed, _⟩ | ⟨_, _, later⟩
    · exact .inl fatal
    · exact .inr listed
    · by_contra unlisted
      obtain ⟨rfl, _⟩ := retries.last before round after code header rfl failed fun listed =>
        unlisted (.inr listed)
      -- another attempt was left, and it was made
      obtain ⟨m, rfl⟩ : ∃ m', m = m' + 1 := ⟨m - 1, by omega⟩
      cases later
  · intro listed
    constructor
    · rintro before round after code header rfl failed unretryable
      obtain ⟨m, left, number, suffix⟩ := run.suffix
      have handled := (run.round round (by simp)).2
      refine ⟨?_, fun _ _ _ => handled.no_post⟩
      rcases suffix.after_status failed with ⟨_, last⟩ | ⟨retryable, _⟩ | ⟨mild, _, later⟩
      · exact last
      · exact absurd retryable unretryable
      · by_cases more : round.number < settings.maxRetries
        · rcases listed round (by simp) code header failed more with fatal | retryable
          · exact absurd fatal mild
          · exact absurd retryable unretryable
        · obtain rfl : m = 0 := by omega
          cases later
          rfl
    · rintro before round next after code rfl failed
      obtain ⟨m, left, number, suffix⟩ := run.suffix
      rcases suffix.after_status failed with ⟨_, impossible⟩ | ⟨_, waited⟩ | ⟨mild, spent, later⟩
      · cases impossible
      · exact waited (List.cons_ne_nil _ _) rfl
      · -- the status is of neither list, so this was the last attempt
        have last : ¬ round.number < settings.maxRetries := by
          intro more
          rcases listed round (by simp) code none failed more with fatal | retryable
          · exact mild fatal
          · exact spent ⟨retryable, more⟩
        obtain rfl : m = 0 := by omega
        cases later

/-- **Only retryable statuses are retried** exactly in the runs of the call in which every
attempt before the last that fails with a status fails with one of the two lists. -/
theorem retries_only_iff {trace : TicketTrace} (ran : Runs (callWithRetry settings host ticket) trace result) :
    (∃ rounds, RoundsOf settings host ticket trace result rounds) ∧
      ∀ rounds, RoundsOf settings host ticket trace result rounds →
        (RetriesOnly settings rounds ↔ FailsAsListed settings rounds) :=
  ⟨callWithRetry_runs_iff.mp ran, fun _ made => made.run.retries_iff⟩

end Retried

/-! ## Poles -/

section Poles

/-- A response that is a status and nothing else. -/
def statusOnly (code : ℕ) : Response where
  statusCode := code
  retryAfter := none
  json := .ok .null

/-- A host whose functions are not asked here. -/
def plainestHost : Host where
  lower := id
  repr := id
  sha256 := id
  loads _ := .ok .null

/-- An attempt that is answered with a status. -/
def statusRound (n code : ℕ) (waits : TicketTrace) : Round where
  number := n
  called := [⟨.admission n, true⟩, ⟨.post "help" n, .ok (statusOnly code)⟩]
  answer := (statusOnly code).read plainestHost
  handled := countedStatus code :: waits

theorem statusRound_called {n code : ℕ}
    (failure : (statusOnly code).statusCode < 200 ∨ 300 ≤ (statusOnly code).statusCode) (waits : TicketTrace) :
    Runs (guarded .defaults n (singleApiCall .defaults plainestHost "help" n))
      (statusRound n code waits).called (statusRound n code waits).answer := by
  have called := CallRun.ran (@SingleRun.requested .defaults plainestHost "help" n rfl (.ok (statusOnly code)))
  obtain ⟨same, raised⟩ : Response.parsed plainestHost _ = _ ∧ _ := read_of_failure failure
  have unread : successCount (Except.bind (.ok (statusOnly code)) (Response.parsed plainestHost)) = [] := by
    show successCount (Response.parsed plainestHost (statusOnly code)) = []
    rw [same, raised]
    rfl
  rw [unread] at called
  exact guarded_runs_iff.mpr called

theorem statusRound_fails (n : ℕ) {code : ℕ}
    (failure : (statusOnly code).statusCode < 200 ∨ 300 ≤ (statusOnly code).statusCode) (waits : TicketTrace) :
    (statusRound n code waits).FailedWith code none :=
  ⟨{ kind := .httpStatus code none, message := s!"HTTP status {code}" }, (read_of_failure failure).2, rfl⟩

/-- The second attempt is answered with 400, which is fatal. -/
def badRequest : Round := statusRound 2 400 []

theorem badRequest_run : LoopRun .defaults plainestHost "help" [2, 3] [badRequest]
    (.ok (failureResult "help" "http_400")) :=
  .failed (statusRound_called (by decide) []) rfl (.ask (.done _))

/-- **Refuting pole.** A 404 is retried, and at once: the second attempt sends another
request, with no wait before it. -/
theorem not_found_retried :
    Runs (callWithRetry .defaults plainestHost "help") ([statusRound 1 404 [], badRequest].flatMap Round.trace)
        (.ok (failureResult "help" "http_400")) ∧
      LoopRun .defaults plainestHost "help" (List.range' 1 3) [statusRound 1 404 [], badRequest]
        (.ok (failureResult "help" "http_400")) ∧
      (statusRound 1 404 []).FailedWith 404 none ∧ 404 ∉ retryableStatusCodes ∧
      ⟨.post "help" 2, .ok (statusOnly 400)⟩ ∈ badRequest.trace ∧
      ¬ RetriesOnly .defaults [statusRound 1 404 [], badRequest] := by
  have failed : (statusRound 1 404 []).FailedWith 404 none := statusRound_fails 1 (by decide) []
  have run : LoopRun .defaults plainestHost "help" (List.range' 1 3) [statusRound 1 404 [], badRequest]
      (.ok (failureResult "help" "http_400")) :=
    .again (statusRound_called (by decide) []) rfl (.ask (.done _)) badRequest_run
  refine ⟨callWithRetry_runs_iff.mpr ⟨_, run, rfl⟩, run, failed, by decide, by simp [badRequest, statusRound, Round.trace], fun retries => ?_⟩
  have last := (retries.last [] _ [badRequest] 404 none rfl failed (by decide)).1
  cases last

/-- The wait after a 503, with no jitter. -/
def firstWait : TicketTrace :=
  [⟨.uniform 1, (0 : ℚ)⟩, ⟨.sleep (.finite (backoffForAttempt .defaults 1 * (1 + 0))), .ok ()⟩]

/-- Satisfiable pole: a 503 is retried after a wait. -/
theorem retries_only_iff_unavailable :
    Runs (callWithRetry .defaults plainestHost "help") ([statusRound 1 503 firstWait, badRequest].flatMap Round.trace)
        (.ok (failureResult "help" "http_400")) ∧
      RetriesOnly .defaults [statusRound 1 503 firstWait, badRequest] := by
  have run : LoopRun .defaults plainestHost "help" (List.range' 1 3) [statusRound 1 503 firstWait, badRequest]
      (.ok (failureResult "help" "http_400")) :=
    .again (statusRound_called (by decide) firstWait) rfl (.ask (.ask (.ask (.done _)))) badRequest_run
  have made : RoundsOf .defaults plainestHost "help" _ _ [statusRound 1 503 firstWait, badRequest] := ⟨run, rfl⟩
  have ran := callWithRetry_runs_iff.mpr ⟨_, made⟩
  refine ⟨ran, ((retries_only_iff ran).2 _ made).mpr ?_⟩
  intro round member code header failed _
  have codes : ∀ {n code'} {waits : TicketTrace},
      ((statusOnly code').statusCode < 200 ∨ 300 ≤ (statusOnly code').statusCode) →
      (statusRound n code' waits).FailedWith code header → code = code' := by
    rintro n code' waits failure ⟨e, answered, kind⟩
    obtain ⟨e', answered', kind'⟩ := statusRound_fails n failure waits
    cases answered.symm.trans answered'
    cases kind.symm.trans kind'
    rfl
  simp only [List.mem_cons, List.not_mem_nil, or_false] at member
  rcases member with rfl | rfl
  · rw [codes (by decide) failed]
    exact .inr (by decide)
  · rw [codes (by decide) failed]
    exact .inl (by decide)

end Poles

end InferenceForge.Pipeline
