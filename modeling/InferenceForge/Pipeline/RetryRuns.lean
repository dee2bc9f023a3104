/-
# InferenceForge.Pipeline.RetryRuns — the attempts of a call

A run of `callWithRetry` is a run of rounds (`Round`): the guarded call of an
attempt, and what its `except` clause did. `LoopRun` lists the ways the loop can
go, and `callWithRetry_runs_iff` says that there are no others. `CallRun` lists
what the guarded call of one attempt can do: it is rejected, it is answered by the
mock, or it makes one request.

What is counted can be read off a round: a success is counted behind the response
it was read from (`successCount`), a status by the handler of its exception
(`statusCount`).
-/
import InferenceForge.Pipeline.TicketRuns
import InferenceForge.Pipeline.TicketWorld

namespace InferenceForge.Pipeline

open InferenceForge.Python InferenceForge.Library

set_option autoImplicit false

/-- An attempt of the loop: its number, what its call performed and how the call
ended, and what its `except` clause performed. -/
structure Round where
  number : ℕ
  called : TicketTrace
  answer : Except Exn (Json × Json)
  handled : TicketTrace

def Round.trace (round : Round) : TicketTrace := round.called ++ round.handled

section Loop

variable (settings : Settings) (host : Host) (ticket : String)

/-- The runs of the loop: it ends with the first result, failure record or
exception of a handler, and else when no attempt is left. -/
inductive LoopRun : List ℕ → List Round → Except Exn Dict → Prop
  | exhausted : LoopRun [] [] (.ok (failureResult ticket "max_retries_exceeded"))
  | returned {n : ℕ} {rest : List ℕ} {called : TicketTrace} {answer : Except Exn (Json × Json)}
      {record : Dict} (ran : Runs (guarded settings n (singleApiCall settings host ticket n)) called answer)
      (merged : answer.bind withTokens = .ok record) :
      LoopRun (n :: rest) [⟨n, called, answer, []⟩] (.ok record)
  | failed {n : ℕ} {rest : List ℕ} {called handled : TicketTrace} {answer : Except Exn (Json × Json)}
      {e : Exn} {record : Dict}
      (ran : Runs (guarded settings n (singleApiCall settings host ticket n)) called answer)
      (caught : answer.bind withTokens = .error e)
      (ended : Runs (onError settings host ticket n e) handled (.ok (some record))) :
      LoopRun (n :: rest) [⟨n, called, answer, handled⟩] (.ok record)
  | raised {n : ℕ} {rest : List ℕ} {called handled : TicketTrace} {answer : Except Exn (Json × Json)}
      {e e' : Exn} (ran : Runs (guarded settings n (singleApiCall settings host ticket n)) called answer)
      (caught : answer.bind withTokens = .error e)
      (ended : Runs (onError settings host ticket n e) handled (.error e')) :
      LoopRun (n :: rest) [⟨n, called, answer, handled⟩] (.error e')
  | again {n : ℕ} {rest : List ℕ} {called handled : TicketTrace} {answer : Except Exn (Json × Json)}
      {e : Exn} {rounds : List Round} {result : Except Exn Dict}
      (ran : Runs (guarded settings n (singleApiCall settings host ticket n)) called answer)
      (caught : answer.bind withTokens = .error e)
      (ended : Runs (onError settings host ticket n e) handled (.ok none))
      (later : LoopRun rest rounds result) :
      LoopRun (n :: rest) (⟨n, called, answer, handled⟩ :: rounds) result

variable {settings host ticket} {n : ℕ} {trace : TicketTrace}

theorem tryAttempt_runs_iff {result : Except Exn (Option Dict)} :
    Runs (tryAttempt settings host ticket n) trace result ↔
      ∃ answer, Runs (guarded settings n (singleApiCall settings host ticket n)) trace answer ∧
        result = (answer.bind withTokens).map some := by
  unfold tryAttempt
  rw [runs_bind_iff]
  constructor
  · rintro (⟨e, raised, rfl⟩ | ⟨⟨value, tokens⟩, before, after, rfl, called, merged⟩)
    · exact ⟨.error e, raised, rfl⟩
    · refine ⟨.ok (value, tokens), ?_, ?_⟩
      · cases value <;> simp_all
      · cases value <;> simp_all [Except.bind, withTokens, Except.map]
  · rintro ⟨answer, called, rfl⟩
    cases answer with
    | error e => exact .inl ⟨e, called, rfl⟩
    | ok value =>
        obtain ⟨value, tokens⟩ := value
        refine .inr ⟨(value, tokens), trace, [], (List.append_nil _).symm, called, ?_⟩
        cases value <;> simp [Except.bind, withTokens, Except.map]

theorem tryAttempt_ok_iff {ended : Option Dict} :
    Runs (tryAttempt settings host ticket n) trace (.ok ended) ↔
      ∃ answer record, Runs (guarded settings n (singleApiCall settings host ticket n)) trace answer ∧
        answer.bind withTokens = .ok record ∧ ended = some record := by
  rw [tryAttempt_runs_iff]
  constructor
  · rintro ⟨answer, ran, same⟩
    cases merged : answer.bind withTokens with
    | error e => simp [merged, Except.map] at same
    | ok record =>
        rw [merged] at same
        exact ⟨answer, record, ran, merged, Except.ok.inj same⟩
  · rintro ⟨answer, record, ran, merged, rfl⟩
    exact ⟨answer, ran, by rw [merged]; rfl⟩

theorem tryAttempt_error_iff {e : Exn} :
    Runs (tryAttempt settings host ticket n) trace (.error e) ↔
      ∃ answer, Runs (guarded settings n (singleApiCall settings host ticket n)) trace answer ∧
        answer.bind withTokens = .error e := by
  rw [tryAttempt_runs_iff]
  constructor
  · rintro ⟨answer, ran, same⟩
    cases merged : answer.bind withTokens with
    | error e' =>
        rw [merged] at same
        cases same
        exact ⟨answer, ran, merged⟩
    | ok record => simp [merged, Except.map] at same
  · rintro ⟨answer, ran, caught⟩
    exact ⟨answer, ran, by rw [caught]; rfl⟩

/-- **The runs of the loop** are those `LoopRun` lists. -/
theorem attempts_runs_iff {numbers : List ℕ} {result : Except Exn Dict} :
    Runs (attempts settings host ticket numbers) trace result ↔
      ∃ rounds, LoopRun settings host ticket numbers rounds result ∧
        trace = rounds.flatMap Round.trace := by
  induction numbers generalizing trace with
  | nil =>
      rw [attempts, runs_pure_iff]
      constructor
      · rintro ⟨rfl, rfl⟩
        exact ⟨[], .exhausted, rfl⟩
      · rintro ⟨rounds, run, rfl⟩
        cases run
        exact ⟨rfl, rfl⟩
  | cons n rest ih =>
      rw [attempts, runs_bind_iff]
      simp only [runs_rescue_iff, tryAttempt_ok_iff, tryAttempt_error_iff]
      constructor
      · rintro (⟨e', ⟨_, _, impossible⟩ | ⟨e, called, handled, rfl, ⟨answer, ran, caught⟩, ended⟩, rfl⟩ |
          ⟨ended', before, after, rfl, ⟨_, ⟨answer, record, ran, merged, rfl⟩, same⟩ |
            ⟨e, called, handled, rfl, ⟨answer, ran, caught⟩, ended⟩, goes⟩)
        · cases impossible
        · exact ⟨_, .raised ran caught ended, by simp [Round.trace]⟩
        · cases same
          obtain ⟨rfl, rfl⟩ := runs_pure_iff.mp goes
          exact ⟨_, .returned ran merged, by simp [Round.trace]⟩
        · cases ended' with
          | some record =>
              obtain ⟨rfl, rfl⟩ := runs_pure_iff.mp goes
              exact ⟨_, .failed ran caught ended, by simp [Round.trace]⟩
          | none =>
              obtain ⟨rounds, later, rfl⟩ := ih.mp goes
              exact ⟨_, .again ran caught ended later, by simp [Round.trace]⟩
      · rintro ⟨rounds, run, rfl⟩
        cases run with
        | returned ran merged =>
            right
            refine ⟨some _, _, [], (List.append_nil _).symm, ?_, runs_pure_iff.mpr ⟨rfl, rfl⟩⟩
            exact .inl ⟨_, ⟨_, _, by simpa [Round.trace] using ran, merged, rfl⟩, rfl⟩
        | failed ran caught ended =>
            right
            refine ⟨some _, _, [], (List.append_nil _).symm, ?_, runs_pure_iff.mpr ⟨rfl, rfl⟩⟩
            exact .inr ⟨_, _, _, by simp [Round.trace], ⟨_, ran, caught⟩, ended⟩
        | raised ran caught ended =>
            left
            exact ⟨_, .inr ⟨_, _, _, by simp [Round.trace], ⟨_, ran, caught⟩, ended⟩, rfl⟩
        | again ran caught ended later =>
            right
            refine ⟨none, _, _, List.flatMap_cons, ?_, ih.mpr ⟨_, later, rfl⟩⟩
            exact .inr ⟨_, _, _, rfl, ⟨_, ran, caught⟩, ended⟩

variable (settings host ticket trace) in
/-- The rounds of a run of `_call_with_retry`. -/
structure RoundsOf (result : Except Exn Dict) (rounds : List Round) : Prop where
  run : LoopRun settings host ticket (List.range' 1 settings.maxRetries) rounds result
  made : trace = rounds.flatMap Round.trace

/-- Every run has rounds, and rounds make a run. -/
theorem callWithRetry_runs_iff {result : Except Exn Dict} :
    Runs (callWithRetry settings host ticket) trace result ↔
      ∃ rounds, RoundsOf settings host ticket trace result rounds := by
  rw [callWithRetry, attempts_runs_iff]
  exact exists_congr fun _ => ⟨fun ⟨run, made⟩ => ⟨run, made⟩, fun ⟨run, made⟩ => ⟨run, made⟩⟩

end Loop

/-! ## The call of an attempt -/

section Call

variable (settings : Settings) (host : Host) (ticket : String) (n : ℕ)

/-- What `record_api_call` counts. -/
def countOf (status : String) (tokenCount : Json) : TicketTrace :=
  match incrementTokens tokenCount with
  | .ok tokens => [⟨.count status tokens, ()⟩]
  | .error _ => [⟨.countStatus status, ()⟩]

theorem countOf_zero (status : String) : countOf status (.number (.finite 0)) = [⟨.count status (.finite 0), ()⟩] := by
  rw [countOf, incrementTokens_finite le_rfl overflow_pos]

/-- What is counted once a response was parsed. -/
def successCount : Except Exn (Json × Json) → TicketTrace
  | .ok answer => countOf "success" answer.2
  | .error _ => []

/-- The decision of the circuit breaker, where it is asked. -/
def admitted : TicketTrace := if settings.cbEnabled then [⟨.admission n, true⟩] else []

/-- The throttle, where there is one. -/
def throttled : TicketTrace := if 0 < settings.sarvamMinIntervalMs then [⟨.throttle n, ()⟩] else []

/-- The runs of `_single_api_call`: the mock answers, or a request is made. -/
inductive SingleRun : TicketTrace → Except Exn (Json × Json) → Prop
  | mocked (mock : settings.sarvamMockMode = true) {waits : TicketTrace} {slept : Except Exn Unit}
      (ran : Runs ((sleep (.finite (settings.sarvamMockLatencyMs / 1000))).when
        (0 < settings.sarvamMockLatencyMs)) waits slept) :
      SingleRun waits (slept.map fun _ => (.object mockClassification, .number (.finite 0)))
  | requested (real : settings.sarvamMockMode = false) (response : Except Exn Response) :
      SingleRun
        (throttled settings n ++ ⟨.post ticket n, response⟩ ::
          successCount (response.bind (Response.parsed host)))
        (response.bind (Response.read host))

/-- The runs of the guarded call: the breaker rejects it or lets it run. -/
inductive CallRun : TicketTrace → Except Exn (Json × Json) → Prop
  | rejected (enabled : settings.cbEnabled = true) :
      CallRun [⟨.admission n, false⟩]
        (.error { kind := .circuitBreakerOpen, message := "Circuit breaker is OPEN." })
  | ran {inner : TicketTrace} {answer : Except Exn (Json × Json)}
      (run : SingleRun settings host ticket n inner answer) : CallRun (admitted settings n ++ inner) answer

variable {settings host ticket n} {trace : TicketTrace}

theorem recordApiCall_runs_iff {status : String} {tokenCount : Json} {result : Except Exn Unit} :
    Runs (recordApiCall status tokenCount) trace result ↔
      trace = countOf status tokenCount ∧ result = recorded tokenCount := by
  unfold recordApiCall recorded countOf
  cases incrementTokens tokenCount with
  | error e =>
      simp only [await, runs_perform_bind_iff, runs_raise_iff]
      constructor
      · rintro ⟨⟨⟩, rest, rfl, rfl, rfl⟩
        exact ⟨rfl, rfl⟩
      · rintro ⟨rfl, rfl⟩
        exact ⟨(), [], rfl, rfl, rfl⟩
  | ok tokens =>
      simp only [await, runs_perform_iff]
      constructor
      · rintro ⟨⟨⟩, rfl, rfl⟩
        exact ⟨rfl, rfl⟩
      · rintro ⟨rfl, rfl⟩
        exact ⟨(), rfl, rfl⟩

theorem readResponse_runs_iff {response : Response} {result : Except Exn (Json × Json)} :
    Runs (readResponse host response) trace result ↔
      trace = successCount (response.parsed host) ∧ result = response.read host := by
  rw [readResponse_eq, Response.read]
  cases response.parsed host with
  | error e => exact runs_raise_iff
  | ok answer =>
      change Runs (recordApiCall "success" answer.2 >>= fun _ => pure answer) trace result ↔
        trace = countOf "success" answer.2 ∧ result = (recorded answer.2 >>= fun _ => pure answer)
      simp only [runs_bind_iff, recordApiCall_runs_iff, runs_pure_iff]
      cases recorded answer.2 with
      | error e =>
          constructor
          · rintro (⟨_, ⟨rfl, same⟩, rfl⟩ | ⟨_, _, _, _, ⟨_, impossible⟩, _⟩)
            · cases same
              exact ⟨rfl, rfl⟩
            · cases impossible
          · rintro ⟨rfl, rfl⟩
            exact .inl ⟨e, ⟨rfl, rfl⟩, rfl⟩
      | ok _ =>
          constructor
          · rintro (⟨e, ⟨_, impossible⟩, _⟩ | ⟨_, _, _, rfl, ⟨rfl, _⟩, rfl, rfl⟩)
            · cases impossible
            · exact ⟨List.append_nil _, rfl⟩
          · rintro ⟨rfl, rfl⟩
            exact .inr ⟨(), _, [], (List.append_nil _).symm, ⟨rfl, rfl⟩, rfl, rfl⟩

theorem bind_ok_iff {α β : Type} {first : Except Exn α} {next : α → Except Exn β} {value : β} :
    (first >>= next) = .ok value ↔ ∃ middle, first = .ok middle ∧ next middle = .ok value := by
  cases first with
  | error e => simp [bind, Except.bind]
  | ok middle => simp [bind, Except.bind]

theorem classificationOf_ok_iff {content value : Json} :
    classificationOf host content = .ok value ↔
      ∃ text, content = .string text ∧ parseContent host.loads text.toList = .ok value := by
  cases content <;> simp [classificationOf]

/-- A response is parsed where its content is. -/
theorem parsed_ok_iff {response : Response} {value tokens : Json} :
    response.parsed host = .ok (value, tokens) ↔
      ¬ (response.statusCode < 200 ∨ 300 ≤ response.statusCode) ∧
        ∃ data content, response.json = .ok data ∧ readCompletion data = .ok (.string content, tokens) ∧
          parseContent host.loads content.toList = .ok value := by
  unfold Response.parsed
  constructor
  · intro found
    split at found
    · cases found
    · next success =>
        obtain ⟨data, json, found⟩ := bind_ok_iff.mp found
        obtain ⟨⟨content, tokenCount⟩, completed, found⟩ := bind_ok_iff.mp found
        obtain ⟨parsed, classified, same⟩ := bind_ok_iff.mp found
        cases same
        obtain ⟨text, rfl, classified⟩ := classificationOf_ok_iff.mp classified
        exact ⟨success, data, text, json, completed, classified⟩
  · rintro ⟨success, data, text, json, completed, parsed⟩
    rw [if_neg success]
    refine bind_ok_iff.mpr ⟨data, json, bind_ok_iff.mpr ⟨_, completed, ?_⟩⟩
    exact bind_ok_iff.mpr ⟨value, parsed, rfl⟩

/-- A status beyond 2xx is raised. -/
theorem read_of_failure {response : Response}
    (failure : response.statusCode < 200 ∨ 300 ≤ response.statusCode) :
    response.parsed host = response.read host ∧
      response.read host = .error {
        kind := .httpStatus response.statusCode response.retryAfter
        message := s!"HTTP status {response.statusCode}" } := by
  have raised : response.parsed host = _ := if_pos failure
  unfold Response.read
  rw [raised]
  exact ⟨rfl, rfl⟩

/-- What was parsed is read once it is recorded. -/
theorem read_ok_iff_parsed {response : Response} {answer : Json × Json} :
    response.read host = .ok answer ↔ response.parsed host = .ok answer ∧ recorded answer.2 = .ok () := by
  rw [Response.read, bind_ok_iff]
  constructor
  · rintro ⟨_, parsed, found⟩
    obtain ⟨⟨⟩, numeric, same⟩ := bind_ok_iff.mp found
    cases same
    exact ⟨parsed, numeric⟩
  · rintro ⟨parsed, numeric⟩
    exact ⟨answer, parsed, bind_ok_iff.mpr ⟨(), numeric, rfl⟩⟩

/-- A response is read where its content parses and its number of tokens is recorded. -/
theorem read_ok_iff {response : Response} {value tokens : Json} :
    response.read host = .ok (value, tokens) ↔
      ¬ (response.statusCode < 200 ∨ 300 ≤ response.statusCode) ∧
        ∃ data content, response.json = .ok data ∧ readCompletion data = .ok (.string content, tokens) ∧
          recorded tokens = .ok () ∧ parseContent host.loads content.toList = .ok value := by
  rw [read_ok_iff_parsed, parsed_ok_iff]
  constructor
  · rintro ⟨⟨success, data, text, json, completed, parsed⟩, numeric⟩
    exact ⟨success, data, text, json, completed, numeric, parsed⟩
  · rintro ⟨success, data, text, json, completed, numeric, parsed⟩
    exact ⟨⟨success, data, text, json, completed, parsed⟩, numeric⟩

/-- A request with its answer, and what is counted of it. -/
theorem request_runs_iff {result : Except Exn (Json × Json)} :
    Runs (Program.call (.post ticket n) id >>= readResponse host) trace result ↔
      ∃ response : Except Exn Response, result = response.bind (Response.read host) ∧
        trace = ⟨.post ticket n, response⟩ :: successCount (response.bind (Response.parsed host)) := by
  rw [runs_call_bind_iff]
  constructor
  · rintro (⟨response, e, given, rfl, rfl⟩ | ⟨response, value, rest, given, rfl, ran⟩)
    · obtain rfl : response = .error e := given
      exact ⟨.error e, rfl, rfl⟩
    · obtain rfl : response = .ok value := given
      obtain ⟨rfl, rfl⟩ := readResponse_runs_iff.mp ran
      exact ⟨.ok value, rfl, rfl⟩
  · rintro ⟨response, rfl, rfl⟩
    cases response with
    | error e => exact .inl ⟨.error e, e, rfl, rfl, rfl⟩
    | ok value => exact .inr ⟨.ok value, value, _, rfl, rfl, readResponse_runs_iff.mpr ⟨rfl, rfl⟩⟩

theorem throttle_runs_iff {result : Except Exn Unit} :
    Runs ((await (.throttle n)).when (0 < settings.sarvamMinIntervalMs)) trace result ↔
      trace = throttled settings n ∧ result = .ok () := by
  rw [runs_when_iff, await, runs_perform_iff]
  unfold throttled
  by_cases spaced : 0 < settings.sarvamMinIntervalMs
  · rw [if_pos spaced]
    constructor
    · rintro (⟨_, ⟨⟩, rfl, rfl⟩ | ⟨unspaced, _⟩)
      · exact ⟨rfl, rfl⟩
      · exact absurd spaced unspaced
    · rintro ⟨rfl, rfl⟩
      exact .inl ⟨spaced, (), rfl, rfl⟩
  · rw [if_neg spaced]
    constructor
    · rintro (⟨spaced', _⟩ | ⟨_, rfl, rfl⟩)
      · exact absurd spaced' spaced
      · exact ⟨rfl, rfl⟩
    · rintro ⟨rfl, rfl⟩
      exact .inr ⟨spaced, rfl, rfl⟩

theorem singleApiCall_runs_iff {answer : Except Exn (Json × Json)} :
    Runs (singleApiCall settings host ticket n) trace answer ↔
      SingleRun settings host ticket n trace answer := by
  unfold singleApiCall
  cases mode : settings.sarvamMockMode with
  | true =>
      rw [if_pos rfl, runs_bind_iff]
      constructor
      · rintro (⟨e, ran, rfl⟩ | ⟨_, before, after, rfl, ran, rest⟩)
        · exact SingleRun.mocked mode ran
        · obtain ⟨rfl, rfl⟩ := runs_pure_iff.mp rest
          rw [List.append_nil]
          exact SingleRun.mocked mode ran
      · intro run
        cases run with
        | requested real => cases mode.symm.trans real
        | @mocked _ _ slept ran =>
            cases slept with
            | error e => exact .inl ⟨e, ran, rfl⟩
            | ok _ => exact .inr ⟨(), trace, [], (List.append_nil _).symm, ran, runs_pure_iff.mpr ⟨rfl, rfl⟩⟩
  | false =>
      rw [if_neg Bool.false_ne_true, runs_bind_iff]
      constructor
      · rintro (⟨e, ran, rfl⟩ | ⟨_, before, after, rfl, ran, rest⟩)
        · cases (throttle_runs_iff.mp ran).2
        · obtain ⟨rfl, _⟩ := throttle_runs_iff.mp ran
          obtain ⟨response, rfl, rfl⟩ := request_runs_iff.mp rest
          exact SingleRun.requested mode response
      · intro run
        cases run with
        | mocked mock => cases mode.symm.trans mock
        | requested _ response =>
            exact .inr ⟨(), _, _, rfl, throttle_runs_iff.mpr ⟨rfl, rfl⟩,
              request_runs_iff.mpr ⟨response, rfl, rfl⟩⟩

/-- **The runs of the guarded call** are those `CallRun` lists. -/
theorem guarded_runs_iff {answer : Except Exn (Json × Json)} :
    Runs (guarded settings n (singleApiCall settings host ticket n)) trace answer ↔
      CallRun settings host ticket n trace answer := by
  unfold guarded
  cases enabled : settings.cbEnabled with
  | false =>
      have unasked : admitted settings n = [] := by rw [admitted, enabled]; rfl
      rw [if_neg Bool.false_ne_true, singleApiCall_runs_iff]
      constructor
      · intro run
        have ran := CallRun.ran run
        rwa [unasked] at ran
      · intro run
        cases run with
        | rejected enabled' => cases enabled.symm.trans enabled'
        | ran run => rwa [unasked]
  | true =>
      have asked : admitted settings n = [⟨.admission n, true⟩] := by rw [admitted, enabled]; rfl
      rw [if_pos rfl, await, runs_perform_bind_iff]
      constructor
      · rintro ⟨decision, rest, rfl, ran⟩
        cases decision with
        | false =>
            obtain ⟨rfl, rfl⟩ := runs_raise_iff.mp ran
            exact CallRun.rejected enabled
        | true =>
            have run := CallRun.ran (singleApiCall_runs_iff.mp ran)
            rwa [asked] at run
      · intro run
        cases run with
        | rejected => exact ⟨false, [], rfl, runs_raise_iff.mpr ⟨rfl, rfl⟩⟩
        | @ran inner _ run =>
            refine ⟨true, inner, ?_, singleApiCall_runs_iff.mpr run⟩
            rw [asked]
            rfl

end Call

/-! ## The handler of an attempt -/

section Handler

variable {settings : Settings} {host : Host} {ticket : String} {n : ℕ} {trace : TicketTrace} {e : Exn}

/-- What the handler of an exception counts. -/
def statusCount (e : Exn) : TicketTrace :=
  match e.kind with
  | .httpStatus statusCode _ => [⟨.count (toString statusCode) (.finite 0), ()⟩]
  | _ => []

/-- The handler counts the status of the exception, and then at most waits. -/
theorem onError_trace {ended : Except Exn (Option Dict)}
    (ran : Runs (onError settings host ticket n e) trace ended) :
    ∃ waits, trace = statusCount e ++ waits ∧ ∀ asked ∈ waits, Waiting asked.1 := by
  unfold onError at ran
  unfold statusCount
  split at ran
  · next kind =>
      obtain ⟨rfl, _⟩ := runs_pure_iff.mp ran
      exact ⟨[], by rw [kind]; rfl, by simp⟩
  · next statusCode retryAfter kind =>
      rw [kind]
      rcases runs_bind_iff.mp ran with ⟨e', raised, _⟩ | ⟨_, before, after, rfl, counted, rest⟩
      · have recorded := (recordApiCall_runs_iff.mp raised).2
        rw [recorded_zero] at recorded
        cases recorded
      · refine ⟨after, ?_, (statusHandler_waits settings host ticket n _ _).of_runs rest⟩
        rw [(recordApiCall_runs_iff.mp counted).1, countOf_zero]
  · next kind => exact ⟨trace, by rw [kind]; rfl, (retry_waits settings n).of_runs ran⟩
  · next kind => exact ⟨trace, by rw [kind]; rfl, (retry_waits settings n).of_runs ran⟩
  · next kind =>
      obtain ⟨rfl, _⟩ := runs_raise_iff.mp ran
      exact ⟨[], by rw [kind]; rfl, by simp⟩

/-- What the handler returns is a failure record, which names its error. -/
theorem onError_returns (settings : Settings) (host : Host) (ticket : String) (n : ℕ) (e : Exn) :
    (onError settings host ticket n e).Returns fun ended =>
      ∀ record ∈ ended, ∃ error, error ≠ "" ∧ record = failureResult ticket error := by
  have failure : ∀ error, error ≠ "" → ∀ record ∈ some (failureResult ticket error),
      ∃ error, error ≠ "" ∧ record = failureResult ticket error := by
    rintro error named record ⟨⟩
    exact ⟨error, named, rfl⟩
  have status : ∀ statusCode : ℕ, s!"http_{statusCode}" ≠ "" := by
    intro statusCode empty
    have letters := congrArg String.length empty
    simp [toString] at letters
  have silent : ∀ record ∈ (none : Option Dict), ∃ error, error ≠ "" ∧ record = failureResult ticket error := by
    simp
  unfold onError
  split
  · exact returns_pure (failure _ (by decide))
  · apply returns_bind
    intro _
    split
    · exact returns_pure (failure _ (status _))
    · split
      · exact returns_bind fun _ => returns_pure silent
      · split
        · exact returns_bind fun _ => returns_pure silent
        · exact returns_pure silent
  · exact returns_bind fun _ => returns_pure silent
  · exact returns_bind fun _ => returns_pure silent
  · exact returns_raise

end Handler

/-! ## Requests and counts -/

section Exchanges

variable {settings : Settings} {host : Host} {ticket : String} {n : ℕ} {trace : TicketTrace}

/-- The operations that concern the upstream: requests, and what is counted. -/
def isExchange : TicketOp → Bool
  | .post _ _ | .count _ _ | .countStatus _ => true
  | _ => false

def exchanges (trace : TicketTrace) : TicketTrace := trace.filter fun asked => isExchange asked.1

theorem exchanges_append (before after : TicketTrace) :
    exchanges (before ++ after) = exchanges before ++ exchanges after := List.filter_append ..

theorem mem_exchanges {asked : Asked TicketOp TicketAnswer} (exchange : isExchange asked.1 = true) :
    asked ∈ exchanges trace ↔ asked ∈ trace := by
  rw [exchanges, List.mem_filter]
  exact and_iff_left exchange

theorem exchanges_of_waiting (idle : ∀ asked ∈ trace, Waiting asked.1) : exchanges trace = [] := by
  rw [exchanges, List.filter_eq_nil_iff]
  intro asked member exchange
  have wait := idle asked member
  unfold isExchange at exchange
  split at exchange
  · next op => simp_all [Waiting]
  · next op => simp_all [Waiting]
  · next op => simp_all [Waiting]
  · cases exchange

theorem exchanges_countOf (status : String) (tokenCount : Json) :
    exchanges (countOf status tokenCount) = countOf status tokenCount := by
  unfold countOf
  split <;> rfl

theorem exchanges_successCount (read : Except Exn (Json × Json)) :
    exchanges (successCount read) = successCount read := by
  cases read with
  | error e => rfl
  | ok answer => exact exchanges_countOf "success" answer.2

theorem exchanges_statusCount (e : Exn) : exchanges (statusCount e) = statusCount e := by
  unfold statusCount
  split <;> rfl

theorem exchanges_admitted : exchanges (admitted settings n) = [] := by
  unfold admitted
  split <;> rfl

theorem exchanges_throttled : exchanges (throttled settings n) = [] := by
  unfold throttled
  split <;> rfl

theorem post_notMem_successCount {attempt : ℕ} {response : Except Exn Response}
    (read : Except Exn (Json × Json)) :
    (⟨.post ticket attempt, response⟩ : Asked TicketOp TicketAnswer) ∉ successCount read := by
  unfold successCount countOf
  split
  · split <;> simp
  · simp

theorem post_notMem_statusCount {attempt : ℕ} {response : Except Exn Response} (e : Exn) :
    (⟨.post ticket attempt, response⟩ : Asked TicketOp TicketAnswer) ∉ statusCount e := by
  unfold statusCount
  split <;> simp

/-- A guarded call makes no request, and then only the mock returns, or it makes one. -/
theorem CallRun.exchanged {answer : Except Exn (Json × Json)}
    (run : CallRun settings host ticket n trace answer) :
    (exchanges trace = [] ∧
      ∀ value, answer = .ok value → value = (.object mockClassification, .number (.finite 0))) ∨
      ∃ response : Except Exn Response, answer = response.bind (Response.read host) ∧
        exchanges trace =
          ⟨.post ticket n, response⟩ :: successCount (response.bind (Response.parsed host)) := by
  cases run with
  | rejected enabled => exact .inl ⟨rfl, by simp⟩
  | ran run =>
      rw [exchanges_append, exchanges_admitted, List.nil_append]
      cases run with
      | @mocked _ _ slept ran =>
          left
          refine ⟨exchanges_of_waiting ((asks_when (sleep_waits _)).of_runs ran), ?_⟩
          cases slept <;> simp [Except.map, eq_comm]
      | requested real response =>
          right
          refine ⟨response, rfl, ?_⟩
          rw [exchanges_append, exchanges_throttled, List.nil_append, exchanges, List.filter_cons_of_pos rfl]
          exact congrArg _ (exchanges_successCount _)

end Exchanges

/-! ## The rounds of a call -/

section Rounds

variable {settings : Settings} {host : Host} {ticket : String} {numbers : List ℕ} {rounds : List Round}
  {result : Except Exn Dict}

/-- The handler of a round runs if its call raised or did not return a mapping; it
counts the status of the exception and at most waits. -/
def Round.Handled (round : Round) : Prop :=
  (∃ record, round.answer.bind withTokens = .ok record ∧ round.handled = []) ∨
    ∃ e waits, round.answer.bind withTokens = .error e ∧ round.handled = statusCount e ++ waits ∧
      ∀ asked ∈ waits, Waiting asked.1

/-- What the handler of an answer counts. -/
def handledCount (answer : Except Exn (Json × Json)) : TicketTrace :=
  match answer.bind withTokens with
  | .ok _ => []
  | .error e => statusCount e

theorem Round.Handled.exchanges {round : Round} (handled : round.Handled) :
    exchanges round.handled = handledCount round.answer := by
  unfold handledCount
  rcases handled with ⟨record, merged, none_⟩ | ⟨e, waits, caught, shape, idle⟩
  · rw [none_, merged]
    rfl
  · rw [shape, caught, exchanges_append, exchanges_statusCount, exchanges_of_waiting idle, List.append_nil]

theorem post_notMem_handledCount {attempt : ℕ} {response : Except Exn Response}
    (answer : Except Exn (Json × Json)) :
    (⟨.post ticket attempt, response⟩ : Asked TicketOp TicketAnswer) ∉ handledCount answer := by
  unfold handledCount
  split
  · simp
  · exact post_notMem_statusCount _

/-- The response a round received is the one its answer was read from. -/
theorem received_round {round : Round}
    (called : CallRun settings host ticket round.number round.called round.answer)
    (handled : round.Handled) {asked : String} {attempt : ℕ} {response : Except Exn Response} :
    ⟨.post asked attempt, response⟩ ∈ round.trace ↔
      asked = ticket ∧ attempt = round.number ∧ round.answer = response.bind (Response.read host) ∧
        exchanges round.called =
          ⟨.post ticket round.number, response⟩ :: successCount (response.bind (Response.parsed host)) := by
  rw [← mem_exchanges rfl, Round.trace, exchanges_append, handled.exchanges, List.mem_append]
  constructor
  · rintro (inCall | inHandler)
    · rcases called.exchanged with ⟨none_, _⟩ | ⟨response', answered, shape⟩
      · rw [none_] at inCall
        cases inCall
      · rw [shape] at inCall
        rcases List.mem_cons.mp inCall with same | counted
        · cases same
          exact ⟨rfl, rfl, answered, shape⟩
        · exact absurd counted (post_notMem_successCount _)
    · exact absurd inHandler (post_notMem_handledCount _)
  · rintro ⟨rfl, rfl, _, shape⟩
    rw [shape]
    exact .inl List.mem_cons_self

/-- What a round is: a run of the guarded call, and of the handler. -/
theorem LoopRun.round (run : LoopRun settings host ticket numbers rounds result) :
    ∀ round ∈ rounds, CallRun settings host ticket round.number round.called round.answer ∧ round.Handled := by
  have caughtBy : ∀ {n called handled answer e ended},
      Runs (guarded settings n (singleApiCall settings host ticket n)) called answer →
      answer.bind withTokens = .error e → Runs (onError settings host ticket n e) handled ended →
      CallRun settings host ticket n called answer ∧ (Round.mk n called answer handled).Handled := by
    intro n called handled answer e ended ran caught handling
    obtain ⟨waits, rfl, idle⟩ := onError_trace handling
    exact ⟨guarded_runs_iff.mp ran, .inr ⟨e, waits, caught, rfl, idle⟩⟩
  induction run with
  | exhausted => simp
  | returned ran merged =>
      intro round member
      rw [List.mem_singleton.mp member]
      exact ⟨guarded_runs_iff.mp ran, .inl ⟨_, merged, rfl⟩⟩
  | failed ran caught ended =>
      intro round member
      rw [List.mem_singleton.mp member]
      exact caughtBy ran caught ended
  | raised ran caught ended =>
      intro round member
      rw [List.mem_singleton.mp member]
      exact caughtBy ran caught ended
  | again ran caught ended later ih =>
      intro round member
      rcases List.mem_cons.mp member with rfl | member
      · exact caughtBy ran caught ended
      · exact ih round member

/-- The loop ends with the first round whose call returned a mapping. -/
theorem LoopRun.merged (run : LoopRun settings host ticket numbers rounds result)
    {before after : List Round} {round : Round} {record : Dict} (split : rounds = before ++ round :: after)
    (merged : round.answer.bind withTokens = .ok record) : after = [] ∧ result = .ok record := by
  have last : ∀ {only : Round} {before : List Round}, [only] = before ++ round :: after →
      only = round ∧ after = [] := by
    intro only before single
    cases before with
    | nil => simpa [eq_comm] using single
    | cons first before => simp at single
  have notCaught : ∀ {e : Exn}, round.answer.bind withTokens ≠ .error e := by
    intro e caught
    cases merged.symm.trans caught
  induction run generalizing before with
  | exhausted => simp at split
  | returned ran merged' =>
      obtain ⟨rfl, rfl⟩ := last split
      cases merged.symm.trans merged'
      exact ⟨rfl, rfl⟩
  | failed ran caught ended =>
      obtain ⟨rfl, _⟩ := last split
      exact absurd caught notCaught
  | raised ran caught ended =>
      obtain ⟨rfl, _⟩ := last split
      exact absurd caught notCaught
  | again ran caught ended later ih =>
      cases before with
      | nil =>
          obtain ⟨rfl, _⟩ := List.cons.inj split
          exact absurd caught notCaught
      | cons first before =>
          obtain ⟨rfl, rest⟩ := List.cons.inj split
          exact ih rest

end Rounds

end InferenceForge.Pipeline
