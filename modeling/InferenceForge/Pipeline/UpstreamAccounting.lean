/-
# InferenceForge.Pipeline.UpstreamAccounting — the totals of the upstream

`record_api_call` is called in two places: once a response was parsed, and in the
handler of an `HTTPStatusError`. The `accountant` follows a call and demands that
every response is recorded with the tokens it reports before anything else happens;
`attempts_safe` says that a call does so as long as its responses are
`Recordable`.

For any number of calls that share the totals, in any order of steps, the totals
have then grown by exactly the responses and the tokens they report
(`accounting_exact`). A successful response whose content is not JSON is never
recorded, and every attempt at it is lost (`unparsed_response_uncounted`).
-/
import InferenceForge.Library.Monitor
import InferenceForge.Pipeline.SuccessRecords

namespace InferenceForge.Pipeline.Accounting

open InferenceForge.Python InferenceForge.Library

set_option autoImplicit false

/-! ## What a response reports -/

/-- `data.get("usage", {}).get("total_tokens", 0)`. -/
def usageTokens (data : Json) : Except Exn Json := do
  let usage ← getOr "usage" (.object []) data
  getOr "total_tokens" (.number (.finite 0)) usage

/-- The tokens a body reports, 0 where it reports no number. -/
def bodyTokens (data : Json) : Number :=
  match usageTokens data with
  | .ok tokens => tokens.toNumber?.getD 0
  | .error _ => 0

/-- The `usage.total_tokens` of a response. -/
def reported (response : Response) : Number :=
  match response.json with
  | .ok data => bodyTokens data
  | .error _ => 0

/-- The content of a response parses, and its tokens are a number that a counter takes. -/
def Parses (host : Host) (response : Response) : Prop :=
  ∃ data content tokens value, response.json = .ok data ∧
    readCompletion data = .ok (.string content, tokens) ∧ recorded tokens = .ok () ∧
    parseContent host.loads content.toList = .ok value

/-- A failed response reports no tokens, and a successful one parses. -/
def Recordable (host : Host) (response : Response) : Prop :=
  if response.statusCode < 200 ∨ 300 ≤ response.statusCode then reported response = 0
  else Parses host response

theorem usageTokens_of_readCompletion {data content tokens : Json}
    (completed : readCompletion data = .ok (content, tokens)) : usageTokens data = .ok tokens := by
  unfold readCompletion at completed
  obtain ⟨choices, _, completed⟩ := bind_ok_iff.mp completed
  obtain ⟨choice, _, completed⟩ := bind_ok_iff.mp completed
  obtain ⟨message, _, completed⟩ := bind_ok_iff.mp completed
  obtain ⟨content', _, completed⟩ := bind_ok_iff.mp completed
  obtain ⟨usage, used, completed⟩ := bind_ok_iff.mp completed
  obtain ⟨tokens', found, same⟩ := bind_ok_iff.mp completed
  cases same
  exact bind_ok_iff.mpr ⟨usage, used, found⟩

/-- What `record_api_call` takes is the number of tokens that is reported. -/
theorem recordApiCall_reported {response : Response} {data content tokens : Json}
    (json : response.json = .ok data) (completed : readCompletion data = .ok (content, tokens))
    (numeric : recorded tokens = .ok ()) (status : String) :
    recordApiCall status tokens = await (.count status (reported response)) := by
  have used := usageTokens_of_readCompletion completed
  obtain ⟨value, taken⟩ := recorded_ok_iff.mp numeric
  have same : reported response = value := by
    simp only [reported, json, bodyTokens, used, (incrementTokens_ok_iff.mp taken).1, Option.getD_some]
  rw [same, recordApiCall, taken]

/-- What is left of the parsing of a response that parses. -/
theorem readResponse_of_parses {host : Host} {response : Response}
    (success : ¬ (response.statusCode < 200 ∨ 300 ≤ response.statusCode))
    (parses : Parses host response) :
    ∃ value tokens, readResponse host response =
      (await (.count "success" (reported response)) >>= fun _ => pure (value, tokens)) := by
  obtain ⟨data, content, tokens, value, json, completed, numeric, parsed⟩ := parses
  refine ⟨value, tokens, ?_⟩
  have answered : response.parsed host = .ok (value, tokens) :=
    parsed_ok_iff.mpr ⟨success, data, content, json, completed, parsed⟩
  rw [← recordApiCall_reported json completed numeric, readResponse_eq, answered]
  rfl

/-! ## The accountant -/

def responseOf : Asked TicketOp TicketAnswer → Option Response
  | ⟨.post _ _, .ok response⟩ => some response
  | _ => none

def countedOf : Asked TicketOp TicketAnswer → Option Number
  | ⟨.count _ tokens, _⟩ => some tokens
  | _ => none

/-- The responses a call received. -/
def responses (trace : TicketTrace) : List Response := trace.filterMap responseOf

/-- The tokens of its calls of `record_api_call`. -/
def counted (trace : TicketTrace) : List Number := trace.filterMap countedOf

/-- A record is due after each response, and nothing else may happen before it. -/
def accountant : Monitor TicketOp TicketAnswer (Option Number) := fun due asked =>
  match due, countedOf asked with
  | none, none => some ((responseOf asked).map reported)
  | some tokens, some tokens' => if tokens' = tokens then some none else none
  | _, _ => none

theorem responseOf_of_counted {asked : Asked TicketOp TicketAnswer} {tokens : Number}
    (found : countedOf asked = some tokens) : responseOf asked = none := by
  unfold countedOf at found
  split at found
  · rfl
  · cases found

theorem count_of_counted {asked : Asked TicketOp TicketAnswer} {tokens : Number}
    (found : countedOf asked = some tokens) : ∃ status, asked.1 = .count status tokens := by
  unfold countedOf at found
  split at found
  · next status tokens' _ =>
      cases found
      exact ⟨status, rfl⟩
  · cases found

theorem accountant_paid (status : String) (tokens : Number) :
    accountant (some tokens) ⟨.count status tokens, ()⟩ = some none := if_pos rfl

theorem accountant_step {due due' : Option Number} {asked : Asked TicketOp TicketAnswer}
    (stepped : accountant due asked = some due') :
    due.toList ++ (responseOf asked).toList.map reported = (countedOf asked).toList ++ due'.toList := by
  unfold accountant at stepped
  split at stepped
  · next uncounted =>
      cases stepped
      rw [uncounted]
      cases responseOf asked <;> rfl
  · next tokens tokens' found =>
      split at stepped
      · next same =>
          cases stepped
          rw [found, same, responseOf_of_counted found]
          rfl
      · cases stepped
  · cases stepped

/-- **The books balance**: what was counted is what was reported, up to what is due. -/
theorem accountant_balance {trace : TicketTrace} {due due' : Option Number}
    (ran : exec accountant due trace = some due') :
    due.toList ++ (responses trace).map reported = counted trace ++ due'.toList := by
  induction trace generalizing due with
  | nil =>
      cases ran
      simp [responses, counted]
  | cons asked trace ih =>
      obtain ⟨middle, stepped, rest⟩ := exec_cons_eq_some.mp ran
      have here := accountant_step stepped
      have later := ih rest
      have split : responses (asked :: trace) = (responseOf asked).toList ++ responses trace := by
        unfold responses
        rw [List.filterMap_cons]
        cases responseOf asked <;> rfl
      have split' : counted (asked :: trace) = (countedOf asked).toList ++ counted trace := by
        unfold counted
        rw [List.filterMap_cons]
        cases countedOf asked <;> rfl
      rw [split, split', List.map_append, ← List.append_assoc, here, List.append_assoc, later,
        List.append_assoc]

/-! ## A call under the accountant -/

/-- What the handler of an exception will record. -/
def owed (e : Exn) : Option Number :=
  match e.kind with
  | .httpStatus _ _ => some 0
  | _ => none

/-- An `HTTPStatusError` is raised by `raise_for_status()`, never by a request that is
not answered or by `asyncio.sleep`. -/
def Documented : Asked TicketOp TicketAnswer → Prop
  | ⟨.post _ _, .error e⟩ | ⟨.sleep _, .error e⟩ => owed e = none
  | _ => True

/-- What a run may meet: documented exceptions, and responses that can be recorded. -/
def Permitted (host : Host) (asked : Asked TicketOp TicketAnswer) : Prop :=
  Documented asked ∧ ∀ response, responseOf asked = some response → Recordable host response

/-- What is due when a part of a call ends: the status of its exception. -/
def Carried {α : Type} : Except Exn α → Option Number → Prop
  | .ok _, due => due = none
  | .error e, due => due = owed e

/-- What is due when a request has ended: the record of its response. -/
def Due (host : Host) : Except Exn Response → Option Number → Prop
  | .ok response, due => Recordable host response ∧ due = some (reported response)
  | .error e, due => due = owed e

section Safe

variable {settings : Settings} {host : Host} {ticket : String} {n : ℕ}

theorem readResponse_safe {response : Response} (recordable : Recordable host response) :
    (readResponse host response).Safe accountant (Permitted host) Carried (some (reported response)) := by
  unfold Recordable at recordable
  split at recordable
  · next failed =>
      unfold readResponse
      rw [if_pos failed, recordable]
      exact safe_raise rfl
  · next success =>
      obtain ⟨value, tokens, same⟩ := readResponse_of_parses success recordable
      rw [same]
      apply safe_bind (Q := Carried)
      · apply safe_perform
        intro answer _
        exact ⟨none, accountant_paid _ _, rfl⟩
      · intro _ due settled
        exact settled
      · intro e due carried
        exact carried

/-- Waiting records nothing. -/
theorem waiting_passed {op : TicketOp} {answer : TicketAnswer op} (waits : Waiting op) :
    accountant none ⟨op, answer⟩ = some none := by
  cases op <;> first | exact waits.elim | rfl

theorem sleep_safe (wait : Number) :
    (sleep wait).Safe accountant (Permitted host) Carried none := by
  apply safe_call
  intro answer permitted
  refine ⟨none, rfl, ?_⟩
  cases answer with
  | ok _ => rfl
  | error e => exact permitted.1.symm

theorem singleApiCall_safe :
    (singleApiCall settings host ticket n).Safe accountant (Permitted host) Carried none := by
  unfold singleApiCall
  split
  · apply safe_bind (Q := Carried) (safe_when (sleep_safe _) rfl)
    · intro _ due settled
      exact settled
    · intro e due carried
      exact carried
  · apply safe_bind (Q := Carried)
    · refine safe_when (safe_perform fun answer _ => ?_) rfl
      exact ⟨none, rfl, rfl⟩
    · intro _ due settled
      obtain rfl : due = none := settled
      -- the response is due from here on
      apply safe_bind (Q := Due host)
      · apply safe_call
        intro answer permitted
        cases answer with
        | ok response => exact ⟨_, rfl, permitted.2 response rfl, rfl⟩
        | error e => exact ⟨none, rfl, permitted.1.symm⟩
      · rintro response due ⟨recordable, rfl⟩
        exact readResponse_safe recordable
      · intro e due carried
        exact carried
    · intro e due carried
      exact carried

theorem tryAttempt_safe :
    (tryAttempt settings host ticket n).Safe accountant (Permitted host) Carried none := by
  unfold tryAttempt
  apply safe_bind (Q := Carried)
  · unfold guarded
    split
    · apply safe_bind (Q := Carried)
      · apply safe_perform
        intro answer _
        exact ⟨none, rfl, rfl⟩
      · intro admitted due settled
        obtain rfl : due = none := settled
        cases admitted with
        | true => exact singleApiCall_safe
        | false => exact safe_raise rfl
      · intro e due carried
        exact carried
    · exact singleApiCall_safe
  · intro answer due settled
    obtain rfl : due = none := settled
    split
    · exact safe_pure rfl
    · exact safe_raise rfl
  · intro e due carried
    exact carried

/-- The handler records what its exception owes. -/
theorem onError_safe (e : Exn) :
    (onError settings host ticket n e).Safe accountant (Permitted host) (fun _ due => due = none)
      (owed e) := by
  unfold onError
  split
  · next kind => exact safe_pure (by rw [owed, kind])
  · next statusCode retryAfter kind =>
      have due : owed e = some 0 := by rw [owed, kind]
      have zero : recordApiCall (toString statusCode) (.number (.finite 0)) =
          await (.count (toString statusCode) 0) := by
        rw [recordApiCall, incrementTokens_finite le_rfl overflow_pos]
        rfl
      rw [zero, due]
      apply safe_bind (Q := fun _ due => due = none)
      · apply safe_perform
        intro answer _
        exact ⟨none, accountant_paid _ _, rfl⟩
      · rintro _ due rfl
        exact safe_of_asks (statusHandler_waits settings host ticket n _ _) fun op answer waits _ =>
          waiting_passed waits
      · intro _ due settled
        exact settled
  · next kind =>
      have due : owed e = none := by rw [owed, kind]
      rw [due]
      exact safe_of_asks (retry_waits settings n) fun op answer waits _ => waiting_passed waits
  · next kind =>
      have due : owed e = none := by rw [owed, kind]
      rw [due]
      exact safe_of_asks (retry_waits settings n) fun op answer waits _ => waiting_passed waits
  · next kind => exact safe_raise (by rw [owed, kind])

/-- **A call records each response before it goes on.** -/
theorem attempts_safe (numbers : List ℕ) :
    (attempts settings host ticket numbers).Safe accountant (Permitted host) (fun _ due => due = none)
      none := by
  induction numbers with
  | nil => exact safe_pure rfl
  | cons n rest ih =>
      unfold attempts
      apply safe_bind (Q := fun _ due => due = none)
      · apply safe_rescue tryAttempt_safe
        · intro _ due settled
          exact settled
        · intro e due carried
          obtain rfl : due = owed e := carried
          exact onError_safe e
      · rintro ended due rfl
        cases ended with
        | some record => exact safe_pure rfl
        | none => exact ih
      · intro _ due settled
        exact settled

end Safe

/-! ## Any number of calls -/

/-- `_total_api_calls` and `_total_tokens`. -/
structure Totals where
  apiCalls : ℕ
  tokens : Number

/-- `record_api_call`, as far as the totals are concerned. -/
def Totals.record (totals : Totals) (tokenCount : Number) : Totals where
  apiCalls := totals.apiCalls + 1
  tokens := totals.tokens + tokenCount

section System

variable {ι : Type}

abbrev Calls (ι : Type) := Pool TicketOp TicketAnswer Exn Dict ι Totals

/-- What call `i`, which was answered so far as the trace says, is answered next by all
that is not the totals; `none` while it has to wait. -/
abbrev Outside (ι : Type) := ι → TicketTrace → (op : TicketOp) → Option (TicketAnswer op)

def serve (outside : Outside ι) : Serve TicketOp TicketAnswer ι Totals := fun i trace totals op =>
  match op with
  | .count _ tokens => some ((), totals.record tokens)
  | op => (outside i trace op).map (·, totals)

/-- No call has a record to make. Nothing is awaited before a record, so this holds
whenever anything else runs. -/
def AtRest (w : Calls ι) : Prop := ∀ i status tokens next, w.threads i ≠ .ask (.count status tokens) next

variable [Fintype ι]

/-- The totals have grown by the responses, and by the tokens they report. -/
structure Exact (before : Totals) (w : Calls ι) : Prop where
  apiCalls : w.shared.apiCalls = before.apiCalls + ∑ i, (responses (w.traces i)).length
  tokens : w.shared.tokens = before.tokens + ∑ i, ((responses (w.traces i)).map reported).sum

variable [DecidableEq ι] {outside : Outside ι} {before : Totals} {w w' : Calls ι} {i : ι}

/-- The totals are what was counted. -/
structure Booked (before : Totals) (w : Calls ι) : Prop where
  apiCalls : w.shared.apiCalls = before.apiCalls + ∑ i, (counted (w.traces i)).length
  tokens : w.shared.tokens = before.tokens + ∑ i, (counted (w.traces i)).sum

omit [DecidableEq ι] in
theorem booked_init (start : ι → Coroutine Dict) : Booked before (Pool.init before start) := by
  constructor <;> simp [Pool.init, counted]

/-- What one more step of call `i` adds to a sum over the calls. -/
theorem sum_served_add {M : Type} [AddCommMonoid M] (f : TicketTrace → M) {op : TicketOp}
    {answer : TicketAnswer op} {next : Coroutine Dict} {shared : Totals} (added : M)
    (grows : f (w.traces i ++ [⟨op, answer⟩]) = f (w.traces i) + added) :
    ∑ j, f ((w.served i op answer next shared).traces j) = ∑ j, f (w.traces j) + added := by
  rw [Pool.sum_served fun trace _ => f trace, grows, add_right_comm,
    Finset.add_sum_erase _ (fun j => f (w.traces j)) (Finset.mem_univ i)]

theorem counted_concat (trace : TicketTrace) (asked : Asked TicketOp TicketAnswer) :
    counted (trace ++ [asked]) = counted trace ++ (countedOf asked).toList := by
  unfold counted
  rw [List.filterMap_append]
  cases found : countedOf asked <;> simp [found]

omit [Fintype ι] [DecidableEq ι] in
/-- The totals grow by what an operation counts. -/
theorem serve_totals {trace : TicketTrace} {totals totals' : Totals} {op : TicketOp}
    {answer : TicketAnswer op} (served : serve outside i trace totals op = some (answer, totals')) :
    totals'.apiCalls = totals.apiCalls + (countedOf ⟨op, answer⟩).toList.length ∧
      totals'.tokens = totals.tokens + (countedOf ⟨op, answer⟩).toList.sum := by
  unfold serve at served
  split at served
  · cases served
    simp [countedOf, Totals.record]
  · next uncounted =>
      obtain ⟨answer', _, same⟩ := Option.map_eq_some_iff.mp served
      cases same
      have none_ : countedOf ⟨op, answer⟩ = none := by
        rw [Option.eq_none_iff_forall_not_mem]
        intro tokens found
        obtain ⟨status, same⟩ := count_of_counted found
        exact uncounted status tokens same
      simp [none_]

theorem Booked.step (booked : Booked before w) (stepped : Pool.step (serve outside) w i = some w') :
    Booked before w' := by
  obtain ⟨op, next, answer, shared, _, served, rfl⟩ := Pool.step_cases stepped
  obtain ⟨calls, tokens⟩ := serve_totals served
  have grown := counted_concat (w.traces i) ⟨op, answer⟩
  constructor
  · rw [Pool.served_shared, calls, booked.apiCalls, add_assoc]
    congr 1
    symm
    apply sum_served_add fun trace => (counted trace).length
    rw [grown, List.length_append]
  · rw [Pool.served_shared, tokens, booked.tokens, add_assoc]
    congr 1
    symm
    apply sum_served_add fun trace => (counted trace).sum
    rw [grown, List.sum_append]

/-- For every operation there is an answer that is permitted. -/
theorem exists_permitted (host : Host) (op : TicketOp) :
    ∃ answer : TicketAnswer op, Permitted host ⟨op, answer⟩ := by
  have plain : ∀ answer, Documented ⟨op, answer⟩ → responseOf ⟨op, answer⟩ = none →
      ∃ answer : TicketAnswer op, Permitted host ⟨op, answer⟩ := by
    intro answer documented none_
    exact ⟨answer, documented, by simp [none_]⟩
  cases op with
  | cacheGet key => exact plain (.ok none) trivial rfl
  | cacheSet key value => exact plain (.ok ()) trivial rfl
  | acquire => exact plain () trivial rfl
  | release => exact plain () trivial rfl
  | admission attempt => exact plain true trivial rfl
  | throttle attempt => exact plain () trivial rfl
  | post ticket attempt => exact plain (.error (.typeError "")) rfl rfl
  | count status tokens => exact plain () trivial rfl
  | countStatus status => exact plain () trivial rfl
  | uniform attempt => exact plain (0 : ℚ) trivial rfl
  | sleep wait => exact plain (.ok ()) trivial rfl

/-- A call that has no record to make owes none. -/
theorem settled_of_rest {host : Host} {p : Coroutine Dict} {due : Option Number}
    (safe : p.Safe accountant (Permitted host) (fun _ due => due = none) due)
    (rest : ∀ status tokens next, p ≠ .ask (.count status tokens) next) : due = none := by
  cases p with
  | done value => exact safe
  | raise e => exact safe
  | ask op next =>
      obtain ⟨answer, permitted⟩ := exists_permitted host op
      obtain ⟨due', followed, _⟩ := safe answer permitted
      cases due with
      | none => rfl
      | some tokens =>
          unfold accountant at followed
          split at followed
          · next impossible _ => cases impossible
          · next found =>
              obtain ⟨status, same⟩ := count_of_counted found
              obtain rfl : op = .count status _ := same
              exact absurd rfl (rest status _ next)
          · cases followed

/-- A finite number, and 0 for all else. -/
def finitePart : Number → ℚ
  | .finite value => value
  | _ => 0

/-- Every response can be recorded, and so can they all: what they report adds up to a number of the
doubles. An `int` total beyond them could not be added to a `float`. -/
structure AllRecordable (host : Host) (before : Totals) (w : Calls ι) : Prop where
  each : ∀ i, ∀ response ∈ responses (w.traces i), Recordable host response
  total : finitePart before.tokens + ∑ i, ((responses (w.traces i)).map fun r => finitePart (reported r)).sum < overflow

/-- **Upstream accounting is exact** in every run of any number of calls whose
responses can all be recorded: at every moment at which no record is being made, the
totals have grown by one for each response and by the tokens it reports. -/
theorem accounting_exact (settings : Settings) (host : Host) (tickets : ι → String)
    {schedule : List ι}
    (ran : exec (Pool.step (serve outside))
      (Pool.init before fun i => callWithRetry settings host (tickets i)) schedule = some w)
    (documented : ∀ i, ∀ asked ∈ w.traces i, Documented asked) (rest : AtRest w)
    (recordable : AllRecordable host before w) : Exact before w := by
  have booked : Booked before w :=
    exec_invariant (fun _ _ _ booked stepped => booked.step stepped) schedule _ _ (booked_init _) ran
  have faithful : Pool.Faithful (fun i => callWithRetry settings host (tickets i)) w :=
    exec_invariant (fun _ _ _ faithful stepped => faithful.step stepped) schedule _ _
      (Pool.faithful_init _ _) ran
  have balanced : ∀ i, counted (w.traces i) = (responses (w.traces i)).map reported := by
    intro i
    have permitted : ∀ asked ∈ w.traces i, Permitted host asked := by
      intro asked member
      refine ⟨documented i asked member, fun response found => ?_⟩
      exact recordable.each i response (List.mem_filterMap.mpr ⟨asked, member, found⟩)
    obtain ⟨due, followed, safe⟩ := (attempts_safe _).leads (faithful i) permitted
    obtain rfl := settled_of_rest safe (rest i)
    simpa using (accountant_balance followed).symm
  constructor
  · rw [booked.apiCalls]
    simp only [balanced, List.length_map]
  · rw [booked.tokens]
    simp only [balanced]

end System

/-! ## Poles -/

section Poles

/-- Upstream answers the first attempt with `response`; the breaker rejects the second. -/
def answersWith (response : Response) : Outside Unit := fun _ _ op =>
  match op with
  | .cacheGet _ => some (.ok none)
  | .cacheSet _ _ | .sleep _ => some (.ok ())
  | .acquire | .release | .throttle _ | .count _ _ | .countStatus _ => some ()
  | .admission attempt => some (attempt = 1)
  | .post _ _ => some (.ok response)
  | .uniform _ => some 0

/-- The start of one call, with nothing counted. -/
def oneCall (host : Host) : Calls Unit :=
  Pool.init { apiCalls := 0, tokens := 0 } fun _ => callWithRetry .defaults host "help"

theorem oneCall_exec {host : Host} {response : Response} {rounds : List Round} {result : Dict}
    (run : LoopRun .defaults host "help" (List.range' 1 3) rounds (.ok result))
    (served : ∀ asked ∈ rounds.flatMap Round.trace, ∀ before totals,
      ∃ totals', serve (answersWith response) () before totals asked.1 = some (asked.2, totals')) :
    ∃ w schedule, exec (Pool.step (serve (answersWith response))) (oneCall host) schedule = some w ∧
      AtRest w ∧ w.traces () = rounds.flatMap Round.trace := by
  have ran : Runs (callWithRetry .defaults host "help") (rounds.flatMap Round.trace) (.ok result) :=
    callWithRetry_runs_iff.mpr ⟨rounds, run, rfl⟩
  obtain ⟨w, moved, ended, traced⟩ := Pool.exec_of_leads (w := oneCall host) (i := ()) (leads_of_runs ran) served
  refine ⟨w, _, moved, fun _ status tokens next pending => ?_, by simpa [oneCall, Pool.init] using traced⟩
  rw [ended] at pending
  cases pending

/-- The rounds of a call whose first response is read. -/
theorem answered_run {host : Host} {content : String} {fields : Dict}
    (parsed : parseContent host.loads content.toList = .ok (.object fields)) :
    ∃ rounds result, LoopRun .defaults host "help" (List.range' 1 3) rounds (.ok result) ∧
      rounds.flatMap Round.trace = [⟨.admission 1, true⟩, ⟨.post "help" 1, .ok (completion content 7)⟩,
        ⟨.count "success" (.finite 7), ()⟩] := by
  have called := CallRun.ran (@SingleRun.requested .defaults host "help" 1 rfl (.ok (completion content 7)))
  have read := completion_read (show (0 : ℚ) ≤ 7 by norm_num) (lt_overflow (n := 7) (by decide)) parsed
  have answered : Except.bind (.ok (completion content 7)) (Response.parsed host) = _ := (read_ok_iff_parsed.mp read).1
  have counted : successCount (.ok (.object fields, .number (.finite 7))) = [⟨.count "success" (.finite 7), ()⟩] := rfl
  rw [read, answered, counted] at called
  exact ⟨_, _, LoopRun.returned (guarded_runs_iff.mpr called) rfl, rfl⟩

/-- Satisfiable pole: one response with 7 tokens. -/
theorem accounting_exact_one :
    ∃ w schedule, exec (Pool.step (serve (answersWith (completion (String.ofList okText) 7))))
        (oneCall (hostWith okLoads)) schedule = some w ∧
      responses (w.traces ()) = [completion (String.ofList okText) 7] ∧
      Exact { apiCalls := 0, tokens := 0 } w := by
  have stripped : stripThinkTags okText = okText := stripThinkTags_plain (by decide) (by decide)
  have parsed : parseContent okLoads (String.ofList okText).toList = .ok (.object (summarized ['o', 'k'])) := by
    rw [String.toList_ofList, parseContent_tried, tried, stripped]
    exact firstJson_of_ok _ okLoads_okText
  obtain ⟨rounds, result, run, trace⟩ := @answered_run (hostWith okLoads) _ _ parsed
  obtain ⟨w, schedule, ran, rest, traced⟩ := oneCall_exec run (by
    rw [trace]
    intro asked member before totals
    simp only [List.mem_cons, List.not_mem_nil, or_false] at member
    rcases member with rfl | rfl | rfl <;> exact ⟨_, rfl⟩)
  rw [trace] at traced
  have received : responses (w.traces ()) = [completion (String.ofList okText) 7] := by
    rw [traced]
    rfl
  refine ⟨w, schedule, ran, received, accounting_exact .defaults (hostWith okLoads) (fun _ => "help") ran ?_ rest
    ⟨?_, ?_⟩⟩
  · intro _ asked member
    rw [traced] at member
    simp only [List.mem_cons, List.not_mem_nil, or_false] at member
    rcases member with rfl | rfl | rfl <;> trivial
  · intro _ response member
    rw [received] at member
    rw [List.mem_singleton.mp member]
    obtain ⟨data, json, completed⟩ := readCompletion_completion (String.ofList okText) 7
    exact ⟨data, _, _, _, json, completed, recorded_finite (by norm_num) (lt_overflow (n := 7) (by decide)), parsed⟩
  · have seven : reported (completion (String.ofList okText) 7) = .finite 7 := rfl
    have summed : finitePart (0 : Number) + ∑ _ : Unit, ([completion (String.ofList okText) 7].map fun r =>
        finitePart (reported r)).sum = 7 := by
      simp only [List.map_cons, List.map_nil, List.sum_cons, List.sum_nil, seven]
      change (0 : ℚ) + ∑ _ : Unit, ((7 : ℚ) + 0) = 7
      simp
    simp only [received]
    exact summed.trans_lt (lt_overflow (n := 7) (by decide))

/-- The rounds of a call whose first response does not parse. -/
theorem unparsed_run {host : Host} {content : String}
    (refused : RaisesDecode (parseContent host.loads content.toList)) :
    ∃ rounds result, LoopRun .defaults host "help" (List.range' 1 3) rounds (.ok result) ∧
      rounds.flatMap Round.trace = [⟨.admission 1, true⟩, ⟨.post "help" 1, .ok (completion content 7)⟩,
        ⟨.uniform 1, (0 : ℚ)⟩, ⟨.sleep (.finite (backoffForAttempt .defaults 1 * (1 + 0))), .ok ()⟩,
        ⟨.admission 2, false⟩] := by
  obtain ⟨e, failed, kind⟩ := refused
  have parsed : Except.bind (.ok (completion content 7)) (Response.parsed host) = .error e := by
    change Except.bind (parseContent host.loads content.toList) _ = _
    rw [failed]
    rfl
  have read : Except.bind (.ok (completion content 7)) (Response.read host) = .error e := by
    change Except.bind (Response.parsed host (completion content 7)) _ = _
    change Response.parsed host (completion content 7) = _ at parsed
    rw [parsed]
    rfl
  have called := CallRun.ran (@SingleRun.requested .defaults host "help" 1 rfl (.ok (completion content 7)))
  have rejected := @CallRun.rejected .defaults host "help" 2 rfl
  rw [read, parsed] at called
  have handled : Runs (onError .defaults host "help" 1 e)
      [⟨.uniform 1, (0 : ℚ)⟩, ⟨.sleep (.finite (backoffForAttempt .defaults 1 * (1 + 0))), .ok ()⟩]
      (.ok none) := by
    rw [onError, kind]
    exact .ask (.ask (.done none))
  refine ⟨_, _, LoopRun.again (guarded_runs_iff.mpr called) rfl handled
    (LoopRun.failed (guarded_runs_iff.mpr rejected) rfl (.done _)), rfl⟩

/-- **Refuting pole.** A successful response with 7 tokens whose content is not JSON
leaves the totals as they were. -/
theorem unparsed_response_uncounted :
    ∃ w schedule, exec (Pool.step (serve (answersWith (completion "oops" 7))))
        (oneCall (hostWith okLoads)) schedule = some w ∧ AtRest w ∧
      (∀ asked ∈ w.traces (), Documented asked) ∧
      responses (w.traces ()) = [completion "oops" 7] ∧ reported (completion "oops" 7) = .finite 7 ∧
      w.shared.apiCalls = 0 ∧ w.shared.tokens = 0 ∧ ¬ Exact { apiCalls := 0, tokens := 0 } w := by
  have plain : stripThinkTags "oops".toList = "oops".toList := stripThinkTags_plain (by decide) (by decide)
  have searched : searchText "oops".toList = "oops".toList :=
    searchText_plain (by decide) (by decide) (by decide)
  have nothing : candidates "oops".toList = [] := candidates_none (by decide)
  have refused : RaisesDecode (parseContent okLoads "oops".toList) := by
    rw [parseContent_tried, tried, plain, searched, nothing, firstJson_decode]
    intro text member
    rw [List.mem_singleton.mp member]
    exact knows_notJson _ (by decide)
  obtain ⟨rounds, result, run, trace⟩ := @unparsed_run (hostWith okLoads) "oops" refused
  obtain ⟨w, schedule, ran, rest, traced⟩ := oneCall_exec run (by
    rw [trace]
    intro asked member before totals
    simp only [List.mem_cons, List.not_mem_nil, or_false] at member
    rcases member with rfl | rfl | rfl | rfl | rfl <;> exact ⟨_, rfl⟩)
  rw [trace] at traced
  have received : responses (w.traces ()) = [completion "oops" 7] := by
    rw [traced]
    rfl
  have uncounted : counted (w.traces ()) = [] := by
    rw [traced]
    rfl
  have booked : Booked { apiCalls := 0, tokens := 0 } w :=
    exec_invariant (fun _ _ _ booked stepped => booked.step stepped) schedule _ _ (booked_init _) ran
  have calls : w.shared.apiCalls = 0 := by simpa [uncounted] using booked.apiCalls
  have tokens : w.shared.tokens = 0 := by simpa [uncounted] using booked.tokens
  refine ⟨w, schedule, ran, rest, ?_, received, rfl, calls, tokens, fun exact_ => ?_⟩
  · intro asked member
    rw [traced] at member
    simp only [List.mem_cons, List.not_mem_nil, or_false] at member
    rcases member with rfl | rfl | rfl | rfl | rfl <;> trivial
  · have grown := exact_.apiCalls
    simp [calls, received] at grown

end Poles

end InferenceForge.Pipeline.Accounting
