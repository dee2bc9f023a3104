/-
# InferenceForge.Api.Judgement — three tests for success

`process_ticket` stores a result whose `error` is missing or `None`. `_process_job`
counts an entry as failed, and `get_results` lists it under the failures, if its
`error` is true. An object of the model may have an `error` in between: `""`, `0`,
`False` or an empty container is not `None` and not true, so that the result is not
stored, and is completed and listed all the same (`empty_error_completed`).

The three agree exactly on the other objects, as long as a `SET` that raises has
not taken effect (`judged_alike_iff`).
-/
import InferenceForge.Api.JobCost

namespace InferenceForge.Api

open InferenceForge.Python InferenceForge.Library InferenceForge.Pipeline
open InferenceForge.Pipeline.JobStore (Act JobRedis performAll resultsKey)

set_option autoImplicit false

/-! ## The verdict of the cache -/

section Cache

variable {settings : Settings} {host : Host} {ticket : String} {trace : TicketTrace}
  {result : Except Exn Dict} {applied : Prop} {fields : Dict} {tokens : Json}

/-- The ticket writes a record to the cache. A `SET` that raises has written it if it
was `applied` nevertheless. -/
def WritesCache (applied : Prop) (trace : TicketTrace) : Prop :=
  ∃ key value stored, (⟨.cacheSet key value, stored⟩ : Asked TicketOp TicketAnswer) ∈ trace ∧
    (stored = .ok () ∨ applied)

/-- How a ticket goes for which the model has returned an object. -/
inductive Verdict (fields : Dict) (trace : TicketTrace) (result : Except Exn Dict) : Prop
  | unstored (error : Dict.isNone fields "error" = false)
      (nothing : ∀ key value stored, ⟨.cacheSet key value, stored⟩ ∉ trace) (record : Dict)
      (returned : result = .ok record) (same : Dict.truthy record "error" = Dict.truthy fields "error")
  | asked (noError : Dict.isNone fields "error" = true) (stored : Except Exn Unit)
      (some_ : ∃ key value, ⟨.cacheSet key value, stored⟩ ∈ trace)
      (only : ∀ key value other, ⟨.cacheSet key value, other⟩ ∈ trace → other = stored) (record : Dict)
      (returned : result = stored.map fun _ => record)
      (same : Dict.truthy record "error" = Dict.truthy fields "error")

theorem isNone_set_of_ne (d : Dict) {key other : String} (ne : other ≠ key) (value : Json) :
    Dict.isNone (Dict.set d key value) other = Dict.isNone d other := by
  rw [Dict.isNone, Dict.get?_set_of_ne d ne, Dict.isNone]

/-- The record of an object has the object's `error`. -/
theorem read_record {record : Dict} (origin : Origin host ticket trace (.ok record))
    (read : (answers host trace).filter isObject = [(.object fields, tokens)]) :
    record = Dict.set fields "tokens" tokens := by
  generalize outcome : Except.ok record = result at origin
  cases origin with
  | read fields' tokens' objects =>
      cases outcome
      cases objects.symm.trans read
      rfl
  | mocked none_ | failed _ _ none_ | raised _ none_ => cases none_.symm.trans read

/-- A store that follows the upstream call. -/
theorem cacheSet_missed {upstream last : TicketTrace} {ended : Except Exn Dict} {key : String} {value : Dict}
    {stored : Except Exn Unit} (called : Runs (callWithRetry settings host ticket) upstream ended) :
    ⟨.cacheSet key value, stored⟩ ∈ missed host ticket ++ (upstream ++ last) ↔
      ⟨.cacheSet key value, stored⟩ ∈ last := by
  have outside : (⟨.cacheSet key value, stored⟩ : Asked TicketOp TicketAnswer) ∉ upstream :=
    fun member => callWithRetry_upstream called _ member
  simp [missed, outside]

theorem verdict (ran : Runs (processTicket settings host ticket) trace result)
    (read : (answers host trace).filter isObject = [(.object fields, tokens)]) : Verdict fields trace result := by
  cases processTicket_runs_iff.mp ran with
  | lookupRaised e => cases read
  | hit cached => cases read
  | raised upstream e called =>
      rw [answers_missed rfl, (callWithRetry_origin called).no_object] at read
      cases read
  | failed upstream record called error =>
      rw [answers_missed rfl] at read
      obtain rfl := read_record (callWithRetry_origin called) read
      rw [isNone_set_of_ne _ (by decide)] at error
      refine .unstored error (fun key value stored member => ?_) _ rfl ?_
      · rw [cacheSet_missed called] at member
        cases List.mem_singleton.mp member
      · rw [Dict.truthy_set_of_ne _ (by decide), Dict.truthy_set_of_ne _ (by decide)]
  | classified upstream record stored called noError =>
      rw [answers_missed rfl] at read
      obtain rfl := read_record (callWithRetry_origin called) read
      rw [isNone_set_of_ne _ (by decide)] at noError
      refine .asked noError stored ?_ (fun key value other member => ?_) _ rfl ?_
      · exact ⟨_, _, (cacheSet_missed called).mpr (List.mem_cons_of_mem _ List.mem_cons_self)⟩
      · rw [cacheSet_missed called] at member
        rcases List.mem_cons.mp member with impossible | member
        · cases impossible
        · cases List.mem_singleton.mp member
          rfl
      · rw [Dict.truthy_set_of_ne _ (by decide), Dict.truthy_set_of_ne _ (by decide)]

/-- The condition on the object, and on the `SET` if it comes to one: its `error` is
missing, null or true, and no `SET` takes effect and raises. -/
def Decided (applied : Prop) (fields : Dict) (trace : TicketTrace) : Prop :=
  Dict.truthy fields "error" = true ∨
    (Dict.isNone fields "error" = true ∧ ¬ (applied ∧ storeFaulted trace = true))

/-- **The cache agrees** with the test of the report exactly on those objects. -/
theorem Verdict.agrees_iff (verdict : Verdict fields trace result) :
    (WritesCache applied trace ↔ ticketFailed result = false) ↔ Decided applied fields trace := by
  cases verdict with
  | unstored error nothing record returned same =>
      have unwritten : ¬ WritesCache applied trace := by
        rintro ⟨key, value, stored, member, _⟩
        exact nothing key value stored member
      rw [returned, ticketFailed, same]
      simp [Decided, unwritten, error]
  | asked noError stored some_ only record returned same =>
      obtain ⟨key, value, member⟩ := some_
      have written : WritesCache applied trace ↔ stored = .ok () ∨ applied := by
        constructor
        · rintro ⟨key', value', other, member', effect⟩
          rwa [only key' value' other member'] at effect
        · intro effect
          exact ⟨key, value, stored, member, effect⟩
      have quiet := Dict.not_truthy_of_isNone noError
      rw [written, returned]
      cases stored with
      | ok _ =>
          have unfaulted : storeFaulted trace = false := by
            apply List.any_eq_false.mpr
            intro asked there fault
            unfold isStoreFault at fault
            split at fault
            · cases only _ _ _ there
            · cases fault
          simp [Decided, noError, unfaulted, ticketFailed, Except.map, same, quiet]
      | error e =>
          have faulted : storeFaulted trace = true := List.any_eq_true.mpr ⟨_, member, rfl⟩
          simp [Decided, noError, faulted, quiet, Except.map, ticketFailed]

end Cache

/-! ## The verdicts of the job and of the report -/

section Job

variable {settings : Settings} {host : Host} {traces : Entry → TicketTrace} {entry : Entry}
  {ended : Except Exn Dict} {applied : Prop}

/-- `_process_job` counts the entry as completed rather than failed. -/
def CountedCompleted (s : Settlement) : Prop :=
  among [record s] .completed = 1 ∧ among [record s] .failed = 0

theorem countedCompleted_iff (s : Settlement) : CountedCompleted s ↔ ticketFailed s.2 = false := by
  have counts : among [record s] .completed = (if ticketFailed s.2 then 0 else 1) ∧
      among [record s] .failed = if ticketFailed s.2 then 1 else 0 := by
    simp only [among, batchCompleted, batchFailed, List.countP_singleton, record_error]
    cases ticketFailed s.2 <;> simp
  rw [CountedCompleted, counts.1, counts.2]
  cases ticketFailed s.2 <;> simp

/-- A response that reports the job of the ticket as done. -/
inductive ReportsDone (settings : Settings) (host : Host) (traces : Entry → TicketTrace) (entry : Entry) :
    ResultsResponse → Prop
  | read {Q : TicketQueue} {body : ProcessRequest settings} (sub : Submission Q settings host body)
      {timed before between after : List (ℚ × Act)} {now later : ℚ} {s : JobRedis} {r : ResultsResponse}
      (queued : entry ∈ enumerate sub.job.uniqueTickets)
      (tickets : Held (Settled (RanAs settings host traces)) sub.jobTrace)
      (called : timed.map Prod.snd = sub.calls) (split : timed = before ++ between ++ after)
      (fresh : s.keys (resultsKey sub.response.jobId) = none)
      (reported : Api.getResults sub.response.jobId now (performAll settings sub.response.jobId s before)
        later (performAll settings sub.response.jobId s (before ++ between)) = .ok (some r))
      (done : r.status = "done") : ReportsDone settings host traces entry r

/-- `get_results` lists the entry under the results rather than the failures. -/
def ListedResult (s : Settlement) (r : ResultsResponse) : Prop :=
  record s ∈ r.results.getD [] ∧ record s ∉ r.failures.getD []

theorem ReportsDone.listed_iff {r : ResultsResponse} (reports : ReportsDone settings host traces entry r)
    (ran : RanAs settings host traces entry ended) :
    ListedResult (entry, ended) r ↔ ticketFailed ended = false := by
  cases reports with
  | read sub queued tickets called split fresh reported done =>
      obtain ⟨state, stored, _, _, read, results, failures⟩ := done_response reported done
      obtain ⟨found, dedup, job, _, _⟩ := sub.shape (known_any _)
      obtain ⟨reply, _, in_job⟩ := finish_of_stored called split fresh read
      obtain ⟨rounds, totals, settled, ledger, same⟩ := (processJob_runs sub.ran tickets).finished in_job
      have there : record (entry, ended) ∈ stored := by
        have entries : (enumerate sub.job.uniqueTickets : Multiset Entry) = (settled.map Prod.fst : Multiset Entry) :=
          ledger.conserved.trans (add_zero _)
        have settled_here : entry ∈ settled.map Prod.fst := by
          rw [← Multiset.mem_coe, ← entries]
          exact Multiset.mem_coe.mpr queued
        obtain ⟨⟨entry', ended'⟩, member, rfl⟩ := List.mem_map.mp settled_here
        obtain rfl := ran.unique (ledger.known _ member)
        rw [same, ledger.results]
        exact List.mem_append_right _ (List.mem_map_of_mem member)
      rw [ListedResult, results, failures, List.mem_filter, List.mem_filter, record_error]
      cases ticketFailed ended <;> simp [there]

/-- The cache, the counters and the report judge a ticket alike. -/
structure JudgedAlike (settings : Settings) (host : Host) (traces : Entry → TicketTrace) (applied : Prop)
    (entry : Entry) (ended : Except Exn Dict) : Prop where
  counted : WritesCache applied (traces entry) ↔ CountedCompleted (entry, ended)
  listed : ∀ r, ReportsDone settings host traces entry r →
    (WritesCache applied (traces entry) ↔ ListedResult (entry, ended) r)

/-- **A ticket is judged alike** exactly if the object's `error` is missing, null or
true, and the `SET` does not raise once it has taken effect. -/
theorem judged_alike_iff {fields : Dict} {tokens : Json} (ran : RanAs settings host traces entry ended)
    (read : (answers host (traces entry)).filter isObject = [(.object fields, tokens)]) :
    JudgedAlike settings host traces applied entry ended ↔ Decided applied fields (traces entry) := by
  rw [← (verdict ran read).agrees_iff]
  constructor
  · intro alike
    exact alike.counted.trans (countedCompleted_iff (entry, ended))
  · intro agree
    refine ⟨agree.trans (countedCompleted_iff (entry, ended)).symm, fun r reports => ?_⟩
    exact agree.trans (reports.listed_iff ran).symm

end Job

/-! ## Poles -/

section Poles

theorem help_read : (answers plainHost (helpTraces ("help", 0))).filter isObject =
    [(.object [("category", .string "billing")], .number (.finite 7))] := rfl

/-- Satisfiable pole: an object without an `error`. -/
theorem judged_alike_iff_classified :
    JudgedAlike .defaults plainHost helpTraces False ("help", 0) helpEnded :=
  (judged_alike_iff (helpTraces_runs 0) help_read).mpr (.inr ⟨rfl, fun both => both.1⟩)

/-- A host that knows an object whose `error` is empty. -/
def emptyErrorHost : Host where
  lower := id
  repr := id
  sha256 := id
  loads text :=
    if text = "\x7b\"category\":\"billing\",\"error\":\"\"\x7d" then
      .ok (.object [("category", .string "billing"), ("error", .string "")])
    else .error { kind := .jsonDecode, message := "Expecting value" }

/-- Upstream answers with it. -/
def emptyErrorWorld : TicketWorld where
  cached := none
  admits _ := true
  response _ := .ok {
    statusCode := 200
    retryAfter := none
    json := .ok (.object [("choices", .array [.object [("message", .object [("content",
      .string "</think>\x7b\"category\":\"billing\",\"error\":\"\"\x7d")])]]),
      ("usage", .object [("total_tokens", .number (.finite 7))])]) }
  jitter _ := 0
  nanSleep := .ok ()

def emptyErrorEnded : Except Exn Dict :=
  .ok [("category", .string "billing"), ("error", .string ""), ("tokens", .number (.finite 7)),
    ("cache_hit", .bool false)]

def emptyErrorTraces : Entry → TicketTrace := fun _ =>
  (runWith (fun _ => emptyErrorWorld.answer) (processTicket .defaults emptyErrorHost "help") 0).1

theorem emptyError_runs : RanAs .defaults emptyErrorHost emptyErrorTraces ("help", 0) emptyErrorEnded := by
  have ended : (runWith (fun _ => emptyErrorWorld.answer) (processTicket .defaults emptyErrorHost "help") 0).2 =
      some emptyErrorEnded := rfl
  exact (runWith_runs ended).1

def isSet : Asked TicketOp TicketAnswer → Bool
  | ⟨.cacheSet _ _, _⟩ => true
  | _ => false

/-- **Refuting pole.** An object with an empty `error` is completed, and not stored. -/
theorem empty_error_completed :
    RanAs .defaults emptyErrorHost emptyErrorTraces ("help", 0) emptyErrorEnded ∧
      (answers emptyErrorHost (emptyErrorTraces ("help", 0))).filter isObject =
        [(.object [("category", .string "billing"), ("error", .string "")], .number (.finite 7))] ∧
      ¬ WritesCache False (emptyErrorTraces ("help", 0)) ∧ CountedCompleted (("help", 0), emptyErrorEnded) ∧
      ¬ JudgedAlike .defaults emptyErrorHost emptyErrorTraces False ("help", 0) emptyErrorEnded := by
  have unwritten : ¬ WritesCache False (emptyErrorTraces ("help", 0)) := by
    rintro ⟨key, value, stored, member, _⟩
    have none_ : (emptyErrorTraces ("help", 0)).all (fun asked => !isSet asked) = true := rfl
    cases List.all_eq_true.mp none_ _ member
  have completed : CountedCompleted (("help", 0), emptyErrorEnded) := ⟨rfl, rfl⟩
  exact ⟨emptyError_runs, rfl, unwritten, completed, fun alike => unwritten (alike.counted.mpr completed)⟩

end Poles

end InferenceForge.Api
