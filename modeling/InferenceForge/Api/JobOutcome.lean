/-
# InferenceForge.Api.JobOutcome — what a reader finds when a job is done

When `GET /results` reports a job as done, the stored list is the one `finish` was
given: the entries found in the cache when the job was requested, and one entry
for each unique ticket (`done_results`).

A ticket that occurs again in its own request has no entry. So every submitted
ticket has exactly one if and only if no two of them have the same normalised
form (`one_outcome_iff_nodup`), although the counters count the others as done.
The counters agree with the stored list otherwise (`counters_reconcile`).
-/
import InferenceForge.Api.JobExpiry
import InferenceForge.Pipeline.TicketRuns
import InferenceForge.Pipeline.TicketWorld

namespace InferenceForge.Api

open InferenceForge.Python InferenceForge.Library InferenceForge.Pipeline
open InferenceForge.Pipeline.JobStore

set_option autoImplicit false

/-! ## The response of a job that is done -/

section Response

variable {settings : Settings} {jobId : String} {now later : ℚ} {s s' : JobRedis} {r : ResultsResponse}

/-- A response reports done and splits the stored list, or has no results. -/
theorem reported_cases (reported : Api.getResults jobId now s later s' = .ok (some r)) :
    (∃ state stored, JobStore.getState jobId now s = some state ∧ statusOf state = "done" ∧
      JobStore.getResults jobId later s' = some stored ∧ r.status = "done" ∧
      r.results.getD [] = stored.filter (fun entry => !Dict.truthy entry "error") ∧
      r.failures.getD [] = stored.filter fun entry => Dict.truthy entry "error") ∨
    (r.status ≠ "done" ∧ r.results = none) := by
  unfold Api.getResults respond at reported
  cases found : JobStore.getState jobId now s with
  | none =>
      rw [found] at reported
      cases reported
  | some state =>
      rw [found] at reported
      dsimp only at reported
      by_cases done : statusOf state = "done"
      · rw [if_pos done] at reported
        cases there : JobStore.getResults jobId later s' with
        | none =>
            rw [there] at reported
            cases reported
        | some stored =>
            rw [there] at reported
            cases reported
            refine .inl ⟨state, stored, rfl, done, rfl, rfl, rfl, ?_⟩
            dsimp only
            split
            · next empty => exact (List.isEmpty_iff.mp empty).symm
            · rfl
      · rw [if_neg done] at reported
        right
        cases progress : progressOf state with
        | error e => split at reported <;> simp [progress, bind, Except.bind] at reported
        | ok value =>
            simp only [progress, bind, Except.bind, pure, Except.pure] at reported
            split at reported
            · cases reported
              exact ⟨by simp, rfl⟩
            · cases reported
              exact ⟨done, rfl⟩

/-- A response that reports done splits the stored list. -/
theorem done_response (reported : Api.getResults jobId now s later s' = .ok (some r))
    (done : r.status = "done") :
    ∃ state stored, JobStore.getState jobId now s = some state ∧ statusOf state = "done" ∧
      JobStore.getResults jobId later s' = some stored ∧
      r.results.getD [] = stored.filter (fun entry => !Dict.truthy entry "error") ∧
      r.failures.getD [] = stored.filter fun entry => Dict.truthy entry "error" := by
  rcases reported_cases reported with ⟨state, stored, found, is_done, there, _, parts⟩ | ⟨other, _⟩
  · exact ⟨state, stored, found, is_done, there, parts⟩
  · exact absurd done other

end Response

/-! ## The stored list -/

section Stored

variable {Q : TicketQueue} {settings : Settings} {host : Host} {body : ProcessRequest settings}
  {sub : Submission Q settings host body} {timed before after : List (ℚ × Act)} {now : ℚ}
  {s : JobRedis} {known : CacheFact} {fact : Entry → Except Exn Dict → Prop}

/-- The calls of a request, for what its loop has found. -/
theorem Submission.calls_eq {found : Dedup}
    (posted : acts sub.postTrace = (.create body.tickets.length, .ok) :: countCalls found) :
    sub.calls = (.create body.tickets.length, .ok) :: (countCalls found ++ acts sub.jobTrace) := by
  rw [Submission.calls, posted]
  rfl

/-- A `finish` is one of the task's calls. -/
theorem finish_in_job {stored : List Dict} {reply : Reply} (in_calls : (.finish stored, reply) ∈ sub.calls) :
    (.finish stored, reply) ∈ acts sub.jobTrace := by
  obtain ⟨found, _, _, _, posted⟩ := sub.shape (known_any _)
  rw [Submission.calls_eq posted] at in_calls
  rcases List.mem_cons.mp in_calls with same | member
  · cases same
  · rcases List.mem_append.mp member with member | member
    · unfold countCalls at member
      split at member
      · cases List.mem_singleton.mp member
      · cases member
    · exact member

/-- A stored list was given to a `finish` of the task. -/
theorem finish_of_stored {stored : List Dict} (called : timed.map Prod.snd = sub.calls)
    (split : timed = before ++ after)
    (fresh : s.keys (resultsKey sub.response.jobId) = none)
    (read : JobStore.getResults sub.response.jobId now
      (performAll settings sub.response.jobId s before) = some stored) :
    ∃ reply, (.finish stored, reply) ∈ before.map Prod.snd ∧
      (.finish stored, reply) ∈ acts sub.jobTrace := by
  have there : ∃ expiry, (performAll settings sub.response.jobId s before).keys
      (resultsKey sub.response.jobId) = some ⟨.document stored, expiry⟩ := by
    unfold JobStore.getResults Redis.get at read
    split at read
    · next document expiry live =>
        cases read
        exact ⟨expiry, (live_eq_some.mp live).1⟩
    · cases read
  obtain ⟨expiry, there⟩ := there
  rcases performAll_results there with absurd_there | ⟨⟨instant, call, reply⟩, member, rfl, _⟩
  · rw [fresh] at absurd_there
    cases absurd_there
  · have in_before : (.finish stored, reply) ∈ before.map Prod.snd := List.mem_map_of_mem member
    refine ⟨reply, in_before, finish_in_job ?_⟩
    rw [← called, split, List.map_append]
    exact List.mem_append_left _ in_before

/-- **The stored list**: the entries found in the cache, and one for each unique
ticket. -/
theorem done_results {stored : List Dict} (called : timed.map Prod.snd = sub.calls)
    (split : timed = before ++ after)
    (fresh : s.keys (resultsKey sub.response.jobId) = none)
    (read : JobStore.getResults sub.response.jobId now
      (performAll settings sub.response.jobId s before) = some stored)
    (cache : Known known sub.postTrace) (batches : Held (Settled fact) sub.jobTrace) :
    ∃ found rounds totals settled, Deduplicated host known body.tickets found ∧
      Ledger fact (enumerate found.uniqueTickets : Multiset Entry) 0 (initialTotals sub.job) totals
        rounds settled ∧
      stored = found.preCachedResults ++ settled.map record := by
  obtain ⟨found, dedup, job, _, _⟩ := sub.shape cache
  obtain ⟨reply, _, in_job⟩ := finish_of_stored called split fresh read
  obtain ⟨rounds, totals, settled, ledger, same⟩ := (processJob_runs sub.ran batches).finished in_job
  rw [job] at ledger
  exact ⟨found, rounds, totals, settled, dedup, job ▸ ledger, same.trans ledger.results⟩

/-- The tickets of settled entries. -/
theorem Ledger.tickets {tickets : List String} {totals totals' : Totals} {calls : List Act}
    {settled : List Settlement}
    (ledger : Ledger fact (enumerate tickets : Multiset Entry) 0 totals totals' calls settled) :
    ((settled.map record).map ticketOf : Multiset (Option Json)) =
      tickets.map (some ∘ Json.string) := by
  have named : ticketOf ∘ record = some ∘ Json.string ∘ Prod.fst ∘ Prod.fst := by
    funext s
    exact Dict.get?_set_self _ _ _
  have apart : (enumerate tickets).map (some ∘ Json.string ∘ Prod.fst) =
      tickets.map (some ∘ Json.string) := by
    conv_rhs => rw [← enumerate_tickets tickets 0, List.map_map]
    rfl
  have conserved := congrArg (Multiset.map (some ∘ Json.string ∘ Prod.fst)) ledger.conserved
  rw [add_zero, Multiset.map_coe, Multiset.map_coe, List.map_map, apart] at conserved
  rw [List.map_map, named, conserved]
  rfl

theorem Ledger.length {tickets : List String} {totals totals' : Totals} {calls : List Act}
    {settled : List Settlement}
    (ledger : Ledger fact (enumerate tickets : Multiset Entry) 0 totals totals' calls settled) :
    settled.length = tickets.length := by
  have cards := congrArg Multiset.card ledger.conserved
  simpa using cards.symm

end Stored

/-! ## One outcome for each submitted ticket -/

/-- Every submitted ticket has one entry, as a result or as a failure. -/
structure OneOutcome (tickets : List String) (total : ℕ) (r : ResultsResponse) : Prop where
  counts : (r.results.getD []).length + (r.failures.getD []).length = tickets.length
  total : total = tickets.length
  tickets : ((r.results.getD [] ++ r.failures.getD []).map ticketOf : Multiset (Option Json)) =
    tickets.map (some ∘ Json.string)

section Outcomes

variable {Q : TicketQueue} {settings : Settings} {host : Host} {body : ProcessRequest settings}
  {sub : Submission Q settings host body} {timed before between after : List (ℚ × Act)} {now later : ℚ}
  {s : JobRedis} {r : ResultsResponse}

/-- Results and failures are the stored entries. -/
theorem split_perm (stored : List Dict) :
    (stored.filter (fun entry => !Dict.truthy entry "error") ++
      stored.filter fun entry => Dict.truthy entry "error").Perm stored :=
  List.perm_append_comm.trans (List.filter_append_perm _ stored)

/-- **One outcome per submitted ticket**, exactly when no ticket occurs again in
its request: whenever the job is reported as done, whatever the cache held and
whatever upstream answered. -/
theorem one_outcome_iff_nodup (called : timed.map Prod.snd = sub.calls)
    (split : timed = before ++ between ++ after) (fresh : s.keys (resultsKey sub.response.jobId) = none)
    (reported : Api.getResults sub.response.jobId now (performAll settings sub.response.jobId s before)
      later (performAll settings sub.response.jobId s (before ++ between)) = .ok (some r))
    (done : r.status = "done") :
    OneOutcome body.tickets sub.response.total r ↔ (body.tickets.map (normalize host)).Nodup := by
  obtain ⟨_, stored, _, _, read, results, failures⟩ := done_response reported done
  obtain ⟨found, rounds, totals, settled, dedup, ledger, same⟩ :=
    done_results called split fresh read (known_any _) (settled_any _)
  have perm := split_perm stored
  have total : sub.response.total = body.tickets.length :=
    (sub.shape (known_any _)).choose_spec.2.2.1
  have counted : stored.length = distinct host body.tickets := by
    rw [same, List.length_append, List.length_map, ledger.length, ← dedup.firsts]
  rw [← distinct_eq_length_iff]
  constructor
  · intro outcome
    have counts := outcome.counts
    rw [results, failures, ← List.length_append, perm.length_eq, counted] at counts
    exact counts
  · intro all
    refine ⟨?_, total, ?_⟩
    · rw [results, failures, ← List.length_append, perm.length_eq, counted, all]
    · rw [results, failures, Multiset.coe_eq_coe.mpr (perm.map ticketOf), same, List.map_append,
        ← Multiset.coe_add, ledger.tickets]
      exact dedup.named (distinct_eq_length_iff.mp all)

end Outcomes

/-! ## The counters -/

/-- `entry["cache_hit"] is True`. -/
def isHit (entry : Dict) : Bool :=
  match Dict.get? entry "cache_hit" with
  | some (.bool hit) => hit
  | _ => false

/-- The number of tickets that occur again in their request. -/
def repeated (host : Host) (tickets : List String) : ℕ := tickets.length - distinct host tickets

/-- The failed count of the last progress event, 0 if there was none. -/
def lastFailed (jobId : String) (published : List (String × Dict)) : Json :=
  ((published.filterMap fun (channel, event) =>
    if channel = eventChannel jobId then Dict.get? event "failed" else none).getLast?).getD (count 0)

/-- A reported rate. -/
def IsRate (value : Option Json) : Prop :=
  ∃ q, value = some (.number (.finite q)) ∧ 0 ≤ q ∧ q ≤ 1

/-- The counters of a job of `n` tickets, its last progress event, the stored
entries and the response agree. -/
structure Reconciled (n repeated : ℕ) (state : Hash) (event : Json)
    (stored results failures : List Dict) : Prop where
  failed : state "failed_count" = some (.int failures.length)
  event : event = count failures.length
  completed : state "completed" = some (.int (n - failures.length))
  cacheHits : state "cache_hits" = some (.int (repeated + stored.countP isHit : ℕ))
  outcomes : results.length + failures.length = n - repeated
  apart : ∀ entry ∈ stored, ¬ (isHit entry = true ∧ Dict.truthy entry "error" = true)
  bounded : repeated + stored.countP isHit + failures.length ≤ n

/-- How the coroutine of a ticket ended, over a cache written by earlier tickets. -/
def FromTicket (settings : Settings) (host : Host) (entry : Entry) (ended : Except Exn Dict) : Prop :=
  ∃ trace, Runs (processTicket settings host entry.1) trace ended ∧
    ∀ key cached, ⟨.cacheGet key, .ok (some cached)⟩ ∈ trace → Written settings host cached

/-- What a ticket comes to has a number of tokens, if what it finds in the cache does. -/
theorem record_numeric {settings : Settings} {host : Host} {entry : Entry} {trace : TicketTrace}
    {ended : Except Exn Dict} (ran : Runs (processTicket settings host entry.1) trace ended)
    (cache : ∀ key cached, ⟨.cacheGet key, .ok (some cached)⟩ ∈ trace → NumericTokens cached) :
    NumericTokens (record (entry, ended)) := by
  refine NumericTokens.set ?_ (by decide) _
  cases ended with
  | error e => exact numericTokens_failureResult entry.1 (errorText e)
  | ok result => exact processTicket_numeric ran cache

theorem FromTicket.numeric {settings : Settings} {host : Host} {settled : Settlement}
    (from_ticket : FromTicket settings host settled.1 settled.2) : NumericTokens (record settled) := by
  obtain ⟨trace, ran, cache⟩ := from_ticket
  exact record_numeric ran fun key cached member => (cache key cached member).numericTokens

section Counters

variable {Q : TicketQueue} {settings : Settings} {host : Host} {body : ProcessRequest settings}
  {sub : Submission Q settings host body} {timed before between after : List (ℚ × Act)} {now later : ℚ}
  {s : JobRedis} {r : ResultsResponse}

/-- An entry found in the cache is a hit without an error. -/
theorem preCachedEntry_facts {cached : Dict} (written : Written settings host cached)
    (ticket : String) :
    isHit (preCachedEntry ticket cached) = true ∧
      Dict.truthy (preCachedEntry ticket cached) "error" = false := by
  constructor
  · simp only [isHit, preCachedEntry, Dict.get?_set_self]
  · rw [preCachedEntry, Dict.truthy_set_of_ne _ (by decide), Dict.truthy_set_of_ne _ (by decide)]
    exact written.noError

/-- The counter of a settled entry sees what `isHit` sees, and no hit has an error. -/
theorem record_facts {entry : Settlement} (from_ticket : FromTicket settings host entry.1 entry.2) :
    Dict.truthy (record entry) "cache_hit" = isHit (record entry) ∧
      ¬ (isHit (record entry) = true ∧ Dict.truthy (record entry) "error" = true) := by
  obtain ⟨⟨ticket, index⟩, ended⟩ := entry
  obtain ⟨trace, ran, cache⟩ := from_ticket
  have hit_of : ∀ result hit, Dict.truthy (record ((ticket, index), .ok
      (Dict.set result "cache_hit" (.bool hit)))) "cache_hit" = hit ∧
      isHit (record ((ticket, index), .ok (Dict.set result "cache_hit" (.bool hit)))) = hit := by
    intro result hit
    have field : Dict.get? (record ((ticket, index), .ok
        (Dict.set result "cache_hit" (.bool hit)))) "cache_hit" = some (.bool hit) := by
      rw [record, Dict.get?_set_of_ne _ (by decide)]
      exact Dict.get?_set_self _ _ _
    constructor
    · rw [Dict.truthy, field]
      rfl
    · rw [isHit, field]
  have no_hit : ∀ error, Dict.get? (record ((ticket, index), .error error)) "cache_hit" = none := by
    intro error
    rw [record, Dict.get?_set_of_ne _ (by decide)]
    rfl
  cases processTicket_runs_iff.mp ran with
  | lookupRaised e => simp [Dict.truthy, isHit, no_hit]
  | raised upstream e called => simp [Dict.truthy, isHit, no_hit]
  | hit cached =>
      have written := cache _ cached List.mem_cons_self
      have clean : Dict.truthy (record ((ticket, index), .ok
          (Dict.set cached "cache_hit" (.bool true)))) "error" = false := by
        rw [record, Dict.truthy_set_of_ne _ (by decide)]
        exact (Dict.truthy_set_of_ne _ (by decide) _).trans written.noError
      obtain ⟨truthy, hit⟩ := hit_of cached true
      rw [truthy, hit, clean]
      decide
  | failed upstream result called error =>
      obtain ⟨truthy, hit⟩ := hit_of result false
      exact ⟨truthy.trans hit.symm, fun both => Bool.false_ne_true (hit.symm.trans both.1)⟩
  | classified upstream result stored called noError =>
      cases stored with
      | error e => simp [Dict.truthy, isHit, no_hit]
      | ok _ =>
          obtain ⟨truthy, hit⟩ := hit_of result false
          exact ⟨truthy.trans hit.symm, fun both => Bool.false_ne_true (hit.symm.trans both.1)⟩

section Stored

variable {found : Dedup} {settled : List Settlement}

theorem stored_hits
    (cached : ∀ entry ∈ found.preCachedResults, isHit entry = true)
    (known : ∀ s ∈ settled, FromTicket settings host s.1 s.2) :
    (found.preCachedResults ++ settled.map record).countP isHit =
      found.preCachedResults.length + among (settled.map record) .cacheHits := by
  have counted : (settled.map record).countP isHit = among (settled.map record) .cacheHits := by
    refine List.countP_congr fun entry member => ?_
    obtain ⟨settlement, there, rfl⟩ := List.mem_map.mp member
    rw [(record_facts (known settlement there)).1]
  rw [List.countP_append, counted, List.countP_eq_length.mpr cached]

theorem stored_failures (settled : List Settlement)
    (cached : ∀ entry ∈ found.preCachedResults, Dict.truthy entry "error" = false) :
    ((found.preCachedResults ++ settled.map record).filter fun entry =>
      Dict.truthy entry "error").length = among (settled.map record) .failed := by
  have none : found.preCachedResults.countP (fun entry => Dict.truthy entry "error") = 0 := by
    rw [List.countP_eq_zero]
    intro entry member
    rw [cached entry member]
    decide
  rw [← List.countP_eq_length_filter, List.countP_append, none, zero_add]
  rfl

/-- A settled ticket is not both a hit and a failure. -/
theorem hits_add_failed_le (known : ∀ s ∈ settled, FromTicket settings host s.1 s.2) :
    among (settled.map record) .cacheHits + among (settled.map record) .failed ≤ settled.length := by
  have apart : (settled.map record).countP (fun entry => Dict.truthy entry "error") ≤
      (settled.map record).countP fun entry => ¬ Dict.truthy entry "cache_hit" = true := by
    refine List.countP_mono_left fun entry member failed => ?_
    obtain ⟨settlement, there, rfl⟩ := List.mem_map.mp member
    obtain ⟨same, exclusive⟩ := record_facts (known settlement there)
    rw [same]
    simpa using fun hit => exclusive ⟨hit, failed⟩
  have length := List.length_eq_countP_add_countP (fun entry => Dict.truthy entry "cache_hit")
    (l := settled.map record)
  rw [List.length_map] at length
  show (settled.map record).countP _ + (settled.map record).countP _ ≤ _
  omega

theorem tally_countCalls (counter : Counter) :
    tally counter (countCalls found) =
      match counter with
      | .failed => 0
      | _ => found.cachedCount := by
  unfold countCalls
  by_cases none : found.cachedCount = 0
  · cases counter <;> simp [none]
  · cases counter <;> simp [none, StoreCall.adds]

end Stored

/-- A rate of a part of the tickets. -/
theorem isRate_of_le {part total : ℕ} (le : part ≤ total) :
    IsRate (some (.number (.finite (round 4 (rate part total))))) := by
  refine ⟨_, rfl, ?_⟩
  unfold rate
  split
  · exact round_ratio le
  · exact ⟨round_nonneg le_rfl, round_le_one zero_le_one⟩

/-- A part of a run that has come to the last but one call. -/
theorem prefix_of_member {α : Type} {before after first : List α} {last lastly member : α}
    (split : before ++ after = first ++ [last, lastly]) (there : member ∈ before)
    (absent : member ∉ first) : before = first ++ [last] ∨ before = first ++ [last, lastly] := by
  rcases List.append_eq_append_iff.mp split with ⟨more, rfl, _⟩ | ⟨more, rfl, rest⟩
  · exact absurd (List.mem_append_left _ there) absent
  · match more, rest with
    | [], _ => exact absurd (by simpa using there) absent
    | [a], rest =>
        cases rest
        exact .inl rfl
    | [a, b], rest =>
        cases rest
        exact .inr rfl
    | a :: b :: c :: more, rest => simp at rest

/-- The failed counts of published progress events. -/
theorem progress_filterMap (jobId : String) (calls : List Act) (quiet : ∀ act ∈ calls, act.2 = .ok) :
    ((calls.flatMap (sent jobId)).filterMap fun (channel, event) =>
        if channel = eventChannel jobId then Dict.get? event "failed" else none) =
      (calls.filterMap failedOf).map count := by
  induction calls with
  | nil => rfl
  | cons act rest ih =>
      obtain ⟨call, reply⟩ := act
      have replied : reply = .ok := quiet _ List.mem_cons_self
      subst replied
      rw [List.flatMap_cons, List.filterMap_append,
        ih fun act member => quiet act (List.mem_cons_of_mem _ member)]
      cases call with
      | publishProgress completed total cacheHits failed eta =>
          have event : Dict.get? (progressEvent completed total cacheHits failed eta) "failed" =
              some (count failed) := rfl
          simp [sent, message, event, failedOf]
      | publishDone results stats =>
          have event : Dict.get? (doneEvent results stats) "failed" = none := rfl
          simp [sent, message, event, failedOf, List.filterMap_cons]
      | create | start | incrementProgress | finish | fail =>
          simp [sent, message, failedOf, List.filterMap_cons]

theorem countCalls_quiet (found : Dedup) : ∀ act ∈ countCalls found,
    RoundCall act.1 ∧ failedOf act = none := by
  unfold countCalls
  split <;> simp [failedOf, RoundCall]

/-- The calls between `create` and `finish`. -/
theorem early_calls (found : Dedup) {rounds : List Act} (calls : ∀ act ∈ rounds, RoundCall act.1) :
    ∀ act ∈ countCalls found ++ (.start, .ok) :: rounds, RoundCall act.1 ∨ act.1 = .start := by
  intro act member
  rcases List.mem_append.mp member with member | member
  · exact .inl (countCalls_quiet found act member).1
  · rcases List.mem_cons.mp member with rfl | member
    · exact .inr rfl
    · exact .inl (calls act member)

/-- The failed count that a reader of the channel has seen last. -/
theorem lastFailed_of_calls {jobId : String} (silent : ∀ m ∈ s.published, m.1 ≠ eventChannel jobId)
    (quiet : ∀ act ∈ before.map Prod.snd, act.2 = .ok) :
    lastFailed jobId (performAll settings jobId s before).published =
      count ((((before.map Prod.snd).filterMap failedOf).getLast?).getD 0) := by
  have earlier : (s.published.filterMap fun (channel, event) =>
      if channel = eventChannel jobId then Dict.get? event "failed" else none) = [] := by
    rw [List.filterMap_eq_nil_iff]
    intro m member
    exact if_neg (silent m member)
  rw [lastFailed, performAll_published, List.filterMap_append, earlier, List.nil_append,
    progress_filterMap jobId _ quiet, List.getLast?_map, Option.getD_map]

/-- The last progress event has the failed count of the whole job. -/
theorem Ledger.last_failed {found : Dedup} {job : Job} {fact : Entry → Except Exn Dict → Prop}
    {queue rest : Multiset Entry} {totals : Totals} {total : ℕ} {rounds last : List Act}
    {settled : List Settlement}
    (ledger : Ledger fact queue rest (initialTotals job) totals rounds settled)
    (no_last : ∀ act ∈ last, failedOf act = none) :
    ((((.create total, .ok) :: ((countCalls found ++ (.start, .ok) :: rounds) ++ last)).filterMap
      failedOf).getLast?).getD 0 = totals.failedCount := by
  have no_count : (countCalls found).filterMap failedOf = [] :=
    List.filterMap_eq_nil_iff.mpr fun act member => (countCalls_quiet found act member).2
  have start : failedOf (.start, .ok) = none := rfl
  have create : failedOf (.create total, .ok) = none := rfl
  rw [List.filterMap_cons_none create, List.filterMap_append, List.filterMap_append,
    List.filterMap_cons_none start, no_count, List.filterMap_eq_nil_iff.mpr no_last,
    List.append_nil, List.nil_append]
  exact ledger.published

/-- The completion is published once. -/
theorem published_stats {total : ℕ} {first : List Act} {results results' : List Dict}
    {stats stats' : Dict} {finish : Reply}
    (early : ∀ act ∈ first, RoundCall act.1 ∨ act.1 = .start)
    (published : (.publishDone results' stats', .ok) ∈ (StoreCall.create total, Reply.ok) :: (first ++
      [(.finish results, finish), (.publishDone results stats, .ok)])) : stats' = stats := by
  rcases List.mem_cons.mp published with impossible | member
  · cases impossible
  · rcases List.mem_append.mp member with member | member
    · simpa [RoundCall] using early _ member
    · simp only [List.mem_cons, Prod.mk.injEq, StoreCall.publishDone.injEq, reduceCtorEq,
        List.not_mem_nil, or_false, false_and, false_or, and_true] at member
      exact member.2

/-- The list is stored once. -/
theorem finished_results {total : ℕ} {first : List Act} {results results' : List Dict} {finish reply : Reply}
    {stats : Dict} (early : ∀ act ∈ first, RoundCall act.1 ∨ act.1 = .start)
    (finished : (.finish results', reply) ∈ (StoreCall.create total, Reply.ok) :: (first ++
      [(.finish results, finish), (.publishDone results stats, .ok)])) : results' = results := by
  rcases List.mem_cons.mp finished with impossible | member
  · cases impossible
  · rcases List.mem_append.mp member with member | member
    · simpa [RoundCall] using early _ member
    · simp only [List.mem_cons, Prod.mk.injEq, StoreCall.finish.injEq, reduceCtorEq,
        List.not_mem_nil, or_false, false_and] at member
      exact member.1

/-- A job whose state is found done was finished, if its writes came in time. -/
theorem finish_of_done {state : Hash} (called : timed.map Prod.snd = sub.calls)
    (split : timed = before ++ after) (fresh : s.keys (jobKey sub.response.jobId) = none)
    (kept : Kept settings timed)
    (found : JobStore.getState sub.response.jobId now
      (performAll settings sub.response.jobId s before) = some state)
    (done : statusOf state = "done") :
    ∃ results reply, (.finish results, reply) ∈ before.map Prod.snd ∧
      (.finish results, reply) ∈ acts sub.jobTrace := by
  have in_calls : ∀ act ∈ before.map Prod.snd, act ∈ sub.calls := by
    intro act member
    rw [← called, split, List.map_append]
    exact List.mem_append_left _ member
  obtain ⟨_, _, _, _, posted⟩ := sub.shape (known_any _)
  have others : ∀ act ∈ sub.calls.tail, ∀ total, act.1 ≠ .create total := by
    obtain empty | ⟨_, rest, calls, _, others, _⟩ := (RequestRun.accepted sub rfl).shape
    · simp [empty]
    · rw [calls]
      exact others
  rw [Submission.calls_eq posted] at others
  cases before with
  | nil =>
      cases (getState_of_absent fresh now).symm.trans found
  | cons act made =>
      have all := called
      rw [Submission.calls_eq posted, split, List.cons_append, List.map_cons, List.map_append] at all
      obtain ⟨first, inside⟩ := List.cons.inj all
      rw [List.tail_cons, ← inside] at others
      obtain ⟨created, later, same, _, rfl⟩ := state_when_kept kept split fresh
        (congrArg₂ List.cons first rfl) (fun act member => others act (List.mem_append_left _ member)) found
      have is_done := (statusOf_hashAfter_iff (show Reply.ok.tookEffect = true from rfl)).mp done
      obtain ⟨act', member, finish⟩ := is_done.finished
      obtain ⟨results, reply, eq⟩ := isFinish_cases finish
      have member : (.finish results, reply) ∈ (act :: made).map Prod.snd := by
        rw [List.map_cons, first, ← same, ← List.map_cons (f := Prod.snd) (a := (created, _)), ← eq]
        exact List.mem_map_of_mem member
      exact ⟨results, reply, member, finish_in_job (in_calls _ member)⟩

/-- The calls of a request whose job is done, and how far they have come. -/
theorem calls_when_done {found : Dedup} {stored : List Dict} {reply : Reply}
    {fact : Entry → Except Exn Dict → Prop} (called : timed.map Prod.snd = sub.calls)
    (split : timed = before ++ after)
    (job : sub.job = found.job sub.response.jobId body.tickets.length)
    (posted : acts sub.postTrace = (.create body.tickets.length, .ok) :: countCalls found)
    (batches : Held (Settled fact) sub.jobTrace) (quiet : ∀ act ∈ sub.calls, act.2 = .ok)
    (in_before : (.finish stored, reply) ∈ before.map Prod.snd)
    (in_job : (.finish stored, reply) ∈ acts sub.jobTrace) :
    ∃ rounds totals settled first stats,
      Ledger fact (enumerate found.uniqueTickets : Multiset Entry) 0 (initialTotals sub.job) totals
        rounds settled ∧
      stored = totals.results ∧
      first = countCalls found ++ (.start, .ok) :: rounds ∧
      (∃ total percentiles duration,
        stats = finalStats settings sub.job totals total percentiles duration) ∧
      sub.calls = (.create body.tickets.length, .ok) :: (first ++
        [(.finish totals.results, .ok), (.publishDone totals.results stats, .ok)]) ∧
      ∃ last, before.map Prod.snd = (.create body.tickets.length, .ok) :: (first ++ last) ∧
        (last = [(.finish totals.results, .ok)] ∨
          last = [(.finish totals.results, .ok), (.publishDone totals.results stats, .ok)]) := by
  have quiet_job : ∀ act ∈ acts sub.jobTrace, act.2 = .ok := by
    intro act member
    refine quiet act ?_
    rw [Submission.calls_eq posted]
    exact List.mem_cons_of_mem _ (List.mem_append_right _ member)
  obtain ⟨rounds, totals, settled, total, percentiles, duration, ledger, did⟩ :=
    (processJob_runs sub.ran batches).all_ok quiet_job in_job
  have unique : sub.job.uniqueTickets = found.uniqueTickets := by
    rw [job]
    rfl
  have same : stored = totals.results := by
    rw [did] at in_job
    rcases List.mem_cons.mp in_job with impossible | member
    · cases impossible
    · rcases List.mem_append.mp member with member | member
      · exact (ledger.rounds _ member).elim
      · rcases List.mem_cons.mp member with same | impossible
        · cases same
          rfl
        · cases List.mem_singleton.mp impossible
  subst same
  have all : sub.calls = (.create body.tickets.length, .ok) ::
      ((countCalls found ++ (.start, .ok) :: rounds) ++ [(.finish totals.results, .ok),
        (.publishDone totals.results
          (finalStats settings sub.job totals total percentiles duration), .ok)]) := by
    rw [Submission.calls_eq posted, did, List.append_assoc, List.cons_append]
  refine ⟨rounds, totals, settled, _, _, unique ▸ ledger, rfl, rfl, ⟨_, _, _, rfl⟩, all, ?_⟩
  rw [split, List.map_append] at called
  have absent : (.finish totals.results, reply) ∉
      (StoreCall.create body.tickets.length, Reply.ok) :: (countCalls found ++ (.start, .ok) :: rounds) := by
    intro member
    rcases List.mem_cons.mp member with impossible | member
    · cases impossible
    · rcases early_calls found ledger.rounds _ member with impossible | impossible
      · exact impossible
      · cases impossible
  rcases prefix_of_member (called.trans all) in_before absent with short | long
  · exact ⟨_, short, .inl rfl⟩
  · exact ⟨_, long, .inr rfl⟩

/-- What the ledger of a job says of its counters and its entries. -/
theorem Ledger.reconciled {found : Dedup} {tickets : List String} {jobId : String}
    {totals : Totals} {rounds : List Act} {settled : List Settlement} {state : Hash}
    (dedup : Deduplicated host (fun _ cached => Written settings host cached) tickets found)
    (ledger : Ledger (FromTicket settings host) (enumerate found.uniqueTickets : Multiset Entry) 0
      (initialTotals (found.job jobId tickets.length)) totals rounds settled)
    (counters : ∀ counter, state (Counter.field counter) =
      some (.int (tally counter (countCalls found) + among (settled.map record) counter : ℕ))) :
    Reconciled tickets.length (repeated host tickets) state (count totals.failedCount) totals.results
      (totals.results.filter fun entry => !Dict.truthy entry "error")
      (totals.results.filter fun entry => Dict.truthy entry "error") := by
  have pre : ∀ entry ∈ found.preCachedResults,
      isHit entry = true ∧ Dict.truthy entry "error" = false := by
    intro entry member
    obtain ⟨ticket, cached, written, rfl⟩ := dedup.cached entry member
    exact preCachedEntry_facts written ticket
  have stored : totals.results = found.preCachedResults ++ settled.map record := ledger.results
  have failures := stored_failures settled fun entry member => (pre entry member).2
  have hits := stored_hits (fun entry member => (pre entry member).1) ledger.known
  have apart := hits_add_failed_le ledger.known
  have parts := among_completed_add_failed (settled.map record)
  have all := (split_perm totals.results).length_eq
  rw [← stored] at failures hits
  rw [List.length_map] at parts
  rw [List.length_append, stored, List.length_append, List.length_map, ← stored] at all
  have length := ledger.length
  have counted := dedup.counted
  have firsts := dedup.firsts
  have le : distinct host tickets ≤ tickets.length :=
    (List.toFinset_card_le _).trans (List.length_map _).le
  constructor
  · rw [failures]
    exact (counters .failed).trans (by rw [tally_countCalls, zero_add])
  · rw [failures]
    exact congrArg count (ledger.failed.trans (zero_add _))
  · refine (counters .completed).trans ?_
    rw [tally_countCalls, failures]
    congr 2
    dsimp only
    omega
  · refine (counters .cacheHits).trans ?_
    rw [tally_countCalls, hits, repeated]
    congr 3
    dsimp only
    omega
  · rw [all, repeated]
    omega
  · intro entry member both
    rw [stored] at member
    rcases List.mem_append.mp member with member | member
    · rw [(pre entry member).2] at both
      exact Bool.false_ne_true both.2
    · obtain ⟨settlement, there, rfl⟩ := List.mem_map.mp member
      exact (record_facts (ledger.known settlement there)).2 both
  · rw [failures, hits, repeated]
    omega

theorem Ledger.parts_le {found : Dedup} {tickets : List String} {jobId : String}
    {totals : Totals} {rounds : List Act} {settled : List Settlement} {known : CacheFact}
    (dedup : Deduplicated host known tickets found)
    (ledger : Ledger (FromTicket settings host) (enumerate found.uniqueTickets : Multiset Entry) 0
      (initialTotals (found.job jobId tickets.length)) totals rounds settled) :
    totals.cacheHits ≤ tickets.length ∧ totals.failedCount ≤ tickets.length := by
  have hits : totals.cacheHits = found.cachedCount + among (settled.map record) .cacheHits :=
    ledger.cacheHits
  have failed : totals.failedCount = 0 + among (settled.map record) .failed := ledger.failed
  have apart := hits_add_failed_le ledger.known
  have length := ledger.length
  have counted := dedup.counted
  omega

/-- **The counters reconcile** with the stored list, the events and the response,
at any moment at which the job is reported as done. -/
theorem counters_reconcile (called : timed.map Prod.snd = sub.calls)
    (split : timed = before ++ between ++ after) (fresh_hash : s.keys (jobKey sub.response.jobId) = none)
    (fresh : s.keys (resultsKey sub.response.jobId) = none)
    (silent : ∀ m ∈ s.published, m.1 ≠ eventChannel sub.response.jobId)
    (cache : Known (fun _ cached => Written settings host cached) sub.postTrace)
    (batches : Held (Settled (FromTicket settings host)) sub.jobTrace)
    (quiet : ∀ act ∈ sub.calls, act.2 = .ok) (kept : Kept settings timed)
    (reported : Api.getResults sub.response.jobId now (performAll settings sub.response.jobId s before)
      later (performAll settings sub.response.jobId s (before ++ between)) = .ok (some r))
    (done : r.status = "done") :
    ∃ state stored,
      JobStore.getState sub.response.jobId now
        (performAll settings sub.response.jobId s before) = some state ∧
      JobStore.getResults sub.response.jobId later
        (performAll settings sub.response.jobId s (before ++ between)) = some stored ∧
      Reconciled body.tickets.length (repeated host body.tickets) state
        (lastFailed sub.response.jobId (performAll settings sub.response.jobId s before).published)
        stored (r.results.getD []) (r.failures.getD []) ∧
      ∀ results stats, (.publishDone results stats, .ok) ∈ sub.calls →
        IsRate (Dict.get? stats "cache_hit_rate") ∧ IsRate (Dict.get? stats "failure_rate") := by
  obtain ⟨state, stored, found_state, is_done, read, results, failures⟩ := done_response reported done
  obtain ⟨found, dedup, job, _, posted⟩ := sub.shape cache
  obtain ⟨_, in_read, _⟩ := finish_of_stored called split fresh read
  rw [List.append_assoc] at split
  obtain ⟨finished, reply, in_before, in_job'⟩ := finish_of_done called split fresh_hash kept found_state is_done
  obtain ⟨rounds, totals, settled, first, stats, ledger, _, firsts, ⟨total, percentiles, duration,
      finals⟩, all, last, done_calls, lasts⟩ :=
    calls_when_done called split job posted batches quiet in_before in_job'
  rw [job] at ledger finals
  have early := early_calls found ledger.rounds
  rw [← firsts] at early
  have same : stored = totals.results := by
    have finished := List.mem_append_left (after.map Prod.snd) in_read
    rw [← List.map_append, List.append_assoc, ← split, called, all] at finished
    exact finished_results early finished
  have no_last : ∀ act ∈ last, (∀ total, act.1 ≠ .create total) ∧ failedOf act = none := by
    rcases lasts with rfl | rfl <;> simp [failedOf]
  have others : ∀ act ∈ first ++ last, ∀ total, act.1 ≠ .create total := by
    intro act member total same
    rcases List.mem_append.mp member with member | member
    · simpa [same, RoundCall] using early act member
    · exact (no_last act member).1 total same
  have tallied : ∀ counter, tally counter (first ++ last) =
      tally counter (countCalls found) + among (settled.map record) counter := by
    intro counter
    rw [tally_append, firsts, tally_append, tally_cons, ledger.tallied]
    rcases lasts with rfl | rfl <;> cases counter <;> simp [StoreCall.adds]
  have counters := counters_when_kept kept split fresh_hash done_calls others found_state
  have event : lastFailed sub.response.jobId
      (performAll settings sub.response.jobId s before).published = count totals.failedCount := by
    have quiet_before : ∀ act ∈ before.map Prod.snd, act.2 = .ok := by
      intro act member
      refine quiet act ?_
      rw [← called, split, List.map_append]
      exact List.mem_append_left _ member
    rw [lastFailed_of_calls silent quiet_before, done_calls, firsts]
    exact congrArg count (ledger.last_failed fun act member => (no_last act member).2)
  have counts : ∀ counter, state (Counter.field counter) =
      some (.int (tally counter (countCalls found) + among (settled.map record) counter : ℕ)) := by
    intro counter
    rw [counters counter, tallied]
  have reconciled := ledger.reconciled dedup counts
  subst same
  refine ⟨state, _, found_state, read, ?_, ?_⟩
  · rw [event, results, failures]
    exact reconciled
  · intro results' stats' published
    rw [all] at published
    have same : stats' = stats := published_stats early published
    obtain ⟨hits_le, failed_le⟩ := ledger.parts_le dedup
    rw [same, finals]
    exact ⟨isRate_of_le hits_le, isRate_of_le failed_le⟩

end Counters

/-! ## Poles -/

section Poles

/-- The calls of a request whose tickets were all found, and of its task. -/
def served (total cached : ℕ) (results : List Dict) (stats : Dict) : List (ℚ × Act) :=
  [(0, .create total, .ok), (0, .incrementProgress cached 0 cached, .ok), (1, .start, .ok),
    (2, .finish results, .ok), (2, .publishDone results stats, .ok)]

/-- `GET /results` after the calls: the state is read at instant 2, the results at 3. -/
def readAfter (calls : List (ℚ × Act)) : Except Exn (Option ResultsResponse) :=
  Api.getResults "j" 2 (performAll .defaults "j" empty calls) 3 (performAll .defaults "j" empty calls)

/-- The calls of a request and its task, which finishes. -/
def finished (total : ℕ) (middle : List (ℚ × Act)) (results : List Dict) (stats : Dict) : List (ℚ × Act) :=
  (0, .create total, .ok) :: (middle ++ [(2, .finish results, .ok), (2, .publishDone results stats, .ok)])

/-- A reader who comes at once finds the results. -/
theorem getResults_finished {middle : List (ℚ × Act)} (total : ℕ) (results : List Dict) (stats : Dict)
    (others : ∀ act ∈ middle, ∀ total, act.2.1 ≠ .create total) (soon : ∀ act ∈ middle, act.1 ≤ 3600) :
    ∃ r, readAfter (finished total middle results stats) = .ok (some r) ∧ r.status = "done" ∧
      r.results.getD [] = results.filter (fun entry => !Dict.truthy entry "error") ∧
      r.failures.getD [] = results.filter fun entry => Dict.truthy entry "error" := by
  have absent : Redis.Server.live 0 empty (jobKey "j") = none := rfl
  have created := perform_create .defaults total .ok absent
  have others : ∀ act ∈ (finished total middle results stats).tail, ∀ total, act.2.1 ≠ .create total := by
    simpa [finished, or_imp, forall_and] using others
  have soon : ∀ act ∈ (finished total middle results stats).tail, act.1 ≤ 3600 := by
    simp only [finished, List.tail_cons, List.mem_append, List.mem_cons, List.not_mem_nil, or_false]
    rintro act (member | rfl | rfl)
    · exact soon act member
    · norm_num
    · norm_num
  have keys := performAll_keys .defaults others
    (fun act member _ _ => by simpa using soon act member) created
  have state : Redis.Server.live 2 (performAll .defaults "j" empty (finished total middle results stats))
      (jobKey "j") = some ⟨.hash (hashAfter (hashWrites 0 (.create total) fun _ => none)
        (finished total middle results stats).tail), some (0 + (3600 : ℤ))⟩ :=
    live_eq_some.mpr ⟨keys, by norm_num⟩
  have status : statusOf (hashAfter (hashWrites 0 (.create total) fun _ => none)
      (finished total middle results stats).tail) = "done" := by
    refine (statusOf_hashAfter_iff (show Reply.ok.tookEffect = true from rfl)).mpr ?_
    rw [Done, finished, List.tail_cons, List.map_cons, List.map_append, List.foldl_cons, List.foldl_append]
    rfl
  have stored : (performAll .defaults "j" empty (finished total middle results stats)).keys (resultsKey "j") =
      some ⟨.document results, some (2 + (3600 : ℤ))⟩ := by
    rw [performAll, finished, List.foldl_cons, List.foldl_append]
    exact (perform_results_of_ne (by simp)).trans (perform_results_finish rfl)
  have read : Redis.Server.live 3 _ (resultsKey "j") = some _ :=
    live_eq_some.mpr ⟨stored, by norm_num⟩
  have found : JobStore.getState "j" 2 (performAll .defaults "j" empty (finished total middle results stats)) =
      some (hashAfter (hashWrites 0 (.create total) fun _ => none)
        (finished total middle results stats).tail) := by
    rw [JobStore.getState, Redis.hgetall, state]
  have documents : JobStore.getResults "j" 3
      (performAll .defaults "j" empty (finished total middle results stats)) = some results := by
    rw [JobStore.getResults, Redis.get, read]
  have reported : ∃ r, readAfter (finished total middle results stats) = .ok (some r) ∧ r.status = "done" := by
    simp only [readAfter, Api.getResults, respond, found, status, if_true, documents]
    exact ⟨_, rfl, rfl⟩
  obtain ⟨r, reported, done⟩ := reported
  obtain ⟨_, stored, _, _, read, split⟩ := done_response reported done
  cases documents.symm.trans read
  exact ⟨r, reported, done, split⟩

theorem getResults_served (total cached : ℕ) (results : List Dict) (stats : Dict) :
    ∃ r, readAfter (served total cached results stats) = .ok (some r) ∧ r.status = "done" ∧
      r.results.getD [] = results.filter (fun entry => !Dict.truthy entry "error") ∧
      r.failures.getD [] = results.filter fun entry => Dict.truthy entry "error" :=
  @getResults_finished [(0, .incrementProgress cached 0 cached, .ok), (1, .start, .ok)]
    total results stats (by simp) (by norm_num)

/-- The job of a request for the same ticket twice. -/
def doubledJob : Job := { foundJob with totalTickets := 2, preCached := 2 }

def doubledStats : Dict :=
  finalStats .defaults doubledJob (initialTotals doubledJob) (.finite 7) ⟨0, 0, 0⟩ (0 - 0)

/-- The request, whose ticket is found in the cache, with a run of its task. -/
def doubledSubmission : Submission (.sorted _) .defaults plainHost doubled where
  postTrace := _
  response := _
  posted := processTickets_of_found {
      seen := [("help", "help")]
      preCachedResults := [preCachedEntry "help" foundRecord]
      cachedCount := 2 }
    (deduplicate_of_hit foundRecord (by decide)
      (deduplicate_of_again (by decide) (runs_pure_iff.mpr ⟨rfl, rfl⟩)))
    (by decide) "j" 0
  job := doubledJob
  launches := List.mem_singleton.mpr rfl
  jobTrace := _
  ended := _
  ran := cachedJob_completes 0 0 ⟨0, 0, 0⟩ rfl foundJob_tokens

/-- **Refuting pole.** Two tickets were submitted, and one entry is reported. -/
theorem repeated_ticket_lost :
    (served 2 2 doubledJob.preCachedResults doubledStats).map Prod.snd = doubledSubmission.calls ∧
      ∃ r, readAfter (served 2 2 doubledJob.preCachedResults doubledStats) = .ok (some r) ∧
        r.status = "done" ∧
        ¬ OneOutcome doubled.tickets doubledSubmission.response.total r := by
  obtain ⟨r, reported, done, results, failures⟩ :=
    getResults_served 2 2 doubledJob.preCachedResults doubledStats
  refine ⟨rfl, r, reported, done, fun outcome => ?_⟩
  have counts := outcome.counts
  rw [results, failures] at counts
  exact absurd counts (by decide)

/-- Upstream answers with the content of `foundRecord`. -/
def foundWorld : TicketWorld where
  cached := none
  admits _ := true
  response _ := .ok {
    statusCode := 200
    retryAfter := none
    json := .ok (.object [("choices", .array [.object [("message", .object [("content",
      .string "</think>\x7b\"category\":\"billing\"\x7d")])]]),
      ("usage", .object [("total_tokens", .number (.finite 7))])]) }
  jitter _ := 0
  nanSleep := .ok ()

/-- A ticket that is found, two that are not, and whether the first occurs again. -/
def mixed (again : Bool) : ProcessRequest .defaults where
  tickets := "help" :: "lost" :: if again then ["help", "wrong"] else ["wrong"]
  nonempty := by simp
  bounded := by cases again <;> decide
  short := by cases again <;> decide
  nonblank := by cases again <;> decide

def mixedFound (again : Bool) : Dedup where
  seen := [("help", "help"), ("lost", "lost"), ("wrong", "wrong")]
  uniqueTickets := ["lost", "wrong"]
  preCachedResults := [preCachedEntry "help" foundRecord]
  cachedCount := if again then 2 else 1

theorem mixedFound_runs (again : Bool) :
    Runs (deduplicate plainHost (mixed again).tickets {})
      [⟨.cacheGet (ticketKey plainHost "help"), .ok (some foundRecord)⟩,
        ⟨.cacheGet (ticketKey plainHost "lost"), .ok none⟩,
        ⟨.cacheGet (ticketKey plainHost "wrong"), .ok none⟩] (.ok (mixedFound again)) := by
  refine deduplicate_of_hit foundRecord (by decide) (deduplicate_of_miss (by decide) ?_)
  cases again with
  | true =>
      refine deduplicate_of_again (by decide) (deduplicate_of_miss (by decide) ?_)
      exact runs_pure_iff.mpr ⟨rfl, rfl⟩
  | false => exact deduplicate_of_miss (by decide) (runs_pure_iff.mpr ⟨rfl, rfl⟩)

def mixedJob (again : Bool) : Job := (mixedFound again).job "j" (mixed again).tickets.length

/-- The batch of the two tickets that are not found. -/
def mixedBatch : Batch :=
  .ofItems (classify "lost") [PriorityBatcher.prioritize 1 "wrong", PriorityBatcher.prioritize 0 "lost"]

/-- The breaker rejects the attempts. -/
def refusedWorld : TicketWorld := { foundWorld with admits := fun _ => false }

/-- One is refused by the breaker, and one is classified. -/
def mixedRaw : Gathered mixedBatch :=
  ⟨[.ok (Dict.set (failureResult "wrong" "circuit_breaker_open") "cache_hit" (.bool false)),
    .ok (Dict.set foundRecord "cache_hit" (.bool false))], rfl⟩

def mixedTotals (again : Bool) : Totals :=
  (initialTotals (mixedJob again)).absorb (batchEntries mixedBatch mixedRaw)

theorem mixedTotals_tokens (again : Bool) :
    totalTokens (mixedTotals again).results = .ok (.finite (0 + 7 + 0 + 7)) := by
  cases again <;> rfl

/-- The request, with a run of its task. -/
def mixedSubmission (again : Bool) : Submission (.sorted _) .defaults plainHost (mixed again) where
  postTrace := _
  response := _
  posted := processTickets_of_found (mixedFound again) (mixedFound_runs again) (by cases again <;> decide) "j" 0
  job := mixedJob again
  launches := List.mem_singleton.mpr rfl
  jobTrace := _
  ended := _
  ran := processJob_of_batch mixedRaw (show _ = 0 by cases again <;> rfl)
    (show _ = some (mixedBatch, (MinQueue.sorted _).empty) from rfl) rfl (mixedTotals_tokens again)

def mixedStats (again : Bool) : Dict :=
  finalStats .defaults (mixedJob again) (mixedTotals again) (.finite (0 + 7 + 0 + 7)) ⟨0, 0, 0⟩ (0 - 0)

/-- The calls, with their instants. -/
def mixedMiddle (again : Bool) : List (ℚ × Act) :=
  [(0, .incrementProgress (mixedFound again).cachedCount 0 (mixedFound again).cachedCount, .ok), (1, .start, .ok),
    (2, incrementCall (batchEntries mixedBatch mixedRaw), .ok),
    (2, progressCall (mixedJob again) (mixedTotals again) 0, .ok)]

def mixedCalls (again : Bool) : List (ℚ × Act) :=
  finished (mixed again).tickets.length (mixedMiddle again) (mixedTotals again).results (mixedStats again)

theorem mixedCalls_called (again : Bool) : (mixedCalls again).map Prod.snd = (mixedSubmission again).calls := by
  cases again <;> rfl

theorem mixedCalls_split (again : Bool) : mixedCalls again = mixedCalls again ++ [] ++ [] := by
  rw [List.append_nil, List.append_nil]

theorem mixedCalls_reported (again : Bool) :
    ∃ r, readAfter (mixedCalls again) = .ok (some r) ∧ r.status = "done" := by
  obtain ⟨r, reported, done, _⟩ := getResults_finished (mixed again).tickets.length (mixedTotals again).results
    (mixedStats again) (show ∀ act ∈ mixedMiddle again, ∀ total, act.2.1 ≠ .create total by
      simp [mixedMiddle, incrementCall, progressCall]) (by norm_num [mixedMiddle])
  exact ⟨r, reported, done⟩

/-- Satisfiable pole: three tickets, of which one is found and one is refused. -/
theorem one_outcome_distinct :
    ∃ r, readAfter (mixedCalls false) = .ok (some r) ∧
      OneOutcome (mixed false).tickets (mixedSubmission false).response.total r := by
  obtain ⟨r, reported, done⟩ := mixedCalls_reported false
  have outcome := one_outcome_iff_nodup (mixedCalls_called false) (mixedCalls_split false) rfl reported done
  exact ⟨r, reported, outcome.mpr (by decide)⟩

/-- The record of `foundJob` is one a ticket puts into the cache. -/
theorem foundRecord_written : Written .defaults plainHost foundRecord := by
  have ended : (runWith (fun _ => foundWorld.answer) (processTicket .defaults plainHost "help") 0).2 =
      some (.ok (Dict.set foundRecord "cache_hit" (.bool false))) := rfl
  refine ⟨"help", _, _, ticketKey plainHost "help", .ok (), (runWith_runs ended).1, ?_⟩
  exact List.mem_of_getElem? (i := 6) rfl

/-- The only hit of the request. -/
theorem foundSubmission_known {known : CacheFact} (holds : ∀ key, known key foundRecord) :
    Known known foundSubmission.postTrace := by
  intro key cached member
  simp [foundSubmission, singleSubmission] at member
  rw [member.2]
  exact holds key

theorem foundSubmission_cache :
    Known (fun _ cached => Written .defaults plainHost cached) foundSubmission.postTrace :=
  foundSubmission_known fun _ => foundRecord_written

/-- Its job settles no batch. -/
theorem foundSubmission_batches {fact : Entry → Except Exn Dict → Prop} (faults : Prop) :
    Held (Settled fact faults) foundSubmission.jobTrace := by
  intro asked member
  have member : asked ∈ foundTrace := member
  simp only [foundTrace, cachedJobTrace, List.cons_append, List.nil_append, List.mem_cons,
    List.not_mem_nil, or_false] at member
  rcases member with rfl | rfl | rfl | rfl | rfl | rfl | rfl | rfl | rfl | rfl | rfl <;> trivial

theorem mixedSubmission_cache (again : Bool) :
    Known (fun _ cached => Written .defaults plainHost cached) (mixedSubmission again).postTrace := by
  intro key cached member
  simp [mixedSubmission] at member
  rw [member.2]
  exact foundRecord_written

/-- Its tickets come to what the two worlds make of them. -/
theorem mixedTickets_runs :
    FromTicket .defaults plainHost ("wrong", 1)
        (.ok (Dict.set (failureResult "wrong" "circuit_breaker_open") "cache_hit" (.bool false))) ∧
      FromTicket .defaults plainHost ("lost", 0) (.ok (Dict.set foundRecord "cache_hit" (.bool false))) := by
  have refused : (runWith (fun _ => refusedWorld.answer) (processTicket .defaults plainHost "wrong") 0).2 =
      some (.ok (Dict.set (failureResult "wrong" "circuit_breaker_open") "cache_hit" (.bool false))) := rfl
  have classified : (runWith (fun _ => foundWorld.answer) (processTicket .defaults plainHost "lost") 0).2 =
      some (.ok (Dict.set foundRecord "cache_hit" (.bool false))) := rfl
  constructor
  · exact ⟨_, (runWith_runs refused).1, fun key cached found => absurd found (hit_notMem rfl)⟩
  · exact ⟨_, (runWith_runs classified).1, fun key cached found => absurd found (hit_notMem rfl)⟩

theorem mixedSubmission_batches (again : Bool) (faults : Prop) :
    Held (Settled (FromTicket .defaults plainHost) faults) (mixedSubmission again).jobTrace := by
  refine settled_of_batch fun settled member => ?_
  have member : settled ∈ [((("wrong", 1) : Entry), mixedRaw.1[0]), (("lost", 0), mixedRaw.1[1])] := member
  simp only [List.mem_cons, List.not_mem_nil, or_false] at member
  rcases member with rfl | rfl
  · exact mixedTickets_runs.1
  · exact mixedTickets_runs.2

theorem mixedSubmission_quiet (again : Bool) : ∀ act ∈ (mixedSubmission again).calls, act.2 = .ok := by
  intro act member
  rw [← mixedCalls_called] at member
  simp only [mixedCalls, finished, mixedMiddle, List.map_cons, List.map_nil, List.cons_append,
    List.nil_append, List.mem_cons, List.not_mem_nil, or_false] at member
  rcases member with rfl | rfl | rfl | rfl | rfl | rfl | rfl <;> rfl

/-- Satisfiable pole: four tickets, of which one is found, one occurs again, one is classified and
one is refused. -/
theorem counters_reconcile_mixed :
    ∃ r state stored, readAfter (mixedCalls true) = .ok (some r) ∧
      Reconciled 4 1 state (lastFailed "j" (performAll .defaults "j" empty (mixedCalls true)).published)
        stored (r.results.getD []) (r.failures.getD []) := by
  obtain ⟨r, reported, done⟩ := mixedCalls_reported true
  have kept : Kept .defaults (mixedCalls true) := by
    norm_num [Kept, mixedCalls, finished, mixedMiddle, Reply.expires]
  obtain ⟨state, stored, _, _, reconciled, _⟩ := counters_reconcile (mixedCalls_called true)
    (mixedCalls_split true) rfl rfl (by simp [empty]) (mixedSubmission_cache true) (mixedSubmission_batches true _)
    (mixedSubmission_quiet true) kept reported done
  have once : repeated plainHost (mixed true).tickets = 1 := by decide
  rw [once] at reconciled
  exact ⟨r, state, stored, reported, reconciled⟩

end Poles

end InferenceForge.Api
