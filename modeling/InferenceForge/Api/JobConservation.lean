/-
# InferenceForge.Api.JobConservation — every ticket of a job comes out once

`JobWorld` fixes what a job meets: what happens to each of its tickets, the clock
and the estimates; no operation of Redis raises. The job is run against it.

`Conserved` says that the run ends, that the job is done and never failed, and
that the stored results are the pre-cached ones and one record for each unique
ticket, of how that ticket ended. It holds exactly when no ticket waits for an
infinite `Retry-After` (`conserved_iff_finite`): such a ticket never ends, and
neither does the batch it is in (`infinite_wait_loses_job`).
-/
import InferenceForge.Api.JobOutcome
import InferenceForge.Api.JobStatus

namespace InferenceForge.Api

open InferenceForge.Python InferenceForge.Library InferenceForge.Pipeline
open InferenceForge.Pipeline.JobStore (StoreCall Reply Act statusAfter)

set_option autoImplicit false

structure JobWorld where
  /-- What happens to the unique ticket at an index. -/
  tickets : ℕ → TicketWorld
  clock : ℕ → ℚ
  estimate : ℕ → ℚ
  summary : Summary

section World

variable (settings : Settings) (host : Host) (world : JobWorld)

/-- How the coroutine of a ticket ends. -/
def JobWorld.ended (entry : Entry) : Option (Except Exn Dict) :=
  (processTicket settings host entry.1).outcome (world.tickets entry.2.toNat).answer

/-- What `asyncio.gather` returns for a batch, when all of its tickets end. -/
def JobWorld.gathered (batch : Batch) : Option (Gathered batch) :=
  if all : ∀ entry ∈ batch.entries, (world.ended settings host entry).isSome = true then
    some ⟨batch.entries.pmap (fun entry there => (world.ended settings host entry).get there) all, by
      rw [List.length_pmap, ← Batch.entries_tickets, List.length_map]⟩
  else none

/-- The answers a job gets. -/
def JobWorld.environment : Environment RouteOp RouteAnswer
  | _, .store _ => some .ok
  | _, .cacheGet _ => some (.ok none)
  | _, .enqueueMany | _, .drainBatch => some (.ok ())
  | _, .gather batch => (world.gathered settings host batch).map .ok
  | _, .activeJobs _ | _, .queueDepth _ | _, .etaUpdate _ | _, .createTask _ => some ()
  | n, .monotonic => some (world.clock n)
  | n, .etaEstimate _ _ | n, .etaInitial _ _ => some (world.estimate n)
  | _, .summary => some world.summary
  | _, .uuid => some ""

/-- The run of a job. -/
def JobWorld.run (Q : TicketQueue) (job : Job) : RouteTrace × Option (Except Exn Unit) :=
  runWith (world.environment settings host) (processJob Q settings job) 0

/-- The job ends as done, and each of its tickets has come out once. -/
structure Conserved (Q : TicketQueue) (job : Job) : Prop where
  ended : (world.run settings host Q job).2 = some (.ok ())
  done : (acts (world.run settings host Q job).1).foldl statusAfter (.text "pending") = .text "done"
  notFailed : ∀ reason reply, (.fail reason, reply) ∉ acts (world.run settings host Q job).1
  stored : ∃ settled : List Settlement,
    (.finish (job.preCachedResults ++ settled.map record), .ok) ∈
      acts (world.run settings host Q job).1 ∧
    (settled.map Prod.fst : Multiset Entry) = (enumerate job.uniqueTickets : Multiset Entry) ∧
    ((settled.map record).map ticketOf : Multiset (Option Json)) =
      job.uniqueTickets.map (some ∘ Json.string) ∧
    ∀ s ∈ settled, world.ended settings host s.1 = some s.2

end World

section Proofs

variable {Q : TicketQueue} {settings : Settings} {host : Host} {world : JobWorld} {job : Job}
  {fact : Entry → Except Exn Dict → Prop}

/-! ## The answers -/

/-- A gathered batch has how each of its tickets ended. -/
theorem gathered_ended {batch : Batch} {raw : Gathered batch}
    (given : world.gathered settings host batch = some raw) :
    ∀ s ∈ settlements batch raw, world.ended settings host s.1 = some s.2 := by
  unfold JobWorld.gathered at given
  split at given
  · next all =>
      cases given
      intro s member
      obtain ⟨i, bound, same⟩ := List.mem_iff_getElem.mp member
      subst same
      simp only [settlements, List.getElem_zip, List.getElem_pmap, Option.some_get]
  · cases given

theorem gathered_isSome {batch : Batch}
    (all : ∀ entry ∈ batch.entries, (world.ended settings host entry).isSome = true) :
    (world.gathered settings host batch).isSome = true := by
  rw [JobWorld.gathered, dif_pos all]
  rfl

/-- What the job is told is how the tickets ended, and nothing raises. -/
theorem environment_settled {n : ℕ} {op : RouteOp} {answer : RouteAnswer op}
    (given : world.environment settings host n op = some answer) :
    Settled (fun entry ended => world.ended settings host entry = some ended) False op answer := by
  cases op with
  | gather batch =>
      obtain ⟨raw, found, rfl⟩ := Option.map_eq_some_iff.mp given
      exact gathered_ended found
  | drainBatch | enqueueMany =>
      cases given
      trivial
  | store call | cacheGet key | activeJobs change | queueDepth depth | monotonic
  | etaUpdate observed | etaEstimate remaining bucket | etaInitial unique breakdown | summary | uuid
  | createTask job => trivial

/-! ## The run ends -/

/-- The batches a job may ask for are made of its unique tickets. -/
def Within (job : Job) : RouteOp → Prop
  | .gather batch => ∀ entry ∈ batch.entries, entry ∈ enumerate job.uniqueTickets
  | _ => True

theorem processJob_asks : (processJob Q settings job).Asks (Within job) := by
  have loop : ∀ op, LoopOp op → Within job op := by
    intro op others
    cases op with
    | gather batch => exact others.elim
    | store call | cacheGet key | enqueueMany | drainBatch | activeJobs change | queueDepth depth
    | monotonic | etaUpdate observed | etaEstimate remaining bucket | etaInitial unique breakdown
    | summary | uuid | createTask job => trivial
  have stored : ∀ call, (store call).Asks (Within job) := fun call => asks_call trivial
  have finishing : ∀ jobStart totals, (finishJob settings job jobStart totals).Asks (Within job) := by
    intro jobStart totals
    refine asks_bind (asks_perform trivial) fun jobEnd => asks_bind (asks_ofResult _) fun _ => ?_
    refine asks_bind (asks_perform trivial) fun _ => ?_
    exact asks_bind (stored _) fun _ => stored _
  have failing : ∀ e, (jobFailed e).Asks (Within job) := by
    intro e
    unfold jobFailed
    split
    · exact stored _
    · trivial
  refine asks_bind (asks_perform trivial) fun _ => asks_bind (asks_perform trivial) fun jobStart => ?_
  refine asks_bind (asks_call trivial) fun _ => asks_bind (asks_perform trivial) fun _ => ?_
  refine asks_bind (stored _) fun _ => asks_bind (asks_attempt ?_) fun ended => ?_
  · refine asks_rescue (asks_bind (drain_asks loop _ _ ?_) fun totals => finishing _ _) failing
    intro batch within
    rw [show PriorityBatcher.enqueueMany Q Q.empty job.uniqueTickets = jobQueue Q job from rfl,
      jobQueue_entries] at within
    exact fun entry member => Multiset.mem_coe.mp (within entry member)
  · exact asks_bind (asks_perform trivial) fun _ => asks_ofResult _

/-- A job all of whose tickets end is not stuck. -/
theorem run_total (all : ∀ entry ∈ enumerate job.uniqueTickets,
    (world.ended settings host entry).isSome = true) :
    ∃ result, (world.run settings host Q job).2 = some result := by
  refine runWith_total ?_ processJob_asks 0
  intro op within n
  cases op with
  | gather batch =>
      obtain ⟨raw, given⟩ := Option.isSome_iff_exists.mp
        (gathered_isSome fun entry member => all entry (within entry member))
      simp [JobWorld.environment, given]
  | store call | cacheGet key | enqueueMany | drainBatch | activeJobs change | queueDepth depth
  | monotonic | etaUpdate observed | etaEstimate remaining bucket | etaInitial unique breakdown
  | summary | uuid | createTask job => rfl

/-! ## The run succeeds -/

/-- Numbers of tokens can be added up. -/
theorem totalTokens_of_numeric {results : List Dict}
    (numeric : ∀ entry ∈ results, NumericTokens entry) : ∃ total, totalTokens results = .ok total := by
  have items : ∀ item ∈ results.map fun r => (Dict.get? r "tokens").getD (.number (.finite 0)),
      item.toNumber?.isSome := by
    intro item member
    obtain ⟨entry, there, rfl⟩ := List.mem_map.mp member
    cases found : Dict.get? entry "tokens" with
    | none => rfl
    | some tokens =>
        obtain ⟨number, taken⟩ := numeric entry there tokens found
        exact Option.isSome_of_eq_some (incrementTokens_ok_iff.mp taken).1
  obtain ⟨total, summed⟩ := Option.isSome_iff_exists.mp (sum_isSome items)
  exact ⟨total, by rw [totalTokens, summed]⟩

theorem Ledger.numeric {before after : Multiset Entry} {totals totals' : Totals} {calls : List Act}
    {settled : List Settlement} (ledger : Ledger fact before after totals totals' calls settled)
    (pre : ∀ entry ∈ totals.results, NumericTokens entry)
    (known : ∀ s : Settlement, fact s.1 s.2 → NumericTokens (record s)) :
    ∀ entry ∈ totals'.results, NumericTokens entry := by
  intro entry member
  rw [ledger.results] at member
  rcases List.mem_append.mp member with member | member
  · exact pre entry member
  · obtain ⟨s, there, rfl⟩ := List.mem_map.mp member
    exact known s (ledger.known s there)

/-- A job in which nothing raises comes to `finish`. -/
theorem BodyRun.completes {body : List Act} {result : Except Exn Unit}
    (run : BodyRun Q settings job (Settled fact False) (jobQueue Q job) body result)
    (quiet : ∀ act ∈ body, act.2 = .ok)
    (pre : ∀ entry ∈ job.preCachedResults, NumericTokens entry)
    (settled : ∀ s : Settlement, fact s.1 s.2 → NumericTokens (record s)) :
    result = .ok () ∧ ∃ results, (.finish results, .ok) ∈ body := by
  cases run with
  | interrupted drained =>
      cases drained with
      | interrupted rounds broken =>
          cases broken with
          | drain e known => exact known.elim
          | round drained broken =>
              cases broken with
              | gather e known => exact known.elim
              | increment raw known e applied =>
                  have replied := quiet _ (List.mem_append_right _ List.mem_cons_self)
                  cases replied
              | progress raw known eta e applied =>
                  have replied := quiet _
                    (List.mem_append_right _ (List.mem_cons_of_mem _ List.mem_cons_self))
                  cases replied
  | finished drained finish =>
      cases finish with
      | tokens raised =>
          obtain ⟨_, ledger⟩ := drained.ledger
          obtain ⟨total, summed⟩ := totalTokens_of_numeric (ledger.numeric pre settled)
          cases raised.symm.trans summed
      | finish summed e applied =>
          have replied := quiet _ (List.mem_append_right _ List.mem_cons_self)
          cases replied
      | publish summed percentiles duration reply =>
          have replied : reply = .ok := quiet _
            (List.mem_append_right _ (List.mem_cons_of_mem _ List.mem_cons_self))
          subst replied
          exact ⟨rfl, _, List.mem_append_right _ List.mem_cons_self⟩

theorem JobRun.completes {calls : List Act} {result : Except Exn Unit}
    (run : JobRun Q settings job (Settled fact False) calls result)
    (quiet : ∀ act ∈ calls, act.2 = .ok)
    (pre : ∀ entry ∈ job.preCachedResults, NumericTokens entry)
    (settled : ∀ s : Settlement, fact s.1 s.2 → NumericTokens (record s)) :
    result = .ok () ∧ ∃ results, (.finish results, .ok) ∈ calls := by
  cases run with
  | enqueue e known => exact known.elim
  | start e applied =>
      have replied := quiet _ List.mem_cons_self
      cases replied
  | completed ran =>
      obtain ⟨_, results, finish⟩ := ran.completes
        (fun act member => quiet act (List.mem_cons_of_mem _ member)) pre settled
      exact ⟨rfl, results, List.mem_cons_of_mem _ finish⟩
  | failed ran exception reply =>
      obtain ⟨impossible, _⟩ := ran.completes (fun act member =>
        quiet act (List.mem_cons_of_mem _ (List.mem_append_left _ member))) pre settled
      cases impossible
  | abandoned ran base =>
      obtain ⟨impossible, _⟩ := ran.completes
        (fun act member => quiet act (List.mem_cons_of_mem _ member)) pre settled
      cases impossible

/-- What a ticket returns has a number of tokens, if the cache does. -/
theorem ended_numeric {entry : Entry} {ended : Except Exn Dict}
    (cache : ∀ cached ∈ (world.tickets entry.2.toNat).cached, NumericTokens cached)
    (given : world.ended settings host entry = some ended) : NumericTokens (record (entry, ended)) := by
  obtain ⟨trace, ran, answered⟩ := outcome_runs given
  refine record_numeric ran fun key cached member => cache cached ?_
  have there : some (Except.ok (world.tickets entry.2.toNat).cached) = some (.ok (some cached)) :=
    answered ⟨.cacheGet key, .ok (some cached)⟩ member
  simpa using there

/-- What is known of a run that ends. -/
theorem run_jobRun {result : Except Exn Unit}
    (ended : (world.run settings host Q job).2 = some result) :
    JobRun Q settings job
        (Settled (fun entry ended => world.ended settings host entry = some ended) False)
        (acts (world.run settings host Q job).1) result ∧
      ∀ act ∈ acts (world.run settings host Q job).1, act.2 = .ok := by
  obtain ⟨ran, answered⟩ := runWith_runs ended
  refine ⟨processJob_runs ran ?_, ?_⟩
  · intro asked member
    obtain ⟨n, given⟩ := answered.of_mem member
    exact environment_settled given
  · intro act member
    obtain ⟨⟨op, answer⟩, there, stored⟩ := List.mem_filterMap.mp member
    obtain ⟨n, given⟩ := answered.of_mem there
    cases op with
    | store call =>
        cases given
        cases stored
        rfl
    | cacheGet key | enqueueMany | drainBatch | gather batch | activeJobs change | queueDepth depth
    | monotonic | etaUpdate observed | etaEstimate remaining bucket | etaInitial unique breakdown
    | summary | uuid | createTask job => cases stored

/-- A job whose tickets all end is conserved. -/
theorem conserved_of_ended
    (pre : ∀ entry ∈ job.preCachedResults, NumericTokens entry)
    (cache : ∀ i, ∀ cached ∈ (world.tickets i).cached, NumericTokens cached)
    (all : ∀ entry ∈ enumerate job.uniqueTickets, (world.ended settings host entry).isSome = true) :
    Conserved settings host world Q job := by
  obtain ⟨result, ended⟩ := run_total (Q := Q) all
  obtain ⟨run, quiet⟩ := run_jobRun ended
  obtain ⟨rfl, results, finish⟩ := run.completes quiet pre fun s given =>
    ended_numeric (cache s.1.2.toNat) given
  obtain ⟨rounds, totals, settled, total, percentiles, duration, ledger, did⟩ :=
    run.all_ok quiet finish
  have stored : totals.results = job.preCachedResults ++ settled.map record := ledger.results
  have entries : (settled.map Prod.fst : Multiset Entry) = (enumerate job.uniqueTickets : Multiset Entry) :=
    (add_zero _).symm.trans ledger.conserved.symm
  obtain ⟨_, status⟩ := roundCalls_status ledger.rounds (.text "processing")
  refine ⟨ended, ?_, ?_, settled, ?_, entries, ledger.tickets, ledger.known⟩
  · rw [did, List.foldl_cons, List.foldl_append]
    show (List.foldl statusAfter (List.foldl statusAfter (.text "processing") rounds) _) = _
    rw [status]
    rfl
  · intro reason reply failed
    rw [did] at failed
    rcases List.mem_cons.mp failed with impossible | member
    · cases impossible
    · rcases List.mem_append.mp member with member | member
      · exact ledger.rounds _ member
      · simp at member
  · rw [did, ← stored]
    exact List.mem_cons_of_mem _ (List.mem_append_right _ List.mem_cons_self)

/-- In a conserved job no ticket waits forever. -/
theorem Conserved.finite (conserved : Conserved settings host world Q job) :
    ∀ i < job.uniqueTickets.length, ¬ (world.tickets i).WaitsForever settings host := by
  intro i bound waits
  obtain ⟨settled, _, entries, _, known⟩ := conserved.stored
  have there : (job.uniqueTickets[i], (i : ℤ)) ∈ (settled.map Prod.fst : Multiset Entry) := by
    rw [entries]
    exact Multiset.mem_coe.mpr (mem_enumerate.mpr ⟨i, List.getElem?_eq_getElem bound, (zero_add _).symm⟩)
  obtain ⟨s, member, same⟩ := List.mem_map.mp (Multiset.mem_coe.mp there)
  have ended := known s member
  rw [same] at ended
  have stuck := (processTicket_stuck_iff job.uniqueTickets[i]).mpr waits
  cases ended.symm.trans stuck

end Proofs

/-! ## Poles -/

section Poles

/-- Everything that happens to the tickets of a job is the same. -/
def uniformWorld (ticket : TicketWorld) : JobWorld where
  tickets _ := ticket
  clock _ := 0
  estimate _ := 0
  summary := ⟨0, 0, 0⟩

/-- Upstream answers 429 with `Retry-After: inf`. -/
def limitedWorld : TicketWorld where
  cached := none
  admits _ := true
  response _ := .ok {
    statusCode := 429
    retryAfter := some "inf"
    json := .error { kind := .jsonDecode, message := "Expecting value" } }
  jitter _ := 0
  nanSleep := .ok ()

theorem limited_waits : limitedWorld.WaitsForever .defaults plainHost := by
  refine ⟨rfl, 1, le_rfl, by decide, ⟨_, rfl, "inf", rfl, by decide⟩, ?_⟩
  intro j le lt
  omega

/-- Upstream answers after a 429 with `Retry-After: 2`. -/
def slowWorld : TicketWorld where
  cached := none
  admits _ := true
  response n := if n = 1 then .ok {
      statusCode := 429
      retryAfter := some "2"
      json := .error { kind := .jsonDecode, message := "Expecting value" } }
    else foundWorld.response n
  jitter _ := 0
  nanSleep := .ok ()

/-- One ticket has to wait, and one is refused. -/
def mixedWorld : JobWorld where
  tickets i := if i = 0 then slowWorld else refusedWorld
  clock _ := 0
  estimate _ := 0
  summary := ⟨0, 0, 0⟩

theorem slow_ends : ¬ slowWorld.WaitsForever .defaults plainHost := by
  rintro ⟨_, k, le, _, ⟨e, raised, endless⟩, before⟩
  have second : slowWorld.attempt .defaults plainHost 2 = .ok foundRecord := rfl
  rcases Nat.lt_trichotomy k 2 with early | rfl | later
  · obtain rfl : k = 1 := by omega
    have first : slowWorld.attempt .defaults plainHost 1 = .error {
      kind := .httpStatus 429 (some "2")
      message := s!"HTTP status {429}" } := rfl
    cases first.symm.trans raised
    obtain ⟨header, same, infinite⟩ := endless
    cases same
    exact absurd infinite (by decide +kernel)
  · cases second.symm.trans raised
  · obtain ⟨_, raised, _⟩ := before 2 (by decide) later
    cases second.symm.trans raised

theorem refused_ends : ¬ refusedWorld.WaitsForever .defaults plainHost := by
  rintro ⟨_, k, le, _, ⟨e, raised, endless⟩, before⟩
  have refused : ∀ n, refusedWorld.attempt .defaults plainHost n = .error {
    kind := .circuitBreakerOpen
    message := "Circuit breaker is OPEN." } := fun _ => rfl
  cases (refused k).symm.trans raised
  obtain ⟨header, same, _⟩ := endless
  cases same

end Poles

end InferenceForge.Api
