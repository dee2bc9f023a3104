/-
# InferenceForge.Api.JobLedger — what the rounds of a job add up to

A `Settlement` is a queued ticket with how its coroutine ended. The rounds of the
drain loop settle tickets: `Ledger` says which ones, what is still queued, and
what follows for the totals, for the entries of the result list and for the calls
that count them.

`Rounds.ledger` is the invariant of the loop. `DrainRun.ledger` is what it comes
to when the loop has emptied the queue: every unique ticket of the job is settled
exactly once. `JobRun.finished` says that the results a job stores are those.
-/
import InferenceForge.Api.JobRuns
import InferenceForge.Pipeline.JobStoreRuns

namespace InferenceForge.Api

open InferenceForge.Python InferenceForge.Library InferenceForge.Pipeline
open InferenceForge.Pipeline.JobStore (StoreCall Reply Act Counter tally)

set_option autoImplicit false

/-! ## Settlements -/

/-- A ticket of a batch and how its coroutine ended. -/
abbrev Settlement := Entry × Except Exn Dict

/-- The entry of the result list for a settled ticket. -/
def record (s : Settlement) : Dict := Dict.set (settle s.1.1 s.2) "ticket" (.string s.1.1)

def settlements (batch : Batch) (raw : Gathered batch) : List Settlement :=
  batch.entries.zip raw.1

/-- Every ticket of a batch ended as `fact` says. An operation that is not a call of
the job store raises only if `faults`. -/
def Settled (fact : Entry → Except Exn Dict → Prop) (faults : Prop := True) : AnswerFact
  | .gather batch, .ok raw => ∀ s ∈ settlements batch raw, fact s.1 s.2
  | .gather _, .error _ | .drainBatch, .error _ | .enqueueMany, .error _ => faults
  | _, _ => True

/-- Nothing has to be known. -/
theorem settled_any (trace : RouteTrace) : Held (Settled fun _ _ => True) trace := by
  rintro ⟨op, answer⟩ _
  unfold Settled
  split <;> simp

/-- In a job of one batch only its tickets are settled. -/
theorem settled_of_batch {Q : TicketQueue} {settings : Settings} {job : Job} {rest : Q.Carrier} {batch : Batch}
    {raw : Gathered batch} {remaining : ℕ} {totals : Totals} {total : Number} {call : StoreCall}
    {fact : Entry → Except Exn Dict → Prop} {faults : Prop}
    (settled : ∀ s ∈ settlements batch raw, fact s.1 s.2) :
    Held (Settled fact faults) (earlierTrace Q job rest raw remaining ++
      ⟨.store call, .ok⟩ :: laterTrace settings job totals total) := by
  simpa [Held, earlierTrace, prologue, timedRound, laterTrace, finishTrace, Settled] using settled

theorem settlements_entries (batch : Batch) (raw : Gathered batch) :
    (settlements batch raw).map Prod.fst = batch.entries := by
  refine List.map_fst_zip ?_
  rw [raw.2, ← Batch.entries_tickets, List.length_map]

theorem batchEntries_eq (batch : Batch) (raw : Gathered batch) :
    batchEntries batch raw = (settlements batch raw).map record := by
  obtain ⟨raw, length⟩ := raw
  obtain ⟨tickets, complexity, indices, paired⟩ := batch
  simp only [batchEntries, processBatch, settlements, Batch.entries] at length ⊢
  induction tickets generalizing indices raw with
  | nil => rfl
  | cons ticket tickets ih =>
      obtain ⟨index, indices, rfl⟩ := List.exists_cons_of_length_eq_add_one paired.symm
      obtain ⟨ended, raw, rfl⟩ := List.exists_cons_of_length_eq_add_one length
      have shorter := ih raw indices (Nat.succ.inj paired) (Nat.succ.inj length)
      simp only [List.zipWith_cons_cons, List.zip_cons_cons, List.map_cons, shorter]
      rfl

/-- How many of the entries a counter counts. -/
def among (entries : List Dict) : Counter → ℕ
  | .completed => batchCompleted entries
  | .failed => batchFailed entries
  | .cacheHits => batchCacheHits entries

theorem among_append (counter : Counter) (before after : List Dict) :
    among (before ++ after) counter = among before counter + among after counter := by
  cases counter <;> exact List.countP_append

theorem incrementCall_adds (entries : List Dict) (counter : Counter) :
    (incrementCall entries).adds counter = among entries counter := by
  cases counter <;> rfl

theorem progressCall_adds (job : Job) (totals : Totals) (eta : ℚ) (counter : Counter) :
    (progressCall job totals eta).adds counter = 0 := by
  cases counter <;> rfl

/-- An entry is completed or failed. -/
theorem among_completed_add_failed (entries : List Dict) :
    among entries .completed + among entries .failed = entries.length := by
  have counted := List.length_eq_countP_add_countP (fun entry => Dict.truthy entry "error") (l := entries)
  simp only [Bool.not_eq_true] at counted
  simp only [among, batchCompleted, batchFailed, counted]
  rw [add_comm]
  congr 2
  funext entry
  cases Dict.truthy entry "error" <;> rfl

/-- The failed count a call publishes. -/
def failedOf : Act → Option ℕ
  | (.publishProgress _ _ _ failed _, _) => some failed
  | _ => none

/-! ## The ledger -/

/-- Rounds that settle `settled`, from one queue and totals to the next. -/
structure Ledger (fact : Entry → Except Exn Dict → Prop) (before after : Multiset Entry)
    (totals totals' : Totals) (calls : List Act) (settled : List Settlement) : Prop where
  known : ∀ s ∈ settled, fact s.1 s.2
  conserved : before = (settled.map Prod.fst : Multiset Entry) + after
  results : totals'.results = totals.results ++ settled.map record
  completed : totals'.completed = totals.completed + settled.length
  failed : totals'.failedCount = totals.failedCount + among (settled.map record) .failed
  cacheHits : totals'.cacheHits = totals.cacheHits + among (settled.map record) .cacheHits
  tallied : ∀ counter, tally counter calls = among (settled.map record) counter
  rounds : ∀ act ∈ calls, RoundCall act.1
  published : (calls.filterMap failedOf).getLast?.getD totals.failedCount = totals'.failedCount

section Ledger

variable {Q : TicketQueue} {settings : Settings} {job : Job}
  {fact : Entry → Except Exn Dict → Prop} {faults : Prop}

theorem Ledger.refl (queued : Multiset Entry) (totals : Totals) :
    Ledger fact queued queued totals totals [] [] where
  known s member := by cases member
  conserved := by simp
  results := by simp
  completed := rfl
  failed := rfl
  cacheHits := rfl
  tallied counter := by cases counter <;> rfl
  rounds act member := by cases member
  published := rfl

/-- A round, and then the rounds after it. -/
theorem Ledger.round {queue rest : Q.Carrier} {after : Multiset Entry} {totals totals' : Totals}
    {batch : Batch} {later : List Act} {settled : List Settlement} (raw : Gathered batch) (eta : ℚ)
    (drained : PriorityBatcher.drainBatch Q queue = some (batch, rest))
    (known : ∀ s ∈ settlements batch raw, fact s.1 s.2)
    (more : Ledger fact (PriorityBatcher.entries Q rest) after
      (totals.absorb (batchEntries batch raw)) totals' later settled) :
    Ledger fact (PriorityBatcher.entries Q queue) after totals totals'
      ((incrementCall (batchEntries batch raw), .ok) ::
        (progressCall job (totals.absorb (batchEntries batch raw)) eta, .ok) :: later)
      (settlements batch raw ++ settled) where
  known s member := (List.mem_append.mp member).elim (known s) (more.known s)
  conserved := by
    rw [PriorityBatcher.drainBatch_entries drained, more.conserved, List.map_append,
      settlements_entries, ← Multiset.coe_add, add_assoc]
  results := by
    rw [more.results, List.map_append, ← batchEntries_eq, Totals.absorb, List.append_assoc]
  completed := by
    have counted := among_completed_add_failed (batchEntries batch raw)
    have same : (batchEntries batch raw).length = (settlements batch raw).length := by
      rw [batchEntries_eq, List.length_map]
    rw [more.completed, List.length_append, ← same, ← counted]
    simp only [Totals.absorb, among]
    omega
  failed := by
    rw [more.failed, List.map_append, among_append, ← batchEntries_eq, ← add_assoc]
    rfl
  cacheHits := by
    rw [more.cacheHits, List.map_append, among_append, ← batchEntries_eq, ← add_assoc]
    rfl
  tallied counter := by
    rw [JobStore.tally_cons, JobStore.tally_cons, more.tallied, List.map_append, among_append,
      ← batchEntries_eq, incrementCall_adds, progressCall_adds]
    simp
  rounds act member := by
    rcases List.mem_cons.mp member with rfl | member
    · trivial
    · rcases List.mem_cons.mp member with rfl | member
      · trivial
      · exact more.rounds act member
  published := by
    have published := more.published
    simpa [List.filterMap_cons, failedOf, incrementCall, progressCall, List.getLast?_cons]
      using published

/-- **The invariant of the drain loop.** -/
theorem Rounds.ledger {queue queue' : Q.Carrier} {totals totals' : Totals} {calls : List Act}
    (rounds : Rounds Q job (Settled fact faults) queue totals calls queue' totals') :
    ∃ settled, Ledger fact (PriorityBatcher.entries Q queue) (PriorityBatcher.entries Q queue')
      totals totals' calls settled := by
  induction rounds with
  | refl queue totals => exact ⟨[], .refl _ totals⟩
  | round raw eta drained known more ih =>
      obtain ⟨settled, ledger⟩ := ih
      exact ⟨_, ledger.round raw eta drained known⟩

/-- A loop that ends has settled what was queued. -/
theorem DrainRun.ledger {queue : Q.Carrier} {totals totals' : Totals} {calls : List Act}
    (run : DrainRun Q job (Settled fact faults) queue totals calls (.ok totals')) :
    ∃ settled, Ledger fact (PriorityBatcher.entries Q queue) 0 totals totals' calls settled := by
  cases run with
  | emptied rounds empty =>
      obtain ⟨settled, ledger⟩ := rounds.ledger
      rw [(PriorityBatcher.drainBatch_eq_none_iff _).mp empty] at ledger
      exact ⟨settled, ledger⟩

theorem completed_le_settled (settled : List Settlement) :
    among (settled.map record) .completed ≤ settled.length :=
  List.countP_le_length.trans (List.length_map record).le

theorem completed_le_queued {queue rest : Q.Carrier} {batch : Batch} (raw : Gathered batch)
    (drained : PriorityBatcher.drainBatch Q queue = some (batch, rest)) :
    among (batchEntries batch raw) .completed ≤ (PriorityBatcher.entries Q queue).card := by
  rw [PriorityBatcher.drainBatch_entries drained, Multiset.card_add, Multiset.coe_card,
    batchEntries_eq, ← settlements_entries _ raw, List.length_map]
  exact (completed_le_settled _).trans (Nat.le_add_right _ _)

/-- What a loop counts as completed was queued, also when it is interrupted. -/
theorem DrainRun.completed_le {queue : Q.Carrier} {totals : Totals} {calls : List Act}
    {result : Except Exn Totals} (run : DrainRun Q job (Settled fact faults) queue totals calls result) :
    tally .completed calls ≤ (PriorityBatcher.entries Q queue).card := by
  cases run with
  | emptied rounds empty =>
      obtain ⟨settled, ledger⟩ := rounds.ledger
      rw [ledger.tallied, ledger.conserved, Multiset.card_add, Multiset.coe_card, List.length_map]
      exact (completed_le_settled settled).trans (Nat.le_add_right _ _)
  | interrupted rounds broken =>
      obtain ⟨settled, ledger⟩ := rounds.ledger
      rw [JobStore.tally_append, ledger.tallied, ledger.conserved, Multiset.card_add,
        Multiset.coe_card, List.length_map]
      refine Nat.add_le_add (completed_le_settled settled) ?_
      cases broken with
      | drain e known => simp
      | round drained broken =>
          cases broken with
          | gather e known => simp
          | increment raw known e applied =>
              rw [JobStore.tally_cons, incrementCall_adds]
              refine le_trans ?_ (completed_le_queued raw drained)
              split <;> simp
          | progress raw known eta e applied =>
              rw [JobStore.tally_cons, JobStore.tally_cons, incrementCall_adds, progressCall_adds]
              refine le_trans ?_ (completed_le_queued raw drained)
              simp

/-- The calls behind the loop. -/
def FinishCall : StoreCall → Prop
  | .finish _ | .publishDone _ _ => True
  | _ => False

/-- A call behind the loop is made once every unique ticket is settled. -/
theorem JobRun.finishing {calls : List Act} {result : Except Exn Unit}
    (run : JobRun Q settings job (Settled fact faults) calls result) {act : Act} (called : act ∈ calls)
    (late : FinishCall act.1) :
    ∃ rounds totals settled last ended,
      Ledger fact (enumerate job.uniqueTickets : Multiset Entry) 0 (initialTotals job) totals rounds
        settled ∧ FinishRun settings job totals last ended ∧ act ∈ last := by
  have no_round : ∀ call, RoundCall call → ¬ FinishCall call := by
    intro call round finish
    cases call <;> first | exact round | exact finish
  have in_body : ∀ {body : List Act} {result : Except Exn Unit},
      BodyRun Q settings job (Settled fact faults) (jobQueue Q job) body result → act ∈ body →
      ∃ rounds totals settled last ended,
        Ledger fact (enumerate job.uniqueTickets : Multiset Entry) 0 (initialTotals job) totals rounds
          settled ∧ FinishRun settings job totals last ended ∧ act ∈ last := by
    intro body result ran member
    cases ran with
    | interrupted drained => exact absurd late (no_round _ (drained.calls _ member))
    | finished drained finished =>
        obtain ⟨settled, ledger⟩ := drained.ledger
        rw [jobQueue_entries] at ledger
        rcases List.mem_append.mp member with member | member
        · exact absurd late (no_round _ (drained.calls _ member))
        · exact ⟨_, _, settled, _, _, ledger, finished, member⟩
  have not_start : act ≠ (.start, .ok) := by
    rintro rfl
    exact late
  cases run with
  | enqueue e known => cases called
  | start e applied =>
      rw [List.mem_singleton.mp called] at late
      exact late.elim
  | completed ran => exact in_body ran ((List.mem_cons.mp called).resolve_left not_start)
  | failed ran exception reply =>
      rcases List.mem_append.mp ((List.mem_cons.mp called).resolve_left not_start) with member | member
      · exact in_body ran member
      · rw [List.mem_singleton.mp member] at late
        exact late.elim
  | abandoned ran base => exact in_body ran ((List.mem_cons.mp called).resolve_left not_start)

/-- **The results a job stores** are the pre-cached ones and one for each of its
unique tickets. -/
theorem JobRun.finished {calls : List Act} {result : Except Exn Unit}
    (run : JobRun Q settings job (Settled fact faults) calls result) {results : List Dict} {reply : Reply}
    (finish : (.finish results, reply) ∈ calls) :
    ∃ rounds totals settled,
      Ledger fact (enumerate job.uniqueTickets : Multiset Entry) 0 (initialTotals job) totals rounds
        settled ∧ results = totals.results := by
  obtain ⟨rounds, totals, settled, last, ended, ledger, finished, member⟩ := run.finishing finish trivial
  refine ⟨rounds, totals, settled, ledger, ?_⟩
  cases finished with
  | tokens raised => cases member
  | finish summed e applied =>
      cases List.mem_singleton.mp member
      rfl
  | publish summed percentiles duration published =>
      rcases List.mem_cons.mp member with same | member
      · cases same
        rfl
      · cases List.mem_singleton.mp member

/-- The stats a job publishes are those of its ledger. -/
theorem JobRun.stats {calls : List Act} {result : Except Exn Unit}
    (run : JobRun Q settings job (Settled fact faults) calls result) {results : List Dict} {stats : Dict}
    {reply : Reply} (published : (.publishDone results stats, reply) ∈ calls) :
    ∃ rounds totals settled total percentiles duration,
      Ledger fact (enumerate job.uniqueTickets : Multiset Entry) 0 (initialTotals job) totals rounds
        settled ∧ totalTokens totals.results = .ok total ∧
      stats = finalStats settings job totals total percentiles duration := by
  obtain ⟨rounds, totals, settled, last, ended, ledger, finished, member⟩ := run.finishing published trivial
  cases finished with
  | tokens raised => cases member
  | finish summed e applied => cases List.mem_singleton.mp member
  | publish summed percentiles duration replied =>
      rcases List.mem_cons.mp member with same | member
      · cases same
      · cases List.mem_singleton.mp member
        exact ⟨rounds, totals, settled, _, percentiles, duration, ledger, summed, rfl⟩

/-- A `try` that fails although no call raises has not come to `finish`. -/
theorem BodyRun.fails_early {body : List Act} {e : Exn} {results : List Dict} {reply : Reply}
    (ran : BodyRun Q settings job (Settled fact faults) (jobQueue Q job) body (.error e))
    (quiet : ∀ act ∈ body, act.2 = .ok) : (.finish results, reply) ∉ body := by
  obtain ⟨rounds, last, rfl, rounds_calls, ending⟩ := ran.calls
  generalize outcome : Except.error e = result at ending
  intro finish
  rcases List.mem_append.mp finish with member | member
  · exact rounds_calls _ member
  · cases ending with
    | interrupted e => cases member
    | finish results' e applied => cases quiet _ (List.mem_append_right _ List.mem_cons_self)
    | publish results' stats reply' =>
        have replied : reply' = .ok := quiet (.publishDone results' stats, reply') (by simp)
        subst replied
        cases outcome

/-- A job in which nothing raises and which finishes. -/
theorem JobRun.all_ok {calls : List Act} {result : Except Exn Unit}
    (run : JobRun Q settings job (Settled fact faults) calls result)
    (quiet : ∀ act ∈ calls, act.2 = .ok) {results : List Dict} {reply : Reply}
    (finish : (.finish results, reply) ∈ calls) :
    ∃ rounds totals settled total percentiles duration,
      Ledger fact (enumerate job.uniqueTickets : Multiset Entry) 0 (initialTotals job) totals rounds
        settled ∧
      calls = (.start, .ok) :: (rounds ++ [(.finish totals.results, .ok),
        (.publishDone totals.results (finalStats settings job totals total percentiles duration),
          .ok)]) := by
  cases run with
  | enqueue e known => cases finish
  | start e applied => cases List.mem_singleton.mp finish
  | completed ran =>
      generalize outcome : Except.ok () = result at ran
      cases ran with
      | interrupted drained => cases outcome
      | finished drained finished =>
          obtain ⟨settled, ledger⟩ := drained.ledger
          rw [jobQueue_entries] at ledger
          cases finished with
          | tokens raised => cases outcome
          | finish summed e applied => cases outcome
          | publish summed percentiles duration published =>
              cases published with
              | ok => exact ⟨_, _, settled, _, percentiles, duration, ledger, rfl⟩
              | raised e applied => cases outcome
  | failed ran exception reply =>
      refine absurd (by simpa using finish) (ran.fails_early fun act member => quiet act ?_)
      exact List.mem_cons_of_mem _ (List.mem_append_left _ member)
  | abandoned ran base =>
      refine absurd (by simpa using finish) (ran.fails_early fun act member => quiet act ?_)
      exact List.mem_cons_of_mem _ member

theorem BodyRun.completed_le {body : List Act} {result : Except Exn Unit}
    (ran : BodyRun Q settings job (Settled fact faults) (jobQueue Q job) body result) :
    tally .completed body ≤ job.uniqueTickets.length := by
  have queued : (PriorityBatcher.entries Q (jobQueue Q job)).card = job.uniqueTickets.length := by
    rw [jobQueue_entries, Multiset.coe_card, length_enumerate]
  rw [← queued]
  cases ran with
  | interrupted drained => exact drained.completed_le
  | finished drained finished =>
      refine le_trans ?_ drained.completed_le
      rw [JobStore.tally_append]
      cases finished <;> simp [StoreCall.adds]

/-- A job counts no more tickets as completed than it has unique ones. -/
theorem JobRun.completed_le {calls : List Act} {result : Except Exn Unit}
    (run : JobRun Q settings job (Settled fact faults) calls result) :
    tally .completed calls ≤ job.uniqueTickets.length := by
  cases run with
  | enqueue e known => simp
  | start e applied => simp [StoreCall.adds]
  | completed ran => simpa [StoreCall.adds] using ran.completed_le
  | failed ran exception reply => simpa [StoreCall.adds] using ran.completed_le
  | abandoned ran base => simpa [StoreCall.adds] using ran.completed_le

end Ledger

end InferenceForge.Api
