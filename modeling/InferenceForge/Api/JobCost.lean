/-
# InferenceForge.Api.JobCost — whose tokens a job counts

The stats of a job hold the sum of the tokens of its result records. A record that
was served from the cache still holds the tokens of the call it was once read from,
and a successful call whose object is not returned is in no record. So the total is
what the job was served and what it kept (`Ledger.totalTokens`), and it is the job's
own exactly when what it was served comes to what it lost (`job_cost_iff`).

What the coroutine of each ticket did is given by `traces`; a batch is answered by
how those runs ended (`RanAs`).
-/
import InferenceForge.Api.JobProgress
import InferenceForge.Pipeline.TicketAnswers

namespace InferenceForge.Api

open InferenceForge.Python InferenceForge.Library InferenceForge.Pipeline
open InferenceForge.Pipeline.JobStore (StoreCall Reply Act)

set_option autoImplicit false

/-! ## Sums of tokens -/

theorem sum_eq_some {items : List Json} {total : Number} (summed : sum items = some total) :
    total = (items.map fun item => item.toNumber?.getD 0).sum := by
  have from_start : ∀ start : Number,
      items.foldlM (fun total item => item.toNumber?.map total.add) start = some total →
        total = start + (items.map fun item => item.toNumber?.getD 0).sum := by
    clear summed
    induction items with
    | nil =>
        intro start done
        cases done
        exact (add_zero _).symm
    | cons item rest ih =>
        intro start folded
        rw [List.foldlM_cons] at folded
        cases found : item.toNumber? with
        | none =>
            rw [found] at folded
            cases folded
        | some value =>
            rw [found] at folded
            rw [ih (start.add value) folded, List.map_cons, List.sum_cons, found, ← add_assoc]
            rfl
  exact (from_start 0 summed).trans (zero_add _)

theorem totalTokens_eq {results : List Dict} {total : Number} (summed : totalTokens results = .ok total) :
    total = (results.map tokensOf).sum := by
  unfold totalTokens at summed
  cases found : sum (results.map fun r => (Dict.get? r "tokens").getD (.number (.finite 0))) with
  | none =>
      rw [found] at summed
      cases summed
  | some value =>
      rw [found] at summed
      cases summed
      rw [sum_eq_some found, List.map_map]
      rfl

/-! ## What a job counts -/

section Counted

variable (settings : Settings) (host : Host) (traces : Entry → TicketTrace) (job : Job)

/-- The coroutine of a ticket did what its trace says. -/
def RanAs (entry : Entry) (ended : Except Exn Dict) : Prop :=
  Runs (processTicket settings host entry.1) (traces entry) ended

def Job.overTickets (amount : TicketTrace → Number) : Number :=
  ((enumerate job.uniqueTickets).map fun entry => amount (traces entry)).sum

/-- The tokens of the successful upstream calls of the job. -/
def Job.ownTokens : Number := job.overTickets traces fun trace => tokensIn (answers host trace)

/-- The tokens of the records that came from the cache, with the request or while the
tickets were processed. -/
def Job.servedTokens : Number :=
  (job.preCachedResults.map tokensOf).sum + job.overTickets traces Pipeline.servedTokens

def Job.keptTokens : Number := job.overTickets traces (Pipeline.keptTokens host)

/-- The tokens of the successful calls whose object is in no record: a content that is
no object, or an object that could not be stored. -/
def Job.lostTokens : Number := job.overTickets traces (Pipeline.lostTokens host)

end Counted

section Runs

variable {Q : TicketQueue} {settings : Settings} {host : Host} {traces : Entry → TicketTrace} {job : Job}
  {faults : Prop}

theorem overTickets_add (f g : TicketTrace → Number) :
    job.overTickets traces (fun trace => f trace + g trace) =
      job.overTickets traces f + job.overTickets traces g := List.sum_map_add

/-- A successful call is kept or lost. -/
theorem ownTokens_eq : job.keptTokens host traces + job.lostTokens host traces = job.ownTokens host traces := by
  rw [Job.keptTokens, Job.lostTokens, ← overTickets_add, Job.ownTokens]
  congr 1
  funext trace
  exact keptTokens_add_lostTokens

/-- The record of a settled ticket holds what it was served and what it kept. -/
theorem RanAs.tokens {settled : Settlement} (ran : RanAs settings host traces settled.1 settled.2) :
    tokensOf (record settled) =
      Pipeline.servedTokens (traces settled.1) + Pipeline.keptTokens host (traces settled.1) := by
  rw [record, tokensOf_set (by decide)]
  exact (processTicket_runs_iff.mp ran).tokens

/-- **The tokens of a job's results** are those it was served and those it kept. -/
theorem Ledger.totalTokens {totals : Totals} {rounds : List Act} {settled : List Settlement} {total : Number}
    (ledger : Ledger (RanAs settings host traces) (enumerate job.uniqueTickets : Multiset Entry) 0
      (initialTotals job) totals rounds settled)
    (summed : Api.totalTokens totals.results = .ok total) :
    total = job.keptTokens host traces + job.servedTokens traces := by
  have entries : (settled.map Prod.fst).Perm (enumerate job.uniqueTickets) :=
    Multiset.coe_eq_coe.mp ((add_zero _).symm.trans ledger.conserved.symm)
  have each : (settled.map record).map tokensOf = (settled.map Prod.fst).map fun entry =>
      Pipeline.servedTokens (traces entry) + Pipeline.keptTokens host (traces entry) := by
    rw [List.map_map, List.map_map]
    apply List.map_congr_left
    intro s member
    exact (ledger.known s member).tokens
  have of_tickets : ((settled.map record).map tokensOf).sum =
      job.overTickets traces Pipeline.servedTokens + job.keptTokens host traces := by
    rw [each, (entries.map _).sum_eq]
    exact overTickets_add _ _
  rw [totalTokens_eq summed, ledger.results, List.map_append, List.sum_append, of_tickets, ← add_assoc,
    add_comm]
  rfl

theorem add_finite_cancel {q : ℚ} {a b : Number} : Number.finite q + a = .finite q + b ↔ a = b := by
  constructor
  · intro same
    have cancelled : Number.finite (-q) + (.finite q + a) = .finite (-q) + (.finite q + b) := by rw [same]
    have zero : Number.finite (-q) + .finite q = 0 := congrArg Number.finite (neg_add_cancel q)
    rwa [← add_assoc, ← add_assoc, zero, zero_add, zero_add] at cancelled
  · intro same
    rw [same]

/-- **The total of a job is its own** exactly when the tokens it was served and those
of its lost calls make the same difference to what it kept, which is to say, where
what it kept is finite, that they are equal. -/
theorem job_cost_iff {trace : RouteTrace} {ended : Except Exn Unit} {results : List Dict} {stats : Dict}
    {reply : Reply} (ran : Runs (processJob Q settings job) trace ended)
    (tickets : Held (Settled (RanAs settings host traces) faults) trace)
    (published : ⟨.store (.publishDone results stats), reply⟩ ∈ trace) :
    (Dict.get? stats "total_tokens" = some (.number (job.ownTokens host traces)) ↔
      job.keptTokens host traces + job.servedTokens traces =
        job.keptTokens host traces + job.lostTokens host traces) ∧
    ∀ kept, job.keptTokens host traces = .finite kept →
      (Dict.get? stats "total_tokens" = some (.number (job.ownTokens host traces)) ↔
        job.servedTokens traces = job.lostTokens host traces) := by
  have called : (.publishDone results stats, reply) ∈ acts trace := List.mem_filterMap.mpr ⟨_, published, rfl⟩
  obtain ⟨rounds, totals, settled, total, percentiles, duration, ledger, summed, rfl⟩ :=
    (processJob_runs ran tickets).stats called
  have whole := ledger.totalTokens summed
  have shown : Dict.get? (finalStats settings job totals total percentiles duration) "total_tokens" =
      some (.number total) := rfl
  have exactly : Dict.get? (finalStats settings job totals total percentiles duration) "total_tokens" =
      some (.number (job.ownTokens host traces)) ↔
      job.keptTokens host traces + job.servedTokens traces =
        job.keptTokens host traces + job.lostTokens host traces := by
    rw [shown, whole, ownTokens_eq]
    constructor
    · intro same
      exact Json.number.inj (Option.some.inj same)
    · intro same
      rw [same]
  refine ⟨exactly, fun kept finite => ?_⟩
  rw [exactly, finite]
  exact add_finite_cancel

end Runs

/-! ## Poles -/

section Poles

/-- How the ticket of `missedJob` ends when upstream classifies it. -/
def helpEnded : Except Exn Dict := .ok (Dict.set foundRecord "cache_hit" (.bool false))

/-- What its coroutine does. -/
def helpTraces : Entry → TicketTrace := fun _ =>
  (runWith (fun _ => foundWorld.answer) (processTicket .defaults plainHost "help") 0).1

theorem helpTraces_runs (index : ℤ) : RanAs .defaults plainHost helpTraces ("help", index) helpEnded := by
  have ended : (runWith (fun _ => foundWorld.answer) (processTicket .defaults plainHost "help") 0).2 =
      some helpEnded := rfl
  exact (runWith_runs ended).1

theorem helpEnded_tokens : totalTokens (helpTotals helpEnded).results = .ok (.finite (0 + 7)) := rfl

theorem missed_ranAs (total : Number) : Held (Settled (RanAs .defaults plainHost helpTraces) False)
    (missedEarlier helpEnded ++ ⟨.store (progressCall missedJob (helpTotals helpEnded) 0), .ok⟩ ::
      missedLater helpEnded total) := by
  have settled : ∀ s ∈ settlements helpBatch (helpRaw helpEnded), RanAs .defaults plainHost helpTraces s.1 s.2 := by
    intro s member
    obtain rfl : s = (("help", 0), helpEnded) := List.mem_singleton.mp member
    exact helpTraces_runs 0
  exact settled_of_batch settled

/-- Satisfiable pole: the only ticket was classified for the job. -/
theorem job_cost_iff_classified :
    Dict.get? (finalStats .defaults missedJob (helpTotals helpEnded) (.finite (0 + 7)) ⟨0, 0, 0⟩ (0 - 0))
      "total_tokens" = some (.number (missedJob.ownTokens plainHost helpTraces)) := by
  have published : ⟨.store (.publishDone (helpTotals helpEnded).results (finalStats .defaults missedJob
        (helpTotals helpEnded) (.finite (0 + 7)) ⟨0, 0, 0⟩ (0 - 0))), .ok⟩ ∈
      missedEarlier helpEnded ++ ⟨.store (progressCall missedJob (helpTotals helpEnded) 0), .ok⟩ ::
        missedLater helpEnded (.finite (0 + 7)) := by
    apply List.mem_append_right
    simp [laterTrace, finishTrace]
  have kept : missedJob.keptTokens plainHost helpTraces = .finite (7 + 0 + 0) := rfl
  have served : Pipeline.servedTokens (helpTraces ("help", 0)) = 0 := rfl
  have lost : Pipeline.lostTokens plainHost (helpTraces ("help", 0)) = 0 + 0 := rfl
  have balanced : missedJob.servedTokens helpTraces = missedJob.lostTokens plainHost helpTraces := by
    show 0 + (Pipeline.servedTokens (helpTraces ("help", 0)) + 0) =
      Pipeline.lostTokens plainHost (helpTraces ("help", 0)) + 0
    rw [served, lost, add_zero, add_zero]
  have ran := missedJob_runs helpEnded helpEnded_tokens
  exact ((job_cost_iff ran (missed_ranAs _) published).2 _ kept).mpr balanced

/-- **Refuting pole.** The only ticket was found in the cache. The job made no call,
and its stats count the tokens of the call of another job. -/
theorem served_tokens_counted :
    Known (fun _ cached => Written .defaults plainHost cached) foundSubmission.postTrace ∧
      Held (Settled (RanAs .defaults plainHost fun _ => [])) foundSubmission.jobTrace ∧
      ⟨.store (.publishDone foundJob.preCachedResults foundStats), .ok⟩ ∈ foundSubmission.jobTrace ∧
      foundSubmission.job.ownTokens plainHost (fun _ => []) = .finite 0 ∧
      Dict.get? foundStats "total_tokens" = some (.number (.finite 7)) ∧
      Dict.get? foundStats "total_tokens" ≠
        some (.number (foundSubmission.job.ownTokens plainHost fun _ => [])) := by
  refine ⟨foundSubmission_cache, foundSubmission_batches _, ?_, rfl, rfl, fun same => ?_⟩
  · show _ ∈ foundTrace
    simp [foundTrace, cachedJobTrace]
  · have seven : Number.finite 7 = .finite 0 := Json.number.inj (Option.some.inj same)
    exact absurd (Number.finite.inj seven) (by norm_num)

end Poles

end InferenceForge.Api
