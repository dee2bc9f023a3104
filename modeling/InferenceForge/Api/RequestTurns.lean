/-
# InferenceForge.Api.RequestTurns — how many turns a request and its task take

A batch takes two turns, one to start the coroutines of its tickets and one to join them; every
other operation takes one (`TwoForGather`). `request_costs` adds them up: a request of `n`
tickets and its task take at most `11 * n + 18`.
-/
import InferenceForge.Api.ProcessState
import InferenceForge.Library.Halting

namespace InferenceForge.Api.Service

open InferenceForge.Python InferenceForge.Library InferenceForge.Pipeline
open InferenceForge.Pipeline.JobStore (StoreCall)
open InferenceForge.Api.QueueDepth (request launching launching_bind deduplicate_asks)
open InferenceForge.Api.ProcessState (Posting)

set_option autoImplicit false

/-! ## How many turns a request takes -/

section Turns

variable {Q : TicketQueue} {settings : Settings} {host : Host} {job : Job} {cost : RouteOp → ℕ}

/-- An operation takes one turn, and a gather two. -/
def TwoForGather (cost : RouteOp → ℕ) : Prop :=
  (∀ batch, cost (.gather batch) = 2) ∧ ∀ op, (∀ batch, op ≠ .gather batch) → cost op = 1

theorem TwoForGather.await (rates : TwoForGather cost) (op : RouteOp) (plain : ∀ batch, op ≠ .gather batch) :
    (await op).Costs cost 1 := (costs_perform op).mono (rates.2 op plain).le

theorem TwoForGather.store (rates : TwoForGather cost) (call : StoreCall) : (Api.store call).Costs cost 1 :=
  costs_call.mono (rates.2 (.store call) (by simp)).le

theorem processRound_costs (rates : TwoForGather cost) (batch : Batch) (totals : Totals) :
    (processRound job batch totals).Costs cost 8 := by
  have gathers : (Program.call (.gather batch) id : Handler (Gathered batch)).Costs cost 2 :=
    costs_call.mono (rates.1 batch).le
  refine costs_bind (n := 1) (m := 7) (rates.await _ (by simp)) fun batchStart => ?_
  refine costs_bind (n := 2) (m := 5) gathers fun raw => ?_
  refine costs_bind (n := 1) (m := 4) (rates.await _ (by simp)) fun batchEnd => ?_
  refine costs_bind (n := 1) (m := 3) (rates.await _ (by simp)) fun _ => ?_
  refine costs_bind (n := 1) (m := 2) (rates.store _) fun _ => ?_
  refine costs_bind (n := 1) (m := 1) (rates.await _ (by simp)) fun eta => ?_
  exact costs_bind (n := 1) (m := 0) (rates.store _) fun _ => costs_pure

theorem drain_costs (rates : TwoForGather cost) (queue : Q.Carrier) (totals : Totals) :
    (drain Q job queue totals).Costs cost ((PriorityBatcher.entries Q queue).card * 10 + 1) := by
  induction queue, totals using drain.induct Q with
  | case1 queue totals ih =>
      rw [drain, Nat.add_comm]
      have draws : (Program.call .drainBatch id : Handler Unit).Costs cost 1 :=
        costs_call.mono (rates.2 .drainBatch (by simp)).le
      refine costs_bind draws fun _ => ?_
      split
      · trivial
      · next batch rest drained =>
          have fewer := PriorityBatcher.drainBatch_card_lt drained
          have more : (Program.bind (await (.queueDepth (Q.items rest).card)) fun _ =>
              Program.bind (processRound job batch totals) fun totals => drain Q job rest totals).Costs cost
              (1 + (8 + ((PriorityBatcher.entries Q rest).card * 10 + 1))) :=
            costs_bind (rates.await _ (by simp)) fun _ =>
              costs_bind (processRound_costs rates batch totals) fun totals =>
              ih batch rest drained totals
          exact more.mono (by omega)

theorem finishJob_costs (rates : TwoForGather cost) (jobStart : ℚ) (totals : Totals) :
    (finishJob settings job jobStart totals).Costs cost 4 := by
  refine costs_bind (n := 1) (m := 3) (rates.await _ (by simp)) fun jobEnd => ?_
  refine costs_bind (n := 0) (m := 3) (costs_ofResult _) fun tokens => ?_
  refine costs_bind (n := 1) (m := 2) (rates.await _ (by simp)) fun percentiles => ?_
  exact costs_bind (n := 1) (m := 1) (rates.store _) fun _ => rates.store _

/-- A task, by the tickets of its job. -/
theorem processJob_costs (rates : TwoForGather cost) :
    (processJob Q settings job).Costs cost (job.uniqueTickets.length * 10 + 12) := by
  have queued : (PriorityBatcher.entries Q (jobQueue Q job)).card = job.uniqueTickets.length := by
    rw [jobQueue_entries, Multiset.coe_card, length_enumerate]
  have body : ∀ jobStart, (jobBody Q settings job (jobQueue Q job) jobStart).Costs cost
      ((job.uniqueTickets.length * 10 + 1) + 4) := fun jobStart =>
    costs_bind (queued ▸ drain_costs rates _ _) fun totals => finishJob_costs rates jobStart totals
  have failed : ∀ e, (jobFailed e).Costs cost 1 := fun e => by
    unfold jobFailed
    split
    · exact rates.store _
    · trivial
  have fills : (Program.call .enqueueMany id : Handler Unit).Costs cost 1 :=
    costs_call.mono (rates.2 .enqueueMany (by simp)).le
  have whole : (processJob Q settings job).Costs cost
      (1 + (1 + (1 + (1 + (1 + ((((job.uniqueTickets.length * 10 + 1) + 4) + 1) + 1)))))) := by
    refine costs_bind (rates.await _ (by simp)) fun _ => costs_bind (rates.await _ (by simp)) fun jobStart => ?_
    refine costs_bind fills fun _ => costs_bind (rates.await _ (by simp)) fun _ => ?_
    refine costs_bind (rates.store _) fun _ => ?_
    exact costs_tryFinally (costs_rescue (body jobStart) failed) (rates.await _ (by simp))
  exact whole.mono (by omega)

theorem deduplicate_costs (rates : TwoForGather cost) (tickets : List String) (found : Dedup) :
    (deduplicate host tickets found).Costs cost tickets.length := by
  induction tickets generalizing found with
  | nil => trivial
  | cons ticket rest ih =>
      unfold deduplicate
      dsimp only
      split
      · exact (ih _).mono (Nat.le_succ _)
      · have looks : (Program.call (.cacheGet (ticketKey host ticket)) id : Handler (Option Dict)).Costs cost 1 :=
          costs_call.mono (rates.2 (.cacheGet _) (by simp)).le
        rw [List.length_cons, Nat.add_comm rest.length]
        refine costs_bind looks fun cached => ?_
        cases cached <;> exact ih _

theorem deduplicate_returns (tickets : List String) :
    (deduplicate host tickets {}).Returns fun found => found.uniqueTickets.length ≤ tickets.length := by
  intro trace found ran
  obtain ⟨_, _, ⟨e, impossible⟩ | ⟨final, same, run⟩⟩ := deduplicate_runs tickets ran (known_any trace)
  · cases impossible
  · cases same
    have counted := (run.deduplicated deduplicated_nil).counted
    rw [List.nil_append] at counted
    omega

/-- The handler, and what it goes on with. -/
theorem launching_costs {α β : Type} {task : Job → Handler Unit} {p : Handler α} {f : α → Handler β}
    {P : α → Prop} {n m : ℕ}
    (asks : p.Asks fun op => Posting op = true) (costs : p.Costs cost n) (returns : p.Returns P)
    (rest : ∀ value, P value → (launching task none (f value)).Costs cost m) :
    (launching task none (p >>= f)).Costs cost (n + m) := by
  have idle : ∀ op, Posting op = true → QueueDepth.Idle op := by
    rintro _ posting job rfl
    cases posting
  rw [launching_bind _ (asks.mono idle)]
  exact costs_bind_of costs returns rest

/-- A request and its task, by its tickets. -/
theorem request_costs (rates : TwoForGather cost) (body : ProcessRequest settings) :
    (request Q settings host body).Costs cost (body.tickets.length * 11 + 18) := by
  have stored : ∀ call : StoreCall, Posting (.store call) = true → (store call).Asks fun op => Posting op = true :=
    fun call posting => asks_call (P := fun op => Posting op = true) posting
  have any : ∀ {α : Type} (p : Handler α), p.Returns fun _ => True := fun _ _ _ _ => trivial
  have whole : (request Q settings host body).Costs cost (1 + (body.tickets.length + (1 + (1 + (1 +
      (1 + (1 + (body.tickets.length * 10 + 12)))))))) := by
    unfold request processTickets
    refine launching_costs (asks_perform rfl) (rates.await _ (by simp)) (any _) fun jobId _ => ?_
    refine launching_costs (deduplicate_asks (fun _ => rfl) _ _) (deduplicate_costs rates _ _) (deduplicate_returns _)
      fun found fewer => ?_
    refine launching_costs (asks_perform rfl) (rates.await _ (by simp)) (any _) fun estimated _ => ?_
    refine launching_costs (stored _ rfl) (rates.store _) (any _) fun _ _ => ?_
    refine launching_costs (asks_when (stored _ rfl)) (costs_when (rates.store _)) (any _) fun _ _ => ?_
    have one : ∀ op, (∀ batch, op ≠ .gather batch) → cost op = 1 := rates.2
    refine ⟨_, by rw [one _ (by simp), Nat.add_comm], fun _ =>
      ⟨_, by rw [one _ (by simp), Nat.add_comm], fun _ => ?_⟩⟩
    refine (processJob_costs rates).mono ?_
    exact Nat.add_le_add_right (Nat.mul_le_mul_right 10 fewer) 12
  exact whole.mono (by omega)

end Turns

end InferenceForge.Api.Service
