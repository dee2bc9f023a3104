/-
# InferenceForge.Api.JobRuns — what a background task can do

`JobRun` lists the ways a run of `processJob` can go, by what it does to the job
store (`acts`) and how it ends; `processJob_runs` says that there are no others.
The rounds of the drain loop are `Rounds`: which batches were drained, how their
tickets ended, and the two calls each round makes.

Every result about a job is derived from this list. `held` is what is known of
the answers the task got; it is handed on to where they are used.
-/
import InferenceForge.Api.Routes
import InferenceForge.Pipeline.JobStoreSteps

namespace InferenceForge.Api

open InferenceForge.Python InferenceForge.Library InferenceForge.Pipeline
open InferenceForge.Pipeline.JobStore (StoreCall Reply JobRedis Act)

set_option autoImplicit false

abbrev RouteTrace := List (Asked RouteOp RouteAnswer)

def storeAct : Asked RouteOp RouteAnswer → Option Act
  | ⟨.store call, reply⟩ => some (call, reply)
  | _ => none

/-- The calls of the job store in a trace, with their replies. -/
def acts (trace : RouteTrace) : List Act := trace.filterMap storeAct

@[simp] theorem acts_nil : acts [] = [] := rfl

@[simp] theorem acts_append (before after : RouteTrace) :
    acts (before ++ after) = acts before ++ acts after := List.filterMap_append

@[simp] theorem acts_store (call : StoreCall) (reply : Reply) (rest : RouteTrace) :
    acts (⟨.store call, reply⟩ :: rest) = (call, reply) :: acts rest := rfl

/-- An operation can always be answered. -/
instance answer_nonempty (op : RouteOp) : Nonempty (RouteAnswer op) :=
  match op with
  | .store _ => ⟨Reply.ok⟩
  | .cacheGet _ => ⟨.ok none⟩
  | .enqueueMany | .drainBatch => ⟨.ok ()⟩
  | .gather _ => ⟨.error (.typeError "")⟩
  | .activeJobs _ | .queueDepth _ | .etaUpdate _ | .createTask _ => ⟨()⟩
  | .monotonic | .etaEstimate _ _ | .etaInitial _ _ => ⟨(0 : ℚ)⟩
  | .summary => ⟨⟨0, 0, 0⟩⟩
  | .uuid => ⟨""⟩

/-- What is known of the answers. -/
abbrev AnswerFact := (op : RouteOp) → RouteAnswer op → Prop

/-- Every operation in the trace was answered as `held` says. -/
def Held (held : AnswerFact) (trace : RouteTrace) : Prop := ∀ asked ∈ trace, held asked.1 asked.2

section Shape

variable (Q : TicketQueue) (settings : Settings) (job : Job) (held : AnswerFact)

/-- The call that counts a batch. -/
def incrementCall (entries : List Dict) : StoreCall :=
  .incrementProgress (batchCompleted entries) (batchFailed entries) (batchCacheHits entries)

/-- The call that publishes the totals after a batch. -/
def progressCall (totals : Totals) (eta : ℚ) : StoreCall :=
  .publishProgress totals.completed job.totalTickets totals.cacheHits totals.failedCount eta

/-- Complete rounds of the loop, from one queue and totals to the next. -/
inductive Rounds : Q.Carrier → Totals → List Act → Q.Carrier → Totals → Prop
  | refl (queue : Q.Carrier) (totals : Totals) : Rounds queue totals [] queue totals
  | round {queue rest queue' : Q.Carrier} {totals totals' : Totals} {batch : Batch}
      {later : List Act} (raw : Gathered batch) (eta : ℚ)
      (drained : PriorityBatcher.drainBatch Q queue = some (batch, rest))
      (known : held (.gather batch) (.ok raw))
      (more : Rounds rest (totals.absorb (batchEntries batch raw)) later queue' totals') :
      Rounds queue totals
        ((incrementCall (batchEntries batch raw), .ok) ::
          (progressCall job (totals.absorb (batchEntries batch raw)) eta, .ok) :: later)
        queue' totals'

/-- A round for a drained batch that raises. -/
inductive Broken (batch : Batch) (totals : Totals) : List Act → Exn → Prop
  | gather (e : Exn) (known : held (.gather batch) (.error e)) : Broken batch totals [] e
  | increment (raw : Gathered batch) (known : held (.gather batch) (.ok raw)) (e : Exn)
      (applied : ℕ) :
      Broken batch totals [(incrementCall (batchEntries batch raw), .raised e applied)] e
  | progress (raw : Gathered batch) (known : held (.gather batch) (.ok raw)) (eta : ℚ) (e : Exn)
      (applied : ℕ) :
      Broken batch totals [(incrementCall (batchEntries batch raw), .ok),
        (progressCall job (totals.absorb (batchEntries batch raw)) eta, .raised e applied)] e

/-- The loop raises: while draining, or in a round. -/
inductive Interrupted (queue : Q.Carrier) (totals : Totals) : List Act → Exn → Prop
  | drain (e : Exn) (known : held .drainBatch (.error e)) : Interrupted queue totals [] e
  | round {batch : Batch} {rest : Q.Carrier} {last : List Act} {e : Exn}
      (drained : PriorityBatcher.drainBatch Q queue = some (batch, rest))
      (broken : Broken job held batch totals last e) : Interrupted queue totals last e

/-- How the loop can go. -/
inductive DrainRun (queue : Q.Carrier) (totals : Totals) : List Act → Except Exn Totals → Prop
  | emptied {before : List Act} {queue' : Q.Carrier} {totals' : Totals}
      (rounds : Rounds Q job held queue totals before queue' totals')
      (empty : PriorityBatcher.drainBatch Q queue' = none) :
      DrainRun queue totals before (.ok totals')
  | interrupted {before last : List Act} {queue' : Q.Carrier} {totals' : Totals} {e : Exn}
      (rounds : Rounds Q job held queue totals before queue' totals')
      (broken : Interrupted Q job held queue' totals' last e) :
      DrainRun queue totals (before ++ last) (.error e)

/-- How what follows the loop can go. -/
inductive FinishRun (totals : Totals) : List Act → Except Exn Unit → Prop
  | tokens {e : Exn} (raised : totalTokens totals.results = .error e) :
      FinishRun totals [] (.error e)
  | finish {total : Number} (summed : totalTokens totals.results = .ok total) (e : Exn)
      (applied : ℕ) : FinishRun totals [(.finish totals.results, .raised e applied)] (.error e)
  | publish {total : Number} (summed : totalTokens totals.results = .ok total)
      (percentiles : Summary) (duration : ℚ) (reply : Reply) :
      FinishRun totals
        [(.finish totals.results, .ok),
          (.publishDone totals.results (finalStats settings job totals total percentiles duration),
            reply)]
        reply.seen

/-- How the `try` of a job can go. -/
inductive BodyRun (queue : Q.Carrier) : List Act → Except Exn Unit → Prop
  | interrupted {before : List Act} {e : Exn}
      (drained : DrainRun Q job held queue (initialTotals job) before (.error e)) :
      BodyRun queue before (.error e)
  | finished {before last : List Act} {totals : Totals} {result : Except Exn Unit}
      (drained : DrainRun Q job held queue (initialTotals job) before (.ok totals))
      (finish : FinishRun settings job totals last result) : BodyRun queue (before ++ last) result

/-- The queue the loop starts with. -/
def jobQueue : Q.Carrier := PriorityBatcher.enqueueMany Q Q.empty job.uniqueTickets

/-- How a job can go. -/
inductive JobRun : List Act → Except Exn Unit → Prop
  | enqueue (e : Exn) (known : held .enqueueMany (.error e)) : JobRun [] (.error e)
  | start (e : Exn) (applied : ℕ) : JobRun [(.start, .raised e applied)] (.error e)
  | completed {body : List Act} (ran : BodyRun Q settings job held (jobQueue Q job) body (.ok ())) :
      JobRun ((.start, .ok) :: body) (.ok ())
  | failed {body : List Act} {e : Exn} (ran : BodyRun Q settings job held (jobQueue Q job) body (.error e))
      (exception : e.isException = true) (reply : Reply) :
      JobRun ((.start, .ok) :: (body ++ [(.fail e.message, reply)])) reply.seen
  | abandoned {body : List Act} {e : Exn}
      (ran : BodyRun Q settings job held (jobQueue Q job) body (.error e)) (base : e.isException = false) :
      JobRun ((.start, .ok) :: body) (.error e)

end Shape

section Runs

variable {Q : TicketQueue} {settings : Settings} {job : Job} {held : AnswerFact}

theorem Held.append {before after : RouteTrace} :
    Held held (before ++ after) ↔ Held held before ∧ Held held after :=
  List.forall_mem_append

theorem Held.of_cons {asked : Asked RouteOp RouteAnswer} {rest : RouteTrace}
    (all : Held held (asked :: rest)) : Held held rest :=
  (List.forall_mem_cons.mp all).2

/-- Nothing has to be known. -/
theorem held_any (trace : RouteTrace) : Held (fun _ _ => True) trace := fun _ _ => trivial

theorem store_bind_runs {α : Type} {call : StoreCall} {f : Unit → Handler α} {trace : RouteTrace}
    {result : Except Exn α} (ran : Runs (store call >>= f) trace result) :
    (∃ e applied, trace = [⟨.store call, .raised e applied⟩] ∧ result = .error e) ∨
      ∃ rest, trace = ⟨.store call, .ok⟩ :: rest ∧ Runs (f ()) rest result := by
  rcases runs_call_bind_iff.mp ran with
    ⟨reply, e, seen, rfl, rfl⟩ | ⟨reply, _, rest, seen, rfl, later⟩
  · cases reply with
    | ok => cases seen
    | raised e' applied =>
        cases seen
        exact .inl ⟨e, applied, rfl, rfl⟩
  · cases reply with
    | ok => exact .inr ⟨rest, rfl, later⟩
    | raised e' applied => cases seen

theorem store_runs {call : StoreCall} {trace : RouteTrace} {result : Except Exn Unit}
    (ran : Runs (store call) trace result) :
    ∃ reply, trace = [⟨.store call, reply⟩] ∧ result = reply.seen :=
  runs_call_iff.mp ran

/-- How one round goes. -/
theorem processRound_runs {batch : Batch} {totals : Totals} {trace : RouteTrace}
    {result : Except Exn Totals} (ran : Runs (processRound job batch totals) trace result)
    (all : Held held trace) :
    (∃ raw eta, held (.gather batch) (.ok raw) ∧ result = .ok (totals.absorb (batchEntries batch raw)) ∧
      acts trace = [(incrementCall (batchEntries batch raw), .ok),
        (progressCall job (totals.absorb (batchEntries batch raw)) eta, .ok)]) ∨
    ∃ e, result = .error e ∧ Broken job held batch totals (acts trace) e := by
  obtain ⟨batchStart, rest, rfl, started⟩ := runs_perform_bind_iff.mp ran
  rcases runs_call_bind_iff.mp started with
    ⟨raw, e, rfl, rfl, rfl⟩ | ⟨_, raw, rest, rfl, rfl, gathered⟩
  · exact .inr ⟨e, rfl, .gather e (all ⟨.gather batch, .error e⟩ (by simp))⟩
  · have known : held (.gather batch) (.ok raw) := all ⟨.gather batch, .ok raw⟩ (by simp)
    obtain ⟨batchEnd, rest, rfl, timed⟩ := runs_perform_bind_iff.mp gathered
    obtain ⟨_, rest, rfl, updated⟩ := runs_perform_bind_iff.mp timed
    rcases store_bind_runs updated with ⟨e, applied, rfl, rfl⟩ | ⟨rest, rfl, counted⟩
    · exact .inr ⟨e, rfl, .increment raw known e applied⟩
    · obtain ⟨eta, rest, rfl, estimated⟩ := runs_perform_bind_iff.mp counted
      rcases store_bind_runs estimated with ⟨e, applied, rfl, rfl⟩ | ⟨rest, rfl, published⟩
      · exact .inr ⟨e, rfl, .progress raw known eta e applied⟩
      · obtain ⟨rfl, rfl⟩ := runs_pure_iff.mp published
        exact .inl ⟨raw, eta, known, rfl, rfl⟩

/-- A complete round before a run of the loop. -/
theorem DrainRun.cons {queue rest : Q.Carrier} {totals : Totals} {batch : Batch}
    {later : List Act} {result : Except Exn Totals} (raw : Gathered batch) (eta : ℚ)
    (drained : PriorityBatcher.drainBatch Q queue = some (batch, rest))
    (known : held (.gather batch) (.ok raw))
    (run : DrainRun Q job held rest (totals.absorb (batchEntries batch raw)) later result) :
    DrainRun Q job held queue totals
      ((incrementCall (batchEntries batch raw), .ok) ::
        (progressCall job (totals.absorb (batchEntries batch raw)) eta, .ok) :: later) result := by
  cases run with
  | emptied rounds empty => exact .emptied (.round raw eta drained known rounds) empty
  | interrupted rounds broken => exact .interrupted (.round raw eta drained known rounds) broken

/-- How the loop goes. -/
theorem drain_runs (queue : Q.Carrier) (totals : Totals) {trace : RouteTrace}
    {result : Except Exn Totals} (ran : Runs (drain Q job queue totals) trace result)
    (all : Held held trace) : DrainRun Q job held queue totals (acts trace) result := by
  induction queue, totals using drain.induct Q generalizing trace result with
  | case1 queue totals ih =>
      rw [drain] at ran
      rcases runs_call_bind_iff.mp ran with
        ⟨_, e, rfl, rfl, rfl⟩ | ⟨_, _, rest, rfl, rfl, drawn⟩
      · exact .interrupted (.refl queue totals) (.drain e (all ⟨.drainBatch, .error e⟩ (by simp)))
      · split at drawn
        · next empty =>
            obtain ⟨rfl, rfl⟩ := runs_pure_iff.mp drawn
            exact .emptied (.refl queue totals) empty
        · next batch queue' drained =>
            obtain ⟨_, rest, rfl, shown⟩ := runs_perform_bind_iff.mp drawn
            have held_rest : Held held rest := all.of_cons.of_cons
            rcases runs_bind_iff.mp shown with
              ⟨e, raised, rfl⟩ | ⟨totals', before, after, rfl, round, later⟩
            · rcases processRound_runs raised held_rest with ⟨_, _, _, impossible, _⟩ | ⟨e', same, broken⟩
              · cases impossible
              · cases same
                exact .interrupted (.refl queue totals) (.round drained broken)
            · obtain ⟨held_round, held_later⟩ := Held.append.mp held_rest
              rcases processRound_runs round held_round with
                ⟨raw, eta, known, same, did⟩ | ⟨_, impossible, _⟩
              · cases same
                have run := ih batch queue' drained _ later held_later
                have traced : acts (⟨.drainBatch, .ok ()⟩ :: ⟨.queueDepth (Q.items queue').card, ()⟩ ::
                    (before ++ after)) = acts before ++ acts after := acts_append before after
                show DrainRun Q job held queue totals (acts (⟨.drainBatch, _⟩ :: _)) result
                rw [traced, did]
                exact run.cons raw eta drained known
              · cases impossible

/-- How what follows the loop goes. -/
theorem finishJob_runs {jobStart : ℚ} {totals : Totals} {trace : RouteTrace}
    {result : Except Exn Unit} (ran : Runs (finishJob settings job jobStart totals) trace result) :
    FinishRun settings job totals (acts trace) result := by
  obtain ⟨jobEnd, rest, rfl, timed⟩ := runs_perform_bind_iff.mp ran
  rcases runs_bind_iff.mp timed with ⟨e, raised, rfl⟩ | ⟨total, before, after, rfl, summed, later⟩
  · obtain ⟨rfl, failed⟩ := runs_ofResult_iff.mp raised
    exact .tokens failed.symm
  · obtain ⟨rfl, given⟩ := runs_ofResult_iff.mp summed
    obtain ⟨percentiles, rest, rfl, measured⟩ := runs_perform_bind_iff.mp later
    rcases store_bind_runs measured with ⟨e, applied, rfl, rfl⟩ | ⟨rest, rfl, finished⟩
    · exact .finish given.symm e applied
    · obtain ⟨reply, rfl, rfl⟩ := store_runs finished
      exact .publish given.symm percentiles _ reply

/-- How the `try` of a job goes. -/
theorem jobBody_runs {queue : Q.Carrier} {jobStart : ℚ} {trace : RouteTrace}
    {result : Except Exn Unit} (ran : Runs (jobBody Q settings job queue jobStart) trace result)
    (all : Held held trace) : BodyRun Q settings job held queue (acts trace) result := by
  rcases runs_bind_iff.mp ran with ⟨e, raised, rfl⟩ | ⟨totals, before, after, rfl, drained, later⟩
  · exact .interrupted (drain_runs queue _ raised all)
  · rw [acts_append]
    exact .finished (drain_runs queue _ drained (Held.append.mp all).1) (finishJob_runs later)

/-- What a job does up to its `try`, if nothing raises. -/
def prologue (Q : TicketQueue) (job : Job) (jobStart : ℚ) : RouteTrace :=
  [⟨.activeJobs 1, ()⟩, ⟨.monotonic, jobStart⟩, ⟨.enqueueMany, .ok ()⟩,
    ⟨.queueDepth (Q.items (jobQueue Q job)).card, ()⟩, ⟨.store .start, .ok⟩]

/-- How a job goes around its `try`. -/
inductive JobShape (Q : TicketQueue) (settings : Settings) (job : Job) :
    RouteTrace → Except Exn Unit → Prop
  | enqueue (jobStart : ℚ) (e : Exn) :
      JobShape Q settings job
        [⟨.activeJobs 1, ()⟩, ⟨.monotonic, jobStart⟩, ⟨.enqueueMany, .error e⟩] (.error e)
  | start (jobStart : ℚ) (e : Exn) (applied : ℕ) :
      JobShape Q settings job
        [⟨.activeJobs 1, ()⟩, ⟨.monotonic, jobStart⟩, ⟨.enqueueMany, .ok ()⟩,
          ⟨.queueDepth (Q.items (jobQueue Q job)).card, ()⟩, ⟨.store .start, .raised e applied⟩] (.error e)
  | handled {jobStart : ℚ} {body : RouteTrace} {result : Except Exn Unit}
      (ran : Runs ((jobBody Q settings job (jobQueue Q job) jobStart).rescue jobFailed) body result) :
      JobShape Q settings job (prologue Q job jobStart ++ (body ++ [⟨.activeJobs (-1), ()⟩])) result

theorem activeJobs_quiet {change : ℤ} (e : Exn) (after : RouteTrace) :
    ¬ Runs (await (.activeJobs change)) after (.error e) := by
  intro impossible
  obtain ⟨_, _, same⟩ := runs_perform_iff.mp impossible
  cases same

theorem processJob_shape {trace : RouteTrace} {result : Except Exn Unit}
    (ran : Runs (processJob Q settings job) trace result) : JobShape Q settings job trace result := by
  obtain ⟨_, rest, rfl, counted⟩ := runs_perform_bind_iff.mp ran
  obtain ⟨jobStart, rest, rfl, timed⟩ := runs_perform_bind_iff.mp counted
  rcases runs_call_bind_iff.mp timed with ⟨_, e, rfl, rfl, rfl⟩ | ⟨_, _, rest, rfl, rfl, queued⟩
  · exact .enqueue jobStart e
  · obtain ⟨_, rest, rfl, shown⟩ := runs_perform_bind_iff.mp queued
    rcases store_bind_runs shown with ⟨e, applied, rfl, rfl⟩ | ⟨rest, rfl, begun⟩
    · exact .start jobStart e applied
    · obtain ⟨body, after, rfl, handled, cleaned⟩ := (runs_tryFinally_iff activeJobs_quiet).mp begun
      obtain ⟨_, rfl, _⟩ := runs_perform_iff.mp cleaned
      exact .handled handled

/-- **The runs of a job** are those `JobRun` lists. -/
theorem processJob_runs {trace : RouteTrace} {result : Except Exn Unit}
    (ran : Runs (processJob Q settings job) trace result) (all : Held held trace) :
    JobRun Q settings job held (acts trace) result := by
  cases processJob_shape ran with
  | enqueue jobStart e => exact .enqueue e (all ⟨.enqueueMany, .error e⟩ (by simp))
  | start jobStart e applied => exact .start e applied
  | @handled jobStart body _ handled =>
      have held_handled := (Held.append.mp (Held.append.mp all).2).1
      have traced : acts (prologue Q job jobStart ++ (body ++ [⟨.activeJobs (-1), ()⟩])) =
          (.start, .ok) :: acts body := by
        rw [acts_append, acts_append]
        exact congrArg _ (List.append_nil _)
      rw [traced]
      rcases runs_rescue_iff.mp handled with
        ⟨value, completed, rfl⟩ | ⟨e, before, after, rfl, raised, recovered⟩
      · exact .completed (jobBody_runs completed held_handled)
      · have run := jobBody_runs raised (Held.append.mp held_handled).1
        unfold jobFailed at recovered
        split at recovered
        · next exception =>
            obtain ⟨reply, rfl, rfl⟩ := store_runs recovered
            rw [acts_append]
            exact .failed run exception reply
        · next base =>
            obtain ⟨rfl, rfl⟩ := runs_raise_iff.mp recovered
            rw [List.append_nil]
            exact .abandoned run (by simpa using base)

end Runs

/-! ## What the loop may ask for -/

section Asks

variable {Q : TicketQueue} {job : Job} {May : RouteOp → Prop}

/-- The operations of the loop other than `gather`. -/
def LoopOp : RouteOp → Prop
  | .store (.incrementProgress ..) | .store (.publishProgress ..) | .drainBatch | .queueDepth _
  | .monotonic | .etaUpdate _ | .etaEstimate _ _ => True
  | _ => False

theorem store_asks {call : StoreCall} (holds : May (.store call)) : (store call).Asks May :=
  asks_call holds

theorem processRound_asks (loop : ∀ op, LoopOp op → May op) {batch : Batch} {totals : Totals}
    (gather : May (.gather batch)) : (processRound job batch totals).Asks May := by
  refine asks_bind (asks_perform (loop _ trivial)) fun batchStart => ?_
  refine asks_bind (asks_call gather) fun raw => ?_
  refine asks_bind (asks_perform (loop _ trivial)) fun batchEnd => ?_
  refine asks_bind (asks_perform (loop _ trivial)) fun _ => ?_
  refine asks_bind (store_asks (loop _ trivial)) fun _ => ?_
  refine asks_bind (asks_perform (loop _ trivial)) fun eta => ?_
  exact asks_bind (store_asks (loop _ trivial)) fun _ => trivial

theorem drain_asks (loop : ∀ op, LoopOp op → May op) (queue : Q.Carrier) (totals : Totals)
    (gather : ∀ batch : Batch, (∀ entry ∈ batch.entries, entry ∈ PriorityBatcher.entries Q queue) →
      May (.gather batch)) : (drain Q job queue totals).Asks May := by
  induction queue, totals using drain.induct Q with
  | case1 queue totals ih =>
      rw [drain]
      refine asks_bind (asks_call (loop .drainBatch trivial)) fun _ => ?_
      split
      · trivial
      · next batch rest drained =>
          have parts := PriorityBatcher.drainBatch_entries drained
          have here : May (.gather batch) := gather batch fun entry member => by
            rw [parts]
            exact Multiset.mem_add.mpr (.inl member)
          refine asks_bind (asks_perform (loop _ trivial)) fun _ => ?_
          refine asks_bind (processRound_asks loop here) fun totals => ?_
          refine ih batch rest drained totals fun later within => gather later fun entry member => ?_
          rw [parts]
          exact Multiset.mem_add.mpr (.inr (within entry member))

theorem jobQueue_entries :
    PriorityBatcher.entries Q (jobQueue Q job) = (enumerate job.uniqueTickets : Multiset Entry) := by
  rw [jobQueue, PriorityBatcher.entries_enqueueMany, PriorityBatcher.entries, Q.items_empty,
    Multiset.map_zero, add_zero]

end Asks

/-! ## The calls of a job

The status and the results of a job are not touched by its rounds, so for what
happens to them only the last calls matter. -/

section Calls

variable {Q : TicketQueue} {settings : Settings} {job : Job} {held : AnswerFact}

/-- The calls of the rounds. -/
def RoundCall : StoreCall → Prop
  | .incrementProgress .. | .publishProgress .. => True
  | _ => False

theorem Rounds.calls {queue queue' : Q.Carrier} {totals totals' : Totals} {calls : List Act}
    (rounds : Rounds Q job held queue totals calls queue' totals') :
    ∀ act ∈ calls, RoundCall act.1 := by
  induction rounds with
  | refl => simp
  | round raw eta drained known more ih =>
      intro act member
      rcases List.mem_cons.mp member with rfl | member
      · trivial
      · rcases List.mem_cons.mp member with rfl | member
        · trivial
        · exact ih act member

theorem Interrupted.calls {queue : Q.Carrier} {totals : Totals} {calls : List Act} {e : Exn}
    (broken : Interrupted Q job held queue totals calls e) : ∀ act ∈ calls, RoundCall act.1 := by
  cases broken with
  | drain => simp
  | round drained broken =>
      cases broken with
      | gather => simp
      | increment raw known e applied => simp [incrementCall, RoundCall]
      | progress raw known eta e applied => simp [incrementCall, progressCall, RoundCall]

theorem DrainRun.calls {queue : Q.Carrier} {totals : Totals} {calls : List Act}
    {result : Except Exn Totals} (run : DrainRun Q job held queue totals calls result) :
    ∀ act ∈ calls, RoundCall act.1 := by
  cases run with
  | emptied rounds empty => exact rounds.calls
  | interrupted rounds broken =>
      intro act member
      rcases List.mem_append.mp member with member | member
      · exact rounds.calls act member
      · exact broken.calls act member

/-- The calls after the rounds, and how the `try` ends with them. -/
inductive Ending : List Act → Except Exn Unit → Prop
  | interrupted (e : Exn) : Ending [] (.error e)
  | finish (results : List Dict) (e : Exn) (applied : ℕ) :
      Ending [(.finish results, .raised e applied)] (.error e)
  | publish (results : List Dict) (stats : Dict) (reply : Reply) :
      Ending [(.finish results, .ok), (.publishDone results stats, reply)] reply.seen

theorem BodyRun.calls {queue : Q.Carrier} {body : List Act} {result : Except Exn Unit}
    (run : BodyRun Q settings job held queue body result) :
    ∃ rounds last, body = rounds ++ last ∧ (∀ act ∈ rounds, RoundCall act.1) ∧
      Ending last result := by
  cases run with
  | interrupted drained => exact ⟨body, [], (List.append_nil _).symm, drained.calls, .interrupted _⟩
  | finished drained finish =>
      refine ⟨_, _, rfl, drained.calls, ?_⟩
      cases finish with
      | tokens raised => exact .interrupted _
      | finish summed e applied => exact .finish _ e applied
      | publish summed percentiles duration reply => exact .publish _ _ reply

theorem BodyRun.no_create {queue : Q.Carrier} {body : List Act} {result : Except Exn Unit}
    (run : BodyRun Q settings job held queue body result) : ∀ act ∈ body, ∀ total, act.1 ≠ .create total := by
  intro act member total same
  obtain ⟨rounds, last, rfl, quiet, ending⟩ := run.calls
  rcases List.mem_append.mp member with member | member
  · exact absurd (quiet act member) (by simp [same, RoundCall])
  · cases ending with
    | interrupted e => cases member
    | finish results e applied =>
        obtain rfl := List.mem_singleton.mp member
        cases same
    | publish results stats reply =>
        obtain rfl | rfl : act = _ ∨ act = _ := by simpa using member
        · cases same
        · cases same

/-- A job's hash is created by the request, never by the task. -/
theorem JobRun.no_create {calls : List Act} {result : Except Exn Unit}
    (run : JobRun Q settings job held calls result) : ∀ act ∈ calls, ∀ total, act.1 ≠ .create total := by
  cases run with
  | enqueue e known => simp
  | start e applied => simp
  | completed ran => simpa using ran.no_create
  | failed ran exception reply =>
      simp only [List.mem_cons, List.mem_append, List.not_mem_nil, or_false]
      rintro act (rfl | member | rfl)
      · simp
      · exact ran.no_create act member
      · simp
  | abandoned ran base => simpa using ran.no_create

/-- The failure is written after a `publish_done` only if that raised. -/
theorem JobRun.failed_publish {calls : List Act} {result : Except Exn Unit}
    (run : JobRun Q settings job held calls result) {reason : String} {reply published : Reply}
    {results : List Dict} {stats : Dict} (failed : (.fail reason, reply) ∈ calls)
    (called : (.publishDone results stats, published) ∈ calls) :
    ∃ e applied, published = .raised e applied := by
  have no_fail : ∀ {body : List Act} {result : Except Exn Unit},
      BodyRun Q settings job held (jobQueue Q job) body result → (.fail reason, reply) ∉ body := by
    intro body result ran member
    obtain ⟨rounds, last, rfl, quiet, ending⟩ := ran.calls
    rcases List.mem_append.mp member with member | member
    · exact quiet _ member
    · cases ending <;> simp at member
  cases run with
  | enqueue e known => cases failed
  | start e applied => simp at failed
  | completed ran => exact absurd (by simpa using failed) (no_fail ran)
  | abandoned ran base => exact absurd (by simpa using failed) (no_fail ran)
  | failed ran exception reply =>
      obtain ⟨rounds, last, rfl, quiet, ending⟩ := ran.calls
      have late : (.publishDone results stats, published) ∈ last := by
        simp only [List.mem_cons, List.mem_append, List.not_mem_nil, or_false] at called
        rcases called with same | (member | member) | same
        · cases same
        · exact (quiet _ member).elim
        · exact member
        · cases same
      generalize outcome : Except.error _ = result at ending
      cases ending with
      | interrupted e => cases late
      | finish results' e applied => simp at late
      | publish results' stats' reply' =>
          cases reply' with
          | ok => cases outcome
          | raised e applied =>
              refine ⟨e, applied, ?_⟩
              simp only [List.mem_cons, Prod.mk.injEq, List.not_mem_nil, or_false] at late
              rcases late with ⟨same, _⟩ | ⟨_, same⟩
              · cases same
              · exact same

end Calls

/-! ## A job without unique tickets

When all tickets of a request were found in the cache, the loop ends at once.
These runs show what the list above looks like in the simplest job. -/

section Cached

variable {Q : TicketQueue} {settings : Settings} {job : Job}

theorem store_bind_of_ok {α : Type} {call : StoreCall} {f : Unit → Handler α} {rest : RouteTrace}
    {result : Except Exn α} (ran : Runs (f ()) rest result) :
    Runs (store call >>= f) (⟨.store call, .ok⟩ :: rest) result :=
  runs_call_bind_iff.mpr (.inr ⟨.ok, (), rest, rfl, rfl, ran⟩)

/-- The loop at an empty queue. -/
theorem drain_of_empty {queue : Q.Carrier} (empty : PriorityBatcher.drainBatch Q queue = none)
    (totals : Totals) : Runs (drain Q job queue totals) [⟨.drainBatch, .ok ()⟩] (.ok totals) := by
  rw [drain]
  refine runs_call_bind_iff.mpr (.inr ⟨.ok (), (), [], rfl, rfl, ?_⟩)
  split
  · exact runs_pure_iff.mpr ⟨rfl, rfl⟩
  · next drained =>
      rw [empty] at drained
      cases drained

/-- The loop of a job that has nothing to drain. -/
theorem drain_of_cached (cached : job.uniqueTickets = []) (totals : Totals) :
    Runs (drain Q job (jobQueue Q job) totals) [⟨.drainBatch, .ok ()⟩] (.ok totals) := by
  refine drain_of_empty ?_ totals
  rw [PriorityBatcher.drainBatch_eq_none_iff, jobQueue, cached, PriorityBatcher.entries_enqueueMany]
  simp [PriorityBatcher.entries]

/-- What follows the loop, up to `finish`. -/
theorem finishJob_of {jobStart jobEnd : ℚ} {percentiles : Summary} {totals : Totals}
    {total : Number} {rest : RouteTrace} {result : Except Exn Unit}
    (summed : totalTokens totals.results = .ok total)
    (ran : Runs (do
      store (.finish totals.results)
      store (.publishDone totals.results
        (finalStats settings job totals total percentiles (jobEnd - jobStart)))) rest result) :
    Runs (finishJob settings job jobStart totals)
      (⟨.monotonic, jobEnd⟩ :: ⟨.summary, percentiles⟩ :: rest) result := by
  refine runs_perform_bind_iff.mpr ⟨jobEnd, _, rfl, ?_⟩
  refine runs_bind_iff.mpr (.inr ⟨total, [], _, rfl, ?_, ?_⟩)
  · rw [summed]
    exact runs_ofResult_iff.mpr ⟨rfl, rfl⟩
  · exact runs_perform_bind_iff.mpr ⟨percentiles, _, rfl, ran⟩

/-- What a job without unique tickets does around its `try`. -/
def cachedJobTrace (jobStart : ℚ) (body : RouteTrace) : RouteTrace :=
  ⟨.activeJobs 1, ()⟩ :: ⟨.monotonic, jobStart⟩ :: ⟨.enqueueMany, .ok ()⟩ :: ⟨.queueDepth 0, ()⟩ ::
    ⟨.store .start, .ok⟩ :: (⟨.drainBatch, .ok ()⟩ :: body ++ [⟨.activeJobs (-1), ()⟩])

theorem processJob_of_started {jobStart : ℚ} {body : RouteTrace} {result : Except Exn Unit}
    (ran : Runs ((jobBody Q settings job (jobQueue Q job) jobStart).rescue jobFailed) body result) :
    Runs (processJob Q settings job)
      (prologue Q job jobStart ++ (body ++ [⟨.activeJobs (-1), ()⟩])) result := by
  refine runs_perform_bind_iff.mpr ⟨(), _, rfl, runs_perform_bind_iff.mpr ⟨jobStart, _, rfl, ?_⟩⟩
  refine runs_call_bind_iff.mpr (.inr ⟨.ok (), (), _, rfl, rfl, ?_⟩)
  refine runs_perform_bind_iff.mpr ⟨(), _, rfl, store_bind_of_ok ?_⟩
  exact (runs_tryFinally_iff activeJobs_quiet).mpr
    ⟨body, [⟨.activeJobs (-1), ()⟩], rfl, ran, runs_perform_iff.mpr ⟨(), rfl, rfl⟩⟩

theorem processJob_of_handled {jobStart : ℚ} {body : RouteTrace} {result : Except Exn Unit}
    (cached : job.uniqueTickets = [])
    (ran : Runs ((jobBody Q settings job (jobQueue Q job) jobStart).rescue jobFailed)
      (⟨.drainBatch, .ok ()⟩ :: body) result) :
    Runs (processJob Q settings job) (cachedJobTrace jobStart body) result := by
  have depth : (Q.items (jobQueue Q job)).card = 0 := by
    rw [jobQueue, cached]
    simp [PriorityBatcher.enqueueMany, MinQueue.pushAll]
  have started := processJob_of_started ran
  rw [prologue, depth] at started
  exact started

/-- The job succeeds. -/
theorem cachedJob_completes (jobStart jobEnd : ℚ) (percentiles : Summary) {total : Number}
    (cached : job.uniqueTickets = []) (summed : totalTokens job.preCachedResults = .ok total) :
    Runs (processJob Q settings job)
      (cachedJobTrace jobStart [⟨.monotonic, jobEnd⟩, ⟨.summary, percentiles⟩,
        ⟨.store (.finish job.preCachedResults), .ok⟩,
        ⟨.store (.publishDone job.preCachedResults (finalStats settings job (initialTotals job) total
          percentiles (jobEnd - jobStart))), .ok⟩])
      (.ok ()) := by
  refine processJob_of_handled cached (runs_rescue_iff.mpr (.inl ⟨(), ?_, rfl⟩))
  refine runs_bind_iff.mpr (.inr ⟨_, [_], _, rfl, drain_of_cached cached _, ?_⟩)
  exact finishJob_of summed (store_bind_of_ok (runs_call_iff.mpr ⟨.ok, rfl, rfl⟩))

/-- `publish_done` raises, and the job is marked as failed. -/
theorem cachedJob_publish_raises {jobStart jobEnd : ℚ} {percentiles : Summary} {total : Number}
    {e : Exn} {applied : ℕ} (reply : Reply) (cached : job.uniqueTickets = [])
    (summed : totalTokens job.preCachedResults = .ok total) (exception : e.isException = true) :
    Runs (processJob Q settings job)
      (cachedJobTrace jobStart [⟨.monotonic, jobEnd⟩, ⟨.summary, percentiles⟩,
        ⟨.store (.finish job.preCachedResults), .ok⟩,
        ⟨.store (.publishDone job.preCachedResults (finalStats settings job (initialTotals job) total
          percentiles (jobEnd - jobStart))), .raised e applied⟩,
        ⟨.store (.fail e.message), reply⟩])
      reply.seen := by
  refine processJob_of_handled cached (runs_rescue_iff.mpr (.inr ⟨e,
    [⟨.drainBatch, .ok ()⟩, ⟨.monotonic, jobEnd⟩, ⟨.summary, percentiles⟩,
      ⟨.store (.finish job.preCachedResults), .ok⟩,
      ⟨.store (.publishDone job.preCachedResults (finalStats settings job (initialTotals job) total
        percentiles (jobEnd - jobStart))), .raised e applied⟩], _, rfl, ?_, ?_⟩))
  · refine runs_bind_iff.mpr (.inr ⟨_, [_], _, rfl, drain_of_cached cached _, ?_⟩)
    exact finishJob_of summed (store_bind_of_ok (runs_call_iff.mpr ⟨.raised e applied, rfl, rfl⟩))
  · rw [jobFailed, if_pos exception]
    exact runs_call_iff.mpr ⟨reply, rfl, rfl⟩

/-- `finish` raises, and the job is marked as failed. -/
theorem cachedJob_finish_raises {jobStart jobEnd : ℚ} {percentiles : Summary} {total : Number}
    {e : Exn} {applied : ℕ} (reply : Reply) (cached : job.uniqueTickets = [])
    (summed : totalTokens job.preCachedResults = .ok total) (exception : e.isException = true) :
    Runs (processJob Q settings job)
      (cachedJobTrace jobStart [⟨.monotonic, jobEnd⟩, ⟨.summary, percentiles⟩,
        ⟨.store (.finish job.preCachedResults), .raised e applied⟩,
        ⟨.store (.fail e.message), reply⟩])
      reply.seen := by
  refine processJob_of_handled cached (runs_rescue_iff.mpr (.inr ⟨e,
    [⟨.drainBatch, .ok ()⟩, ⟨.monotonic, jobEnd⟩, ⟨.summary, percentiles⟩,
      ⟨.store (.finish job.preCachedResults), .raised e applied⟩], _, rfl, ?_, ?_⟩))
  · refine runs_bind_iff.mpr (.inr ⟨_, [_], _, rfl, drain_of_cached cached _, ?_⟩)
    exact finishJob_of summed
      (runs_call_bind_iff.mpr (.inl ⟨.raised e applied, e, rfl, rfl, rfl⟩))
  · rw [jobFailed, if_pos exception]
    exact runs_call_iff.mpr ⟨reply, rfl, rfl⟩

/-- A job whose only ticket was found in the cache. -/
def foundJob : Job where
  jobId := "j"
  uniqueTickets := []
  totalTickets := 1
  preCached := 1
  preCachedResults :=
    [preCachedEntry "help" [("category", .string "billing"), ("tokens", .number (.finite 7))]]

/-- A job of one ticket, which was not found in the cache. -/
def missedJob : Job where
  jobId := "j"
  uniqueTickets := ["help"]
  totalTickets := 1
  preCached := 0
  preCachedResults := []

theorem foundJob_tokens : totalTokens foundJob.preCachedResults = .ok (.finite 7) := by
  have total : sum [.number (.finite 7)] = some (.finite (0 + 7)) := rfl
  have tokens : foundJob.preCachedResults.map
      (fun r => (Dict.get? r "tokens").getD (.number (.finite 0))) = [.number (.finite 7)] := rfl
  rw [totalTokens, tokens, total, zero_add]

def foundStats : Dict :=
  finalStats .defaults foundJob (initialTotals foundJob) (.finite 7) ⟨0, 0, 0⟩ (0 - 0)

/-- `foundJob` succeeds. -/
def foundTrace : RouteTrace :=
  cachedJobTrace 0 [⟨.monotonic, (0 : ℚ)⟩, ⟨.summary, ⟨0, 0, 0⟩⟩,
    ⟨.store (.finish foundJob.preCachedResults), .ok⟩,
    ⟨.store (.publishDone foundJob.preCachedResults foundStats), .ok⟩]

theorem foundTrace_runs {Q : TicketQueue} : Runs (processJob Q .defaults foundJob) foundTrace (.ok ()) :=
  cachedJob_completes 0 0 ⟨0, 0, 0⟩ rfl foundJob_tokens

/-- What Redis holds when the task of `foundJob` starts. -/
def requested : JobRedis :=
  JobStore.performAll .defaults foundJob.jobId { keys := fun _ => none, published := [] }
    [(0, .create 1, .ok), (0, .incrementProgress 1 0 1, .ok)]

theorem requested_alive :
    (some (0 + ((3600 : ℤ) : ℚ))).all (fun limit => (0 : ℚ) ≤ limit) = true := by norm_num

theorem requested_keys :
    requested.keys (JobStore.jobKey foundJob.jobId) =
      some ⟨.hash (JobStore.hashWrites 0 (.incrementProgress 1 0 1)
        (JobStore.hashWrites 0 (.create 1) fun _ => none)), some (0 + (3600 : ℤ))⟩ := by
  have absent : Redis.Server.live 0 ({ keys := fun _ => none, published := [] } : JobRedis)
      (JobStore.jobKey foundJob.jobId) = none := rfl
  have created := JobStore.perform_create .defaults 1 .ok absent
  have here := JobStore.hashAt_of_keys created requested_alive
  have counted := JobStore.perform_hash .defaults (.incrementProgress 1 0 1) .ok (by simp) here
  exact counted.trans (if_pos ⟨rfl, rfl⟩)

end Cached

/-! ## A job with one batch -/

section Round

variable {Q : TicketQueue} {settings : Settings} {job : Job}

/-- A round in which nothing raises, up to its event. -/
def timedRound (started ended eta : ℚ) (batch : Batch) (raw : Gathered batch) (remaining : ℕ) : RouteTrace :=
  [⟨.monotonic, started⟩, ⟨.gather batch, .ok raw⟩, ⟨.monotonic, ended⟩, ⟨.etaUpdate (ended - started), ()⟩,
    ⟨.store (incrementCall (batchEntries batch raw)), .ok⟩,
    ⟨.etaEstimate remaining batch.complexity, eta⟩]

/-- One that takes no time. -/
abbrev roundTrace (batch : Batch) (raw : Gathered batch) (remaining : ℕ) : RouteTrace :=
  timedRound 0 0 0 batch raw remaining

theorem drain_of_round {queue rest : Q.Carrier} {batch : Batch} {later : RouteTrace}
    {result : Except Exn Totals} (started ended eta : ℚ) (totals : Totals) (raw : Gathered batch) (remaining : ℕ)
    (left : (max 0 ((job.totalTickets : ℤ) -
      (totals.absorb (batchEntries batch raw)).completed)).toNat = remaining)
    (drained : PriorityBatcher.drainBatch Q queue = some (batch, rest))
    (ran : Runs (drain Q job rest (totals.absorb (batchEntries batch raw))) later result) :
    Runs (drain Q job queue totals)
      (⟨.drainBatch, .ok ()⟩ :: ⟨.queueDepth (Q.items rest).card, ()⟩ ::
        (timedRound started ended eta batch raw remaining ++
          ⟨.store (progressCall job (totals.absorb (batchEntries batch raw)) eta), .ok⟩ :: later))
      result := by
  rw [drain]
  refine runs_call_bind_iff.mpr (.inr ⟨.ok (), (), _, rfl, rfl, ?_⟩)
  split
  · next empty =>
      rw [drained] at empty
      cases empty
  · next batch' rest' drained' =>
      obtain ⟨rfl, rfl⟩ : batch = batch' ∧ rest = rest' := by
        simpa using drained.symm.trans drained'
      refine runs_perform_bind_iff.mpr ⟨(), _, rfl, ?_⟩
      refine runs_bind_iff.mpr (.inr ⟨_, timedRound started ended eta batch raw remaining ++
        [⟨.store (progressCall job (totals.absorb (batchEntries batch raw)) eta), .ok⟩], later, ?_, ?_, ran⟩)
      · exact (List.append_cons ..)
      · refine runs_perform_bind_iff.mpr ⟨started, _, rfl, ?_⟩
        refine runs_call_bind_iff.mpr (.inr ⟨.ok raw, raw, _, rfl, rfl, ?_⟩)
        refine runs_perform_bind_iff.mpr ⟨ended, _, rfl, runs_perform_bind_iff.mpr ⟨(), _, rfl, ?_⟩⟩
        refine store_bind_of_ok ?_
        dsimp only
        rw [left]
        refine runs_perform_bind_iff.mpr ⟨eta, _, rfl, store_bind_of_ok ?_⟩
        exact runs_pure_iff.mpr ⟨rfl, rfl⟩

/-- What a job of one batch does up to its event. -/
def earlierTrace (Q : TicketQueue) (job : Job) (rest : Q.Carrier) {batch : Batch} (raw : Gathered batch)
    (remaining : ℕ) : RouteTrace :=
  prologue Q job 0 ++ ⟨.drainBatch, .ok ()⟩ :: ⟨.queueDepth (Q.items rest).card, ()⟩ ::
    roundTrace batch raw remaining

/-- What a job does after its loop. -/
def finishTrace (settings : Settings) (job : Job) (jobStart jobEnd : ℚ) (totals : Totals) (total : Number) :
    RouteTrace :=
  [⟨.monotonic, jobEnd⟩, ⟨.summary, ⟨0, 0, 0⟩⟩, ⟨.store (.finish totals.results), .ok⟩,
    ⟨.store (.publishDone totals.results
      (finalStats settings job totals total ⟨0, 0, 0⟩ (jobEnd - jobStart))), .ok⟩,
    ⟨.activeJobs (-1), ()⟩]

/-- A job whose loop ends succeeds. -/
theorem processJob_of_drained {totals : Totals} {total : Number} {trace : RouteTrace} (jobStart jobEnd : ℚ)
    (rounds : Runs (drain Q job (jobQueue Q job) (initialTotals job)) trace (.ok totals))
    (summed : totalTokens totals.results = .ok total) :
    Runs (processJob Q settings job)
      (prologue Q job jobStart ++ (trace ++ finishTrace settings job jobStart jobEnd totals total)) (.ok ()) := by
  have finishing : Runs (finishJob settings job jobStart totals)
      (finishTrace settings job jobStart jobEnd totals total).dropLast (.ok ()) :=
    finishJob_of summed (store_bind_of_ok (runs_call_iff.mpr ⟨.ok, rfl, rfl⟩))
  have body : Runs (jobBody Q settings job (jobQueue Q job) jobStart) _ (.ok ()) :=
    runs_bind_iff.mpr (.inr ⟨_, _, _, rfl, rounds, finishing⟩)
  have ran := processJob_of_started (runs_rescue_iff.mpr (.inl ⟨(), body, rfl⟩))
  simpa [finishTrace] using ran

/-- What a job of one batch does after its event. -/
def laterTrace (settings : Settings) (job : Job) (totals : Totals) (total : Number) : RouteTrace :=
  ⟨.drainBatch, .ok ()⟩ :: finishTrace settings job 0 0 totals total

/-- The job succeeds. -/
theorem processJob_of_batch {rest : Q.Carrier} {batch : Batch} {total : Number} {remaining : ℕ}
    (raw : Gathered batch)
    (left : (max 0 ((job.totalTickets : ℤ) -
      ((initialTotals job).absorb (batchEntries batch raw)).completed)).toNat = remaining)
    (drained : PriorityBatcher.drainBatch Q (jobQueue Q job) = some (batch, rest))
    (empty : PriorityBatcher.drainBatch Q rest = none)
    (summed : totalTokens ((initialTotals job).absorb (batchEntries batch raw)).results = .ok total) :
    Runs (processJob Q settings job)
      (earlierTrace Q job rest raw remaining ++
        ⟨.store (progressCall job ((initialTotals job).absorb (batchEntries batch raw)) 0), .ok⟩ ::
        laterTrace settings job ((initialTotals job).absorb (batchEntries batch raw)) total) (.ok ()) := by
  have rounds := drain_of_round 0 0 0 (initialTotals job) raw remaining left drained (drain_of_empty empty _)
  simpa [earlierTrace, laterTrace] using processJob_of_drained 0 0 rounds summed

end Round

end InferenceForge.Api
