/-
# InferenceForge.Api.ProcessState — what the jobs of a process share

All jobs of a process count themselves in `_active_job_count`, feed one `eta_estimator`
with the durations of their batches and ask it for their estimates. Here any number of
requests with their tasks run over the two, in any order of steps, with a clock that does
not go back.

`conductor` follows a request and its task, and `Knows` says what its trace shows by then.

* `active_jobs_exact`: the count is that of the tasks that are running, and of those that
  `enqueue_many` or `start` has ended, which are before the `try` and are never taken back.
* `estimates_within`: what a client is told lies between the batches that are left, each
  at the fastest duration that any job has observed, and each at the slowest.
-/
import InferenceForge.Api.JobCleanup
import InferenceForge.Api.JobProgress
import InferenceForge.Api.QueueDepth
import InferenceForge.Pipeline.EtaEstimator

namespace InferenceForge.Api.ProcessState

open InferenceForge.Python InferenceForge.Library InferenceForge.Pipeline
open InferenceForge.Pipeline.JobStore (StoreCall Reply)
open InferenceForge.Api.QueueDepth (request launching launching_bind deduplicate_asks Outside)

set_option autoImplicit false

/-! ## How far a request has come -/

inductive Stage
  | requested
  /-- The task was created. -/
  | posted
  /-- The task has counted itself, and is in no round. -/
  | idle
  | clocked (now : ℚ)
  | gathered (batch : Batch) (batchStart : ℚ)
  | timed (batch : Batch) (batchDuration : ℚ)
  | updated (batch : Batch)
  | estimated (batch : Batch) (remaining : ℕ) (eta : ℚ)
  /-- The task has counted itself and ended before its `try`. -/
  | leaked
  | ended

namespace Stage

/-- The task has counted itself and not yet taken itself back. -/
def counted : Stage → Bool
  | .requested | .posted | .ended => false
  | _ => true

def begun : Stage → Bool
  | .requested | .posted => false
  | _ => true

def batch? : Stage → Option Batch
  | .gathered batch _ | .timed batch _ | .updated batch | .estimated batch _ _ => some batch
  | _ => none

/-- The `finally` of the task is still to come. -/
def within : Stage → Bool
  | .leaked => false
  | stage => stage.counted

end Stage

/-- What `process_tickets` asks for before it creates the task. -/
def Posting : RouteOp → Bool
  | .uuid | .cacheGet _ | .etaInitial _ _ | .store (.create _) | .store (.incrementProgress ..) => true
  | _ => false

/-- What a request and its task do, in order. -/
def conductor : Monitor RouteOp RouteAnswer Stage
  | .requested, ⟨.createTask _, _⟩ => some .posted
  | .requested, ⟨op, _⟩ => if Posting op then some .requested else none
  | .posted, ⟨.queueDepth _, _⟩ => some .posted
  | .posted, ⟨.activeJobs change, _⟩ => if change = 1 then some .idle else none
  | .idle, ⟨.monotonic, now⟩ => some (.clocked now)
  | .idle, ⟨.queueDepth _, _⟩ | .idle, ⟨.drainBatch, _⟩ => some .idle
  | .idle, ⟨.store (.finish _), _⟩ | .idle, ⟨.store (.publishDone ..), _⟩ => some .idle
  | .idle, ⟨.store .start, .ok⟩ => some .idle
  | .idle, ⟨.store .start, .raised _ _⟩ => some .leaked
  | .clocked _, ⟨.enqueueMany, .ok _⟩ => some .idle
  | .clocked _, ⟨.enqueueMany, .error _⟩ => some .leaked
  | .clocked _, ⟨.summary, _⟩ => some .idle
  | .clocked now, ⟨.gather batch, .ok _⟩ => some (.gathered batch now)
  | .clocked _, ⟨.gather _, .error _⟩ => some .idle
  | .gathered batch batchStart, ⟨.monotonic, now⟩ => some (.timed batch (now - batchStart))
  | .timed batch batchDuration, ⟨.etaUpdate observed, _⟩ =>
      if observed = batchDuration then some (.updated batch) else none
  | .updated batch, ⟨.store (.incrementProgress ..), _⟩ => some (.updated batch)
  | .updated batch, ⟨.etaEstimate remaining bucket, eta⟩ =>
      if bucket = batch.complexity then some (.estimated batch remaining eta) else none
  | .estimated _ remaining eta, ⟨.store (.publishProgress completed total _ _ told), _⟩ =>
      if told = eta ∧ remaining = total - completed then some .idle else none
  | stage, ⟨.store (.fail _), _⟩ => if stage.within then some .idle else none
  | stage, ⟨.activeJobs change, _⟩ => if stage.within ∧ change = -1 then some .ended else none
  | _, _ => none

section Follows

variable {Q : TicketQueue} {settings : Settings} {host : Host} {job : Job} {stage : Stage}

/-- The task is in its `try`, and between two rounds if nothing was raised. -/
def Inside {α : Type} (result : Except Exn α) (stage : Stage) : Prop :=
  stage.within = true ∧ ∀ value, result = .ok value → stage = .idle

theorem inside_idle {α : Type} (result : Except Exn α) : Inside result .idle := ⟨rfl, fun _ _ => rfl⟩

theorem inside_error {α : Type} (e : Exn) (within : stage.within = true) : Inside (.error e : Except Exn α) stage :=
  ⟨within, fun _ impossible => by cases impossible⟩

/-- A round hands the estimator the duration of its batch, and tells what it answers. -/
theorem processRound_safe (batch : Batch) (totals : Totals) :
    (processRound job batch totals).Safe conductor (fun _ => True) Inside .idle := by
  unfold processRound
  intro batchStart _
  refine ⟨.clocked batchStart, rfl, ?_⟩
  intro answer _
  cases answer with
  | error e => exact ⟨.idle, rfl, inside_idle _⟩
  | ok raw =>
      refine ⟨.gathered batch batchStart, rfl, fun batchEnd _ => ⟨.timed batch (batchEnd - batchStart), rfl, ?_⟩⟩
      intro _ _
      refine ⟨.updated batch, if_pos rfl, ?_⟩
      intro counted _
      refine ⟨.updated batch, rfl, ?_⟩
      cases counted with
      | raised e applied => exact inside_error e rfl
      | ok =>
          intro eta _
          refine ⟨.estimated batch _ eta, if_pos rfl, ?_⟩
          intro published _
          refine ⟨.idle, ?_, ?_⟩
          · have left : (max 0 ((job.totalTickets : ℤ) - (totals.absorb (batchEntries batch raw)).completed)).toNat =
                job.totalTickets - (totals.absorb (batchEntries batch raw)).completed := by omega
            exact if_pos ⟨rfl, left⟩
          · cases published with
            | raised e applied => exact inside_idle _
            | ok => exact inside_idle _

theorem drain_safe (queue : Q.Carrier) (totals : Totals) :
    (drain Q job queue totals).Safe conductor (fun _ => True) Inside .idle := by
  induction queue, totals using drain.induct Q with
  | case1 queue totals ih =>
      rw [drain]
      have drawn : (Program.call .drainBatch id : Handler Unit).Safe conductor (fun _ => True)
          (fun _ stage => stage = .idle) .idle := safe_call fun _ _ => ⟨_, rfl, rfl⟩
      refine safe_bind drawn ?_ fun e _ idle => idle ▸ inside_idle _
      rintro _ _ rfl
      split
      · exact inside_idle _
      · next batch rest drained =>
          intro _ _
          refine ⟨.idle, rfl, ?_⟩
          show (processRound job batch totals >>= fun totals => drain Q job rest totals).Safe conductor _ _ _
          refine safe_bind (processRound_safe batch totals) ?_ fun e _ ended => inside_error e ended.1
          rintro totals' stage ⟨_, finished⟩
          rw [finished totals' rfl]
          exact ih batch rest drained totals'

theorem store_idle {call : StoreCall} (passed : ∀ reply, conductor .idle ⟨.store call, reply⟩ = some .idle) :
    (store call).Safe conductor (fun _ => True) Inside .idle :=
  safe_call fun reply _ => ⟨.idle, passed reply, inside_idle _⟩

theorem finishJob_safe (jobStart : ℚ) (totals : Totals) :
    (finishJob settings job jobStart totals).Safe conductor (fun _ => True) Inside .idle := by
  unfold finishJob
  intro jobEnd _
  refine ⟨.clocked jobEnd, rfl, ?_⟩
  cases summed : totalTokens totals.results with
  | error e => exact inside_error e rfl
  | ok tokens =>
      intro percentiles _
      refine ⟨.idle, rfl, ?_⟩
      show (store (.finish totals.results) >>= fun _ => store _).Safe conductor _ _ _
      refine safe_bind (store_idle fun _ => rfl) ?_ fun e _ ended => inside_error e ended.1
      rintro _ _ ⟨_, finished⟩
      rw [finished () rfl]
      exact store_idle fun _ => rfl

theorem jobBody_safe (queue : Q.Carrier) (jobStart : ℚ) :
    (jobBody Q settings job queue jobStart).Safe conductor (fun _ => True) Inside .idle := by
  refine safe_bind (drain_safe queue _) ?_ fun e _ ended => inside_error e ended.1
  rintro totals _ ⟨_, finished⟩
  rw [finished totals rfl]
  exact finishJob_safe jobStart totals

theorem conductor_fail (within : stage.within = true) (reason : String) (reply : Reply) :
    conductor stage ⟨.store (.fail reason), reply⟩ = some .idle := by
  cases stage with
  | requested | posted | leaked | ended => cases within
  | _ => rfl

theorem conductor_back (within : stage.within = true) :
    conductor stage ⟨.activeJobs (-1), ()⟩ = some .ended := by
  cases stage with
  | requested | posted | leaked | ended => cases within
  | _ => rfl

/-- Nothing is asked after the end. -/
theorem conductor_ended (asked : Asked RouteOp RouteAnswer) :
    conductor .leaked asked = none ∧ conductor .ended asked = none := by
  obtain ⟨op, answer⟩ := asked
  cases op with
  | store call => cases call <;> exact ⟨rfl, rfl⟩
  | activeJobs change => simp [conductor, Stage.within, Stage.counted]
  | _ => exact ⟨rfl, rfl⟩

theorem jobFailed_safe (within : stage.within = true) (e : Exn) :
    (jobFailed e).Safe conductor (fun _ => True) (fun _ stage => stage.within = true) stage := by
  unfold jobFailed
  split
  · exact safe_call fun reply _ => ⟨.idle, conductor_fail within e.message reply, rfl⟩
  · exact within

/-- It has ended, before its task, before the `try` of the task or after it. -/
def Finished (_ : Except Exn Unit) (stage : Stage) : Prop := stage = .requested ∨ stage = .leaked ∨ stage = .ended

/-- A task counts itself, and takes itself back if it has come to its `try`. -/
theorem processJob_safe : (processJob Q settings job).Safe conductor (fun _ => True) Finished .posted := by
  unfold processJob
  intro _ _
  refine ⟨.idle, rfl, fun jobStart _ => ⟨.clocked jobStart, rfl, ?_⟩⟩
  intro filled _
  cases filled with
  | error e => exact ⟨.leaked, rfl, .inr (.inl rfl)⟩
  | ok _ =>
      refine ⟨.idle, rfl, fun _ _ => ⟨.idle, rfl, ?_⟩⟩
      intro begun _
      cases begun with
      | raised e applied => exact ⟨.leaked, rfl, .inr (.inl rfl)⟩
      | ok =>
          refine ⟨.idle, rfl, ?_⟩
          have body : (jobBody Q settings job (jobQueue Q job) jobStart).Safe conductor (fun _ => True) Inside .idle :=
            jobBody_safe (jobQueue Q job) jobStart
          have handled : ((jobBody Q settings job (jobQueue Q job) jobStart).rescue jobFailed).Safe conductor
              (fun _ => True) (fun _ stage => stage.within = true) .idle :=
            safe_rescue body (fun _ _ ended => ended.1) fun e stage ended => jobFailed_safe ended.1 e
          refine safe_tryFinally handled ?_
          intro result stage within _ _
          exact ⟨.ended, conductor_back within, .inr (.inr rfl)⟩

theorem conductor_posting {op : RouteOp} (posting : Posting op = true) (answer : RouteAnswer op) :
    conductor .requested ⟨op, answer⟩ = some .requested := by
  cases op with
  | uuid | cacheGet | etaInitial => rfl
  | store call =>
      cases call with
      | create | incrementProgress => rfl
      | _ => cases posting
  | _ => cases posting

/-- The handler goes on, and has launched nothing. -/
theorem launching_safe {α β : Type} {task : Job → Handler Unit} {p : Handler α} {f : α → Handler β}
    (asks : p.Asks fun op => Posting op = true)
    (rest : ∀ value, (launching task none (f value)).Safe conductor (fun _ => True) Finished .requested) :
    (launching task none (p >>= f)).Safe conductor (fun _ => True) Finished .requested := by
  have launches : ∀ op, Posting op = true → QueueDepth.Idle op := by
    rintro _ posting job rfl
    cases posting
  have passed : ∀ op answer, Posting op = true → True →
      conductor .requested ⟨op, answer⟩ = some .requested := fun op answer posting _ => conductor_posting posting answer
  rw [launching_bind _ (asks.mono launches)]
  refine safe_bind (safe_of_asks asks passed) ?_ ?_
  · rintro value _ rfl
    exact rest value
  · rintro e _ rfl
    exact .inl rfl

/-- A request creates its task last. -/
theorem request_safe (body : ProcessRequest settings) :
    (request Q settings host body).Safe conductor (fun _ => True) Finished .requested := by
  unfold request processTickets
  refine launching_safe (asks_perform rfl) fun jobId => ?_
  refine launching_safe (deduplicate_asks (fun _ => rfl) _ _) fun found => ?_
  refine launching_safe (asks_perform rfl) fun estimated => ?_
  have stored : ∀ call : StoreCall, Posting (.store call) = true → (store call).Asks fun op => Posting op = true :=
    fun call posting => asks_call (P := fun op => Posting op = true) posting
  refine launching_safe (stored _ rfl) fun _ => ?_
  refine launching_safe (asks_when (stored _ rfl)) fun _ => ?_
  intro _ _
  exact ⟨.posted, rfl, fun _ _ => ⟨.posted, rfl, processJob_safe⟩⟩

end Follows

/-! ## The clock in a round -/

/-- What a step has to do with the durations of batches. -/
inductive Timing : Stage → Asked RouteOp RouteAnswer → Stage → Prop
  | read {stage : Stage} {now : ℚ} : Timing stage ⟨.monotonic, now⟩ (.clocked now)
  | gather {now : ℚ} {batch : Batch} {answer : RouteAnswer (.gather batch)} :
      Timing (.clocked now) ⟨.gather batch, answer⟩ (.gathered batch now)
  | measure {batch : Batch} {batchStart now : ℚ} :
      Timing (.gathered batch batchStart) ⟨.monotonic, now⟩ (.timed batch (now - batchStart))
  | update {batch : Batch} {duration : ℚ} : Timing (.timed batch duration) ⟨.etaUpdate duration, ()⟩ (.updated batch)
  | count {batch : Batch} {call : StoreCall} {reply : Reply} :
      Timing (.updated batch) ⟨.store call, reply⟩ (.updated batch)
  | estimate {batch : Batch} {remaining : ℕ} {bucket : Complexity} {eta : ℚ} :
      Timing (.updated batch) ⟨.etaEstimate remaining bucket, eta⟩ (.estimated batch remaining eta)
  | aside {stage stage' : Stage} {op : RouteOp} {answer : RouteAnswer op} (unasked : ∀ remaining bucket,
      op ≠ .etaEstimate remaining bucket) (unfed : ∀ observed, op ≠ .etaUpdate observed)
      (untimed : stage'.batch? = none ∧ ∀ now, stage' ≠ .clocked now) : Timing stage ⟨op, answer⟩ stage'

theorem conductor_timing {stage stage' : Stage} {asked : Asked RouteOp RouteAnswer}
    (followed : conductor stage asked = some stage') : Timing stage asked stage' := by
  unfold conductor at followed
  split at followed
  case h_2 op answer _ =>
    split at followed
    · next posting =>
        cases followed
        refine .aside ?_ ?_ (by simp [Stage.batch?])
        · rintro remaining bucket rfl
          cases posting
        · rintro observed rfl
          cases posting
    · cases followed
  case h_5 => exact Option.some.inj followed ▸ .read
  case h_15 => exact Option.some.inj followed ▸ .gather
  case h_17 => exact Option.some.inj followed ▸ .measure
  case h_18 =>
    split at followed
    · next same =>
        cases followed
        subst same
        exact .update
    · cases followed
  case h_19 => exact Option.some.inj followed ▸ .count
  case h_20 =>
    split at followed
    · cases followed
      exact .estimate
    · cases followed
  all_goals (try split at followed)
  all_goals cases followed
  all_goals
    exact .aside (by simp) (by simp) (by simp [Stage.batch?])

/-! ## What a trace shows -/

/-- A task ends before its `try`. -/
def leaks : Asked RouteOp RouteAnswer → Bool
  | ⟨.enqueueMany, .error _⟩ | ⟨.store .start, .raised _ _⟩ => true
  | _ => false

/-- A progress event was published with the estimate for a batch that had been gathered. -/
def Grounded (trace : RouteTrace) (completed total : ℕ) (eta : ℚ) : Prop :=
  ∃ batch raw, ⟨.gather batch, .ok raw⟩ ∈ trace ∧ ⟨.etaEstimate (total - completed) batch.complexity, eta⟩ ∈ trace

structure Knows (trace : RouteTrace) (stage : Stage) : Prop where
  begun : ⟨.activeJobs 1, ()⟩ ∈ trace ↔ stage.begun = true
  count : gauge trace = if stage.counted then 1 else 0
  leaked : (∃ asked ∈ trace, leaks asked = true) ↔ stage = .leaked
  gathered : ∀ batch, stage.batch? = some batch → ∃ raw, ⟨.gather batch, .ok raw⟩ ∈ trace
  estimated : ∀ batch remaining eta, stage = .estimated batch remaining eta →
    ⟨.etaEstimate remaining batch.complexity, eta⟩ ∈ trace
  told : ∀ completed total cacheHits failed eta reply,
    ⟨.store (.publishProgress completed total cacheHits failed eta), reply⟩ ∈ trace → Grounded trace completed total eta

section Knows

variable {trace : RouteTrace} {stage stage' : Stage}

theorem knows_nil : Knows [] .requested := by
  constructor <;> simp [Stage.begun, Stage.counted, Stage.batch?, gauge]

theorem Grounded.append {completed total : ℕ} {eta : ℚ} (grounded : Grounded trace completed total eta)
    (more : RouteTrace) : Grounded (trace ++ more) completed total eta := by
  obtain ⟨batch, raw, gathered, estimated⟩ := grounded
  exact ⟨batch, raw, List.mem_append_left _ gathered, List.mem_append_left _ estimated⟩

/-- One operation more. -/
theorem Knows.concat (knows : Knows trace stage) {asked : Asked RouteOp RouteAnswer}
    (begun : stage'.begun = true ↔ stage.begun = true ∨ asked = ⟨.activeJobs 1, ()⟩)
    (count : (if stage'.counted then 1 else 0) = (if stage.counted then 1 else 0) + gaugeChange asked)
    (leaked : stage' = .leaked ↔ stage = .leaked ∨ leaks asked = true)
    (gathered : ∀ batch, stage'.batch? = some batch → stage.batch? = some batch ∨ ∃ raw, asked = ⟨.gather batch, .ok raw⟩)
    (estimated : ∀ batch remaining eta, stage' = .estimated batch remaining eta →
      asked = ⟨.etaEstimate remaining batch.complexity, eta⟩)
    (told : ∀ completed total cacheHits failed eta reply,
      asked = ⟨.store (.publishProgress completed total cacheHits failed eta), reply⟩ → Grounded trace completed total eta) :
    Knows (trace ++ [asked]) stage' := by
  have concat : ∀ other, other ∈ trace ++ [asked] ↔ other ∈ trace ∨ other = asked := by simp
  constructor
  · rw [concat, begun, knows.begun, @eq_comm _ asked]
  · rw [gauge_append, knows.count, count]
    simp [gauge]
  · simp only [concat, or_and_right, exists_or, knows.leaked, exists_eq_left, leaked]
  · intro batch now
    rcases gathered batch now with before | ⟨raw, rfl⟩
    · obtain ⟨raw, member⟩ := knows.gathered batch before
      exact ⟨raw, List.mem_append_left _ member⟩
    · exact ⟨raw, (concat _).mpr (.inr rfl)⟩
  · intro batch remaining eta now
    exact (concat _).mpr (.inr (estimated batch remaining eta now).symm)
  · intro completed total cacheHits failed eta reply member
    rcases (concat _).mp member with before | last
    · exact (knows.told _ _ _ _ _ _ before).append _
    · exact (told _ _ _ _ _ _ last.symm).append _

theorem begun_of_within (within : stage.within = true) :
    stage.begun = true ∧ stage ≠ .leaked ∧ stage.counted = true := by
  cases stage with
  | requested | posted | leaked | ended => cases within
  | _ => simp [Stage.begun, Stage.counted]

theorem Knows.posting (knows : Knows trace .requested) {op : RouteOp} (posting : Posting op = true)
    (answer : RouteAnswer op) : Knows (trace ++ [⟨op, answer⟩]) .requested := by
  refine knows.concat ?_ ?_ ?_ (fun _ impossible => by cases impossible) (fun _ _ _ impossible => by cases impossible) ?_
  · cases op with
    | activeJobs => cases posting
    | _ => simp [Stage.begun]
  · cases op with
    | activeJobs => cases posting
    | _ => rfl
  · cases op with
    | enqueueMany => cases posting
    | store call =>
        cases call with
        | start => cases posting
        | _ => simp [leaks]
    | _ => simp [leaks]
  · rintro completed total cacheHits failed eta reply same
    cases same
    cases posting

/-- What is known of a trace is known of it with the next operation. -/
theorem Knows.step (knows : Knows trace stage) {asked : Asked RouteOp RouteAnswer}
    (followed : conductor stage asked = some stage') : Knows (trace ++ [asked]) stage' := by
  unfold conductor at followed
  split at followed
  case h_2 op answer _ =>
    -- `process_tickets`
    split at followed
    · next posting =>
        cases followed
        exact knows.posting posting answer
    · cases followed
  case h_15 now batch raw =>
    cases followed
    refine knows.concat (by simp [Stage.begun]) rfl (by simp [leaks]) ?_ (by simp) (by simp)
    rintro _ ⟨⟩
    exact .inr ⟨raw, rfl⟩
  case h_20 batch remaining bucket eta =>
    split at followed
    · next same =>
        cases followed
        subst same
        exact knows.concat (by simp [Stage.begun]) rfl (by simp [leaks]) (by simp [Stage.batch?]) (by simp) (by simp)
    · cases followed
  case h_21 batch remaining eta completed total cacheHits failed told reply =>
    -- what is told was estimated for the batch
    split at followed
    · next same =>
        cases followed
        obtain ⟨rfl, rfl⟩ := same
        refine knows.concat (by simp [Stage.begun]) rfl (by simp [leaks]) (by simp [Stage.batch?]) (by simp) ?_
        rintro _ _ _ _ _ _ ⟨⟩
        obtain ⟨raw, gathered⟩ := knows.gathered batch rfl
        exact ⟨batch, raw, gathered, knows.estimated _ _ _ rfl⟩
    · cases followed
  case h_22 stage reason reply _ =>
    split at followed
    · next within =>
        cases followed
        obtain ⟨begun, kept, counted⟩ := begun_of_within within
        refine knows.concat ⟨fun _ => .inl begun, fun _ => rfl⟩ ?_ (by simp [kept, leaks]) (by simp [Stage.batch?])
          (by simp) (by simp)
        rw [counted]
        rfl
    · cases followed
  case h_23 stage change _ _ _ =>
    split at followed
    · next within =>
        cases followed
        obtain ⟨inside, rfl⟩ := within
        obtain ⟨begun, kept, counted⟩ := begun_of_within inside
        refine knows.concat ⟨fun _ => .inl begun, fun _ => rfl⟩ ?_ (by simp [kept, leaks]) (by simp [Stage.batch?])
          (by simp) (by simp)
        rw [counted]
        rfl
    · cases followed
  all_goals (try split at followed)
  all_goals cases followed
  all_goals
    exact knows.concat (by simp_all [Stage.begun]) (by simp_all [Stage.counted, gaugeChange]) (by simp [leaks])
      (by simp [Stage.batch?]) (by simp) (by simp)

/-- What the trace of a request shows. -/
theorem knows_of_exec (ran : exec conductor .requested trace = some stage) : Knows trace stage := by
  induction trace using List.reverseRecOn generalizing stage with
  | nil =>
      cases ran
      exact knows_nil
  | append_singleton before asked ih =>
      rw [exec_append] at ran
      obtain ⟨between, first, last⟩ := Option.bind_eq_some_iff.mp ran
      obtain ⟨_, followed, ended⟩ := exec_cons_eq_some.mp last
      cases ended
      exact (ih first).step followed

end Knows

/-! ## Any number of requests -/

/-- The module state of the process, and the steps so far; `clock` says what time it is then. -/
structure Shared where
  ticks : ℕ
  activeJobCount : ℤ
  etaEstimator : ETAEstimator ℚ

def Shared.tick (s : Shared) : Shared := { s with ticks := s.ticks + 1 }

/-- `eta_estimator = ETAEstimator()`, and no job yet. -/
def Shared.init : Shared where
  ticks := 0
  activeJobCount := 0
  etaEstimator := .init (3 / 10) (12 / 10)

section System

variable {ι : Type} (clock : ℕ → ℚ) (outside : Outside ι)

def serve : Serve RouteOp RouteAnswer ι Shared := fun i trace s op =>
  match op with
  | .activeJobs change => some ((), { s.tick with activeJobCount := s.activeJobCount + change })
  | .monotonic => some (clock s.ticks, s.tick)
  | .etaUpdate observed => some ((), { s.tick with etaEstimator := s.etaEstimator.update observed })
  | .etaEstimate remaining bucket => some (s.etaEstimator.estimate remaining (some bucket), s.tick)
  | .etaInitial _ breakdown => some (s.etaEstimator.estimateInitial breakdown, s.tick)
  | op => (outside i trace op).map (·, s.tick)

abbrev Requests (ι : Type) := Pool RouteOp RouteAnswer Exn Unit ι Shared

variable (w : Requests ι) (i : ι)

def stage : Stage := conductor.after .requested (w.traces i)

/-- The task of request `i` has begun and not ended. -/
def Running : Prop := ⟨.activeJobs 1, ()⟩ ∈ w.traces i ∧ QueueDepth.Ended (w.threads i) = false

/-- The task of request `i` was ended by `enqueue_many` or by `start`. -/
def Leaked : Prop := ∃ asked ∈ w.traces i, leaks asked = true

/-- No job has observed a shorter duration, and none a longer one. -/
def AtLeast (least : ℚ) : Prop := ∀ j observed, ⟨.etaUpdate observed, ()⟩ ∈ w.traces j → least ≤ observed

def AtMost (greatest : ℚ) : Prop := ∀ j observed, ⟨.etaUpdate observed, ()⟩ ∈ w.traces j → observed ≤ greatest

/-- A latency between the durations the jobs have observed. -/
structure Between (latency : ℚ) : Prop where
  least : ∀ least, AtLeast w least → least ≤ latency
  greatest : ∀ greatest, AtMost w greatest → latency ≤ greatest

end System

/-- `batches` of `estimate`. -/
def batchesLeft (remaining : ℕ) (bucket : Complexity) : ℚ := max 1 ((remaining : ℚ) / batchSize bucket)

/-- `weighted_batches` of `estimate_initial`. -/
def weightedBatches (breakdown : ComplexityBreakdown) : ℚ :=
  (breakdown.complex : ℚ) / batchSize .complex + (breakdown.medium : ℚ) / batchSize .medium +
    (breakdown.simple : ℚ) / batchSize .simple

/-! ### One operation -/

section Served

variable {ι : Type} {clock : ℕ → ℚ} {outside : Outside ι}

/-- What an operation does to the shared state. -/
structure Served (clock : ℕ → ℚ) (s s' : Shared) (asked : Asked RouteOp RouteAnswer) : Prop where
  ticked : s'.ticks = s.ticks + 1
  counted : s'.activeJobCount = s.activeJobCount + gaugeChange asked
  fed : (∃ observed, asked = ⟨.etaUpdate observed, ()⟩ ∧ s'.etaEstimator = s.etaEstimator.update observed) ∨
    (∀ observed, asked ≠ ⟨.etaUpdate observed, ()⟩) ∧ s'.etaEstimator = s.etaEstimator
  read : ∀ now, asked = ⟨.monotonic, now⟩ → now = clock s.ticks
  estimated : ∀ remaining bucket eta, asked = ⟨.etaEstimate remaining bucket, eta⟩ →
    eta = s.etaEstimator.estimate remaining (some bucket)
  initial : ∀ unique breakdown estimated, asked = ⟨.etaInitial unique breakdown, estimated⟩ →
    estimated = s.etaEstimator.estimateInitial breakdown

theorem serve_spec {i : ι} {trace : RouteTrace} {s s' : Shared} {op : RouteOp} {answer : RouteAnswer op}
    (served : serve clock outside i trace s op = some (answer, s')) : Served clock s s' ⟨op, answer⟩ := by
  cases op with
  | activeJobs | monotonic | etaEstimate | etaInitial =>
      cases served
      exact ⟨rfl, by simp [gaugeChange, Shared.tick], .inr ⟨by simp, rfl⟩, by simp, by simp, by simp⟩
  | etaUpdate observed =>
      cases served
      exact ⟨rfl, by simp [gaugeChange, Shared.tick], .inl ⟨observed, rfl, rfl⟩, by simp, by simp, by simp⟩
  | _ =>
      obtain ⟨_, _, same⟩ := Option.map_eq_some_iff.mp served
      cases same
      exact ⟨rfl, by simp [gaugeChange, Shared.tick], .inr ⟨by simp, rfl⟩, by simp, by simp, by simp⟩

end Served

/-! ### The invariant -/

/-- What is known of the clock and of the estimator while a round is measured. -/
def Timely (now : ℚ) (hasData : Bool) : Stage → Prop
  | .clocked before | .gathered _ before => before ≤ now
  | .timed _ duration => 0 ≤ duration
  | .updated _ => hasData = true
  | _ => True

theorem timely_of_untimed {now : ℚ} {hasData : Bool} {stage : Stage}
    (untimed : stage.batch? = none ∧ ∀ now, stage ≠ .clocked now) : Timely now hasData stage := by
  cases stage with
  | clocked before => exact absurd rfl (untimed.2 before)
  | gathered | timed | updated | estimated => cases untimed.1
  | _ => trivial

theorem Timely.later {now now' : ℚ} {hasData hasData' : Bool} {stage : Stage} (timely : Timely now hasData stage)
    (le : now ≤ now') (kept : hasData = true → hasData' = true) : Timely now' hasData' stage := by
  cases stage with
  | clocked before | gathered batch before => exact le_trans timely le
  | timed => exact timely
  | updated => exact kept timely
  | _ => trivial

theorem Timely.step {now now' : ℚ} {hasData hasData' : Bool} {stage stage' : Stage} {asked : Asked RouteOp RouteAnswer}
    (timely : Timely now hasData stage) (timing : Timing stage asked stage') (le : now ≤ now')
    (read : ∀ t, asked = ⟨.monotonic, t⟩ → t = now) (kept : hasData = true → hasData' = true)
    (fed : ∀ observed, asked = ⟨.etaUpdate observed, ()⟩ → hasData' = true) : Timely now' hasData' stage' := by
  cases timing with
  | read =>
      rw [read _ rfl]
      exact le
  | gather => exact le_trans timely le
  | @measure batch batchStart t =>
      rw [read _ rfl]
      exact sub_nonneg.mpr timely
  | update => exact fed _ rfl
  | count => exact kept timely
  | estimate => trivial
  | aside _ _ untimed => exact timely_of_untimed untimed

/-- A duration is not negative when the estimator is handed it. -/
theorem Timely.observed {now : ℚ} {hasData : Bool} {stage stage' : Stage} {observed : ℚ}
    (timely : Timely now hasData stage) (timing : Timing stage ⟨.etaUpdate observed, ()⟩ stage') : 0 ≤ observed := by
  cases timing with
  | update => exact timely
  | aside _ unfed _ => exact absurd rfl (unfed observed)

/-- The estimator has data when it is asked. -/
theorem Timely.asked {now : ℚ} {hasData : Bool} {stage stage' : Stage} {remaining : ℕ} {bucket : Complexity} {eta : ℚ}
    (timely : Timely now hasData stage) (timing : Timing stage ⟨.etaEstimate remaining bucket, eta⟩ stage') :
    hasData = true := by
  cases timing with
  | estimate => exact timely
  | aside unasked _ _ => exact absurd rfl (unasked remaining bucket)

section Update

variable (e : ETAEstimator ℚ) (observed : ℚ)

theorem update_hasData : (e.update observed).hasData = true := by
  unfold ETAEstimator.update
  split <;> simp_all

theorem update_alpha : (e.update observed).alpha = e.alpha := by
  unfold ETAEstimator.update
  split <;> rfl

theorem update_default : (e.update observed).defaultLatencyS = e.defaultLatencyS := by
  unfold ETAEstimator.update
  split <;> rfl

end Update

section Steps

variable {ι : Type} [DecidableEq ι] {clock : ℕ → ℚ} {outside : Outside ι} {Q : TicketQueue} {settings : Settings}
  {host : Host} {bodies : ι → ProcessRequest settings} {w w' : Requests ι} {i : ι} {op : RouteOp} {answer : RouteAnswer op}
  {next : Handler Unit} {shared : Shared} {latency : ℚ}

theorem AtLeast.before {least : ℚ} (bound : AtLeast (w.served i op answer next shared) least) : AtLeast w least :=
  fun j observed member => bound j observed (Pool.mem_served member)

theorem AtMost.before {greatest : ℚ} (bound : AtMost (w.served i op answer next shared) greatest) : AtMost w greatest :=
  fun j observed member => bound j observed (Pool.mem_served member)

theorem Between.served (between : Between w latency) : Between (w.served i op answer next shared) latency where
  least _ bound := between.least _ bound.before
  greatest _ bound := between.greatest _ bound.before

/-- The average moves to the new duration, and stays between. -/
theorem Between.update {e : ETAEstimator ℚ} {observed : ℚ} {answer : RouteAnswer (.etaUpdate observed)}
    (weight : e.alpha = 3 / 10) (between : e.hasData = true → Between w e.ewma) :
    Between (w.served i (.etaUpdate observed) answer next shared) (e.update observed).ewma := by
  have here : ⟨.etaUpdate observed, ()⟩ ∈ (w.served i (.etaUpdate observed) answer next shared).traces i := by
    rw [Pool.served_traces_self]
    exact List.mem_append_right _ (List.mem_singleton.mpr rfl)
  have nonneg : 0 ≤ e.alpha := by rw [weight]; norm_num
  have le_one : e.alpha ≤ 1 := by rw [weight]; norm_num
  cases some : e.hasData with
  | false =>
      have first : (e.update observed).ewma = observed := by simp [ETAEstimator.update, some]
      rw [first]
      exact ⟨fun least bound => bound i observed here, fun greatest bound => bound i observed here⟩
  | true =>
      have moved : (e.update observed).ewma = e.alpha * observed + (1 - e.alpha) * e.ewma := by
        simp [ETAEstimator.update, some]
      rw [moved]
      constructor
      · intro least bound
        exact le_move nonneg le_one (bound i observed here) ((between some).least least bound.before)
      · intro greatest bound
        exact move_le nonneg le_one (bound i observed here) ((between some).greatest greatest bound.before)

/-- What was estimated, with the latency it was estimated at. -/
structure Inv (clock : ℕ → ℚ) (Q : TicketQueue) (host : Host) (bodies : ι → ProcessRequest settings)
    (w : Requests ι) : Prop where
  faithful : Pool.Faithful (fun i => request Q settings host (bodies i)) w
  timely : ∀ i, Timely (clock w.shared.ticks) w.shared.etaEstimator.hasData (stage w i)
  nonneg : AtLeast w 0
  weight : w.shared.etaEstimator.alpha = 3 / 10
  default : w.shared.etaEstimator.defaultLatencyS = 12 / 10
  averaged : w.shared.etaEstimator.hasData = true → Between w w.shared.etaEstimator.ewma
  estimated : ∀ i remaining bucket eta, ⟨.etaEstimate remaining bucket, eta⟩ ∈ w.traces i →
    ∃ latency, Between w latency ∧ eta = batchesLeft remaining bucket * latency
  initial : ∀ i unique breakdown estimated, ⟨.etaInitial unique breakdown, estimated⟩ ∈ w.traces i →
    ∃ latency, (latency = 12 / 10 ∨ Between w latency) ∧ estimated = weightedBatches breakdown * latency

omit [DecidableEq ι] in
theorem inv_init : Inv clock Q host bodies (Pool.init Shared.init fun i => request Q settings host (bodies i)) where
  faithful := Pool.faithful_init _ _
  timely _ := trivial
  nonneg _ _ member := by cases member
  weight := rfl
  default := rfl
  averaged impossible := by cases impossible
  estimated _ _ _ _ member := by cases member
  initial _ _ _ _ member := by cases member

omit [DecidableEq ι] in
theorem knows_of_faithful (faithful : Pool.Faithful (fun i => request Q settings host (bodies i)) w) (i : ι) :
    Knows (w.traces i) (stage w i) :=
  knows_of_exec ((request_safe (bodies i)).now (faithful i)).1

/-- The conductor goes along. -/
theorem stage_step (faithful : Pool.Faithful (fun i => request Q settings host (bodies i)) w)
    {next : RouteAnswer op → Handler Unit} (pending : w.threads i = .ask op next) (answer : RouteAnswer op)
    (shared : Shared) :
    conductor (stage w i) ⟨op, answer⟩ = some (stage (w.served i op answer (next answer) shared) i) := by
  have leads := faithful i
  rw [pending] at leads
  have followed := (request_safe (bodies i)).next leads answer
  rw [stage, stage, Pool.served_traces_self]
  exact followed

theorem stage_served_of_ne {j : ι} (ne : j ≠ i) : stage (w.served i op answer next shared) j = stage w j := by
  rw [stage, Pool.served_traces_of_ne ne, stage]

/-- **Every step keeps the invariant.** -/
theorem Inv.step (monotone : Monotone clock) (inv : Inv clock Q host bodies w)
    (stepped : Pool.step (serve clock outside) w i = some w') : Inv clock Q host bodies w' := by
  have faithful := inv.faithful.step stepped
  obtain ⟨op, next, answer, shared, pending, given, rfl⟩ := Pool.step_cases stepped
  have served := serve_spec given
  have followed := stage_step inv.faithful pending answer shared
  have timing := conductor_timing followed
  have later : clock w.shared.ticks ≤ clock shared.ticks := by
    rw [served.ticked]
    exact monotone (Nat.le_succ _)
  have fed : ∀ observed, (⟨op, answer⟩ : Asked RouteOp RouteAnswer) = ⟨.etaUpdate observed, ()⟩ →
      shared.etaEstimator.hasData = true := by
    intro observed same
    rcases served.fed with ⟨_, _, updated⟩ | ⟨others, _⟩
    · rw [updated, update_hasData]
    · exact absurd same (others observed)
  have kept : w.shared.etaEstimator.hasData = true → shared.etaEstimator.hasData = true := by
    intro some
    rcases served.fed with ⟨_, _, updated⟩ | ⟨_, same⟩
    · rw [updated, update_hasData]
    · rwa [same]
  have timely : ∀ j, Timely (clock shared.ticks) shared.etaEstimator.hasData
      (stage (w.served i op answer (next answer) shared) j) := by
    intro j
    by_cases same : j = i
    · subst same
      exact (inv.timely j).step timing later served.read kept fed
    · rw [stage_served_of_ne same]
      exact (inv.timely j).later later kept
  constructor
  · exact faithful
  · exact timely
  · intro j observed member
    rcases Pool.mem_served_cases member with before | ⟨rfl, now⟩
    · exact inv.nonneg j observed before
    · rw [← now] at timing
      exact (inv.timely j).observed timing
  · rcases served.fed with ⟨observed, _, updated⟩ | ⟨_, same⟩
    · rw [Pool.served_shared, updated, update_alpha, inv.weight]
    · rw [Pool.served_shared, same, inv.weight]
  · rcases served.fed with ⟨observed, _, updated⟩ | ⟨_, same⟩
    · rw [Pool.served_shared, updated, update_default, inv.default]
    · rw [Pool.served_shared, same, inv.default]
  · intro some
    rcases served.fed with ⟨observed, same, updated⟩ | ⟨_, same⟩
    · cases same
      rw [Pool.served_shared, updated]
      exact Between.update inv.weight inv.averaged
    · rw [Pool.served_shared, same] at some ⊢
      exact (inv.averaged some).served
  · intro j remaining bucket eta member
    rcases Pool.mem_served_cases member with before | ⟨rfl, now⟩
    · obtain ⟨latency, between, product⟩ := inv.estimated j remaining bucket eta before
      exact ⟨latency, between.served, product⟩
    · have some : w.shared.etaEstimator.hasData = true := by
        rw [← now] at timing
        exact (inv.timely j).asked timing
      refine ⟨w.shared.etaEstimator.ewma, (inv.averaged some).served, ?_⟩
      rw [served.estimated remaining bucket eta now.symm, ETAEstimator.estimate, ETAEstimator.latency, if_pos some]
      rfl
  · intro j unique breakdown estimated member
    rcases Pool.mem_served_cases member with before | ⟨rfl, now⟩
    · obtain ⟨latency, default | between, product⟩ := inv.initial j unique breakdown estimated before
      · exact ⟨latency, .inl default, product⟩
      · exact ⟨latency, .inr between.served, product⟩
    · refine ⟨w.shared.etaEstimator.latency, ?_, ?_⟩
      · cases some : w.shared.etaEstimator.hasData with
        | false =>
            left
            rw [ETAEstimator.latency, if_neg (by simp [some])]
            exact inv.default
        | true =>
            right
            rw [ETAEstimator.latency, if_pos some]
            exact (inv.averaged some).served
      · rw [served.initial unique breakdown estimated now.symm]
        rfl

theorem inv_of_ran (monotone : Monotone clock) {schedule : List ι}
    (ran : exec (Pool.step (serve clock outside)) (Pool.init Shared.init fun i => request Q settings host (bodies i))
      schedule = some w) : Inv clock Q host bodies w :=
  exec_invariant (fun _ _ _ inv stepped => inv.step monotone stepped) schedule _ w inv_init ran

/-- **What a client is told** lies between what the jobs have observed: every published estimate is
for a batch that was gathered, and is the batches that are left times a latency between the shortest
and the longest duration any job has observed; so is the estimate a request is answered with, or else
it is at the default latency. No latency is negative. -/
theorem estimates_within (monotone : Monotone clock) {schedule : List ι}
    (ran : exec (Pool.step (serve clock outside)) (Pool.init Shared.init fun i => request Q settings host (bodies i))
      schedule = some w) :
    (∀ i completed total cacheHits failed eta reply,
      ⟨.store (.publishProgress completed total cacheHits failed eta), reply⟩ ∈ w.traces i →
        ∃ batch raw latency, ⟨.gather batch, .ok raw⟩ ∈ w.traces i ∧ Between w latency ∧ 0 ≤ latency ∧
          eta = batchesLeft (total - completed) batch.complexity * latency) ∧
    ∀ i unique breakdown estimated, ⟨.etaInitial unique breakdown, estimated⟩ ∈ w.traces i →
      ∃ latency, (latency = 12 / 10 ∨ Between w latency) ∧ 0 ≤ latency ∧
        estimated = weightedBatches breakdown * latency := by
  have inv := inv_of_ran monotone ran
  constructor
  · intro i completed total cacheHits failed eta reply member
    obtain ⟨batch, raw, gathered, estimated⟩ := (knows_of_faithful inv.faithful i).told _ _ _ _ _ _ member
    obtain ⟨latency, between, product⟩ := inv.estimated i _ _ _ estimated
    exact ⟨batch, raw, latency, gathered, between, between.least 0 inv.nonneg, product⟩
  · intro i unique breakdown estimated member
    obtain ⟨latency, default | between, product⟩ := inv.initial i unique breakdown estimated member
    · refine ⟨latency, .inl default, ?_, product⟩
      rw [default]
      norm_num
    · exact ⟨latency, .inr between, between.least 0 inv.nonneg, product⟩

end Steps

/-! ## The count -/

section Count

variable {ι : Type} [DecidableEq ι] [Fintype ι] {clock : ℕ → ℚ} {outside : Outside ι} {Q : TicketQueue}
  {settings : Settings} {host : Host} {bodies : ι → ProcessRequest settings} {w : Requests ι}

omit [DecidableEq ι] [Fintype ι] in
/-- A task counts as active while it runs, and for ever if it has leaked. -/
theorem counted_eq (i : ι) [Decidable (Running w i)] [Decidable (Leaked w i)]
    (faithful : Pool.Faithful (fun i => request Q settings host (bodies i)) w) :
    gauge (w.traces i) = (if Running w i then 1 else 0) + if Leaked w i then 1 else 0 := by
  have knows := knows_of_faithful faithful i
  obtain ⟨_, safe⟩ := (request_safe (bodies i)).now (faithful i)
  change Program.Safe _ _ _ _ (stage w i) at safe
  have leaked : Leaked w i ↔ stage w i = .leaked := knows.leaked
  have running : Running w i ↔ (stage w i).begun = true ∧ QueueDepth.Ended (w.threads i) = false :=
    and_congr knows.begun Iff.rfl
  rw [knows.count]
  cases going : w.threads i with
  | ask op next =>
      rw [going] at safe
      obtain ⟨_, followed, _⟩ := safe (Classical.choice (answer_nonempty op)) trivial
      have on : QueueDepth.Ended (w.threads i) = false := by
        rw [going]
        rfl
      cases here : stage w i with
      | leaked =>
          rw [here, (conductor_ended _).1] at followed
          cases followed
      | ended =>
          rw [here, (conductor_ended _).2] at followed
          cases followed
      | _ => simp [leaked, running, here, on, Stage.counted, Stage.begun]
  | done value | raise e =>
      rw [going] at safe
      have finished : stage w i = .requested ∨ stage w i = .leaked ∨ stage w i = .ended := safe
      have off : QueueDepth.Ended (w.threads i) = true := by
        rw [going]
        rfl
      rcases finished with here | here | here <;> simp [leaked, running, here, off, Stage.counted, Stage.begun]

theorem count_of_ran {start : ι → Handler Unit} {schedule : List ι}
    (ran : exec (Pool.step (serve clock outside)) (Pool.init Shared.init start) schedule = some w) :
    w.shared.activeJobCount = ∑ i, gauge (w.traces i) := by
  have keeps : ∀ (v : Requests ι) (i : ι) (v' : Requests ι), v.shared.activeJobCount = ∑ j, gauge (v.traces j) →
      Pool.step (serve clock outside) v i = some v' → v'.shared.activeJobCount = ∑ j, gauge (v'.traces j) := by
    intro v i v' same stepped
    obtain ⟨op, next, answer, shared, _, given, rfl⟩ := Pool.step_cases stepped
    have one : gauge [⟨op, answer⟩] = gaugeChange ⟨op, answer⟩ := by simp [gauge]
    have sum : ∑ j, gauge ((v.served i op answer (next answer) shared).traces j) =
        gauge (v.traces i ++ [⟨op, answer⟩]) + ∑ j ∈ Finset.univ.erase i, gauge (v.traces j) :=
      Pool.sum_served fun trace _ => gauge trace
    rw [sum, gauge_append, one, Pool.served_shared, (serve_spec given).counted, same,
      ← Finset.add_sum_erase _ _ (Finset.mem_univ i)]
    ring
  exact exec_invariant keeps schedule _ w (by simp [Pool.init, Shared.init, gauge]) ran

open Classical in
/-- **The active jobs** are those whose task is running, and those that `enqueue_many` or `start` has
ended. -/
theorem active_jobs_exact {schedule : List ι}
    (ran : exec (Pool.step (serve clock outside)) (Pool.init Shared.init fun i => request Q settings host (bodies i))
      schedule = some w) :
    w.shared.activeJobCount = (Finset.univ.filter fun i => Running w i).card +
      (Finset.univ.filter fun i => Leaked w i).card := by
  have faithful : Pool.Faithful (fun i => request Q settings host (bodies i)) w :=
    exec_invariant (fun _ _ _ faithful stepped => faithful.step stepped) schedule _ w (Pool.faithful_init _ _) ran
  rw [count_of_ran ran, Finset.sum_congr rfl fun i _ => counted_eq i faithful, Finset.sum_add_distrib,
    Finset.card_filter, Finset.card_filter]
  push_cast
  rfl

end Count

/-! ## Poles -/

section Poles

/-- Redis serves everything, and the only ticket of the batch raises. -/
def calm : Outside Unit := fun _ _ op =>
  match op with
  | .store _ => some .ok
  | .cacheGet _ => some (.ok none)
  | .enqueueMany | .drainBatch => some (.ok ())
  | .gather batch => some (.ok ⟨batch.tickets.map fun _ => brokenTicket, List.length_map _⟩)
  | .activeJobs _ | .queueDepth _ | .etaUpdate _ | .createTask _ => some ()
  | .monotonic | .etaEstimate _ _ | .etaInitial _ _ => some (0 : ℚ)
  | .summary => some ⟨0, 0, 0⟩
  | .uuid => some "j"

/-- One request, and a clock that stands still. -/
abbrev oneRequest : Requests Unit :=
  Pool.init Shared.init fun _ => request QueueDepth.Sorted .defaults plainHost single

def still : ℕ → ℚ := fun _ => 0

/-- It is posted, and told `estimated`. -/
abbrev toldTrace (estimated : ℚ) : RouteTrace :=
  [⟨.uuid, "j"⟩, ⟨.cacheGet (ticketKey plainHost "help"), .ok none⟩, ⟨.etaInitial 1 (breakdown ["help"]), estimated⟩,
    ⟨.store (.create 1), .ok⟩, ⟨.createTask missedJob, ()⟩, ⟨.queueDepth 1, ()⟩]

theorem toldTrace_leads (estimated : ℚ) : Leads (request QueueDepth.Sorted .defaults plainHost single)
    (toldTrace estimated) (processJob QueueDepth.Sorted .defaults missedJob) :=
  .ask (.ask (.ask (.ask (.ask (.ask (.refl _))))))

abbrev postedTrace : RouteTrace := toldTrace (weightedBatches (breakdown ["help"]) * (12 / 10))

theorem postedTrace_leads : Leads (request QueueDepth.Sorted .defaults plainHost single) postedTrace
    (processJob QueueDepth.Sorted .defaults missedJob) := toldTrace_leads _

/-- A second passes with every step. -/
def ticking : ℕ → ℚ := fun n => n

theorem ticking_monotone : Monotone ticking := fun _ _ le => Nat.cast_le.mpr le

/-- The task of the first request, whose batch takes two seconds. -/
abbrev timedTrace : RouteTrace :=
  prologue QueueDepth.Sorted missedJob (ticking 7) ++
    ((⟨.drainBatch, .ok ()⟩ :: ⟨.queueDepth 0, ()⟩ ::
      (timedRound (ticking 13) (ticking 15) 2 helpBatch (helpRaw brokenTicket) 0 ++
        ⟨.store (progressCall missedJob (helpTotals brokenTicket) 2), .ok⟩ :: [⟨.drainBatch, .ok ()⟩])) ++
      finishTrace .defaults missedJob (ticking 7) (ticking 21) (helpTotals brokenTicket) (.finite (0 + 0)))

theorem timedTrace_leads : Leads (processJob QueueDepth.Sorted .defaults missedJob) timedTrace (.done ()) := by
  have drained : PriorityBatcher.drainBatch QueueDepth.Sorted (jobQueue QueueDepth.Sorted missedJob) =
      some (helpBatch, (MinQueue.sorted _).empty) := rfl
  have left : (max 0 ((missedJob.totalTickets : ℤ) - (helpTotals brokenTicket).completed)).toNat = 0 := by
    rw [helpTotals_completed]
    rfl
  have rounds := drain_of_round (ticking 13) (ticking 15) 2 (initialTotals missedJob) (helpRaw brokenTicket) 0 left
    drained (drain_of_empty rfl _)
  exact leads_of_runs (processJob_of_drained (ticking 7) (ticking 21) rounds broken_tokens)

/-- The estimator once it has seen the batch. -/
abbrev taught : ETAEstimator ℚ := (ETAEstimator.init (3 / 10) (12 / 10)).update (ticking 15 - ticking 13)

theorem taught_estimate (bucket : Option Complexity) : taught.estimate 0 bucket = 2 := by
  norm_num [taught, ETAEstimator.update, ETAEstimator.init, ETAEstimator.estimate, ETAEstimator.latency, ticking]

theorem taught_estimateInitial (breakdown : ComplexityBreakdown) :
    taught.estimateInitial breakdown = weightedBatches breakdown * 2 := by
  norm_num [taught, ETAEstimator.update, ETAEstimator.init, ETAEstimator.estimateInitial, ETAEstimator.latency,
    weightedBatches, ticking]

/-- Two requests. -/
abbrev twoRequests : Requests Bool :=
  Pool.init Shared.init fun _ => request QueueDepth.Sorted .defaults plainHost single

/-- The first is answered and done, and then the second is answered. -/
theorem twoRequests_ran : ∃ w schedule, exec (Pool.step (serve ticking fun _ => calm ())) twoRequests schedule = some w ∧
    w.traces false = postedTrace ++ timedTrace ∧
    w.traces true = toldTrace (weightedBatches (breakdown ["help"]) * 2) := by
  have alone : Pool.Alone (serve ticking fun _ => calm ()) false [] Shared.init (postedTrace ++ timedTrace)
      ⟨26, 0, taught⟩ :=
    .cons rfl <| .cons rfl <| .cons rfl <| .cons rfl <| .cons rfl <| .cons rfl <|
    -- the task
    .cons rfl <| .cons rfl <| .cons rfl <| .cons rfl <| .cons rfl <| .cons rfl <| .cons rfl <|
    -- its round
    .cons rfl <| .cons rfl <| .cons rfl <| .cons rfl <| .cons rfl <|
    .cons (congrArg (fun eta : ℚ => some (eta, _)) (taught_estimate _)) <| .cons rfl <|
    -- what follows the loop
    .cons rfl <| .cons rfl <| .cons rfl <| .cons rfl <| .cons rfl <| .cons rfl .nil
  have alone' : Pool.Alone (serve ticking fun _ => calm ()) true [] ⟨26, 0, taught⟩
      (toldTrace (weightedBatches (breakdown ["help"]) * 2)) ⟨32, 0, taught⟩ :=
    .cons rfl <| .cons rfl <| .cons (congrArg (fun told : ℚ => some (told, _)) (taught_estimateInitial _)) <|
    .cons rfl <| .cons rfl <| .cons rfl .nil
  obtain ⟨w, ran, _, traced, _, traced', _⟩ := alone.exec_turns
    (fun _ => request QueueDepth.Sorted .defaults plainHost single) (by decide)
    (postedTrace_leads.trans timedTrace_leads) alone' (toldTrace_leads _)
  exact ⟨w, _, ran, traced, traced'⟩

/-- Satisfiable pole: the progress event of the first request, and what the second is told. -/
theorem estimates_within_two :
    ∃ w schedule, exec (Pool.step (serve ticking fun _ => calm ())) twoRequests schedule = some w ∧
      (∃ batch raw latency, ⟨.gather batch, .ok raw⟩ ∈ w.traces false ∧ Between w latency ∧ 0 ≤ latency ∧
        2 = batchesLeft (1 - (helpTotals brokenTicket).completed) batch.complexity * latency) ∧
      ∃ latency, (latency = 12 / 10 ∨ Between w latency) ∧ 0 ≤ latency ∧
        weightedBatches (breakdown ["help"]) * 2 = weightedBatches (breakdown ["help"]) * latency := by
  obtain ⟨w, schedule, ran, traced, traced'⟩ := twoRequests_ran
  obtain ⟨events, answers⟩ := estimates_within ticking_monotone ran
  refine ⟨w, schedule, ran, events false _ _ (helpTotals brokenTicket).cacheHits
    (helpTotals brokenTicket).failedCount 2 .ok ?_, answers true 1 _ _ ?_⟩
  · rw [traced]
    refine List.mem_append_right _ (List.mem_append_right _ (List.mem_append_left _ ?_))
    exact .tail _ (.tail _ (List.mem_append_right _ List.mem_cons_self))
  · rw [traced']
    exact .tail _ (.tail _ List.mem_cons_self)

/-- HSET raises when the task starts. -/
abbrev refusedTrace : RouteTrace :=
  [⟨.activeJobs 1, ()⟩, ⟨.monotonic, (0 : ℚ)⟩, ⟨.enqueueMany, .ok ()⟩,
    ⟨.queueDepth (QueueDepth.Sorted.items (jobQueue QueueDepth.Sorted missedJob)).card, ()⟩,
    ⟨.store .start, .raised { kind := .other "ConnectionError", message := "closed" } 0⟩]

theorem refused_alone : ∃ shared, Pool.Alone (serve still QueueDepth.startRefused) () [] Shared.init
    (postedTrace ++ refusedTrace) shared :=
  ⟨_, .cons rfl <| .cons rfl <| .cons rfl <| .cons rfl <| .cons rfl <| .cons rfl <|
    .cons rfl <| .cons rfl <| .cons rfl <| .cons rfl <| .cons rfl .nil⟩

theorem refusedTrace_leads : Leads (processJob QueueDepth.Sorted .defaults missedJob) refusedTrace
    (.raise { kind := .other "ConnectionError", message := "closed" }) :=
  .ask (.ask (.ask (.ask (.ask (.refl _)))))

theorem refused_ran : ∃ w schedule, exec (Pool.step (serve still QueueDepth.startRefused)) oneRequest schedule = some w ∧
    Leaked w () ∧ QueueDepth.Ended (w.threads ()) = true := by
  obtain ⟨shared, alone⟩ := refused_alone
  have leads : Leads (oneRequest.threads ()) (postedTrace ++ refusedTrace) _ :=
    postedTrace_leads.trans refusedTrace_leads
  obtain ⟨w, ran, ended, traced, _⟩ := alone.exec leads
  have leak : ∃ asked ∈ refusedTrace, leaks asked = true :=
    ⟨_, .tail _ (.tail _ (.tail _ (.tail _ List.mem_cons_self))), rfl⟩
  obtain ⟨asked, member, leaked⟩ := leak
  refine ⟨w, _, ran, ⟨asked, ?_, leaked⟩, ?_⟩
  · rw [traced]
    exact List.mem_append_right _ (List.mem_append_right _ member)
  · rw [ended]
    rfl

/-- Satisfiable pole: HSET raises when the task starts, so no task is running and one is counted. -/
theorem active_jobs_exact_refused :
    ∃ w schedule, exec (Pool.step (serve still QueueDepth.startRefused)) oneRequest schedule = some w ∧
      ¬ Running w () ∧ w.shared.activeJobCount = 1 := by
  obtain ⟨w, schedule, ran, leaked, ended⟩ := refused_ran
  have stopped : ¬ Running w () := fun running => by cases ended.symm.trans running.2
  refine ⟨w, schedule, ran, stopped, ?_⟩
  rw [active_jobs_exact ran]
  simp [stopped, leaked]

end Poles

end InferenceForge.Api.ProcessState
