/-
# InferenceForge.Api.QueueDepth — the gauge of all the queues

Every job has a `PriorityBatcher` of its own, and they all write one gauge: a queue
reports its own size once it is filled and after each batch, and POST reports the
tickets of the job it has launched. `Truthful` says that the gauge is the number of
tickets in the queues of all running jobs. The `reporter` follows a request and its
task, and demands that a queue is reported as it is as soon as it has changed.

The gauge is truthful whenever all tasks have started, as long as a queue is reported
only while the other running jobs have none left to drain, and no task ends with
tickets in its queue (`queue_depth_truthful`). The tickets of a task that ends before
it has drained them stay on the gauge (`abandoned_queue_reported`).
-/
import InferenceForge.Api.RequestRuns
import InferenceForge.Library.Monitor

namespace InferenceForge.Api.QueueDepth

open InferenceForge.Python InferenceForge.Library InferenceForge.Pipeline

set_option autoImplicit false

/-! ## A request and its task -/

section Launching

variable {α β : Type} (task : Job → Handler Unit)

/-- A handler, and then the task that it has created. -/
def launching : Option Job → Handler α → Handler Unit
  | some job, .done _ | some job, .raise _ => task job
  | none, .done _ => .done ()
  | none, .raise e => .raise e
  | created, .ask op next =>
      .ask op fun answer => launching (created.or (launchedJob ⟨op, answer⟩)) (next answer)

/-- Nothing is launched before `create_task`. -/
def Idle (op : RouteOp) : Prop := ∀ job, op ≠ .createTask job

theorem launchedJob_of_idle {op : RouteOp} (idle : Idle op) (answer : RouteAnswer op) :
    launchedJob ⟨op, answer⟩ = none := by
  cases op with
  | createTask job => exact absurd rfl (idle job)
  | _ => rfl

theorem launching_bind {p : Handler α} (idle : p.Asks Idle) (f : α → Handler β) :
    launching task none (p >>= f) = p >>= fun value => launching task none (f value) := by
  induction p with
  | done value => rfl
  | raise e => rfl
  | ask op next ih =>
      show Program.ask op _ = Program.ask op _
      congr 1
      funext answer
      rw [launchedJob_of_idle idle.1]
      exact ih answer (idle.2 answer)

end Launching

section Request

variable (Q : TicketQueue) (settings : Settings) (host : Host) (body : ProcessRequest settings)

/-- `POST /process` and its background task. -/
def request : Handler Unit := launching (processJob Q settings) none (processTickets settings host body)

end Request

/-! ## How far a request has come -/

inductive Stage (Q : TicketQueue)
  | requested
  /-- The task was created. -/
  | posted (job : Job)
  /-- The task has filled its queue; whether it has reported it as it is now. -/
  | queued (queue : Q.Carrier) (reported : Bool)

namespace Stage

variable {Q : TicketQueue}

/-- `_queue` after an operation, as `processJob` goes on with it. -/
def after : Stage Q → Asked RouteOp RouteAnswer → Stage Q
  | .requested, ⟨.createTask job, _⟩ => .posted job
  | .posted job, ⟨.enqueueMany, .ok _⟩ => .queued (jobQueue Q job) false
  | .queued queue reported, ⟨.drainBatch, .ok _⟩ =>
      match PriorityBatcher.drainBatch Q queue with
      | none => .queued queue reported
      | some (_, rest) => .queued rest false
  | .queued queue _, ⟨.queueDepth _, _⟩ => .queued queue true
  | stage, _ => stage

/-- `_queue.qsize()`. -/
def depth : Stage Q → ℕ
  | .queued queue _ => (Q.items queue).card
  | _ => 0

/-- No task has been created that has still to report its queue. -/
def settled : Stage Q → Bool
  | .requested => true
  | .posted _ => false
  | .queued _ reported => reported

/-- What may be asked next: a queue that has changed is reported, and nothing else is. -/
def permits : Stage Q → RouteOp → Bool
  | .posted _, _ => true
  | .queued queue false, .queueDepth depth => depth = (Q.items queue).card
  | .queued _ false, _ => false
  | _, .queueDepth _ => false
  | _, _ => true

/-- Between a report and the next change of the queue, the queue stays as it is. -/
theorem after_settled {stage : Stage Q} {op : RouteOp} {answer : RouteAnswer op} (before : stage.settled = true)
    (now : (stage.after ⟨op, answer⟩).settled = true) :
    (stage.after ⟨op, answer⟩).depth = stage.depth := by
  cases stage with
  | requested =>
      cases op with
      | createTask job => cases now
      | _ => rfl
  | posted job => cases before
  | queued queue reported =>
      cases op with
      | drainBatch =>
          cases answer with
          | error e => rfl
          | ok _ =>
              simp only [after] at now ⊢
              split at now
              · rfl
              · cases now
      | _ => rfl

theorem not_permits_report {stage : Stage Q} (before : stage.settled = true) (depth : ℕ) :
    stage.permits (.queueDepth depth) = false := by
  cases stage with
  | requested => rfl
  | posted job => cases before
  | queued queue reported =>
      cases reported with
      | false => cases before
      | true => rfl

/-- A queue that is to be reported is reported next. -/
theorem after_unsettled {stage : Stage Q} {op : RouteOp} {answer : RouteAnswer op} (before : stage.settled = false)
    (permitted : stage.permits op = true) (now : (stage.after ⟨op, answer⟩).settled = true) :
    ∃ queue, stage = .queued queue false ∧ op = .queueDepth (Q.items queue).card := by
  cases stage with
  | requested => cases before
  | posted job =>
      cases op with
      | enqueueMany => cases answer <;> cases now
      | _ => cases now
  | queued queue reported =>
      obtain rfl : reported = false := before
      cases op with
      | queueDepth depth => exact ⟨queue, rfl, congrArg _ (of_decide_eq_true permitted)⟩
      | _ => cases permitted

end Stage

/-- What a request and its task do is permitted. -/
def reporter (Q : TicketQueue) : Monitor RouteOp RouteAnswer (Stage Q) := fun stage asked =>
  if stage.permits asked.1 then some (stage.after asked) else none

section Reports

variable {Q : TicketQueue} {settings : Settings} {host : Host} {job : Job} {stage : Stage Q}

/-- What the reporter has let pass is what was done. -/
theorem reporter_exec {trace : RouteTrace} {stage' : Stage Q} (ran : exec (reporter Q) stage trace = some stage') :
    stage' = trace.foldl Stage.after stage := by
  induction trace generalizing stage with
  | nil =>
      cases ran
      rfl
  | cons asked rest ih =>
      obtain ⟨next, stepped, ran⟩ := exec_cons_eq_some.mp ran
      unfold reporter at stepped
      split at stepped
      · cases stepped
        exact ih ran
      · cases stepped

theorem reporter_of {op : RouteOp} (permitted : stage.permits op = true) (answer : RouteAnswer op) :
    reporter Q stage ⟨op, answer⟩ = some (stage.after ⟨op, answer⟩) := if_pos permitted

/-- An operation that has nothing to do with the queues. -/
def Aside : RouteOp → Prop
  | .createTask _ | .enqueueMany | .drainBatch | .queueDepth _ => False
  | _ => True

/-- There is nothing to report. -/
def Stage.quiet : Stage Q → Prop
  | .queued _ false => False
  | _ => True

theorem reporter_aside {op : RouteOp} (aside : Aside op) (quiet : stage.quiet) (answer : RouteAnswer op) :
    reporter Q stage ⟨op, answer⟩ = some stage := by
  have permitted : stage.permits op = true := by
    cases stage with
    | requested | posted job => cases op <;> first | rfl | exact aside.elim
    | queued queue reported =>
        cases reported with
        | false => exact quiet.elim
        | true => cases op <;> first | rfl | exact aside.elim
  rw [reporter_of permitted]
  cases op with
  | createTask | enqueueMany | drainBatch | queueDepth => exact aside.elim
  | _ => cases stage <;> rfl

theorem aside_safe {α : Type} {p : Handler α} (asks : p.Asks Aside) (quiet : stage.quiet) :
    p.Safe (reporter Q) (fun _ => True) (fun _ stage' => stage' = stage) stage :=
  safe_of_asks asks fun _ answer aside _ => reporter_aside aside quiet answer

theorem store_aside (call : JobStore.StoreCall) : (store call).Asks Aside := asks_call trivial

/-- The queue is reported as it is. -/
def Reported {α : Type} (_ : Except Exn α) (stage : Stage Q) : Prop := ∃ queue, stage = .queued queue true

/-- What follows a report. -/
theorem aside_reported {α : Type} {p : Handler α} (asks : p.Asks Aside) (queue : Q.Carrier) :
    p.Safe (reporter Q) (fun _ => True) Reported (.queued queue true) := by
  have quiet : (Stage.queued queue true).quiet := trivial
  refine (aside_safe asks quiet).mono ?_
  rintro _ _ rfl
  exact ⟨queue, rfl⟩

theorem report_safe {queue : Q.Carrier} {reported : Bool} (due : reported = false) :
    (await (.queueDepth (Q.items queue).card)).Safe (reporter Q) (fun _ => True)
      (fun _ stage => stage = .queued queue true) (.queued queue reported) := by
  subst due
  have permitted : (Stage.queued queue false).permits (.queueDepth (Q.items queue).card) = true :=
    decide_eq_true rfl
  exact safe_perform fun answer _ => ⟨_, reporter_of permitted answer, rfl⟩

theorem drain_safe (queue : Q.Carrier) (totals : Totals) :
    (drain Q job queue totals).Safe (reporter Q) (fun _ => True) Reported (.queued queue true) := by
  induction queue, totals using drain.induct Q with
  | case1 queue totals ih =>
      rw [drain]
      have drawn : (Program.call .drainBatch id : Handler Unit).Safe (reporter Q) (fun _ => True)
          (fun ended stage => stage = (Stage.queued queue true).after ⟨.drainBatch, ended⟩) (.queued queue true) :=
        safe_call fun answer _ => ⟨_, reporter_of rfl answer, rfl⟩
      refine safe_bind drawn ?_ ?_
      · rintro _ _ rfl
        split
        · next empty =>
            refine safe_pure ⟨queue, ?_⟩
            simp [Stage.after, empty]
        · next batch rest drained =>
            have due : (Stage.queued queue true).after ⟨.drainBatch, .ok ()⟩ = .queued rest false := by
              simp [Stage.after, drained]
            rw [due]
            refine safe_bind (report_safe rfl) ?_ ?_
            · rintro _ _ rfl
              have round : (processRound job batch totals).Asks Aside := by
                refine asks_bind (asks_perform trivial) fun _ => asks_bind (asks_call trivial) fun _ => ?_
                refine asks_bind (asks_perform trivial) fun _ => asks_bind (asks_perform trivial) fun _ => ?_
                refine asks_bind (store_aside _) fun _ => asks_bind (asks_perform trivial) fun _ => ?_
                exact asks_bind (store_aside _) fun _ => trivial
              refine safe_bind (aside_safe round trivial) ?_ ?_
              · rintro totals' _ rfl
                exact ih batch rest drained totals'
              · rintro _ _ rfl
                exact ⟨rest, rfl⟩
            · rintro _ _ rfl
              exact ⟨rest, rfl⟩
      · rintro e _ rfl
        exact ⟨queue, rfl⟩

theorem finishJob_aside {jobStart : ℚ} {totals : Totals} : (finishJob settings job jobStart totals).Asks Aside := by
  refine asks_bind (asks_perform trivial) fun _ => asks_bind (asks_ofResult _) fun _ => ?_
  refine asks_bind (asks_perform trivial) fun _ => ?_
  exact asks_bind (store_aside _) fun _ => store_aside _

theorem jobFailed_aside (e : Exn) : (jobFailed e).Asks Aside := by
  unfold jobFailed
  split
  · exact store_aside _
  · trivial

/-- The task reports each queue it comes to. -/
theorem processJob_safe :
    (processJob Q settings job).Safe (reporter Q) (fun _ => True) (fun _ _ => True) (.posted job) := by
  unfold processJob
  refine safe_bind (aside_safe (asks_perform trivial) trivial) ?_ fun _ _ _ => trivial
  rintro _ _ rfl
  refine safe_bind (aside_safe (asks_perform trivial) trivial) ?_ fun _ _ _ => trivial
  rintro jobStart _ rfl
  have filled : (Program.call .enqueueMany id : Handler Unit).Safe (reporter Q) (fun _ => True)
      (fun ended stage => stage = (Stage.posted job).after ⟨.enqueueMany, ended⟩) (.posted job) :=
    safe_call fun answer _ => ⟨_, reporter_of rfl answer, rfl⟩
  refine safe_bind filled ?_ fun _ _ _ => trivial
  rintro _ _ rfl
  refine safe_bind (report_safe rfl) ?_ fun _ _ _ => trivial
  rintro _ _ rfl
  refine safe_bind (aside_safe (store_aside _) trivial) ?_ fun _ _ _ => trivial
  rintro _ _ rfl
  have body : (jobBody Q settings job (jobQueue Q job) jobStart).Safe (reporter Q) (fun _ => True) Reported
      (.queued (jobQueue Q job) true) := by
    refine safe_bind (drain_safe _ _) ?_ ?_
    · rintro totals _ ⟨queue, rfl⟩
      exact aside_reported finishJob_aside queue
    · rintro _ _ ⟨queue, rfl⟩
      exact ⟨queue, rfl⟩
  have handled : ((jobBody Q settings job (jobQueue Q job) jobStart).rescue jobFailed).Safe (reporter Q)
      (fun _ => True) Reported (.queued (jobQueue Q job) true) := by
    refine safe_rescue body (fun _ _ ended => ended) ?_
    rintro e _ ⟨queue, rfl⟩
    exact aside_reported (jobFailed_aside e) queue
  refine safe_tryFinally handled ?_
  rintro _ _ ⟨queue, rfl⟩
  have cleanup : (await (.activeJobs (-1))).Asks Aside := asks_perform trivial
  exact (aside_reported cleanup queue).mono fun _ _ _ => trivial

theorem deduplicate_asks {May : RouteOp → Prop} (look : ∀ key, May (.cacheGet key)) (tickets : List String)
    (found : Dedup) : (deduplicate host tickets found).Asks May := by
  induction tickets generalizing found with
  | nil => trivial
  | cons ticket rest ih =>
      unfold deduplicate
      dsimp only
      split
      · exact ih _
      · refine asks_bind (asks_call (look _)) fun cached => ?_
        cases cached <;> exact ih _

theorem idle_of_aside (op : RouteOp) (aside : Aside op) : Idle op := by
  rintro job rfl
  exact aside

/-- The handler goes on, and has launched nothing. -/
theorem launching_safe {α β : Type} {task : Job → Handler Unit} {p : Handler α} {f : α → Handler β}
    (asks : p.Asks Aside)
    (rest : ∀ value, (launching task none (f value)).Safe (reporter Q) (fun _ => True) (fun _ _ => True) .requested) :
    (launching task none (p >>= f)).Safe (reporter Q) (fun _ => True) (fun _ _ => True) .requested := by
  have quiet : (Stage.requested : Stage Q).quiet := trivial
  rw [launching_bind _ (asks.mono idle_of_aside)]
  refine safe_bind (aside_safe asks quiet) ?_ fun _ _ _ => trivial
  rintro value _ rfl
  exact rest value

/-- A request reports the tickets it has launched, and its task each queue it comes to. -/
theorem request_safe (body : ProcessRequest settings) :
    (request Q settings host body).Safe (reporter Q) (fun _ => True) (fun _ _ => True) .requested := by
  unfold request processTickets
  refine launching_safe (asks_perform trivial) fun jobId => ?_
  refine launching_safe (deduplicate_asks (fun _ => trivial) _ _) fun found => ?_
  refine launching_safe (asks_perform trivial) fun estimated => ?_
  refine launching_safe (store_aside _) fun _ => ?_
  refine launching_safe (asks_when (store_aside _)) fun _ => ?_
  intro _ _
  refine ⟨.posted (found.job jobId body.tickets.length), rfl, fun _ _ => ⟨_, rfl, ?_⟩⟩
  exact processJob_safe

end Reports

/-! ## Any number of requests -/

section System

variable {ι : Type}

/-- Requests with their tasks, and the gauge. -/
abbrev Requests (ι : Type) := Pool RouteOp RouteAnswer Exn Unit ι ℕ

/-- What request `i`, which was answered so far as the trace says, is answered next;
`none` while it has to wait. -/
abbrev Outside (ι : Type) := ι → RouteTrace → (op : RouteOp) → Option (RouteAnswer op)

/-- `queue_depth.set(depth)`; nothing else changes the gauge. -/
def serve (outside : Outside ι) : Serve RouteOp RouteAnswer ι ℕ := fun i trace gauge op =>
  match op with
  | .queueDepth depth => some ((), depth)
  | op => (outside i trace op).map (·, gauge)

/-- It has returned or raised. -/
def Ended : Handler Unit → Bool
  | .ask _ _ => false
  | _ => true

variable (Q : TicketQueue) (w : Requests ι) (i : ι)

def stage : Stage Q := (w.traces i).foldl Stage.after .requested

/-- The tickets in the queue of request `i`, if its task is running. -/
def queued : ℕ := if Ended (w.threads i) then 0 else (stage Q w i).depth

/-- The task of request `i` has been created and has not started, or has changed its
queue and goes on, without waiting, to report it. -/
def Pending : Prop := Ended (w.threads i) = false ∧ (stage Q w i).settled = false

/-- The task of request `i` has been created and has not ended. -/
def Running : Prop := Ended (w.threads i) = false ∧ stage Q w i ≠ .requested

/-- The gauge is what is queued by all running jobs. -/
def Truthful [Fintype ι] : Prop := w.shared = ∑ i, queued Q w i

/-- A task reports its queue while there is nothing in those of the others, and it
has reported an empty queue before it ends. -/
structure Orderly (outside : Outside ι) [DecidableEq ι] : Prop where
  reports : ∀ queue, stage Q w i = .queued queue false → ∀ j, j ≠ i → queued Q w j = 0
  ends : ∀ w', Pool.step (serve outside) w i = some w' → Ended (w'.threads i) = true →
    ¬ Pending Q w i ∧ queued Q w i = 0

/-- The step is orderly, unless another task has still to report its queue. -/
def Clean (outside : Outside ι) [DecidableEq ι] : Prop :=
  (∃ j, j ≠ i ∧ Pending Q w j) ∨ Orderly Q w i outside

end System

section Proofs

variable {ι : Type} [DecidableEq ι] {outside : Outside ι} {Q : TicketQueue} {settings : Settings} {host : Host}
  {bodies : ι → ProcessRequest settings} {w w' : Requests ι} {i j : ι}
  {op : RouteOp} {answer : RouteAnswer op} {next : Handler Unit} {gauge : ℕ}

theorem stage_served_self : stage Q (w.served i op answer next gauge) i = (stage Q w i).after ⟨op, answer⟩ := by
  rw [stage, Pool.served_traces_self, List.foldl_append]
  rfl

theorem stage_served_of_ne (ne : j ≠ i) : stage Q (w.served i op answer next gauge) j = stage Q w j := by
  rw [stage, Pool.served_traces_of_ne ne, stage]

theorem pending_served_of_ne (ne : j ≠ i) : Pending Q (w.served i op answer next gauge) j ↔ Pending Q w j := by
  rw [Pending, Pending, stage_served_of_ne ne, Pool.served_threads_of_ne ne]

/-- The sum after a step of request `i`. -/
theorem sum_queued_served [Fintype ι] : ∑ j, queued Q (w.served i op answer next gauge) j =
    queued Q (w.served i op answer next gauge) i + ∑ j ∈ Finset.univ.erase i, queued Q w j := by
  unfold queued stage
  rw [Pool.sum_served fun trace p => if Ended p then 0 else (trace.foldl Stage.after (.requested : Stage Q)).depth,
    Pool.served_traces_self, Pool.served_threads_self]

/-- A task that goes on with nothing to report. -/
theorem queued_of_reported (goes_on : Ended next = false)
    (reported : ¬ Pending Q (w.served i op answer next gauge) i) :
    queued Q (w.served i op answer next gauge) i = ((stage Q w i).after ⟨op, answer⟩).depth ∧
      ((stage Q w i).after ⟨op, answer⟩).settled = true := by
  rw [Pending, Pool.served_threads_self, stage_served_self, and_iff_right goes_on, Bool.not_eq_false] at reported
  rw [queued, Pool.served_threads_self, stage_served_self, goes_on]
  exact ⟨rfl, reported⟩

/-- A task that had nothing to report and has nothing to report keeps its queue, unless it
ends. -/
theorem queued_kept (quiet : (stage Q w i).settled = true) (running : Ended (w.threads i) = false)
    (reported : ¬ Pending Q (w.served i op answer next gauge) i)
    (ending : Ended next = true → queued Q w i = 0) :
    queued Q (w.served i op answer next gauge) i = queued Q w i := by
  cases ended : Ended next with
  | true =>
      rw [ending ended, queued, Pool.served_threads_self, ended]
      rfl
  | false =>
      obtain ⟨depth, settled⟩ := queued_of_reported ended reported
      rw [depth, Stage.after_settled quiet settled, queued, running]
      rfl

omit [DecidableEq ι] in
/-- What a request does next is permitted. -/
theorem permits_next (faithful : Pool.Faithful (fun i => request Q settings host (bodies i)) w)
    {next : RouteAnswer op → Handler Unit} (pending : w.threads i = .ask op next) (answer : RouteAnswer op) :
    (stage Q w i).permits op = true := by
  obtain ⟨now, followed, safe⟩ := (request_safe (bodies i)).leads (faithful i) fun _ _ => trivial
  obtain rfl := reporter_exec followed
  rw [pending] at safe
  obtain ⟨_, stepped, _⟩ := safe answer trivial
  by_contra refused
  have rejected : reporter Q (stage Q w i) ⟨op, answer⟩ = none := if_neg refused
  cases rejected.symm.trans stepped

omit [DecidableEq ι] in
theorem serve_gauge {trace : RouteTrace} {gauge' : ℕ} (served : serve outside i trace gauge op = some (answer, gauge')) :
    (∃ depth, op = .queueDepth depth ∧ gauge' = depth) ∨ (∀ depth, op ≠ .queueDepth depth) ∧ gauge' = gauge := by
  unfold serve at served
  split at served
  · cases served
    exact .inl ⟨_, rfl, rfl⟩
  · next others =>
      obtain ⟨_, _, same⟩ := Option.map_eq_some_iff.mp served
      cases same
      exact .inr ⟨others, rfl⟩

variable [Fintype ι]

/-- **One step**: the gauge stays truthful, or a queue has still to be reported. -/
theorem truthful_step (faithful : Pool.Faithful (fun i => request Q settings host (bodies i)) w)
    (inv : Truthful Q w ∨ ∃ j, Pending Q w j) (clean : Clean Q w i outside)
    (stepped : Pool.step (serve outside) w i = some w') : Truthful Q w' ∨ ∃ j, Pending Q w' j := by
  obtain ⟨op, next, answer, gauge, asks, served, rfl⟩ := Pool.step_cases stepped
  rcases clean with ⟨j, ne, waits⟩ | orderly
  · exact .inr ⟨j, (pending_served_of_ne ne).mpr waits⟩
  by_cases others : ∃ j, j ≠ i ∧ Pending Q w j
  · obtain ⟨j, ne, waits⟩ := others
    exact .inr ⟨j, (pending_served_of_ne ne).mpr waits⟩
  by_cases still : Pending Q (w.served i op answer (next answer) gauge) i
  · exact .inr ⟨i, still⟩
  left
  rw [Truthful, sum_queued_served, Pool.served_shared]
  have permitted := permits_next faithful asks answer
  have running : Ended (w.threads i) = false := by
    rw [asks]
    rfl
  -- a task that ends has reported an empty queue
  have ending : Ended (next answer) = true → ¬ Pending Q w i ∧ queued Q w i = 0 := by
    intro ended
    refine orderly.ends _ stepped ?_
    rwa [Pool.served_threads_self]
  cases quiet : (stage Q w i).settled with
  | true =>
      have truthful : Truthful Q w := by
        refine inv.resolve_right ?_
        rintro ⟨j, waits⟩
        by_cases same : j = i
        · subst same
          cases quiet.symm.trans waits.2
        · exact others ⟨j, same, waits⟩
      have kept : gauge = w.shared := by
        rcases serve_gauge served with ⟨depth, rfl, _⟩ | ⟨_, kept⟩
        · cases (Stage.not_permits_report quiet depth).symm.trans permitted
        · exact kept
      rw [queued_kept quiet running still fun ended => (ending ended).2, kept, truthful]
      exact (Finset.add_sum_erase _ _ (Finset.mem_univ i)).symm
  | false =>
      have goes_on : Ended (next answer) = false := by
        by_contra ended
        exact (ending (Bool.not_eq_false _ ▸ ended)).1 ⟨running, quiet⟩
      obtain ⟨depth, settled⟩ := queued_of_reported goes_on still
      obtain ⟨queue, here, rfl⟩ := Stage.after_unsettled quiet permitted settled
      have alone : ∑ j ∈ Finset.univ.erase i, queued Q w j = 0 :=
        Finset.sum_eq_zero fun j member => orderly.reports queue here j (Finset.ne_of_mem_erase member)
      rw [depth, here, alone, add_zero]
      rcases serve_gauge served with ⟨reported, same, rfl⟩ | ⟨impossible, _⟩
      · cases same
        rfl
      · exact absurd rfl (impossible _)

omit [DecidableEq ι] in
theorem truthful_init (start : ι → Handler Unit) : Truthful Q (Pool.init 0 start) := by
  refine Eq.symm (Finset.sum_eq_zero fun i _ => ?_)
  rw [queued]
  split <;> rfl

/-- **The gauge is truthful** whenever every task that was created has started and has
reported its queue, in every run whose steps are all clean; in particular it is 0 when
no task is running. -/
theorem queue_depth_truthful {schedule : List ι}
    (ran : exec (Pool.step (serve outside)) (Pool.init 0 fun i => request Q settings host (bodies i)) schedule = some w)
    (clean : Along (Pool.step (serve outside)) (fun w i => Clean Q w i outside)
      (Pool.init 0 fun i => request Q settings host (bodies i)) schedule)
    (started : ∀ i, ¬ Pending Q w i) :
    Truthful Q w ∧ ((∀ i, ¬ Running Q w i) → w.shared = 0) := by
  have keeps : ∀ (v : Requests ι) (i : ι) (v' : Requests ι),
      Pool.Faithful (fun i => request Q settings host (bodies i)) v ∧ (Truthful Q v ∨ ∃ j, Pending Q v j) →
      Clean Q v i outside → Pool.step (serve outside) v i = some v' →
      Pool.Faithful (fun i => request Q settings host (bodies i)) v' ∧ (Truthful Q v' ∨ ∃ j, Pending Q v' j) := by
    rintro v i v' ⟨faithful, inv⟩ clean stepped
    exact ⟨faithful.step stepped, truthful_step faithful inv clean stepped⟩
  have first := truthful_init (Q := Q) fun i => request Q settings host (bodies i)
  obtain ⟨_, inv⟩ := exec_invariant_along keeps schedule _ _ ⟨Pool.faithful_init _ _, .inl first⟩ clean ran
  have truthful : Truthful Q w := inv.resolve_right (not_exists.mpr started)
  refine ⟨truthful, fun idle => truthful.trans (Finset.sum_eq_zero fun i _ => ?_)⟩
  rw [queued]
  split
  · rfl
  · next going =>
      have first : stage Q w i = .requested := by
        by_contra created
        exact idle i ⟨Bool.eq_false_of_not_eq_true going, created⟩
      rw [first]
      rfl

end Proofs

/-! ## Poles -/

section Poles

variable {Q : TicketQueue} {outside : Outside Unit} {w w' : Requests Unit}

/-- A request alone is clean until its task ends. -/
theorem clean_alone {schedule : List Unit} (ran : exec (Pool.step (serve outside)) w schedule = some w')
    (going : Ended (w'.threads ()) = false) :
    Along (Pool.step (serve outside)) (fun w i => Clean Q w i outside) w schedule := by
  induction schedule generalizing w with
  | nil => trivial
  | cons i rest ih =>
      obtain ⟨v, stepped, later⟩ := exec_cons_eq_some.mp ran
      refine .cons stepped (.inr ⟨fun _ _ j other => absurd rfl other, fun v' stepped' ended => ?_⟩) (ih later)
      obtain rfl : v = v' := Option.some.inj (stepped.symm.trans stepped')
      cases rest with
      | nil =>
          cases later
          cases going.symm.trans ended
      | cons j more =>
          obtain ⟨u, moved, _⟩ := exec_cons_eq_some.mp later
          obtain ⟨op, next, answer, gauge, asks, _⟩ := Pool.step_cases moved
          have stopped : Ended (v.threads ()) = true := ended
          rw [show v.threads () = .ask op next from asks] at stopped
          cases stopped

/-- Nothing is cached, and HSET raises when the task starts. -/
def startRefused : Outside Unit := fun _ _ op =>
  match op with
  | .store .start => some (.raised { kind := .other "ConnectionError", message := "closed" } 0)
  | .store _ => some .ok
  | .cacheGet _ => some (.ok none)
  | .enqueueMany | .drainBatch => some (.ok ())
  | .gather _ => none
  | .activeJobs _ | .queueDepth _ | .etaUpdate _ | .createTask _ => some ()
  | .monotonic | .etaEstimate _ _ | .etaInitial _ _ => some (0 : ℚ)
  | .summary => some ⟨0, 0, 0⟩
  | .uuid => some "j"

/-- What a single request has reported last. -/
def lastReport (trace : RouteTrace) : ℕ :=
  trace.foldl (fun gauge asked => match asked.1 with | .queueDepth depth => depth | _ => gauge) 0

theorem gauge_alone {start : Unit → Handler Unit} {schedule : List Unit}
    (ran : exec (Pool.step (serve outside)) (Pool.init 0 start) schedule = some w) :
    w.shared = lastReport (w.traces ()) := by
  have keeps : ∀ (v : Requests Unit) (i : Unit) (v' : Requests Unit), v.shared = lastReport (v.traces ()) →
      Pool.step (serve outside) v i = some v' → v'.shared = lastReport (v'.traces ()) := by
    intro v i v' last stepped
    obtain ⟨op, next, answer, gauge, _, served, rfl⟩ := Pool.step_cases stepped
    rw [Pool.served_shared, Pool.served_traces_self, lastReport, List.foldl_append]
    rcases serve_gauge served with ⟨depth, rfl, rfl⟩ | ⟨others, rfl⟩
    · rfl
    · rw [last]
      cases op with
      | queueDepth depth => exact absurd rfl (others depth)
      | _ => rfl
  exact exec_invariant keeps schedule (Pool.init 0 start) w rfl ran

/-- The queues of the poles. -/
abbrev Sorted : TicketQueue := .sorted _

/-- One request. -/
def oneRequest : Requests Unit := Pool.init 0 fun _ => request Sorted .defaults plainHost single

/-- It is posted, and its task fills its queue. -/
def filledTrace : RouteTrace :=
  [⟨.uuid, "j"⟩, ⟨.cacheGet (ticketKey plainHost "help"), .ok none⟩, ⟨.etaInitial 1 (breakdown ["help"]), (0 : ℚ)⟩,
    ⟨.store (.create 1), .ok⟩, ⟨.createTask missedJob, ()⟩, ⟨.queueDepth 1, ()⟩, ⟨.activeJobs 1, ()⟩,
    ⟨.monotonic, (0 : ℚ)⟩, ⟨.enqueueMany, .ok ()⟩, ⟨.queueDepth (Sorted.items (jobQueue Sorted missedJob)).card, ()⟩]

theorem filledTrace_leads : ∃ next, Leads (request Sorted .defaults plainHost single) filledTrace
    (.ask (.store .start) next) ∧ ∀ e applied, next (.raised e applied) = .raise e :=
  ⟨_, .ask (.ask (.ask (.ask (.ask (.ask (.ask (.ask (.ask (.ask (.refl _)))))))))), fun _ _ => rfl⟩

theorem filledTrace_served : ∀ asked ∈ filledTrace, ∀ before gauge,
    ∃ gauge', serve startRefused () before gauge asked.1 = some (asked.2, gauge') := by
  intro asked member before gauge
  simp only [filledTrace, List.mem_cons, List.not_mem_nil, or_false] at member
  rcases member with rfl | rfl | rfl | rfl | rfl | rfl | rfl | rfl | rfl | rfl <;> exact ⟨_, rfl⟩

theorem filledTrace_stage :
    filledTrace.foldl Stage.after .requested = .queued (jobQueue Sorted missedJob) true := rfl

theorem jobQueue_card (Q : TicketQueue) (job : Job) :
    (Q.items (jobQueue Q job)).card = job.uniqueTickets.length := by
  have entries := congrArg Multiset.card (@jobQueue_entries Q job)
  rw [PriorityBatcher.entries, Multiset.card_map] at entries
  rw [entries, Multiset.coe_card, length_enumerate]

/-- Satisfiable pole: the queue of a single job is filled. -/
theorem queue_depth_truthful_filled :
    ∃ w schedule, exec (Pool.step (serve startRefused)) oneRequest schedule = some w ∧
      Running Sorted w () ∧ Truthful Sorted w ∧ w.shared = 1 := by
  obtain ⟨next, leads, _⟩ := filledTrace_leads
  obtain ⟨w, ran, pending, traced⟩ := Pool.exec_of_leads (w := oneRequest) (i := ()) leads filledTrace_served
  have going : Ended (w.threads ()) = false := by
    rw [pending]
    rfl
  have filled : stage Sorted w () = .queued (jobQueue Sorted missedJob) true := by
    rw [stage, traced]
    exact filledTrace_stage
  have started : ∀ i, ¬ Pending Sorted w i := by
    rintro ⟨⟩ ⟨_, unsettled⟩
    rw [filled] at unsettled
    cases unsettled
  obtain ⟨truthful, _⟩ := queue_depth_truthful ran (clean_alone ran going) started
  refine ⟨w, _, ran, ⟨going, by simp [filled]⟩, truthful, ?_⟩
  rw [gauge_alone ran, traced]
  exact jobQueue_card Sorted missedJob

/-- **Refuting pole.** HSET raises when the task starts: the task has ended, no job is
running, and the gauge stays at 1. -/
theorem abandoned_queue_reported :
    ∃ w schedule, exec (Pool.step (serve startRefused)) oneRequest schedule = some w ∧
      (∀ i, ¬ Pending Sorted w i) ∧ (∀ i, ¬ Running Sorted w i) ∧
      w.shared = 1 ∧ ¬ Truthful Sorted w := by
  obtain ⟨next, leads, raises⟩ := filledTrace_leads
  have refused := leads.concat (.raised { kind := .other "ConnectionError", message := "closed" } 0)
  rw [raises] at refused
  obtain ⟨w, ran, stopped, traced⟩ := Pool.exec_of_leads (w := oneRequest) (i := ()) refused (by
    intro asked member before gauge
    rcases List.mem_append.mp member with member | member
    · exact filledTrace_served asked member before gauge
    · rw [List.mem_singleton.mp member]
      exact ⟨_, rfl⟩)
  have ended : Ended (w.threads ()) = true := by
    rw [stopped]
    rfl
  have left : w.shared = 1 := by
    rw [gauge_alone ran, traced]
    exact jobQueue_card Sorted missedJob
  refine ⟨w, _, ran, fun _ waits => ?_, fun _ runs => ?_, left, fun truthful => ?_⟩
  · cases ended.symm.trans waits.1
  · cases ended.symm.trans runs.1
  · have none_queued : queued Sorted w () = 0 := if_pos ended
    rw [Truthful, Finset.univ_unique, Finset.sum_singleton, left] at truthful
    exact one_ne_zero (truthful.trans none_queued)

end Poles

end InferenceForge.Api.QueueDepth
