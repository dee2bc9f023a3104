/-
# InferenceForge.Api.JobCleanup — what a job leaves behind when it ends

`_process_job` counts itself as active, fills its queue and writes the start of the
job; then it enters the `try` whose `finally` takes the count back. `gauge` is what
the changes of a trace add up to. `CleanedUp` says that they cancel, and that a
reader finds the job done or failed.

It holds exactly when no exception gets past the `try` (`cleaned_up_iff`): none of
`enqueue_many` or `start`, which come before it (`start_leaks`), and no
`BaseException`, which `except Exception` lets through, unless `finish` has been
applied by then.
-/
import InferenceForge.Api.JobStatus

namespace InferenceForge.Api

open InferenceForge.Python InferenceForge.Library InferenceForge.Pipeline
open InferenceForge.Pipeline.JobStore

set_option autoImplicit false

/-! ## The gauge -/

/-- The change of `_active_job_count`, and of the gauge. -/
def gaugeChange : Asked RouteOp RouteAnswer → ℤ
  | ⟨.activeJobs change, _⟩ => change
  | _ => 0

/-- What the changes of a trace add up to. -/
def gauge (trace : RouteTrace) : ℤ := (trace.map gaugeChange).sum

@[simp] theorem gauge_append (before after : RouteTrace) :
    gauge (before ++ after) = gauge before + gauge after := by
  simp [gauge]

/-- An operation of the `try`. -/
def Inner (op : RouteOp) : Prop := ∀ change, op ≠ .activeJobs change

theorem gauge_of_inner {trace : RouteTrace} (inner : ∀ asked ∈ trace, Inner asked.1) :
    gauge trace = 0 := by
  refine List.sum_eq_zero fun change member => ?_
  obtain ⟨⟨op, answer⟩, there, rfl⟩ := List.mem_map.mp member
  cases op with
  | activeJobs change => exact absurd rfl (inner _ there change)
  | _ => rfl

/-! ## Cleaning up -/

/-- The task has taken its count back, and whatever status a reader finds is done or
failed, whenever the calls were made and whenever it comes. -/
structure CleanedUp (settings : Settings) (jobId : String) (trace : RouteTrace) : Prop where
  counted : gauge trace = 0
  terminal : ∀ {begun now : ℚ} {s : JobRedis} {timed : List (ℚ × Act)} {status : Field},
    timed.map Prod.snd = acts trace → statusAt jobId begun s = some (.text "pending") →
      statusAt jobId now (performAll settings jobId s timed) = some status →
        status = .text "done" ∨ status = .text "failed"

/-- The exception an operation ended with. -/
def jobFault : Fault RouteOp RouteAnswer Exn
  | ⟨.store _, .raised e _⟩ => some e
  | ⟨.enqueueMany, .error e⟩ | ⟨.drainBatch, .error e⟩ | ⟨.gather _, .error e⟩
  | ⟨.cacheGet _, .error e⟩ => some e
  | _ => none

/-- An operation whose exception, if it ends with one, does not keep the job from
being cleaned up. -/
def Survivable : Asked RouteOp RouteAnswer → Prop
  | ⟨.enqueueMany, .error _⟩ | ⟨.store .start, .raised _ _⟩ => False
  | ⟨.store (.finish _), .raised e applied⟩ => e.isException = true ∨ 0 < applied
  | ⟨.store (.publishDone ..), _⟩ | ⟨.store (.fail _), _⟩ => True
  | asked => ∀ e, jobFault asked = some e → e.isException = true

/-! ## The status at the end -/

section Status

variable {settings : Settings} {jobId : String} {s : JobRedis} {timed : List (ℚ × Act)}

theorem Stored.performAll (settings : Settings) {status : Field} (stored : Stored jobId status s)
    (others : ∀ act ∈ timed, ∀ total, act.2.1 ≠ .create total) :
    Stored jobId ((timed.map Prod.snd).foldl statusAfter status) (performAll settings jobId s timed) := by
  induction timed generalizing s status with
  | nil => exact stored
  | cons act rest ih =>
      obtain ⟨now, call, reply⟩ := act
      have step := (perform_status settings now reply (others _ List.mem_cons_self) stored).1
      exact ih step fun act member => others act (List.mem_cons_of_mem _ member)

/-- A job that has been created, without an expiry. -/
def created (jobId : String) : JobRedis where
  keys := Function.update (fun _ => none) (jobKey jobId)
    (some ⟨.hash (Function.update (fun _ => none) "status" (some (.text "pending"))), none⟩)
  published := []

theorem created_keys (jobId : String) : (created jobId).keys (jobKey jobId) =
    some ⟨.hash (Function.update (fun _ => none) "status" (some (.text "pending"))), none⟩ := by
  simp [created]

theorem created_pending : statusAt jobId 0 (created jobId) = some (.text "pending") :=
  (statusAt_of_hashAt (created_keys jobId) rfl).trans (Function.update_self ..)

/-- What a reader finds of a job that does not expire. -/
theorem created_status (settings : Settings) (jobId : String) (others : ∀ act ∈ timed, ∀ total, act.2.1 ≠ .create total) :
    statusAt jobId 0 (performAll settings jobId (created jobId) timed) =
      some ((timed.map Prod.snd).foldl statusAfter (.text "pending")) := by
  have keys := performAll_keys settings others (fun _ _ _ _ => rfl) (created_keys jobId)
  exact (statusAt_of_hashAt keys rfl).trans (hashAfter_status (Function.update_self ..))

/-- Whether a job is cleaned up, by the last status it has written. -/
theorem cleanedUp_iff {trace : RouteTrace} (others : ∀ act ∈ acts trace, ∀ total, act.1 ≠ .create total) :
    CleanedUp settings jobId trace ↔ gauge trace = 0 ∧
      ((acts trace).foldl statusAfter (.text "pending") = .text "done" ∨
        (acts trace).foldl statusAfter (.text "pending") = .text "failed") := by
  constructor
  · intro cleaned
    refine ⟨cleaned.counted, ?_⟩
    have calls : ((acts trace).map fun act => ((0 : ℚ), act)).map Prod.snd = acts trace := by
      rw [List.map_map]
      exact List.map_id _
    have timed_others : ∀ act ∈ (acts trace).map fun act => ((0 : ℚ), act),
        ∀ total, act.2.1 ≠ .create total := by
      intro act member
      obtain ⟨act, called, rfl⟩ := List.mem_map.mp member
      exact others act called
    have found := created_status settings jobId timed_others
    rw [calls] at found
    exact cleaned.terminal calls created_pending found
  · rintro ⟨counted, terminal⟩
    refine ⟨counted, fun {begun now s timed status} calls pending read => ?_⟩
    have others : ∀ act ∈ timed, ∀ total, act.2.1 ≠ .create total :=
      fun act member => others act.2 (calls ▸ List.mem_map_of_mem member)
    have last := (Stored.performAll settings (.of_statusAt pending) others).statusAt read
    rw [last, calls]
    exact terminal

end Status

/-! ## The `try` -/

section Try

variable {Q : TicketQueue} {settings : Settings} {job : Job}

theorem store_forwards {own : Exn → Prop} (call : StoreCall) : (store call).Forwards jobFault own :=
  forwards_call fun reply => by cases reply <;> rfl

theorem processRound_forwards {own : Exn → Prop} {batch : Batch} {totals : Totals} :
    (processRound job batch totals).Forwards jobFault own := by
  refine forwards_bind (forwards_perform fun _ => rfl) fun batchStart => ?_
  refine forwards_bind (forwards_call fun answer => by cases answer <;> rfl) fun raw => ?_
  refine forwards_bind (forwards_perform fun _ => rfl) fun batchEnd => ?_
  refine forwards_bind (forwards_perform fun _ => rfl) fun _ => ?_
  refine forwards_bind (store_forwards _) fun _ => ?_
  refine forwards_bind (forwards_perform fun _ => rfl) fun eta => ?_
  exact forwards_bind (store_forwards _) fun _ => forwards_pure _

/-- The loop raises what one of its operations raises. -/
theorem drain_forwards {own : Exn → Prop} (queue : Q.Carrier) (totals : Totals) :
    (drain Q job queue totals).Forwards jobFault own := by
  induction queue, totals using drain.induct Q with
  | case1 queue totals ih =>
      rw [drain]
      refine forwards_bind (forwards_call fun answer => by cases answer <;> rfl) fun _ => ?_
      split
      · exact forwards_pure _
      · next batch rest drained =>
          refine forwards_bind (forwards_perform fun _ => rfl) fun _ => ?_
          exact forwards_bind processRound_forwards fun totals => ih batch rest drained totals

/-- An operation of the loop. -/
def DrainOp (op : RouteOp) : Prop := LoopOp op ∨ ∃ batch, op = .gather batch

theorem survivable_of_drainOp {asked : Asked RouteOp RouteAnswer} (inner : DrainOp asked.1) :
    Survivable asked ↔ ∀ e, jobFault asked = some e → e.isException = true := by
  obtain ⟨op, answer⟩ := asked
  cases op with
  | store call =>
      cases call with
      | incrementProgress | publishProgress => rfl
      | create | start | finish | fail | publishDone => simp [DrainOp, LoopOp] at inner
  | enqueueMany => simp [DrainOp, LoopOp] at inner
  | _ => rfl

/-- The last status a trace of the `try` writes. -/
def lastStatus (trace : RouteTrace) : Field := (acts trace).foldl statusAfter (.text "processing")

/-- What a run of the `try` comes to. -/
structure Ended (trace : RouteTrace) (result : Except Exn Unit) : Prop where
  counted : gauge trace = 0
  status : lastStatus trace = .text "processing" ∨ lastStatus trace = .text "done"
  value : result = .ok () → lastStatus trace = .text "done"
  survived : (∀ asked ∈ trace, Survivable asked) ↔
    ∀ e, result = .error e → e.isException = true ∨ lastStatus trace = .text "done"

/-- The loop: it changes neither the gauge nor the status. -/
theorem drain_ended {queue : Q.Carrier} {totals : Totals} {trace : RouteTrace}
    {result : Except Exn Totals} (ran : Runs (drain Q job queue totals) trace result) :
    gauge trace = 0 ∧ lastStatus trace = .text "processing" ∧
      ((∀ asked ∈ trace, Survivable asked) ↔ ∀ e, result = .error e → e.isException = true) := by
  have asks : (drain Q job queue totals).Asks DrainOp :=
    drain_asks (fun _ => .inl) queue totals fun batch _ => .inr ⟨batch, rfl⟩
  have inner := asks.of_runs ran
  have quiet : ∀ asked ∈ trace, Inner asked.1 := by
    intro asked member change same
    rcases inner asked member with loop | ⟨batch, gather⟩
    · rw [same] at loop
      exact loop
    · cases same.symm.trans gather
  refine ⟨gauge_of_inner quiet, ?_, ?_⟩
  · exact (roundCalls_status (drain_runs queue totals ran (held_any _)).calls _).2
  · have forwards : (drain Q job queue totals).Forwards jobFault fun _ => False := drain_forwards ..
    have silent : ∀ asked ∈ trace, jobFault asked = none → Survivable asked := by
      intro asked member none
      refine (survivable_of_drainOp (inner asked member)).mpr fun e raised => ?_
      cases none.symm.trans raised
    cases result with
    | ok totals' =>
        have faultless := forwards.value ran
        exact iff_of_true (fun asked member => silent asked member (faultless asked member)) (by simp)
    | error e =>
        rcases forwards.error ran with ⟨_, impossible⟩ | ⟨before, last, rfl, faultless, raised⟩
        · exact impossible.elim
        · have final := survivable_of_drainOp (inner last (by simp))
          constructor
          · rintro survived _ ⟨⟩
            exact final.mp (survived last (by simp)) e raised
          · intro exception asked member
            rcases List.mem_append.mp member with member | member
            · exact silent asked (List.mem_append_left _ member) (faultless asked member)
            · rw [List.mem_singleton.mp member]
              refine final.mpr fun e' raised' => ?_
              cases raised.symm.trans raised'
              exact exception e rfl

/-- What follows the loop. -/
theorem finishJob_ended {jobStart : ℚ} {totals : Totals} {trace : RouteTrace}
    {result : Except Exn Unit} (ran : Runs (finishJob settings job jobStart totals) trace result) :
    Ended trace result := by
  obtain ⟨jobEnd, rest, rfl, timed⟩ := runs_perform_bind_iff.mp ran
  rcases runs_bind_iff.mp timed with ⟨e, raised, rfl⟩ | ⟨total, before, after, rfl, summed, later⟩
  · obtain ⟨rfl, failed⟩ := runs_ofResult_iff.mp raised
    have exception : e.isException = true := by
      unfold totalTokens at failed
      split at failed
      · cases failed
      · cases failed
        rfl
    refine ⟨rfl, .inl rfl, by simp, iff_of_true ?_ ?_⟩
    · simp [Survivable, jobFault]
    · rintro _ ⟨⟩
      exact .inl exception
  · obtain ⟨rfl, given⟩ := runs_ofResult_iff.mp summed
    obtain ⟨percentiles, rest, rfl, measured⟩ := runs_perform_bind_iff.mp later
    rcases store_bind_runs measured with ⟨e, applied, rfl, rfl⟩ | ⟨rest, rfl, finished⟩
    · cases applied with
      | zero =>
          have processing : lastStatus (⟨.monotonic, jobEnd⟩ :: ([] ++ ⟨.summary, percentiles⟩ ::
              [⟨.store (.finish totals.results), .raised e 0⟩])) = .text "processing" := rfl
          refine ⟨rfl, .inl processing, by simp, ?_⟩
          rw [processing]
          simp [Survivable, jobFault]
      | succ applied =>
          refine ⟨rfl, .inr rfl, by simp, iff_of_true ?_ ?_⟩
          · simp [Survivable, jobFault]
          · exact fun _ _ => .inr rfl
    · obtain ⟨reply, rfl, rfl⟩ := store_runs finished
      have done : lastStatus (⟨.monotonic, jobEnd⟩ :: ([] ++ ⟨.summary, percentiles⟩ ::
          ⟨.store (.finish totals.results), .ok⟩ :: [⟨.store (.publishDone totals.results
            (finalStats settings job totals total percentiles (jobEnd - jobStart))), reply⟩])) =
          .text "done" := by
        cases reply with
        | ok => rfl
        | raised e applied => cases applied <;> rfl
      refine ⟨rfl, .inr done, fun _ => done, iff_of_true ?_ fun _ _ => .inr done⟩
      simp [Survivable, jobFault]

/-- The whole `try`. -/
theorem jobBody_ended {queue : Q.Carrier} {jobStart : ℚ} {trace : RouteTrace}
    {result : Except Exn Unit} (ran : Runs (jobBody Q settings job queue jobStart) trace result) :
    Ended trace result := by
  rcases runs_bind_iff.mp ran with ⟨e, raised, rfl⟩ | ⟨totals, before, after, rfl, drained, later⟩
  · obtain ⟨counted, processing, survived⟩ := drain_ended raised
    refine ⟨counted, .inl processing, by simp, survived.trans ?_⟩
    simp [processing]
  · obtain ⟨counted, processing, survived⟩ := drain_ended drained
    have quiet := survived.mpr (by simp)
    have ended := finishJob_ended later
    have same : lastStatus (before ++ after) = lastStatus after := by
      rw [lastStatus, acts_append, List.foldl_append]
      exact congrArg (fun status => (acts after).foldl statusAfter status) processing
    refine ⟨?_, same ▸ ended.status, same ▸ ended.value, ?_⟩
    · rw [gauge_append, counted, ended.counted, add_zero]
    · rw [same, ← ended.survived, List.forall_mem_append]
      exact and_iff_right quiet

/-- The `try` with its handler: the job is done or failed unless a `BaseException`
has ended it early. -/
theorem handled_ended {jobStart : ℚ} {body : RouteTrace} {result : Except Exn Unit}
    (ran : Runs ((jobBody Q settings job (jobQueue Q job) jobStart).rescue jobFailed) body result)
    (failing : ∀ reason reply, (.fail reason, reply) ∈ acts body → reply.tookEffect = true) :
    gauge body = 0 ∧ ((∀ asked ∈ body, Survivable asked) ↔
      lastStatus body = .text "done" ∨ lastStatus body = .text "failed") := by
  rcases runs_rescue_iff.mp ran with
    ⟨value, completed, rfl⟩ | ⟨e, before, after, rfl, raised, recovered⟩
  · have ended := jobBody_ended completed
    exact ⟨ended.counted, iff_of_true (ended.survived.mpr (by simp)) (.inl (ended.value rfl))⟩
  · have ended := jobBody_ended raised
    unfold jobFailed at recovered
    split at recovered
    · next exception =>
        obtain ⟨reply, rfl, _⟩ := store_runs recovered
        have took : reply.tookEffect = true := failing e.message reply (by simp)
        have failed : lastStatus (before ++ [⟨.store (.fail e.message), reply⟩]) = .text "failed" := by
          rw [lastStatus, acts_append, List.foldl_append]
          show statusAfter _ (.fail e.message, reply) = _
          simp [statusAfter, took, written]
        refine ⟨?_, iff_of_true ?_ (.inr failed)⟩
        · rw [gauge_append, ended.counted]
          rfl
        · refine List.forall_mem_append.mpr ⟨ended.survived.mpr ?_, ?_⟩
          · rintro _ ⟨⟩
            exact .inl exception
          · exact List.forall_mem_singleton.mpr trivial
    · next base =>
        obtain ⟨rfl, _⟩ := runs_raise_iff.mp recovered
        rw [List.append_nil]
        refine ⟨ended.counted, ended.survived.trans ?_⟩
        constructor
        · exact fun survived => .inl ((survived e rfl).resolve_left base)
        · rintro (done | failed) _ ⟨⟩
          · exact .inr done
          · rcases ended.status with processing | done
            · exact absurd (processing.symm.trans failed) (by decide)
            · exact absurd (done.symm.trans failed) (by decide)

variable {trace : RouteTrace} {result : Except Exn Unit}

/-- **A job cleans up after itself** exactly when no exception gets past its `try`:
whatever raises, as long as the write of a failed status takes effect. -/
theorem cleaned_up_iff (ran : Runs (processJob Q settings job) trace result)
    (failing : ∀ reason reply, (.fail reason, reply) ∈ acts trace → reply.tookEffect = true) :
    CleanedUp settings job.jobId trace ↔ ∀ asked ∈ trace, Survivable asked := by
  rw [cleanedUp_iff (processJob_runs ran (held_any _)).no_create]
  cases processJob_shape ran with
  | enqueue jobStart e =>
      refine iff_of_false (fun cleaned => ?_) fun survived => survived ⟨.enqueueMany, .error e⟩ (by simp)
      have leaked : gauge [⟨.activeJobs 1, ()⟩, ⟨.monotonic, jobStart⟩, ⟨.enqueueMany, .error e⟩] = 1 := rfl
      rw [leaked] at cleaned
      exact one_ne_zero cleaned.1
  | start jobStart e applied =>
      refine iff_of_false (fun cleaned => ?_) fun survived => survived ⟨.store .start, .raised e applied⟩ (by simp)
      have leaked : gauge [⟨.activeJobs 1, ()⟩, ⟨.monotonic, jobStart⟩, ⟨.enqueueMany, .ok ()⟩,
          ⟨.queueDepth (Q.items (jobQueue Q job)).card, ()⟩, ⟨.store .start, .raised e applied⟩] = 1 := rfl
      rw [leaked] at cleaned
      exact one_ne_zero cleaned.1
  | @handled jobStart body _ handled =>
      have calls : acts (prologue Q job jobStart ++ (body ++ [⟨.activeJobs (-1), ()⟩])) =
          (.start, .ok) :: acts body := by
        rw [acts_append, acts_append]
        exact congrArg _ (List.append_nil _)
      obtain ⟨counted, survived⟩ := handled_ended handled fun reason reply member =>
        failing reason reply (calls ▸ List.mem_cons_of_mem _ member)
      have last : (acts (prologue Q job jobStart ++ (body ++ [⟨.activeJobs (-1), ()⟩]))).foldl
          statusAfter (.text "pending") = lastStatus body := by
        rw [calls]
        rfl
      have balanced : gauge (prologue Q job jobStart ++ (body ++ [⟨.activeJobs (-1), ()⟩])) = 0 := by
        rw [gauge_append, gauge_append, counted]
        rfl
      have before : ∀ asked ∈ prologue Q job jobStart, Survivable asked := by
        simp [prologue, Survivable, jobFault]
      have after : ∀ asked ∈ [(⟨.activeJobs (-1), ()⟩ : Asked RouteOp RouteAnswer)], Survivable asked := by
        simp [Survivable, jobFault]
      rw [last, and_iff_right balanced, List.forall_mem_append, List.forall_mem_append, ← survived]
      exact ⟨fun all => ⟨before, all, after⟩, fun all => all.2.1⟩

end Try

/-! ## Poles -/

section Poles

/-- `start` raises, and nothing of it was applied. -/
def brokenStart : RouteTrace :=
  [⟨.activeJobs 1, ()⟩, ⟨.monotonic, (0 : ℚ)⟩, ⟨.enqueueMany, .ok ()⟩, ⟨.queueDepth 0, ()⟩,
    ⟨.store .start, .raised { kind := .other "ConnectionError", message := "closed" } 0⟩]

theorem brokenStart_runs : Runs (processJob (.sorted _) .defaults foundJob) brokenStart
    (.error { kind := .other "ConnectionError", message := "closed" }) := by
  refine runs_perform_bind_iff.mpr ⟨(), _, rfl, runs_perform_bind_iff.mpr ⟨0, _, rfl, ?_⟩⟩
  refine runs_call_bind_iff.mpr (.inr ⟨.ok (), (), _, rfl, rfl, ?_⟩)
  refine runs_perform_bind_iff.mpr ⟨(), _, rfl, ?_⟩
  exact runs_call_bind_iff.mpr (.inl ⟨.raised _ 0, _, rfl, rfl, rfl⟩)

/-- **Refuting pole.** The job stays counted as active, and pending. -/
theorem start_leaks :
    Runs (processJob (.sorted _) .defaults foundJob) brokenStart
        (.error { kind := .other "ConnectionError", message := "closed" }) ∧
      gauge brokenStart = 1 ∧
      statusAt foundJob.jobId 0 (performAll .defaults foundJob.jobId requested
        ((acts brokenStart).map fun act => (0, act))) = some (.text "pending") ∧
      ¬ CleanedUp .defaults foundJob.jobId brokenStart :=
  ⟨brokenStart_runs, rfl, requested_pending, fun cleaned => one_ne_zero cleaned.counted⟩

/-- Satisfiable pole: `publish_done` raises, and the job is marked as failed. -/
theorem cleaned_up_iff_overwritten : CleanedUp .defaults foundJob.jobId overwrittenTrace := by
  have ran : Runs (processJob (.sorted _) .defaults foundJob) overwrittenTrace (.ok ()) :=
    cachedJob_publish_raises .ok rfl foundJob_tokens rfl
  refine (cleaned_up_iff ran fun reason reply member => ?_).mpr ?_
  · simp [overwrittenTrace, cachedJobTrace, acts, storeAct] at member
    rw [← member.2]
    rfl
  · simp [overwrittenTrace, cachedJobTrace, Survivable, jobFault]

end Poles

end InferenceForge.Api
