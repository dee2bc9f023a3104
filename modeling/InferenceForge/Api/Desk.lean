/-
# InferenceForge.Api.Desk — what a request and its task may do, followed one operation at a time

The `desk` follows a request and its task. It lets a task hand out a batch only if that is
greedy among the tickets that are left, and store results only once all tickets are settled:
then they are what was found in the cache and one record for each of these tickets.

* `request_safe`: every request, with its task, keeps to the desk, whatever is answered or raised.
* `desk_followed`: what it has done then (`Followed`).
-/
import InferenceForge.Api.JobLedger
import InferenceForge.Api.ProcessState
import InferenceForge.Pipeline.BatcherRuns

namespace InferenceForge.Api.Service

open InferenceForge.Python InferenceForge.Library InferenceForge.Pipeline
open InferenceForge.Pipeline.JobStore (StoreCall)
open InferenceForge.Pipeline.PriorityBatcher (Greedy Prioritized)
open InferenceForge.Api.QueueDepth (request launching launching_bind deduplicate_asks)
open InferenceForge.Api.ProcessState (Posting)

set_option autoImplicit false

/-! ## The desk -/

/-- What the loop over the tickets was told by the cache. -/
def Told (trace : RouteTrace) (key : String) (cached : Dict) : Prop := ⟨.cacheGet key, .ok (some cached)⟩ ∈ trace

/-- The job of a request, by what it has done before. -/
def Launches (host : Host) (tickets : List String) (done : RouteTrace) (job : Job) : Prop :=
  ∃ found jobId, Deduplicated host (Told done) tickets found ∧ job = found.job jobId tickets.length

/-- The tickets of a job. -/
def entriesOf (job : Job) : Multiset Entry := enumerate job.uniqueTickets

/-- The settled tickets. -/
def settledOf (settled : List Settlement) : Multiset Entry := settled.map Prod.fst

/-- The batch is greedy among the tickets that are left. -/
def Due (job : Job) (settled : List Settlement) (batch : Batch) : Prop :=
  ∃ queued, entriesOf job = settledOf settled + queued ∧ Greedy queued batch

/-- Every ticket is settled, and the results are those. -/
def Complete (job : Job) (settled : List Settlement) (results : List Dict) : Prop :=
  entriesOf job = settledOf settled ∧ results = job.preCachedResults ++ settled.map record

/-- The results an operation stores or publishes. -/
def resultsOf : RouteOp → Option (List Dict)
  | .store (.finish results) | .store (.publishDone results _) => some results
  | _ => none

inductive Desk
  | posting (done : RouteTrace)
  | working (job : Job) (settled : List Settlement)

open Classical in
/-- What a request and its task do, in order. -/
noncomputable def desk (host : Host) (tickets : List String) : Monitor RouteOp RouteAnswer Desk
  | .posting done, ⟨.createTask job, _⟩ => if Launches host tickets done job then some (.working job []) else none
  | .posting done, asked => if Posting asked.1 then some (.posting (done ++ [asked])) else none
  | .working _ _, ⟨.createTask _, _⟩ => none
  | .working job settled, ⟨.gather batch, .ok raw⟩ =>
      if Due job settled batch then some (.working job (settled ++ settlements batch raw)) else none
  | .working job settled, ⟨.gather batch, .error _⟩ =>
    if Due job settled batch then some (.working job settled) else none
  | .working job settled, asked =>
      if ∀ results, resultsOf asked.1 = some results → Complete job settled results then some (.working job settled)
      else none

section Desk

variable {host : Host} {tickets : List String} {job : Job} {settled : List Settlement}

/-- Neither a task is created nor a batch handed out. -/
def Inert : RouteOp → Prop
  | .createTask _ | .gather _ => False
  | _ => True

theorem desk_gather {batch : Batch} (due : Due job settled batch) (raw : Gathered batch) :
    desk host tickets (.working job settled) ⟨.gather batch, .ok raw⟩ =
      some (.working job (settled ++ settlements batch raw)) := if_pos due

theorem desk_inert {op : RouteOp} (answer : RouteAnswer op) (inert : Inert op)
    (complete : ∀ results, resultsOf op = some results → Complete job settled results) :
    desk host tickets (.working job settled) ⟨op, answer⟩ = some (.working job settled) := by
  cases op with
  | createTask job | gather batch => exact inert.elim
  | _ =>
      unfold desk
      exact if_pos complete

theorem desk_posting {done : RouteTrace} {op : RouteOp} (answer : RouteAnswer op) (posting : Posting op = true) :
    desk host tickets (.posting done) ⟨op, answer⟩ = some (.posting (done ++ [⟨op, answer⟩])) := by
  cases op with
  | createTask job => cases posting
  | _ =>
      unfold desk
      exact if_pos posting

/-- What a step of the desk can be. -/
inductive Followed (host : Host) (tickets : List String) : Desk → Asked RouteOp RouteAnswer → Desk → Prop
  | posted {done : RouteTrace} {op : RouteOp} {answer : RouteAnswer op} (posting : Posting op = true) :
      Followed host tickets (.posting done) ⟨op, answer⟩ (.posting (done ++ [⟨op, answer⟩]))
  | created {done : RouteTrace} {job : Job} (launches : Launches host tickets done job) :
      Followed host tickets (.posting done) ⟨.createTask job, ()⟩ (.working job [])
  | gathered {job : Job} {settled : List Settlement} {batch : Batch} {raw : Gathered batch}
    (due : Due job settled batch) :
      Followed host tickets (.working job settled) ⟨.gather batch, .ok raw⟩
        (.working job (settled ++ settlements batch raw))
  | refused {job : Job} {settled : List Settlement} {batch : Batch} {e : Exn} (due : Due job settled batch) :
      Followed host tickets (.working job settled) ⟨.gather batch, .error e⟩ (.working job settled)
  | inert {job : Job} {settled : List Settlement} {op : RouteOp} {answer : RouteAnswer op} (inert : Inert op)
      (complete : ∀ results, resultsOf op = some results → Complete job settled results) :
      Followed host tickets (.working job settled) ⟨op, answer⟩ (.working job settled)

theorem desk_followed {s s' : Desk} {asked : Asked RouteOp RouteAnswer}
    (stepped : desk host tickets s asked = some s') :
    Followed host tickets s asked s' := by
  obtain ⟨op, answer⟩ := asked
  cases s with
  | posting done =>
      by_cases creates : ∃ job, op = .createTask job
      · obtain ⟨job, rfl⟩ := creates
        obtain ⟨launches, same⟩ := Option.ite_none_right_eq_some.mp stepped
        cases same
        exact .created launches
      · have posts : Posting op = true ∧ some (Desk.posting (done ++ [⟨op, answer⟩])) = some s' := by
          cases op with
          | createTask job => exact absurd ⟨job, rfl⟩ creates
          | _ =>
              unfold desk at stepped
              exact Option.ite_none_right_eq_some.mp stepped
        cases posts.2
        exact .posted posts.1
  | working job settled =>
      cases op with
      | createTask job => cases stepped
      | gather batch =>
          cases answer with
          | ok raw =>
              obtain ⟨due, same⟩ := Option.ite_none_right_eq_some.mp stepped
              cases same
              exact .gathered due
          | error e =>
              obtain ⟨due, same⟩ := Option.ite_none_right_eq_some.mp stepped
              cases same
              exact .refused due
      | _ =>
          unfold desk at stepped
          obtain ⟨complete, same⟩ := Option.ite_none_right_eq_some.mp stepped
          cases same
          exact .inert trivial complete

end Desk

/-! ## A request under the desk -/

section Follows

variable {Q : TicketQueue} {settings : Settings} {host : Host} {tickets : List String} {job : Job}
  {settled : List Settlement} {allowed : Asked RouteOp RouteAnswer → Prop}

/-- The task has come so far. -/
def AtWork (job : Job) {α : Type} (_ : Except Exn α) (s : Desk) : Prop := ∃ settled, s = .working job settled

/-- What neither hands out a batch nor stores results. -/
def Plain (op : RouteOp) : Prop := Inert op ∧ resultsOf op = none

theorem desk_plain {op : RouteOp} (answer : RouteAnswer op) (plain : Plain op) :
    desk host tickets (.working job settled) ⟨op, answer⟩ = some (.working job settled) :=
  desk_inert answer plain.1 fun results found => by cases plain.2.symm.trans found

theorem plain_safe {α : Type} {p : Handler α} (asks : p.Asks Plain) :
    p.Safe (desk host tickets) allowed (fun _ s => s = .working job settled) (.working job settled) :=
  safe_of_asks asks fun _ answer plain _ => desk_plain answer plain

theorem store_plain {call : StoreCall} (plain : Plain (.store call)) :
    (store call).Safe (desk host tickets) allowed (fun _ s => s = .working job settled) (.working job settled) :=
  plain_safe (asks_call plain)

/-- A round settles its batch, if it is due. -/
theorem processRound_safe {batch : Batch} (due : Due job settled batch) (totals : Totals) :
    (processRound job batch totals).Safe (desk host tickets) allowed
      (fun result s => AtWork job result s ∧ ∀ totals', result = .ok totals' → ∃ raw,
        s = .working job (settled ++ settlements batch raw) ∧ totals' = totals.absorb (batchEntries batch raw))
      (.working job settled) := by
  unfold processRound
  intro batchStart _
  refine ⟨_, desk_plain _ ⟨trivial, rfl⟩, ?_⟩
  intro answer _
  cases answer with
  | error e => exact ⟨.working job settled, if_pos due, ⟨settled, rfl⟩, by simp⟩
  | ok raw =>
      refine ⟨_, desk_gather due raw, fun batchEnd _ => ⟨_, desk_plain _ ⟨trivial, rfl⟩, ?_⟩⟩
      refine fun _ _ => ⟨_, desk_plain _ ⟨trivial, rfl⟩, ?_⟩
      intro counted _
      refine ⟨_, desk_plain _ ⟨trivial, rfl⟩, ?_⟩
      cases counted with
      | raised e applied => exact ⟨⟨_, rfl⟩, by simp⟩
      | ok =>
          refine fun eta _ => ⟨_, desk_plain _ ⟨trivial, rfl⟩, ?_⟩
          intro published _
          refine ⟨_, desk_plain _ ⟨trivial, rfl⟩, ?_⟩
          cases published with
          | raised e applied => exact ⟨⟨_, rfl⟩, by simp⟩
          | ok =>
              refine ⟨⟨_, rfl⟩, ?_⟩
              rintro _ ⟨⟩
              exact ⟨raw, rfl, rfl⟩

/-- What the loop has done of its job. -/
structure Midway (Q : TicketQueue) (job : Job) (settled : List Settlement) (queue : Q.Carrier)
    (totals : Totals) : Prop where
  left : entriesOf job = settledOf settled + PriorityBatcher.entries Q queue
  ordered : Prioritized Q queue
  results : totals.results = job.preCachedResults ++ settled.map record

theorem settledOf_append (before after : List Settlement) :
    settledOf (before ++ after) = settledOf before + settledOf after := by
  rw [settledOf, List.map_append, ← Multiset.coe_add, settledOf, settledOf]

theorem settledOf_settlements (batch : Batch) (raw : Gathered batch) :
    settledOf (settlements batch raw) = (batch.entries : Multiset Entry) :=
  congrArg _ (settlements_entries batch raw)

/-- The loop hands out what is due, until nothing is left. -/
theorem drain_safe (queue : Q.Carrier) (totals : Totals) (midway : Midway Q job settled queue totals) :
    (drain Q job queue totals).Safe (desk host tickets) allowed
      (fun result s => AtWork job result s ∧ ∀ totals', result = .ok totals' → ∃ settled',
        s = .working job settled' ∧ Complete job settled' totals'.results) (.working job settled) := by
  induction queue, totals using drain.induct Q generalizing settled with
  | case1 queue totals ih =>
      rw [drain]
      have drawn : (Program.call .drainBatch id : Handler Unit).Safe (desk host tickets) allowed
          (fun _ s => s = .working job settled) (.working job settled) := plain_safe (asks_call ⟨trivial, rfl⟩)
      refine safe_bind drawn ?_ fun e s same => ⟨⟨settled, same⟩, by simp⟩
      rintro _ _ rfl
      split
      · next empty =>
          refine ⟨⟨settled, rfl⟩, ?_⟩
          rintro _ ⟨⟩
          refine ⟨settled, rfl, ?_, midway.results⟩
          rw [midway.left, (PriorityBatcher.drainBatch_eq_none_iff queue).mp empty, add_zero]
      · next batch rest drained =>
          obtain ⟨greedy, ordered⟩ := PriorityBatcher.drainBatch_greedy midway.ordered drained
          have due : Due job settled batch := ⟨_, midway.left, greedy⟩
          refine fun _ _ => ⟨_, desk_plain _ ⟨trivial, rfl⟩, ?_⟩
          show (processRound job batch totals >>= fun totals => drain Q job rest totals).Safe _ _ _ _
          refine safe_bind (processRound_safe due totals) ?_ fun e s ended => ⟨ended.1, by simp⟩
          rintro totals' s ⟨_, went⟩
          obtain ⟨raw, rfl, rfl⟩ := went totals' rfl
          refine ih batch rest drained _ ⟨?_, ordered, ?_⟩
          · rw [midway.left, PriorityBatcher.drainBatch_entries drained, settledOf_append,
            settledOf_settlements, add_assoc]
          · rw [Totals.absorb, midway.results, batchEntries_eq, List.map_append, List.append_assoc]

/-- The results are stored and published once they are complete. -/
theorem finishJob_safe {totals : Totals} (complete : Complete job settled totals.results) (jobStart : ℚ) :
    (finishJob settings job jobStart totals).Safe (desk host tickets) allowed
      (fun _ s => s = .working job settled) (.working job settled) := by
  have stores : ∀ call : StoreCall, (∀ results, resultsOf (.store call) = some results → results = totals.results) →
      (store call).Safe (desk host tickets) allowed (fun _ s => s = .working job settled) (.working job settled) := by
    intro call those
    refine safe_call fun reply _ => ⟨_, desk_inert reply trivial fun results found => ?_, rfl⟩
    rwa [those results found]
  unfold finishJob
  refine fun jobEnd _ => ⟨_, desk_plain _ ⟨trivial, rfl⟩, ?_⟩
  cases summed : totalTokens totals.results with
  | error e => exact rfl
  | ok tokens =>
      refine fun percentiles _ => ⟨_, desk_plain _ ⟨trivial, rfl⟩, ?_⟩
      show (store (.finish totals.results) >>= fun _ => store _).Safe _ _ _ _
      refine safe_bind (stores _ (by simp [resultsOf])) ?_ fun _ _ same => same
      rintro _ _ rfl
      exact stores _ (by simp [resultsOf])

theorem jobBody_safe {queue : Q.Carrier} (jobStart : ℚ) (midway : Midway Q job settled queue (initialTotals job)) :
    (jobBody Q settings job queue jobStart).Safe (desk host tickets) allowed (AtWork job) (.working job settled) := by
  refine safe_bind (drain_safe queue _ midway) ?_ fun e s ended => ended.1
  rintro totals s ⟨_, went⟩
  obtain ⟨settled', rfl, complete⟩ := went totals rfl
  exact (finishJob_safe complete jobStart).mono fun _ _ same => ⟨settled', same⟩

theorem midway_start : Midway Q job [] (jobQueue Q job) (initialTotals job) where
  left := by
    rw [jobQueue_entries]
    exact (zero_add _).symm
  ordered := PriorityBatcher.prioritized_empty.enqueueMany _ _
  results := (List.append_nil _).symm

/-- A task works on its job. -/
theorem processJob_safe :
    (processJob Q settings job).Safe (desk host tickets) allowed (AtWork job) (.working job []) := by
  unfold processJob
  refine fun _ _ => ⟨_, desk_plain _ ⟨trivial, rfl⟩, fun jobStart _ => ⟨_, desk_plain _ ⟨trivial, rfl⟩, ?_⟩⟩
  intro filled _
  refine ⟨_, desk_plain _ ⟨trivial, rfl⟩, ?_⟩
  cases filled with
  | error e => exact ⟨[], rfl⟩
  | ok _ =>
      refine fun _ _ => ⟨_, desk_plain _ ⟨trivial, rfl⟩, ?_⟩
      intro begun _
      refine ⟨_, desk_plain _ ⟨trivial, rfl⟩, ?_⟩
      cases begun with
      | raised e applied => exact ⟨[], rfl⟩
      | ok =>
          have handled :
            ((jobBody Q settings job (jobQueue Q job) jobStart).rescue jobFailed).Safe (desk host tickets)
              allowed (AtWork job) (.working job []) := by
            refine safe_rescue (jobBody_safe jobStart midway_start) (fun _ _ ended => ended) ?_
            rintro e _ ⟨settled, rfl⟩
            unfold jobFailed
            split
            · exact (store_plain ⟨trivial, rfl⟩).mono fun _ _ same => ⟨settled, same⟩
            · exact ⟨settled, rfl⟩
          refine safe_tryFinally handled ?_
          rintro result _ ⟨settled, rfl⟩ _ _
          exact ⟨_, desk_plain _ ⟨trivial, rfl⟩, settled, rfl⟩

theorem Told.mono {done later : RouteTrace} {key : String} {cached : Dict} (told : Told done key cached) :
    Told (done ++ later) key cached := List.mem_append_left _ told

theorem Launches.mono {done : RouteTrace} (launches : Launches host tickets done job) (later : RouteTrace) :
    Launches host tickets (done ++ later) job := by
  obtain ⟨found, jobId, dedup, rfl⟩ := launches
  refine ⟨found, jobId, ⟨dedup.seen, dedup.counted, dedup.firsts, fun entry member => ?_, dedup.named⟩, rfl⟩
  obtain ⟨ticket, cached, told, same⟩ := dedup.cached entry member
  exact ⟨ticket, cached, told.mono, same⟩

/-- The handler goes on, and what it does is recorded. -/
theorem launching_safe {α β : Type} {task : Job → Handler Unit} {p : Handler α} {f : α → Handler β}
    (asks : p.Asks fun op => Posting op = true) (done : RouteTrace)
    (rest : ∀ trace value, Runs p trace (.ok value) →
      (launching task none (f value)).Safe (desk host tickets) allowed (fun _ _ => True) (.posting (done ++ trace))) :
    (launching task none (p >>= f)).Safe (desk host tickets) allowed (fun _ _ => True) (.posting done) := by
  have idle : ∀ op, Posting op = true → QueueDepth.Idle op := by
    rintro _ posting job rfl
    cases posting
  have recorded : ∀ (done : RouteTrace) (op : RouteOp) (answer : RouteAnswer op), Posting op = true →
      desk host tickets (.posting done) ⟨op, answer⟩ = some (.posting (done ++ [⟨op, answer⟩])) :=
    fun done op answer posting => desk_posting answer posting
  rw [launching_bind _ (asks.mono idle)]
  refine safe_bind (safe_of_recorded recorded asks done) ?_ fun _ _ _ => trivial
  rintro value _ ⟨trace, ran, rfl⟩
  exact rest trace value ran

/-- A request and its task keep to the desk. -/
theorem request_safe (body : ProcessRequest settings) :
    (request Q settings host body).Safe (desk host body.tickets) allowed (fun _ _ => True) (.posting []) := by
  have stored : ∀ call : StoreCall, Posting (.store call) = true → (store call).Asks fun op => Posting op = true :=
    fun call posting => asks_call (P := fun op => Posting op = true) posting
  unfold request processTickets
  refine launching_safe (asks_perform rfl) _ fun named jobId _ => ?_
  refine launching_safe (deduplicate_asks (fun _ => rfl) _ _) _ fun looked found dedup => ?_
  refine launching_safe (asks_perform rfl) _ fun estimated _ _ => ?_
  refine launching_safe (stored _ rfl) _ fun created _ _ => ?_
  refine launching_safe (asks_when (stored _ rfl)) _ fun counted _ _ => ?_
  have launches : Launches host body.tickets (named ++ looked) (found.job jobId body.tickets.length) := by
    have told : Known (Told (named ++ looked)) looked := fun key cached member => List.mem_append_right _ member
    obtain ⟨_, _, ⟨e, impossible⟩ | ⟨final, same, run⟩⟩ := deduplicate_runs body.tickets dedup told
    · cases impossible
    · cases same
      exact ⟨found, jobId, run.deduplicated deduplicated_nil, rfl⟩
  refine fun _ _ => ⟨.working (found.job jobId body.tickets.length) [], if_pos ?_, ?_⟩
  · simpa only [List.nil_append, List.append_assoc] using ((launches.mono estimated).mono created).mono counted
  · refine fun _ _ => ⟨_, desk_plain _ ⟨trivial, rfl⟩, ?_⟩
    exact processJob_safe.mono fun _ _ _ => trivial

end Follows

end InferenceForge.Api.Service
