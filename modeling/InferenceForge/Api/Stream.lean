/-
# InferenceForge.Api.Stream — a client of the event stream of a job

The background task and one client of `GET /stream/{job_id}` as one system. An
event lets the task perform its next operation, with whatever answer it gets, or
lets the client do its next step: look whether the job exists, subscribe, or
receive the next message of its subscription.

The client ends exactly when the event that stops it is published while it is
subscribed (`Inv.ended_iff`). Two results follow. A stream of a job that succeeds
ends if and only if the completion is published to a subscribed client
(`stream_ends_iff_subscribed`); one that subscribes later waits forever
(`late_subscriber_waits`). A stream of a job that fails ends if and only if the
completion was published nevertheless (`failed_stream_ends_iff`), since `fail`
publishes nothing (`failed_stream_waits`).
-/
import InferenceForge.Api.JobRuns
import InferenceForge.Library.Pool

namespace InferenceForge.Api.Stream

open InferenceForge.Python InferenceForge.Library InferenceForge.Pipeline
open InferenceForge.Pipeline.JobStore

set_option autoImplicit false

/-! ## The client -/

/-- `stream_job` and `_sse_generator`. A subscription made after `since` messages
has looked at the messages before `cursor`. -/
inductive Client
  | idle
  | notFound
  /-- The job exists; the generator has not subscribed yet. -/
  | found
  | listening (since cursor : ℕ) (yielded : List Dict)
  | ended (since : ℕ) (yielded : List Dict)

/-- `parsed.get("status") == "done"`. -/
def stops (event : Dict) : Bool :=
  match Dict.get? event "status" with
  | some (.string status) => status = "done"
  | _ => false

/-- What the generator does with the next message. -/
def Client.receive (jobId : String) (published : List (String × Dict)) : Client → Option Client
  | .listening since cursor yielded =>
      published[cursor]?.map fun (channel, event) =>
        if channel = eventChannel jobId then
          if stops event then .ended since (yielded ++ [event])
          else .listening since (cursor + 1) (yielded ++ [event])
        else .listening since (cursor + 1) yielded
  | _ => none

/-- When the client subscribed. -/
def Client.since? : Client → Option ℕ
  | .listening since _ _ | .ended since _ => some since
  | _ => none

/-! ## The system -/

structure System where
  /-- What the background task has yet to do. -/
  task : Handler Unit
  /-- What it has done. -/
  trace : RouteTrace
  redis : JobRedis
  client : Client

inductive Event
  /-- The task performs its next operation at instant `now`. -/
  | task (now : ℚ) (answer : (op : RouteOp) → RouteAnswer op)
  /-- `exists`. -/
  | lookUp (now : ℚ)
  | subscribe
  | receive

/-- Redis after an operation of the task. -/
def serve (settings : Settings) (jobId : String) (now : ℚ) (s : JobRedis) :
    Asked RouteOp RouteAnswer → JobRedis
  | ⟨.store call, reply⟩ => perform settings jobId s (now, call, reply)
  | _ => s

def step (settings : Settings) (jobId : String) (w : System) : Event → Option System
  | .task now answer =>
      match w.task with
      | .ask op next => some { w with
          task := next (answer op)
          trace := w.trace ++ [⟨op, answer op⟩]
          redis := serve settings jobId now w.redis ⟨op, answer op⟩ }
      | _ => none
  | .lookUp now =>
      match w.client with
      | .idle => some { w with client := if jobExists jobId now w.redis then .found else .notFound }
      | _ => none
  | .subscribe =>
      match w.client with
      | .found =>
          let since := w.redis.published.length
          some { w with client := .listening since since [] }
      | _ => none
  | .receive => (w.client.receive jobId w.redis.published).map fun client => { w with client }

/-- The task has not started and nothing has been published for the job. -/
def start (Q : TicketQueue) (settings : Settings) (job : Job)
    (keys : String → Option (Redis.Entry (List Dict))) (client : Client) : System where
  task := processJob Q settings job
  trace := []
  redis := { keys, published := [] }
  client := client

/-- Neither party can do anything more. -/
def Quiescent (settings : Settings) (jobId : String) (w : System) : Prop :=
  ∀ e, step settings jobId w e = none

/-! ## What is published -/

/-- A message on which a client of the job ends. -/
def Stopping (jobId : String) (m : String × Dict) : Bool :=
  m.1 = eventChannel jobId && stops m.2

theorem stops_doneEvent (results : List Dict) (stats : Dict) :
    stops (doneEvent results stats) = true := rfl

theorem stops_progressEvent (completed total cacheHits failed : ℕ) (eta : ℚ) :
    stops (progressEvent completed total cacheHits failed eta) = false := rfl

/-- Only a completion stops a stream. -/
theorem sent_stopping {jobId : String} {act : Act} {m : String × Dict} (member : m ∈ sent jobId act)
    (stopping : Stopping jobId m = true) :
    ∃ results stats, act.1 = .publishDone results stats ∧ act.2.tookEffect = true ∧
      m = (eventChannel jobId, doneEvent results stats) := by
  obtain ⟨call, reply⟩ := act
  unfold sent at member
  split at member
  · next took =>
      cases call with
      | publishDone results stats => exact ⟨results, stats, rfl, took, List.mem_singleton.mp member⟩
      | publishProgress completed total cacheHits failed eta =>
          obtain rfl := List.mem_singleton.mp member
          simp [Stopping, stops_progressEvent] at stopping
      | create | start | incrementProgress | finish | fail => cases member
  · cases member

theorem serve_published (settings : Settings) (jobId : String) (now : ℚ) (s : JobRedis)
    (asked : Asked RouteOp RouteAnswer) :
    (serve settings jobId now s asked).published =
      s.published ++ (acts [asked]).flatMap (sent jobId) := by
  obtain ⟨op, answer⟩ := asked
  cases op with
  | store call =>
      show (perform settings jobId s (now, call, answer)).published = _
      rw [perform_published]
      exact congrArg _ (List.append_nil _).symm
  | _ => exact (List.append_nil _).symm

theorem serves_published (settings : Settings) (jobId : String) (now : ℚ) (s : JobRedis)
    (trace : RouteTrace) :
    (trace.foldl (serve settings jobId now) s).published =
      s.published ++ (acts trace).flatMap (sent jobId) := by
  induction trace generalizing s with
  | nil => simp
  | cons asked rest ih =>
      have split : acts (asked :: rest) = acts [asked] ++ acts rest := acts_append [asked] rest
      rw [List.foldl_cons, ih, serve_published, split, List.flatMap_append, List.append_assoc]

/-! ## The invariant -/

section Steps

variable {Q : TicketQueue} {settings : Settings} {job : Job} {w t : System} {e : Event}

/-- What a client has seen of the messages. -/
def ClientInv (jobId : String) (published : List (String × Dict)) : Client → Prop
  | .listening since cursor _ =>
      since ≤ cursor ∧ cursor ≤ published.length ∧
        ∀ i m, since ≤ i → i < cursor → published[i]? = some m → Stopping jobId m = false
  | .ended since yielded =>
      ∃ i m earlier, since ≤ i ∧ published[i]? = some m ∧ Stopping jobId m = true ∧
        yielded = earlier ++ [m.2]
  | .idle | .notFound | .found => True

structure Inv (Q : TicketQueue) (settings : Settings) (job : Job) (w : System) : Prop where
  leads : Leads (processJob Q settings job) w.trace w.task
  published : w.redis.published = (acts w.trace).flatMap (sent job.jobId)
  client : ClientInv job.jobId w.redis.published w.client

theorem ClientInv.append {jobId : String} {published : List (String × Dict)} {client : Client}
    (inv : ClientInv jobId published client) (more : List (String × Dict)) :
    ClientInv jobId (published ++ more) client := by
  cases client with
  | idle | notFound | found => trivial
  | listening since cursor yielded =>
      obtain ⟨ordered, bounded, seen⟩ := inv
      refine ⟨ordered, by simp; omega, fun i m from_here before read => ?_⟩
      rw [List.getElem?_append_left (by omega)] at read
      exact seen i m from_here before read
  | ended since yielded =>
      obtain ⟨i, m, earlier, from_here, read, stopping, same⟩ := inv
      refine ⟨i, m, earlier, from_here, ?_, stopping, same⟩
      have bounded : i < published.length := (List.getElem?_eq_some_iff.mp read).1
      rwa [List.getElem?_append_left bounded]

/-- A subscription is not made after the last message. -/
theorem ClientInv.since_le {jobId : String} {published : List (String × Dict)} {client : Client}
    (inv : ClientInv jobId published client) {since : ℕ} (subscribed : client.since? = some since) :
    since ≤ published.length := by
  cases client with
  | idle | notFound | found => cases subscribed
  | listening start cursor yielded =>
      cases subscribed
      exact inv.1.trans inv.2.1
  | ended start yielded =>
      cases subscribed
      obtain ⟨i, m, earlier, from_here, read, _⟩ := inv
      have bounded : i < published.length := (List.getElem?_eq_some_iff.mp read).1
      omega

theorem receive_cases {jobId : String} {published : List (String × Dict)} {client client' : Client}
    (received : client.receive jobId published = some client') :
    ∃ since cursor yielded m, client = .listening since cursor yielded ∧
      published[cursor]? = some m ∧
      ((Stopping jobId m = true ∧ client' = .ended since (yielded ++ [m.2])) ∨
        Stopping jobId m = false ∧ ∃ more, client' = .listening since (cursor + 1) more) := by
  cases client with
  | idle | notFound | found | ended => cases received
  | listening since cursor yielded =>
      obtain ⟨⟨channel, event⟩, read, moved⟩ := Option.map_eq_some_iff.mp received
      refine ⟨since, cursor, yielded, (channel, event), rfl, read, ?_⟩
      dsimp only at moved
      split at moved
      · next own =>
          subst own
          split at moved
          · next stop => exact .inl ⟨by simp [Stopping, stop], moved.symm⟩
          · next goes => exact .inr ⟨by simpa [Stopping] using goes, _, moved.symm⟩
      · next other => exact .inr ⟨by simp [Stopping, other], _, moved.symm⟩

theorem receive_inv {jobId : String} {published : List (String × Dict)} {client client' : Client}
    (inv : ClientInv jobId published client)
    (received : client.receive jobId published = some client') :
    ClientInv jobId published client' := by
  obtain ⟨since, cursor, yielded, m, rfl, read, outcome⟩ := receive_cases received
  obtain ⟨ordered, bounded, seen⟩ := inv
  rcases outcome with ⟨stopping, rfl⟩ | ⟨goes, more, rfl⟩
  · exact ⟨cursor, m, yielded, ordered, read, stopping, rfl⟩
  · have inside : cursor < published.length := (List.getElem?_eq_some_iff.mp read).1
    refine ⟨by omega, inside, fun i m' from_here before found => ?_⟩
    by_cases here : i = cursor
    · subst here
      rw [read] at found
      cases found
      exact goes
    · exact seen i m' from_here (by omega) found

/-- What a step can be. -/
theorem step_cases (stepped : step settings job.jobId w e = some t) :
    (∃ now answer op next, e = .task now answer ∧ w.task = .ask op next ∧
      t = { w with
        task := next (answer op)
        trace := w.trace ++ [⟨op, answer op⟩]
        redis := serve settings job.jobId now w.redis ⟨op, answer op⟩ }) ∨
    (∃ now, e = .lookUp now ∧ w.client = .idle ∧
      t = { w with client := if jobExists job.jobId now w.redis then .found else .notFound }) ∨
    (e = .subscribe ∧ w.client = .found ∧
      t = { w with client := .listening w.redis.published.length w.redis.published.length [] }) ∨
    ∃ client, e = .receive ∧ w.client.receive job.jobId w.redis.published = some client ∧
      t = { w with client := client } := by
  cases e with
  | task now answer =>
      simp only [step] at stepped
      split at stepped
      · next op next pending =>
          cases stepped
          exact .inl ⟨now, answer, op, next, rfl, pending, rfl⟩
      · cases stepped
  | lookUp now =>
      simp only [step] at stepped
      split at stepped
      · next idle =>
          cases stepped
          exact .inr (.inl ⟨now, rfl, idle, rfl⟩)
      · cases stepped
  | subscribe =>
      simp only [step] at stepped
      split at stepped
      · next found =>
          cases stepped
          exact .inr (.inr (.inl ⟨rfl, found, rfl⟩))
      · cases stepped
  | receive =>
      obtain ⟨client, received, same⟩ := Option.map_eq_some_iff.mp stepped
      exact .inr (.inr (.inr ⟨client, rfl, received, same.symm⟩))

/-- Every step keeps the invariant. -/
theorem Inv.step (inv : Inv Q settings job w) (stepped : step settings job.jobId w e = some t) :
    Inv Q settings job t := by
  obtain ⟨now, answer, op, next, rfl, pending, rfl⟩ | ⟨now, rfl, idle, rfl⟩ | ⟨rfl, found, rfl⟩ |
    ⟨client, rfl, received, rfl⟩ := step_cases stepped
  · have leads := inv.leads
    rw [pending] at leads
    have grown := serve_published settings job.jobId now w.redis ⟨op, answer op⟩
    refine ⟨leads.concat (answer op), ?_, ?_⟩
    · show (serve settings job.jobId now w.redis _).published = _
      rw [grown, inv.published, acts_append, List.flatMap_append]
    · show ClientInv _ (serve settings job.jobId now w.redis _).published _
      rw [grown]
      exact inv.client.append _
  · refine ⟨inv.leads, inv.published, ?_⟩
    show ClientInv _ _ (if _ then _ else _)
    split <;> trivial
  · refine ⟨inv.leads, inv.published, le_rfl, le_rfl, fun i m from_here before => ?_⟩
    omega
  · exact ⟨inv.leads, inv.published, receive_inv inv.client received⟩

theorem inv_start {keys : String → Option (Redis.Entry (List Dict))} {client : Client}
    (fresh : ClientInv job.jobId [] client) : Inv Q settings job (start Q settings job keys client) :=
  ⟨.refl _, rfl, fresh⟩

/-- A client keeps its subscription. -/
theorem step_since (stepped : step settings job.jobId w e = some t) {since : ℕ}
    (subscribed : w.client.since? = some since) : t.client.since? = some since := by
  obtain ⟨now, answer, op, next, rfl, pending, rfl⟩ | ⟨now, rfl, idle, rfl⟩ | ⟨rfl, found, rfl⟩ |
    ⟨client, rfl, received, rfl⟩ := step_cases stepped
  · exact subscribed
  · simp [idle, Client.since?] at subscribed
  · simp [found, Client.since?] at subscribed
  · obtain ⟨since', cursor, yielded, m, listening, read, outcome⟩ := receive_cases received
    rw [listening] at subscribed
    rcases outcome with ⟨_, rfl⟩ | ⟨_, more, rfl⟩
    · exact subscribed
    · exact subscribed

/-- **A stream ends** exactly when the event that stops it was published while it
was subscribed. -/
theorem Inv.ended_iff (inv : Inv Q settings job w) (quiet : Quiescent settings job.jobId w)
    {since : ℕ} (subscribed : w.client.since? = some since) :
    (∃ yielded, w.client = .ended since yielded) ↔
      ∃ i m, since ≤ i ∧ w.redis.published[i]? = some m ∧ Stopping job.jobId m = true := by
  have seen := inv.client
  cases state : w.client with
  | idle | notFound | found => simp [state, Client.since?] at subscribed
  | listening start cursor yielded =>
      rw [state] at seen subscribed
      cases subscribed
      obtain ⟨_, _, passed⟩ := seen
      have delivered : w.redis.published[cursor]? = none := by
        have stuck := quiet .receive
        simpa [Stream.step, Client.receive, state] using stuck
      refine iff_of_false (by simp) ?_
      rintro ⟨i, m, from_here, read, stopping⟩
      have inside : i < w.redis.published.length := (List.getElem?_eq_some_iff.mp read).1
      have all : w.redis.published.length ≤ cursor := List.getElem?_eq_none_iff.mp delivered
      have goes := passed i m from_here (by omega) read
      rw [goes] at stopping
      cases stopping
  | ended start yielded =>
      rw [state] at seen subscribed
      cases subscribed
      obtain ⟨i, m, _, from_here, read, stopping, _⟩ := seen
      exact iff_of_true ⟨yielded, rfl⟩ ⟨i, m, from_here, read, stopping⟩

/-- A stopping message is a completion that was published. -/
theorem Inv.stopping_iff (inv : Inv Q settings job w) :
    (∃ (i : ℕ) (m : String × Dict), w.redis.published[i]? = some m ∧ Stopping job.jobId m = true) ↔
      ∃ results stats reply, (.publishDone results stats, reply) ∈ acts w.trace ∧
        reply.tookEffect = true := by
  constructor
  · rintro ⟨i, m, read, stopping⟩
    have member : m ∈ w.redis.published := List.mem_of_getElem? read
    rw [inv.published] at member
    obtain ⟨⟨call, reply⟩, called, came⟩ := List.mem_flatMap.mp member
    obtain ⟨results, stats, rfl, took, _⟩ := sent_stopping came stopping
    exact ⟨results, stats, reply, called, took⟩
  · rintro ⟨results, stats, reply, called, took⟩
    have member : (eventChannel job.jobId, doneEvent results stats) ∈ w.redis.published := by
      rw [inv.published]
      refine List.mem_flatMap.mpr ⟨_, called, ?_⟩
      simp [sent, took, message]
    obtain ⟨i, read⟩ := List.mem_iff_getElem?.mp member
    exact ⟨i, _, read, by simp [Stopping, stops_doneEvent]⟩

/-- A task that can do nothing more has run to its end. -/
theorem Inv.ran (inv : Inv Q settings job w) (quiet : Quiescent settings job.jobId w) :
    ∃ result, Runs (processJob Q settings job) w.trace result := by
  have leads := inv.leads
  cases state : w.task with
  | done value =>
      rw [state] at leads
      exact ⟨_, leads.runs_done⟩
  | raise error =>
      rw [state] at leads
      exact ⟨_, leads.runs_raise⟩
  | ask op next =>
      have answer : ∀ op, RouteAnswer op := fun op => Classical.choice (answer_nonempty op)
      have stuck := quiet (.task 0 answer)
      simp [Stream.step, state] at stuck

end Steps

/-! ## Jobs that fail -/

section Failed

variable {Q : TicketQueue} {settings : Settings} {job : Job} {w : System} {events : List Event}
  {keys : String → Option (Redis.Entry (List Dict))}

/-- **The stream of a job that fails**, for a client that subscribed before the
task started: it ends exactly when `publish_done` raised although its message was
published. -/
theorem failed_stream_ends_iff {reason : String} {reply : Reply}
    (ran : exec (step settings job.jobId) (start Q settings job keys (.listening 0 0 [])) events =
      some w)
    (quiet : Quiescent settings job.jobId w) (failed : (.fail reason, reply) ∈ acts w.trace) :
    (∃ since yielded, w.client = .ended since yielded) ↔
      ∃ results stats e applied, (.publishDone results stats, .raised e applied) ∈ acts w.trace ∧
        0 < applied := by
  have fresh : ClientInv job.jobId [] (.listening 0 0 []) := ⟨le_rfl, le_rfl, by simp⟩
  have keeps : ∀ v e t, Inv Q settings job v ∧ v.client.since? = some 0 →
      step settings job.jobId v e = some t → Inv Q settings job t ∧ t.client.since? = some 0 :=
    fun _ _ _ ⟨inv, subscribed⟩ stepped => ⟨inv.step stepped, step_since stepped subscribed⟩
  obtain ⟨inv, subscribed⟩ := exec_invariant keeps events _ w ⟨inv_start fresh, rfl⟩ ran
  obtain ⟨result, complete⟩ := inv.ran quiet
  have run := processJob_runs complete (held_any _)
  constructor
  · rintro ⟨since, yielded, ended⟩
    have zero : since = 0 := by simpa [ended, Client.since?] using subscribed
    subst zero
    obtain ⟨i, m, _, read, stopping⟩ := (inv.ended_iff quiet subscribed).mp ⟨yielded, ended⟩
    obtain ⟨results, stats, published, called, took⟩ := inv.stopping_iff.mp ⟨i, m, read, stopping⟩
    obtain ⟨e, applied, rfl⟩ := run.failed_publish failed called
    exact ⟨results, stats, e, applied, called, by simpa using took⟩
  · rintro ⟨results, stats, e, applied, called, took⟩
    obtain ⟨i, m, read, stopping⟩ :=
      inv.stopping_iff.mpr ⟨results, stats, _, called, by simpa using took⟩
    obtain ⟨yielded, ended⟩ :=
      (inv.ended_iff quiet subscribed).mpr ⟨i, m, Nat.zero_le i, read, stopping⟩
    exact ⟨0, yielded, ended⟩

end Failed

/-! ## Jobs that succeed -/

theorem index_unique {α : Type} {p : α → Bool} {l : List α} (once : l.countP p ≤ 1) {i j : ℕ}
    {a b : α} (left : l[i]? = some a) (left_holds : p a = true) (right : l[j]? = some b)
    (right_holds : p b = true) : i = j := by
  induction l generalizing i j with
  | nil => simp at left
  | cons x rest ih =>
      have later : ∀ {k : ℕ} {c : α}, p x = true → rest[k]? = some c → p c = true → False := by
        intro k c first read holds
        have some_later : 0 < rest.countP p :=
          List.countP_pos_iff.mpr ⟨c, List.mem_of_getElem? read, holds⟩
        rw [List.countP_cons, if_pos first] at once
        omega
      match i, j with
      | 0, 0 => rfl
      | 0, j + 1 =>
          cases left
          exact (later left_holds right right_holds).elim
      | i + 1, 0 =>
          cases right
          exact (later right_holds left left_holds).elim
      | i + 1, j + 1 =>
          have fewer : rest.countP p ≤ 1 := by
            rw [List.countP_cons] at once
            omega
          exact congrArg _ (ih fewer left right)

section Succeeded

variable {Q : TicketQueue} {settings : Settings} {job : Job} {w t : System} {e : Event}
  {events : List Event} {keys : String → Option (Redis.Entry (List Dict))}

/-- When the completion is published, the client is subscribed. -/
def Present (w : System) (e : Event) : Prop :=
  ∀ now answer results stats next, e = .task now answer →
    w.task = .ask (.store (.publishDone results stats)) next →
    Reply.tookEffect (answer (.store (.publishDone results stats))) = true →
    ∃ since, w.client.since? = some since

/-- The messages that stop a stream were published to the client. -/
def Reached (jobId : String) (w : System) : Prop :=
  ∀ (i : ℕ) (m : String × Dict), w.redis.published[i]? = some m → Stopping jobId m = true →
    ∃ since, w.client.since? = some since ∧ since ≤ i

/-- The calls of a single operation. -/
theorem storeAct_of_mem {asked : Asked RouteOp RouteAnswer} {act : Act} (called : act ∈ acts [asked]) :
    storeAct asked = some act := by
  obtain ⟨only, member, stored⟩ := List.mem_filterMap.mp called
  rwa [List.mem_singleton.mp member] at stored

/-- An operation of the task keeps `Reached` exactly when it does not publish the
completion to nobody. -/
theorem reached_task (inv : Inv Q settings job w) (now : ℚ) (answer : (op : RouteOp) → RouteAnswer op)
    {op : RouteOp} {next : RouteAnswer op → Handler Unit} (pending : w.task = .ask op next) :
    Reached job.jobId { w with
        task := next (answer op)
        trace := w.trace ++ [⟨op, answer op⟩]
        redis := serve settings job.jobId now w.redis ⟨op, answer op⟩ } ↔
      Reached job.jobId w ∧ Present w (.task now answer) := by
  have grown := serve_published settings job.jobId now w.redis ⟨op, answer op⟩
  constructor
  · intro reached
    constructor
    · intro i m read stopping
      refine reached i m ?_ stopping
      show (serve settings job.jobId now w.redis _).published[i]? = _
      have inside : i < w.redis.published.length := (List.getElem?_eq_some_iff.mp read).1
      rw [grown, List.getElem?_append_left inside]
      exact read
    · intro now' answer' results stats next' same asks took
      cases same
      cases pending.symm.trans asks
      have published : (serve settings job.jobId now w.redis
          ⟨.store (.publishDone results stats), answer _⟩).published[w.redis.published.length]? =
            some (eventChannel job.jobId, doneEvent results stats) := by
        rw [grown, List.getElem?_append_right le_rfl]
        simp [acts_store, sent, took, message]
      obtain ⟨since, subscribed, _⟩ :=
        reached _ _ published (by simp [Stopping, stops_doneEvent])
      exact ⟨since, subscribed⟩
  · rintro ⟨reached, present⟩ i m read stopping
    have read : (serve settings job.jobId now w.redis ⟨op, answer op⟩).published[i]? = some m := read
    rw [grown] at read
    by_cases inside : i < w.redis.published.length
    · rw [List.getElem?_append_left inside] at read
      exact reached i m read stopping
    · rw [List.getElem?_append_right (by omega)] at read
      obtain ⟨act, called, came⟩ := List.mem_flatMap.mp (List.mem_of_getElem? read)
      obtain ⟨results, stats, done, took, _⟩ := sent_stopping came stopping
      have stored := storeAct_of_mem called
      cases op with
      | store call =>
          cases stored
          have done : call = .publishDone results stats := done
          subst done
          obtain ⟨since, subscribed⟩ := present now answer results stats next rfl pending took
          have before := inv.client.since_le subscribed
          exact ⟨since, subscribed, by omega⟩
      | _ => cases stored

/-- A step keeps `Reached` exactly when it does not publish the completion to
nobody. -/
theorem reached_step (inv : Inv Q settings job w) (stepped : step settings job.jobId w e = some t) :
    Reached job.jobId t ↔ Reached job.jobId w ∧ Present w e := by
  obtain ⟨now, answer, op, next, rfl, pending, rfl⟩ | ⟨now, rfl, idle, rfl⟩ | ⟨rfl, found, rfl⟩ |
    ⟨client, rfl, received, rfl⟩ := step_cases stepped
  · exact reached_task inv now answer pending
  · have nobody : (if jobExists job.jobId now w.redis then Client.found else .notFound).since? =
        none := by split <;> rfl
    have absent : Present w (.lookUp now) := fun _ _ _ _ _ same => by cases same
    have before : w.client.since? = none := by rw [idle]; rfl
    simp only [Reached, nobody, before, absent, and_true]
  · have absent : Present w .subscribe := fun _ _ _ _ _ same => by cases same
    rw [and_iff_left absent]
    constructor
    · intro reached i m read stopping
      obtain ⟨since, subscribed, before⟩ := reached i m read stopping
      cases subscribed
      have inside : i < w.redis.published.length := (List.getElem?_eq_some_iff.mp read).1
      omega
    · intro reached i m read stopping
      obtain ⟨since, subscribed, _⟩ := reached i m read stopping
      simp [found, Client.since?] at subscribed
  · have absent : Present w .receive := fun _ _ _ _ _ same => by cases same
    rw [and_iff_left absent]
    obtain ⟨since, cursor, yielded, m, listening, _, outcome⟩ := receive_cases received
    have kept : client.since? = w.client.since? := by
      rw [listening]
      rcases outcome with ⟨_, rfl⟩ | ⟨_, more, rfl⟩ <;> rfl
    simp only [Reached, kept]

/-- Whether a call publishes the completion. -/
def isDone : Act → Bool
  | (.publishDone .., _) => true
  | _ => false

theorem stopping_le (jobId : String) (calls : List Act) :
    (calls.flatMap (sent jobId)).countP (Stopping jobId) ≤ calls.countP isDone := by
  induction calls with
  | nil => exact le_rfl
  | cons act rest ih =>
      rw [List.flatMap_cons, List.countP_append, List.countP_cons, add_comm]
      apply Nat.add_le_add ih
      by_cases done : isDone act = true
      · obtain ⟨call, reply⟩ := act
        cases call <;> cases done
        show _ ≤ 1
        refine List.countP_le_length.trans ?_
        cases took : reply.tookEffect <;> simp [sent, took, message]
      · rw [if_neg done, Nat.le_zero, List.countP_eq_zero]
        intro m member stopping
        obtain ⟨results, stats, same, _⟩ := sent_stopping member stopping
        obtain ⟨call, reply⟩ := act
        cases same
        exact done rfl

/-- A job publishes its completion at most once. -/
theorem JobRun.done_once {held : AnswerFact} {calls : List Act} {result : Except Exn Unit}
    (run : JobRun Q settings job held calls result) : calls.countP isDone ≤ 1 := by
  have body_once : ∀ {body : List Act} {result : Except Exn Unit},
      BodyRun Q settings job held (jobQueue Q job) body result → body.countP isDone ≤ 1 := by
    intro body result ran
    obtain ⟨rounds, last, rfl, quiet, ending⟩ := ran.calls
    have none : rounds.countP isDone = 0 := by
      rw [List.countP_eq_zero]
      rintro ⟨call, reply⟩ member done
      cases call <;> first | exact (quiet _ member).elim | cases done
    rw [List.countP_append, none]
    cases ending <;> simp [isDone]
  cases run with
  | enqueue e known => simp
  | start e applied => simp [isDone]
  | completed ran => simpa [isDone] using body_once ran
  | failed ran exception reply => simpa [isDone] using body_once ran
  | abandoned ran base => simpa [isDone] using body_once ran

/-- Two stopping messages are the same. -/
theorem Inv.stopping_unique (inv : Inv Q settings job w)
    (quiet : Quiescent settings job.jobId w) {i j : ℕ} {m n : String × Dict}
    (left : w.redis.published[i]? = some m) (stops_left : Stopping job.jobId m = true)
    (right : w.redis.published[j]? = some n) (stops_right : Stopping job.jobId n = true) :
    i = j := by
  obtain ⟨result, complete⟩ := inv.ran quiet
  have run := processJob_runs complete (held_any _)
  have once : w.redis.published.countP (Stopping job.jobId) ≤ 1 := by
    rw [inv.published]
    exact (stopping_le job.jobId _).trans (JobRun.done_once run)
  exact index_unique once left stops_left right stops_right

/-- **The stream of a job that succeeds** yields the completion and ends exactly
when the completion was published to a subscribed client. -/
theorem stream_ends_iff_subscribed {results : List Dict} {stats : Dict}
    (ran : exec (step settings job.jobId) (start Q settings job keys .idle) events = some w)
    (quiet : Quiescent settings job.jobId w)
    (succeeded : (.publishDone results stats, .ok) ∈ acts w.trace) :
    (∃ since earlier, w.client = .ended since (earlier ++ [doneEvent results stats])) ↔
      Along (step settings job.jobId) Present (start Q settings job keys .idle) events := by
  have fresh : Inv Q settings job (start Q settings job keys .idle) := inv_start trivial
  have inv := exec_invariant (fun _ _ _ inv stepped => Inv.step inv stepped) events _ w fresh ran
  have exact_run := exec_iff_along (fun _ _ _ inv stepped => Inv.step inv stepped)
    (fun _ _ _ inv stepped => reached_step inv stepped) events _ w fresh ran
  have never : Reached job.jobId (start Q settings job keys .idle) := by
    intro i m read
    simp [start] at read
  rw [and_iff_right never] at exact_run
  rw [← exact_run]
  -- the completion is among the messages
  obtain ⟨i, published⟩ : ∃ i : ℕ, w.redis.published[i]? =
      some (eventChannel job.jobId, doneEvent results stats) := by
    apply List.mem_iff_getElem?.mp
    rw [inv.published]
    refine List.mem_flatMap.mpr ⟨_, succeeded, ?_⟩
    simp [sent, message]
  have stopping : Stopping job.jobId (eventChannel job.jobId, doneEvent results stats) = true := by
    simp [Stopping, stops_doneEvent]
  constructor
  · rintro ⟨since, earlier, ended⟩ j m read stops_m
    have seen := inv.client
    rw [ended] at seen
    obtain ⟨k, n, _, from_here, read_n, stops_n, _⟩ := seen
    obtain rfl := inv.stopping_unique quiet read_n stops_n read stops_m
    exact ⟨since, by rw [ended]; rfl, from_here⟩
  · intro reached
    obtain ⟨since, subscribed, before⟩ := reached i _ published stopping
    obtain ⟨yielded, ended⟩ := (inv.ended_iff quiet subscribed).mpr ⟨i, _, before, published, stopping⟩
    have seen := inv.client
    rw [ended] at seen
    obtain ⟨k, n, earlier, _, read_n, stops_n, rfl⟩ := seen
    obtain rfl := inv.stopping_unique quiet read_n stops_n published stopping
    cases read_n.symm.trans published
    exact ⟨since, earlier, ended⟩

end Succeeded

/-! ## Poles -/

section Poles

/-- An environment that answers every call of the store as `reply` says. -/
def answers (reply : StoreCall → Reply) : (op : RouteOp) → RouteAnswer op
  | .store call => reply call
  | .cacheGet _ => .ok none
  | .enqueueMany | .drainBatch => .ok ()
  | .gather _ => .error (.typeError "")
  | .activeJobs _ | .queueDepth _ | .etaUpdate _ | .createTask _ => ()
  | .monotonic | .etaEstimate _ _ | .etaInitial _ _ => (0 : ℚ)
  | .summary => ⟨0, 0, 0⟩
  | .uuid => ""

/-- A job without unique tickets is answered as `reply` says if its calls are. -/
theorem cachedTrace_given {reply : StoreCall → Reply} {body : RouteTrace} (start : reply .start = .ok)
    (given : ∀ asked ∈ body, answers reply asked.1 = asked.2) :
    ∀ asked ∈ cachedJobTrace 0 body, answers reply asked.1 = asked.2 := by
  intro asked member
  simp only [cachedJobTrace, List.cons_append, List.mem_cons, List.mem_append, List.not_mem_nil,
    or_false] at member
  rcases member with rfl | rfl | rfl | rfl | rfl | rfl | inside | rfl
  · rfl
  · rfl
  · rfl
  · rfl
  · exact start
  · rfl
  · exact given asked inside
  · rfl

/-- The task runs to where its trace leads. -/
theorem exec_tasks {settings : Settings} {jobId : String} {reply : StoreCall → Reply}
    {trace : RouteTrace} {q : Handler Unit} :
    ∀ {w : System}, Leads w.task trace q →
      (∀ asked ∈ trace, answers reply asked.1 = asked.2) →
      exec (step settings jobId) w (List.replicate trace.length (.task 0 (answers reply))) =
        some { w with
          task := q
          trace := w.trace ++ trace
          redis := trace.foldl (serve settings jobId 0) w.redis } := by
  induction trace with
  | nil =>
      intro w leads _
      generalize same : w.task = p at leads
      cases leads
      rw [← same]
      simp
  | cons asked rest ih =>
      intro w leads given
      generalize same : w.task = p at leads
      cases leads with
      | @ask op next answer _ _ later =>
          have here : answers reply op = answer := given _ List.mem_cons_self
          subst here
          rw [List.length_cons, List.replicate_succ, exec_cons]
          have stepped : step settings jobId w (.task 0 (answers reply)) = some { w with
              task := next (answers reply op)
              trace := w.trace ++ [⟨op, answers reply op⟩]
              redis := serve settings jobId 0 w.redis ⟨op, answers reply op⟩ } := by
            simp only [step, same]
          rw [stepped, Option.bind_some, ih later fun a member => given a (List.mem_cons_of_mem _ member)]
          simp

/-- Every call succeeds. -/
def calm : StoreCall → Reply := fun _ => .ok

/-- `finish` raises. -/
def faulty : StoreCall → Reply
  | .finish _ => .raised { kind := .other "ConnectionError", message := "closed" } 0
  | _ => .ok

def foundDone : Dict := doneEvent foundJob.preCachedResults foundStats

def faultyTrace : RouteTrace :=
  cachedJobTrace 0 [⟨.monotonic, (0 : ℚ)⟩, ⟨.summary, ⟨0, 0, 0⟩⟩,
    ⟨.store (.finish foundJob.preCachedResults),
      .raised { kind := .other "ConnectionError", message := "closed" } 0⟩,
    ⟨.store (.fail "closed"), .ok⟩]

/-- `publish_done` raises after its message was published. -/
def lostReply : StoreCall → Reply
  | .publishDone .. => .raised { kind := .other "ConnectionError", message := "closed" } 1
  | _ => .ok

def lostReplyTrace : RouteTrace :=
  cachedJobTrace 0 [⟨.monotonic, (0 : ℚ)⟩, ⟨.summary, ⟨0, 0, 0⟩⟩,
    ⟨.store (.finish foundJob.preCachedResults), .ok⟩,
    ⟨.store (.publishDone foundJob.preCachedResults foundStats),
      .raised { kind := .other "ConnectionError", message := "closed" } 1⟩,
    ⟨.store (.fail "closed"), .ok⟩]

theorem lostReplyTrace_leads :
    Leads (processJob (.sorted _) .defaults foundJob) lostReplyTrace (.done ()) :=
  leads_of_runs (cachedJob_publish_raises .ok rfl foundJob_tokens rfl)

theorem foundTrace_leads : Leads (processJob (.sorted _) .defaults foundJob) foundTrace (.done ()) :=
  leads_of_runs foundTrace_runs

theorem faultyTrace_leads : Leads (processJob (.sorted _) .defaults foundJob) faultyTrace (.done ()) :=
  leads_of_runs (cachedJob_finish_raises .ok rfl foundJob_tokens rfl)

/-- The system after the task of `foundJob`. -/
def after (trace : RouteTrace) (client : Client) : System where
  task := .done ()
  trace := trace
  redis := trace.foldl (serve .defaults foundJob.jobId 0) { keys := requested.keys, published := [] }
  client := client

theorem exec_job {trace : RouteTrace} {reply : StoreCall → Reply} (client : Client)
    (leads : Leads (processJob (.sorted _) .defaults foundJob) trace (.done ()))
    (given : ∀ asked ∈ trace, answers reply asked.1 = asked.2) :
    exec (step .defaults foundJob.jobId) (start (.sorted _) .defaults foundJob requested.keys client)
      (List.replicate trace.length (.task 0 (answers reply))) = some (after trace client) :=
  exec_tasks (w := start (.sorted _) .defaults foundJob requested.keys client) leads given

theorem after_published (trace : RouteTrace) (client : Client) :
    (after trace client).redis.published = (acts trace).flatMap (sent foundJob.jobId) :=
  serves_published .defaults foundJob.jobId 0 _ trace

/-- An ended task and a subscribed client without a next message. -/
theorem quiescent_after {trace : RouteTrace} {client : Client} {since : ℕ}
    (subscribed : client.since? = some since)
    (waits : client.receive foundJob.jobId ((acts trace).flatMap (sent foundJob.jobId)) = none) :
    Quiescent .defaults foundJob.jobId (after trace client) := by
  intro e
  cases e with
  | task now answer => rfl
  | lookUp now => cases client <;> first | rfl | cases subscribed
  | subscribe => cases client <;> first | rfl | cases subscribed
  | receive =>
      show (client.receive _ (after trace client).redis.published).map _ = none
      rw [after_published, waits]
      rfl

theorem receive_after {trace : RouteTrace} {client client' : Client}
    (received : client.receive foundJob.jobId ((acts trace).flatMap (sent foundJob.jobId)) =
      some client') :
    exec (step .defaults foundJob.jobId) (after trace client) [.receive] = some (after trace client') := by
  have stepped : step .defaults foundJob.jobId (after trace client) .receive = some (after trace client') := by
    show (client.receive _ (after trace client).redis.published).map _ = _
    rw [after_published, received]
    rfl
  rw [exec_cons, stepped]
  rfl

theorem step_lookUp {settings : Settings} {jobId : String} {w : System} {now : ℚ}
    (idle : w.client = .idle) (there : jobExists jobId now w.redis = true) :
    step settings jobId w (.lookUp now) = some { w with client := .found } := by
  simp only [step, idle, there, if_true]

theorem lookUp_requested :
    step .defaults foundJob.jobId (start (.sorted _) .defaults foundJob requested.keys .idle) (.lookUp 0) =
      some (start (.sorted _) .defaults foundJob requested.keys .found) := by
  have alive : (start (.sorted _) .defaults foundJob requested.keys .idle).redis.live 0
      (jobKey foundJob.jobId) = some _ := live_eq_some.mpr ⟨requested_keys, requested_alive⟩
  have there : jobExists foundJob.jobId 0
      (start (.sorted _) .defaults foundJob requested.keys .idle).redis = true := by
    rw [jobExists, Redis.present, alive]
    rfl
  exact step_lookUp rfl there

theorem subscribe_start :
    step .defaults foundJob.jobId (start (.sorted _) .defaults foundJob requested.keys .found) .subscribe =
      some (start (.sorted _) .defaults foundJob requested.keys (.listening 0 0 [])) := rfl

/-- **Refuting pole.** `finish` raises, the failure is written, and the client
that subscribed before the task started has received nothing. -/
theorem failed_stream_waits :
    ∃ w, exec (step .defaults foundJob.jobId)
        (start (.sorted _) .defaults foundJob requested.keys (.listening 0 0 []))
        (List.replicate faultyTrace.length (.task 0 (answers faulty))) = some w ∧
      Quiescent .defaults foundJob.jobId w ∧ (.fail "closed", .ok) ∈ acts w.trace ∧
      ¬ ∃ since yielded, w.client = .ended since yielded := by
  have given : ∀ asked ∈ faultyTrace, answers faulty asked.1 = asked.2 :=
    cachedTrace_given rfl (by simp [answers, faulty])
  refine ⟨_, exec_job _ faultyTrace_leads given, quiescent_after rfl rfl, ?_, by simp [after]⟩
  exact .tail _ (.tail _ (.head _))

/-- Satisfiable pole: `publish_done` raised after its message was published, so
the stream of the failed job ends. -/
theorem failed_stream_ends_iff_lostReply :
    ∃ w, exec (step .defaults foundJob.jobId)
        (start (.sorted _) .defaults foundJob requested.keys (.listening 0 0 []))
        (List.replicate lostReplyTrace.length (.task 0 (answers lostReply)) ++ [.receive]) = some w ∧
      (.fail "closed", .ok) ∈ acts w.trace ∧ ∃ since yielded, w.client = .ended since yielded := by
  have given : ∀ asked ∈ lostReplyTrace, answers lostReply asked.1 = asked.2 :=
    cachedTrace_given rfl (by simp [answers, lostReply])
  have received : (Client.listening 0 0 []).receive foundJob.jobId
      ((acts lostReplyTrace).flatMap (sent foundJob.jobId)) = some (.ended 0 _) := rfl
  have ran := exec_append (step .defaults foundJob.jobId)
    (start (.sorted _) .defaults foundJob requested.keys (.listening 0 0 []))
    (List.replicate lostReplyTrace.length (.task 0 (answers lostReply))) [.receive]
  rw [exec_job _ lostReplyTrace_leads given, Option.bind_some, receive_after received] at ran
  have failed : (.fail "closed", .ok) ∈ acts lostReplyTrace := .tail _ (.tail _ (.tail _ (.head _)))
  refine ⟨_, ran, failed, (failed_stream_ends_iff ran (quiescent_after rfl rfl) failed).mpr ?_⟩
  exact ⟨_, _, _, 1, .tail _ (.tail _ (.head _)), Nat.one_pos⟩

/-- **Refuting pole.** The existence check finds the job, the job succeeds, and the
client subscribes after the completion was published. -/
theorem late_subscriber_waits :
    ∃ w, exec (step .defaults foundJob.jobId) (start (.sorted _) .defaults foundJob requested.keys .idle)
        (.lookUp 0 :: (List.replicate foundTrace.length (.task 0 (answers calm)) ++ [.subscribe])) =
          some w ∧
      Quiescent .defaults foundJob.jobId w ∧
      (∃ results stats, (.publishDone results stats, .ok) ∈ acts w.trace) ∧
      ¬ ∃ since yielded, w.client = .ended since yielded := by
  have given : ∀ asked ∈ foundTrace, answers calm asked.1 = asked.2 :=
    cachedTrace_given rfl (by simp [answers, calm])
  have subscribed : exec (step .defaults foundJob.jobId) (after foundTrace .found) [.subscribe] =
      some (after foundTrace (.listening 1 1 [])) := by
    have once : (after foundTrace .found).redis.published.length = 1 := by
      rw [after_published]
      rfl
    simp only [exec, step, after] at once ⊢
    rw [once]
    rfl
  refine ⟨after foundTrace (.listening 1 1 []), ?_, quiescent_after rfl rfl, ?_, by simp [after]⟩
  · rw [exec_cons, lookUp_requested, Option.bind_some, exec_append,
      exec_job .found foundTrace_leads given, Option.bind_some, subscribed]
  · exact ⟨_, _, .tail _ (.tail _ (.head _))⟩

/-- Satisfiable pole: a client that subscribes before the task starts. -/
theorem stream_ends_iff_subscribed_early :
    ∃ w, exec (step .defaults foundJob.jobId) (start (.sorted _) .defaults foundJob requested.keys .idle)
        (.lookUp 0 :: .subscribe ::
          (List.replicate foundTrace.length (.task 0 (answers calm)) ++ [.receive])) = some w ∧
      Along (step .defaults foundJob.jobId) Present (start (.sorted _) .defaults foundJob requested.keys .idle)
        (.lookUp 0 :: .subscribe ::
          (List.replicate foundTrace.length (.task 0 (answers calm)) ++ [.receive])) := by
  have given : ∀ asked ∈ foundTrace, answers calm asked.1 = asked.2 :=
    cachedTrace_given rfl (by simp [answers, calm])
  have received : (Client.listening 0 0 []).receive foundJob.jobId
      ((acts foundTrace).flatMap (sent foundJob.jobId)) = some (.ended 0 [foundDone]) := rfl
  have ran : exec (step .defaults foundJob.jobId) (start (.sorted _) .defaults foundJob requested.keys .idle)
      (.lookUp 0 :: .subscribe ::
        (List.replicate foundTrace.length (.task 0 (answers calm)) ++ [.receive])) =
      some (after foundTrace (.ended 0 [foundDone])) := by
    rw [exec_cons, lookUp_requested, Option.bind_some, exec_cons, subscribe_start, Option.bind_some,
      exec_append, exec_job _ foundTrace_leads given, Option.bind_some]
    exact receive_after received
  exact ⟨_, ran, (stream_ends_iff_subscribed ran (quiescent_after rfl rfl)
    (.tail _ (.tail _ (.head _)))).mp ⟨0, [], rfl⟩⟩

end Poles

end InferenceForge.Api.Stream
