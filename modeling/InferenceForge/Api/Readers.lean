/-
# InferenceForge.Api.Readers — what the readers of a job see

The writer of a job, any number of `GET /results` and any number of stream clients
as one system. The writer goes through the exchanges with Redis that a request and
its task make; a read is two steps, the state and then, if that is done, the
results; a client looks up, subscribes and receives. A run is any interleaving.

A job that does not fail goes through three stages (`Protocol`), and the stage and
the number of completed tickets only grow (`Position.write`). So the reads are a
log of a growing quantity (`Logged`), and `readers_consistent` follows:

* statuses and progress never go back;
* a read that finds the job done returns the whole result list, because `finish`
  writes both in one transaction;
* a read that starts after a client has received the completion finds the job done,
  with the entries of that event, because `finish` precedes `publish_done`.
-/
import InferenceForge.Api.JobConservation
import InferenceForge.Api.Stream

namespace InferenceForge.Api.Readers

open InferenceForge.Python InferenceForge.Library InferenceForge.Pipeline
open InferenceForge.Pipeline.JobStore
open InferenceForge.Api.Stream (Client ClientInv Stopping)

set_option autoImplicit false

/-! ## The writer -/

/-- The number of exchanges of a call. -/
def exchangeCount : StoreCall → ℕ
  | .create _ => 2
  | _ => 1

/-- The exchanges of a call, by their position in it. -/
def turns (call : StoreCall) : List (StoreCall × ℕ) :=
  (List.range (exchangeCount call)).map fun i => (call, i)

/-- Redis after one exchange. -/
def exchange (settings : Settings) (jobId : String) (now : ℚ) (s : JobRedis)
    (turn : StoreCall × ℕ) : JobRedis :=
  Redis.transaction now s (((roundTrips settings jobId now turn.1)[turn.2]?).getD [])

/-- A call is its exchanges, one after the other. -/
theorem perform_eq_turns (settings : Settings) (jobId : String) (now : ℚ) (s : JobRedis)
    (call : StoreCall) :
    perform settings jobId s (now, call, .ok) = (turns call).foldl (exchange settings jobId now) s := by
  cases call <;> rfl

/-! ## The readers -/

/-- A `GET /results`: the state it has read, the clients at that moment, and its
answer once it has one. -/
structure Read where
  state : Option Hash
  clients : ℕ → Client
  answer : Option (Except Exn (Option ResultsResponse))

/-- The status a read has found; `none` is the 404. -/
def Read.status (read : Read) : Option String := read.state.map statusOf

/-- The progress a read has reported. -/
def Read.progress (read : Read) : Option ℚ :=
  match read.answer with
  | some (.ok (some response)) => response.progress
  | _ => none

/-! ## The system -/

structure System where
  /-- What the writer has yet to exchange. -/
  pending : List (StoreCall × ℕ)
  redis : JobRedis
  clients : ℕ → Client
  /-- In the order in which they started. -/
  reads : List Read

inductive Event
  | write (now : ℚ)
  | readState (now : ℚ)
  | readResults (i : ℕ) (now : ℚ)
  | lookUp (c : ℕ) (now : ℚ)
  | subscribe (c : ℕ)
  | receive (c : ℕ)

/-- A read that starts: it waits for the results if the job is done. -/
def begin (jobId : String) (now : ℚ) (w : System) : Read :=
  let state := JobStore.getState jobId now w.redis
  { state
    clients := w.clients
    answer := if state.map statusOf = some "done" then none else some (respond state none) }

def step (settings : Settings) (jobId : String) (w : System) : Event → Option System
  | .write now =>
      match w.pending with
      | turn :: rest => some { w with pending := rest, redis := exchange settings jobId now w.redis turn }
      | [] => none
  | .readState now => some { w with reads := w.reads ++ [begin jobId now w] }
  | .readResults i now =>
      match w.reads[i]? with
      | some ⟨state, clients, none⟩ =>
          let answer := respond state (JobStore.getResults jobId now w.redis)
          some { w with reads := w.reads.set i ⟨state, clients, some answer⟩ }
      | _ => none
  | .lookUp c now =>
      match w.clients c with
      | .idle =>
          let client := if jobExists jobId now w.redis then Client.found else .notFound
          some { w with clients := Function.update w.clients c client }
      | _ => none
  | .subscribe c =>
      match w.clients c with
      | .found =>
          let since := w.redis.published.length
          some { w with clients := Function.update w.clients c (.listening since since []) }
      | _ => none
  | .receive c =>
      ((w.clients c).receive jobId w.redis.published).map fun client =>
        { w with clients := Function.update w.clients c client }

/-- Before the first exchange. -/
def start (calls : List StoreCall) (redis : JobRedis) : System where
  pending := calls.flatMap turns
  redis := redis
  clients _ := .idle
  reads := []

def Event.instant? : Event → Option ℚ
  | .write now | .readState now | .readResults _ now | .lookUp _ now => some now
  | .subscribe _ | .receive _ => none

/-- No key of the job has expired. -/
def Alive (jobId : String) (now : ℚ) (s : JobRedis) : Prop :=
  ∀ key ∈ [jobKey jobId, resultsKey jobId], ∀ entry, s.keys key = some entry →
    entry.expireAt.all (fun limit => now ≤ limit) = true

def Unexpired (jobId : String) (w : System) (e : Event) : Prop :=
  ∀ now ∈ e.instant?, Alive jobId now w.redis

/-! ## What the readers may rely on -/

/-- What a read can find, in this order; `none` is the 404. -/
def phases : List (Option String) := [none, some "pending", some "processing", some "done"]

/-- How far a job is with a status. -/
def rank (status : Option String) : ℕ := phases.idxOf status

/-- The response of a read that finds the job done. -/
def finalResponse (final : List Dict) : ResultsResponse :=
  let failures := final.filter fun r => Dict.truthy r "error"
  { status := "done"
    results := some (final.filter fun r => !Dict.truthy r "error")
    failures := if failures.isEmpty then none else some failures }

/-- What a read may answer, for the status it has found. -/
inductive Answers (final : List Dict) : Option String → Except Exn (Option ResultsResponse) → Prop
  | absent : Answers final none (.ok none)
  | inProgress {status : String} {progress : ℚ} (unfinished : status ∈ ["pending", "processing"])
      (nonneg : 0 ≤ progress) (le_one : progress ≤ 1) :
      Answers final (some status) (.ok (some { status, progress := some progress }))
  | done : Answers final (some "done") (.ok (some (finalResponse final)))

/-- The reads of a job whose final list is `final`. -/
structure Consistent (final : List Dict) (reads : List Read) : Prop where
  known : ∀ read ∈ reads, read.status ∈ phases
  ordered : reads.Pairwise fun earlier later => rank earlier.status ≤ rank later.status
  progress : (reads.filterMap Read.progress).Pairwise (· ≤ ·)
  answered : ∀ read ∈ reads, ∀ answer ∈ read.answer, Answers final read.status answer
  /-- A client had received the completion when the read started. -/
  delivered : ∀ read ∈ reads, ∀ c since yielded, read.clients c = .ended since yielded →
    read.status = some "done" ∧ ∃ earlier event, yielded = earlier ++ [event] ∧
      Dict.get? event "results" = some (.array (final.map .object))

/-! ## The stages of a job -/

inductive Stage
  | pending
  | processing
  | done

def Stage.name : Stage → String
  | .pending => "pending"
  | .processing => "processing"
  | .done => "done"

/-- The calls of a job that does not fail, from a stage on. -/
inductive Protocol (final : List Dict) (stats : Dict) : Stage → List StoreCall → Prop
  | nil (stage : Stage) : Protocol final stats stage []
  | round {stage : Stage} {call : StoreCall} {rest : List StoreCall} (round : RoundCall call)
      (later : Protocol final stats stage rest) : Protocol final stats stage (call :: rest)
  | start {rest : List StoreCall} (later : Protocol final stats .processing rest) :
      Protocol final stats .pending (.start :: rest)
  | finish {rest : List StoreCall} (later : Protocol final stats .done rest) :
      Protocol final stats .processing (.finish final :: rest)
  | publishDone {rest : List StoreCall} (later : Protocol final stats .done rest) :
      Protocol final stats .done (.publishDone final stats :: rest)

/-- What a call does to a job at a stage. -/
structure Moves (final : List Dict) (stats : Dict) (stage : Stage) (call : StoreCall) (next : Stage) :
    Prop where
  forward : rank (some stage.name) ≤ rank (some next.name)
  other : ∀ total, call ≠ .create total
  writes : (written call).getD (.text stage.name) = .text next.name
  finishes : next = .done → call = .finish final ∨ stage = .done ∧ ∀ results, call ≠ .finish results
  publishes : ∀ results stats', call = .publishDone results stats' →
    next = .done ∧ results = final ∧ stats' = stats

section Stages

variable {settings : Settings} {jobId : String} {now : ℚ} {s : JobRedis} {total completed : ℕ}
  {final : List Dict} {stats : Dict} {stage next : Stage} {call : StoreCall} {fields : Hash}

theorem Protocol.moves {rest : List StoreCall} (protocol : Protocol final stats stage (call :: rest)) :
    ∃ next, Protocol final stats next rest ∧ Moves final stats stage call next := by
  cases protocol with
  | round round later =>
      refine ⟨stage, later, ?_⟩
      cases call with
      | create | start | finish | fail | publishDone => exact round.elim
      | incrementProgress | publishProgress =>
          exact ⟨le_rfl, by simp, rfl, fun done => .inr ⟨done, by simp⟩, by simp⟩
  | start later => exact ⟨.processing, later, by decide, by simp, rfl, by simp, by simp⟩
  | finish later => exact ⟨.done, later, by decide, by simp, rfl, fun _ => .inl rfl, by simp⟩
  | publishDone later =>
      refine ⟨.done, later, le_rfl, by simp, rfl, fun _ => .inr ⟨rfl, by simp⟩, ?_⟩
      rintro results stats' ⟨⟩
      exact ⟨rfl, rfl, rfl⟩

/-- What calls will count as completed. -/
def owed (calls : List StoreCall) : ℕ := (calls.map fun call => call.adds .completed).sum

/-- The fields of the hash at a stage. -/
structure Shows (total : ℕ) (stage : Stage) (completed : ℕ) (fields : Hash) : Prop where
  status : fields "status" = some (.text stage.name)
  total : fields "total" = some (.int total)
  completed : fields "completed" = some (.int completed)

theorem Shows.step (shows : Shows total stage completed fields)
    (moves : Moves final stats stage call next) :
    Shows total next (completed + call.adds .completed) (hashStep fields (now, call, .ok)) := by
  constructor
  · rw [hashStep_status shows.status]
    exact congrArg some moves.writes
  · rw [hashStep_total moves.other]
    exact shows.total
  · have counted : fields Counter.completed.field = some (.int completed) := shows.completed
    have stepped : hashStep fields (now, call, .ok) "completed" = _ := hashStep_counter moves.other counted
    rw [if_pos Reply.tookEffect_ok] at stepped
    exact_mod_cast stepped

/-- What Redis holds at a stage: with the stage done, the results are there too. -/
structure Holds (jobId : String) (total : ℕ) (final : List Dict) (stage : Stage) (completed : ℕ)
    (s : JobRedis) : Prop where
  hash : ∃ fields limit, s.keys (jobKey jobId) = some ⟨.hash fields, limit⟩ ∧
    Shows total stage completed fields
  results : stage = .done → ∃ limit, s.keys (resultsKey jobId) = some ⟨.document final, limit⟩

theorem Holds.step (holds : Holds jobId total final stage completed s)
    (moves : Moves final stats stage call next) (alive : Alive jobId now s)
    (positive : 0 < settings.jobTtlSeconds) :
    Holds jobId total final next (completed + call.adds .completed)
      (perform settings jobId s (now, call, .ok)) := by
  obtain ⟨fields, limit, stored, shows⟩ := holds.hash
  constructor
  · have unexpired := alive _ (by simp) _ stored
    exact ⟨_, limit, perform_keys settings moves.other (fun _ _ => unexpired) stored, shows.step moves⟩
  · intro done
    rcases moves.finishes done with rfl | ⟨before, unfinished⟩
    · rw [perform_results_finish rfl, if_pos positive]
      exact ⟨_, rfl⟩
    · rw [perform_results_of_ne unfinished]
      exact holds.results before

end Stages

/-! ## The writer's position -/

/-- A stage and the number of completed tickets; `none` before the job is created. -/
abbrev Snapshot := Option (Stage × ℕ)

def Snapshot.level : Snapshot → ℕ × ℕ
  | none => (rank none, 0)
  | some (stage, completed) => (rank (some stage.name), completed)

/-- The job is done. -/
def Snapshot.Done (snap : Snapshot) : Prop := rank (some "done") ≤ snap.level.1

theorem Snapshot.Done.eq {snap : Snapshot} (done : snap.Done) :
    ∃ completed, snap = some (.done, completed) := by
  cases snap with
  | none => exact absurd done (by decide : ¬ rank (some "done") ≤ rank none)
  | some reached =>
      obtain ⟨stage, completed⟩ := reached
      cases stage with
      | pending => exact absurd done (by decide : ¬ rank (some "done") ≤ rank (some "pending"))
      | processing => exact absurd done (by decide : ¬ rank (some "done") ≤ rank (some "processing"))
      | done => exact ⟨completed, rfl⟩

/-- Where the writer stands: what it has yet to exchange, what Redis holds, and the
snapshot a reader gets. -/
inductive Position (jobId : String) (total : ℕ) (final : List Dict) (stats : Dict) :
    List (StoreCall × ℕ) → JobRedis → Snapshot → Prop
  | absent {rest : List StoreCall} {s : JobRedis} (hash : s.keys (jobKey jobId) = none)
      (protocol : Protocol final stats .pending rest) (counted : owed rest ≤ total) :
      Position jobId total final stats ((.create total, 0) :: (.create total, 1) :: rest.flatMap turns)
        s none
  | created {rest : List StoreCall} {s : JobRedis} {fields : Hash}
      (stored : s.keys (jobKey jobId) = some ⟨.hash fields, none⟩) (shows : Shows total .pending 0 fields)
      (protocol : Protocol final stats .pending rest) (counted : owed rest ≤ total) :
      Position jobId total final stats ((.create total, 1) :: rest.flatMap turns) s (some (.pending, 0))
  | going {left : List StoreCall} {s : JobRedis} {stage : Stage} {completed : ℕ}
      (holds : Holds jobId total final stage completed s) (protocol : Protocol final stats stage left)
      (counted : completed + owed left ≤ total) :
      Position jobId total final stats (left.flatMap turns) s (some (stage, completed))

section Writing

variable {settings : Settings} {jobId : String} {now : ℚ} {s : JobRedis} {total : ℕ}
  {final : List Dict} {stats : Dict} {snap : Snapshot} {turn : StoreCall × ℕ}
  {rest : List (StoreCall × ℕ)}

/-- A message that stops a stream comes from a job that is done, with its results. -/
def Announced (jobId : String) (final : List Dict) (stats : Dict) (snap : Snapshot)
    (published : List (String × Dict)) : Prop :=
  ∀ m ∈ published, Stopping jobId m = true → snap.Done ∧ m.2 = doneEvent final stats

/-- What an exchange makes of a position. -/
structure Advance (jobId : String) (total : ℕ) (final : List Dict) (stats : Dict)
    (rest : List (StoreCall × ℕ)) (snap : Snapshot) (s t : JobRedis) (next : Snapshot) : Prop where
  position : Position jobId total final stats rest t next
  forward : snap.level ≤ next.level
  published : ∃ more, t.published = s.published ++ more ∧ Announced jobId final stats next more

/-- Both exchanges of `create` publish nothing. -/
theorem exchange_create_published (i : ℕ) :
    (exchange settings jobId now s (.create total, i)).published = s.published := by
  have silent : message jobId (.create total) = [] := rfl
  have quiet := roundTrips_quiet settings now silent
  have single : ∀ commands ∈ [((roundTrips settings jobId now (.create total))[i]?).getD []],
      ∀ command ∈ commands, ∀ channel m, command ≠ .publish channel m := by
    intro commands member
    obtain rfl := List.mem_singleton.mp member
    cases found : (roundTrips settings jobId now (.create total))[i]? with
    | none => simp
    | some commands => exact quiet commands (List.mem_of_getElem? found)
  exact exchanges_published single s

/-- **An exchange of the writer** moves it on, and never a reader back. -/
theorem Position.write (position : Position jobId total final stats (turn :: rest) s snap)
    (alive : Alive jobId now s) (positive : 0 < settings.jobTtlSeconds) :
    ∃ next, Advance jobId total final stats rest snap s (exchange settings jobId now s turn) next := by
  generalize pending : turn :: rest = turns at position
  cases position with
  | absent hash protocol counted =>
      cases pending
      have gone : s.live now (jobKey jobId) = none := JobStore.live_of_absent hash
      have stored := hset_keys [("status", .text "pending"), ("total", .int total),
        ("completed", .int 0), ("failed_count", .int 0), ("cache_hits", .int 0),
        ("created_at", .real now), ("started_at", .text ""), ("completed_at", .text "")]
        (hashAt_of_absent gone)
      refine ⟨some (.pending, 0), .created stored ⟨rfl, rfl, rfl⟩ protocol counted, by decide, [], ?_, ?_⟩
      · rw [exchange_create_published, List.append_nil]
      · simp [Announced]
  | created stored shows protocol counted =>
      cases pending
      have expires := expire_keys now settings.jobTtlSeconds stored
      rw [if_pos positive] at expires
      have holds : Holds jobId total final .pending 0 (exchange settings jobId now s (.create total, 1)) :=
        ⟨⟨_, _, expires, shows⟩, by simp⟩
      refine ⟨some (.pending, 0), .going holds protocol (by omega), le_rfl, [], ?_, ?_⟩
      · rw [exchange_create_published, List.append_nil]
      · simp [Announced]
  | @going left _ stage completed holds protocol counted =>
      cases left with
      | nil => cases pending
      | cons call later =>
          obtain ⟨next, protocol, moves⟩ := protocol.moves
          have single : turns call = [(call, 0)] := by
            cases call with
            | create total => exact absurd rfl (moves.other total)
            | _ => rfl
          rw [List.flatMap_cons, single] at pending
          cases pending
          have same : exchange settings jobId now s (call, 0) = perform settings jobId s (now, call, .ok) := by
            rw [perform_eq_turns, single]
            rfl
          rw [same]
          have owing : owed (call :: later) = call.adds .completed + owed later := List.sum_cons
          refine ⟨some (next, completed + call.adds .completed),
            .going (holds.step moves alive positive) protocol (by omega),
            ⟨moves.forward, Nat.le_add_right _ _⟩, _, perform_published _, ?_⟩
          intro m member stopping
          obtain ⟨results, stats', published, _, rfl⟩ := Stream.sent_stopping member stopping
          obtain ⟨rfl, rfl, rfl⟩ := moves.publishes results stats' published
          exact ⟨le_rfl, rfl⟩

end Writing

/-! ## A read of a snapshot -/

/-- The snapshot a read has got. -/
def Sees (total : ℕ) (state : Option Hash) : Snapshot → Prop
  | none => state = none
  | some (stage, completed) =>
      completed ≤ total ∧ ∃ fields, state = some fields ∧ Shows total stage completed fields

/-- The field that counts the completed tickets. -/
def completedOf (state : Hash) : ℕ :=
  match state "completed" with
  | some (.int completed) => completed.toNat
  | _ => 0

/-- How far the job is for a read. -/
def Read.level (read : Read) : ℕ × ℕ := (rank read.status, (read.state.map completedOf).getD 0)

/-- The progress a read reports for a snapshot. -/
def fraction (total completed : ℕ) : ℚ := if total ≠ 0 then round 4 (completed / total) else 0

section Reading

variable {jobId : String} {now : ℚ} {s : JobRedis} {total completed : ℕ} {final : List Dict}
  {stats : Dict} {snap : Snapshot} {stage : Stage} {fields : Hash} {read : Read}

theorem Shows.statusOf (shows : Shows total stage completed fields) :
    Api.statusOf fields = stage.name := by
  simp [Api.statusOf, shows.status, fieldText]

theorem Shows.progressOf (shows : Shows total stage completed fields) :
    Api.progressOf fields = .ok (fraction total completed) := by
  simp [Api.progressOf, shows.total, shows.completed, fieldInt, fraction, pure, Except.pure, bind,
    Except.bind]

theorem fraction_bounds (le : completed ≤ total) :
    0 ≤ fraction total completed ∧ fraction total completed ≤ 1 := by
  unfold fraction
  split
  · exact round_ratio le
  · exact ⟨le_rfl, zero_le_one⟩

theorem fraction_mono {completed' : ℕ} (le : completed ≤ completed') :
    fraction total completed ≤ fraction total completed' := by
  unfold fraction
  split
  · apply round_mono
    gcongr
  · exact le_rfl

/-- A read at a position gets its snapshot. -/
theorem Position.sees {turns : List (StoreCall × ℕ)}
    (position : Position jobId total final stats turns s snap) (alive : Alive jobId now s) :
    Sees total (JobStore.getState jobId now s) snap := by
  have found : ∀ {fields limit}, s.keys (jobKey jobId) = some ⟨.hash fields, limit⟩ →
      JobStore.getState jobId now s = some fields := by
    intro fields limit stored
    have live := live_eq_some.mpr ⟨stored, alive _ (by simp) _ stored⟩
    simp only [JobStore.getState, Redis.hgetall, live]
  cases position with
  | absent hash protocol counted =>
      simp [Sees, JobStore.getState, Redis.hgetall, Redis.Server.live, hash]
  | created stored shows protocol counted => exact ⟨Nat.zero_le _, _, found stored, shows⟩
  | going holds protocol counted =>
      obtain ⟨fields, limit, stored, shows⟩ := holds.hash
      exact ⟨by omega, fields, found stored, shows⟩

/-- A read of the results of a job that is done gets the final list. -/
theorem Position.results {turns : List (StoreCall × ℕ)}
    (position : Position jobId total final stats turns s snap) (alive : Alive jobId now s)
    (done : snap.Done) : JobStore.getResults jobId now s = some final := by
  obtain ⟨completed, rfl⟩ := done.eq
  cases position with
  | going holds protocol counted =>
      obtain ⟨limit, stored⟩ := holds.results rfl
      have live := live_eq_some.mpr ⟨stored, alive _ (by simp) _ stored⟩
      simp only [JobStore.getResults, Redis.get, live]

theorem Sees.level (sees : Sees total read.state snap) : read.level = snap.level := by
  obtain ⟨state, clients, answer⟩ := read
  cases snap with
  | none =>
      obtain rfl : state = none := sees
      rfl
  | some reached =>
      obtain ⟨stage, completed⟩ := reached
      obtain ⟨_, fields, rfl, shows⟩ := sees
      simp [Read.level, Read.status, Snapshot.level, shows.statusOf, completedOf, shows.completed]

/-- The status a read has found. -/
theorem Sees.status (sees : Sees total read.state snap) :
    read.status = snap.map fun reached => reached.1.name := by
  cases snap with
  | none =>
      have absent : read.state = none := sees
      simp [Read.status, absent]
  | some reached =>
      obtain ⟨_, fields, found, shows⟩ := sees
      simp [Read.status, found, shows.statusOf]

theorem Sees.done (sees : Sees total read.state snap) (done : read.status = some "done") : snap.Done := by
  rw [sees.status] at done
  obtain ⟨⟨stage, completed⟩, rfl, name⟩ := Option.map_eq_some_iff.mp done
  have named : rank (some stage.name) = rank (some "done") := congrArg (rank ∘ some) name
  exact named.ge

/-- The results do not matter for a read that has not found the job done. -/
theorem respond_of_unfinished {state : Option Hash} (unfinished : state.map Api.statusOf ≠ some "done")
    (results results' : Option (List Dict)) : respond state results = respond state results' := by
  cases state with
  | none => rfl
  | some fields =>
      have other : Api.statusOf fields ≠ "done" := by simpa using unfinished
      simp only [respond, if_neg other]

/-- What a read answers, for the snapshot it has got. -/
theorem Sees.respond {state : Option Hash} (sees : Sees total state snap) :
    respond state (some final) = match snap with
      | none => .ok none
      | some (.done, _) => .ok (some (finalResponse final))
      | some (stage, completed) =>
          .ok (some { status := stage.name, progress := some (fraction total completed) }) := by
  cases snap with
  | none =>
      obtain rfl : state = none := sees
      rfl
  | some reached =>
      obtain ⟨stage, completed⟩ := reached
      obtain ⟨_, fields, rfl, shows⟩ := sees
      have status := shows.statusOf
      have progress := shows.progressOf
      cases stage <;> simp [Api.respond, status, progress, Stage.name, finalResponse, bind,
        Except.bind, pure, Except.pure]

/-- A read that has got `snap`, and its answer if it has one. -/
structure Sound (total : ℕ) (final : List Dict) (stats : Dict) (read : Read) (snap : Snapshot) :
    Prop where
  sees : Sees total read.state snap
  waiting : read.answer = none → snap.Done
  answered : ∀ answer ∈ read.answer, answer = respond read.state (some final)
  delivered : ∀ c since yielded, read.clients c = .ended since yielded →
    snap.Done ∧ ∃ earlier, yielded = earlier ++ [doneEvent final stats]

end Reading

/-! ## The invariant -/

section Invariant

variable {settings : Settings} {jobId : String} {now : ℚ} {total : ℕ} {final : List Dict}
  {stats : Dict} {snap : Snapshot} {w t : System} {e : Event}

structure Inv (jobId : String) (total : ℕ) (final : List Dict) (stats : Dict) (w : System)
    (snap : Snapshot) : Prop where
  position : Position jobId total final stats w.pending w.redis snap
  logged : Logged (w.reads.map Read.level) snap.level
  announced : Announced jobId final stats snap w.redis.published
  clients : ∀ c, ClientInv jobId w.redis.published (w.clients c)
  sound : ∀ read ∈ w.reads, ∃ seen, Sound total final stats read seen

/-- The writer's step. -/
theorem Inv.write {next : Snapshot} {s : JobRedis} {rest : List (StoreCall × ℕ)}
    (inv : Inv jobId total final stats w snap)
    (advance : Advance jobId total final stats rest snap w.redis s next) :
    Inv jobId total final stats { w with pending := rest, redis := s } next := by
  obtain ⟨more, published, announced⟩ := advance.published
  refine ⟨advance.position, inv.logged.grow advance.forward, ?_, fun c => ?_, inv.sound⟩
  · intro m member stopping
    rw [published] at member
    rcases List.mem_append.mp member with member | member
    · obtain ⟨done, same⟩ := inv.announced m member stopping
      exact ⟨done.trans advance.forward.1, same⟩
    · exact announced m member stopping
  · rw [published]
    exact (inv.clients c).append more

/-- A client that has ended was told what `finish` has stored. -/
theorem Inv.ended (inv : Inv jobId total final stats w snap) {c since : ℕ} {yielded : List Dict}
    (ended : w.clients c = .ended since yielded) :
    snap.Done ∧ ∃ earlier, yielded = earlier ++ [doneEvent final stats] := by
  have seen := inv.clients c
  rw [ended] at seen
  obtain ⟨i, m, earlier, _, read, stopping, rfl⟩ := seen
  obtain ⟨done, same⟩ := inv.announced m (List.mem_of_getElem? read) stopping
  exact ⟨done, earlier, by rw [same]⟩

/-- A read that starts is sound. -/
theorem Inv.begin (inv : Inv jobId total final stats w snap) (alive : Alive jobId now w.redis) :
    Sound total final stats (begin jobId now w) snap := by
  have sees : Sees total (Readers.begin jobId now w).state snap := inv.position.sees alive
  refine ⟨sees, fun waiting => ?_, fun answer given => ?_, fun c since yielded => inv.ended⟩
  · simp only [Readers.begin] at waiting
    split at waiting
    · next done => exact sees.done done
    · cases waiting
  · simp only [Readers.begin] at given
    split at given
    · cases given
    · next unfinished =>
        cases given
        exact respond_of_unfinished unfinished none (some final)

/-- The second step of a read finds the final list. -/
theorem Inv.readResults (inv : Inv jobId total final stats w snap) (alive : Alive jobId now w.redis)
    {i : ℕ} {state : Option Hash} {clients : ℕ → Client}
    (waits : w.reads[i]? = some ⟨state, clients, none⟩) :
    let answer := respond state (JobStore.getResults jobId now w.redis)
    Inv jobId total final stats { w with reads := w.reads.set i ⟨state, clients, some answer⟩ } snap := by
  obtain ⟨bound, there⟩ := List.getElem?_eq_some_iff.mp waits
  obtain ⟨seen, sound⟩ := inv.sound _ (List.mem_of_getElem? waits)
  -- the job was done when the read started, so it is done now
  have reached : seen.level ≤ snap.level := by
    rw [← sound.sees.level]
    exact inv.logged.passed _ (List.mem_map_of_mem (List.mem_of_getElem? waits))
  have done : snap.Done := (sound.waiting rfl).trans reached.1
  rw [inv.position.results alive done]
  refine ⟨inv.position, ?_, inv.announced, inv.clients, fun read member => ?_⟩
  · have inside : i < (w.reads.map Read.level).length := by simpa using bound
    have same : Read.level ⟨state, clients, some (respond state (some final))⟩ =
        (w.reads.map Read.level)[i] := by
      rw [List.getElem_map, there]
      rfl
    rw [List.map_set, same, List.set_getElem_self]
    exact inv.logged
  · rcases List.mem_or_eq_of_mem_set member with member | rfl
    · exact inv.sound read member
    · refine ⟨seen, sound.sees, by simp, fun answer given => ?_, sound.delivered⟩
      cases given
      rfl

/-- A step of a client. -/
theorem Inv.client (inv : Inv jobId total final stats w snap) {c : ℕ} {client : Client}
    (seen : ClientInv jobId w.redis.published client) :
    Inv jobId total final stats { w with clients := Function.update w.clients c client } snap := by
  refine ⟨inv.position, inv.logged, inv.announced, fun d => ?_, inv.sound⟩
  by_cases same : d = c
  · subst same
    simpa using seen
  · simpa [Function.update_of_ne same] using inv.clients d

/-- **Every step keeps the invariant**, as long as no key has expired. -/
theorem Inv.step (inv : Inv jobId total final stats w snap) (positive : 0 < settings.jobTtlSeconds)
    (alive : Unexpired jobId w e) (stepped : step settings jobId w e = some t) :
    ∃ next, Inv jobId total final stats t next := by
  cases e with
  | write now =>
      simp only [Readers.step] at stepped
      split at stepped
      · next turn rest pending =>
          cases stepped
          have position := inv.position
          rw [pending] at position
          obtain ⟨next, advance⟩ := position.write (alive now rfl) positive
          exact ⟨next, inv.write advance⟩
      · cases stepped
  | readState now =>
      cases stepped
      have sound := inv.begin (alive now rfl)
      refine ⟨snap, inv.position, ?_, inv.announced, inv.clients, fun read member => ?_⟩
      · rw [List.map_append, List.map_singleton, sound.sees.level]
        exact inv.logged.record
      · rcases List.mem_append.mp member with member | member
        · exact inv.sound read member
        · rw [List.mem_singleton.mp member]
          exact ⟨snap, sound⟩
  | readResults i now =>
      simp only [Readers.step] at stepped
      split at stepped
      · next state clients waits =>
          cases stepped
          exact ⟨snap, inv.readResults (alive now rfl) waits⟩
      · cases stepped
  | lookUp c now =>
      simp only [Readers.step] at stepped
      split at stepped
      · cases stepped
        refine ⟨snap, inv.client ?_⟩
        split <;> trivial
      · cases stepped
  | subscribe c =>
      simp only [Readers.step] at stepped
      split at stepped
      · cases stepped
        refine ⟨snap, inv.client ⟨le_rfl, le_rfl, fun i m from_here before => ?_⟩⟩
        omega
      · cases stepped
  | receive c =>
      obtain ⟨client, received, same⟩ := Option.map_eq_some_iff.mp stepped
      cases same
      exact ⟨snap, inv.client (Stream.receive_inv (inv.clients c) received)⟩

/-! ## What the invariant says -/

section Reads

variable {read : Read} {seen : Snapshot}

theorem Sound.answers (sound : Sound total final stats read seen) :
    ∀ answer ∈ read.answer, Answers final read.status answer := by
  intro answer given
  rw [sound.answered answer given, sound.sees.respond, sound.sees.status]
  have sees := sound.sees
  cases seen with
  | none => exact .absent
  | some reached =>
      obtain ⟨stage, completed⟩ := reached
      obtain ⟨nonneg, le_one⟩ := fraction_bounds sees.1
      cases stage with
      | pending => exact .inProgress (by simp [Stage.name]) nonneg le_one
      | processing => exact .inProgress (by simp [Stage.name]) nonneg le_one
      | done => exact .done

theorem Sound.progress (sound : Sound total final stats read seen) {progress : ℚ}
    (reported : read.progress = some progress) : progress = fraction total read.level.2 := by
  rw [sound.sees.level]
  unfold Read.progress at reported
  split at reported
  · next response given =>
      have same := sound.answered _ given
      rw [sound.sees.respond] at same
      cases seen with
      | none => cases same
      | some reached =>
          obtain ⟨stage, completed⟩ := reached
          cases stage with
          | done =>
              cases same
              cases reported
          | pending | processing =>
              cases same
              exact (Option.some.inj reported).symm
  · cases reported

end Reads

theorem Inv.consistent (inv : Inv jobId total final stats w snap) : Consistent final w.reads := by
  have sorted := List.pairwise_map.mp inv.logged.sorted
  constructor
  · intro read member
    obtain ⟨seen, sound⟩ := inv.sound read member
    rw [sound.sees.status]
    cases seen with
    | none => simp [phases]
    | some reached =>
        obtain ⟨stage, completed⟩ := reached
        cases stage <;> simp [phases, Stage.name]
  · exact sorted.imp fun le => le.1
  · rw [List.pairwise_filterMap]
    refine sorted.imp_of_mem fun {earlier later} before after le p first q second => ?_
    obtain ⟨_, sound⟩ := inv.sound earlier before
    obtain ⟨_, sound'⟩ := inv.sound later after
    rw [sound.progress first, sound'.progress second]
    exact fraction_mono le.2
  · intro read member
    obtain ⟨seen, sound⟩ := inv.sound read member
    exact sound.answers
  · intro read member c since yielded ended
    obtain ⟨seen, sound⟩ := inv.sound read member
    obtain ⟨done, earlier, rfl⟩ := sound.delivered c since yielded ended
    obtain ⟨completed, rfl⟩ := done.eq
    exact ⟨sound.sees.status, earlier, doneEvent final stats, rfl, rfl⟩

/-- Nothing has been exchanged. -/
theorem inv_start {rest : List StoreCall} {s : JobRedis} (fresh : s.keys (jobKey jobId) = none)
    (silent : ∀ m ∈ s.published, m.1 ≠ eventChannel jobId)
    (protocol : Protocol final stats .pending rest) (counted : owed rest ≤ total) :
    Inv jobId total final stats (start (.create total :: rest) s) none := by
  refine ⟨.absent fresh protocol counted, logged_nil _, ?_, fun _ => trivial, by simp [start]⟩
  intro m member stopping
  have own : m.1 = eventChannel jobId := by
    simp only [Stopping, Bool.and_eq_true, decide_eq_true_eq] at stopping
    exact stopping.1
  exact absurd own (silent m member)

/-- The reads of a job that does not fail. -/
theorem consistent_of_protocol {rest : List StoreCall} {s : JobRedis} {events : List Event}
    (fresh : s.keys (jobKey jobId) = none) (silent : ∀ m ∈ s.published, m.1 ≠ eventChannel jobId)
    (protocol : Protocol final stats .pending rest) (counted : owed rest ≤ total)
    (positive : 0 < settings.jobTtlSeconds)
    (ran : exec (step settings jobId) (start (.create total :: rest) s) events = some w)
    (alive : Along (step settings jobId) (Unexpired jobId) (start (.create total :: rest) s) events) :
    Consistent final w.reads := by
  have first := inv_start fresh silent protocol counted
  have keeps : ∀ w e t, (∃ snap, Inv jobId total final stats w snap) → Unexpired jobId w e →
      step settings jobId w e = some t → ∃ next, Inv jobId total final stats t next :=
    fun w e t ⟨_, inv⟩ unexpired stepped => inv.step positive unexpired stepped
  obtain ⟨_, inv⟩ := exec_invariant_along keeps events _ w ⟨none, first⟩ alive ran
  exact inv.consistent

end Invariant

/-! ## The calls of a request and its task -/

theorem Protocol.rounds {final : List Dict} {stats : Dict} {stage : Stage} {calls rest : List StoreCall}
    (rounds : ∀ call ∈ calls, RoundCall call) (later : Protocol final stats stage rest) :
    Protocol final stats stage (calls ++ rest) := by
  induction calls with
  | nil => exact later
  | cons call more ih =>
      exact .round (rounds call List.mem_cons_self)
        (ih fun call member => rounds call (List.mem_cons_of_mem _ member))

/-- With every call answered, what is owed is what the calls add up to. -/
theorem owed_eq_tally {calls : List Act} (quiet : ∀ act ∈ calls, act.2 = .ok) :
    owed (calls.map Prod.fst) = tally .completed calls := by
  rw [owed, tally, List.map_map]
  congr 1
  refine List.map_congr_left fun act member => ?_
  rw [quiet act member]
  rfl

section Request

variable {Q : TicketQueue} {settings : Settings} {host : Host} {body : ProcessRequest settings}

/-- The list a job ends with: the entries found in the cache, and one for each
unique ticket, of how that ticket ended. -/
structure Complete (sub : Submission Q settings host body) (final : List Dict) : Prop where
  whole : ∃ (found : Dedup) (settled : List Settlement),
    Deduplicated host (fun _ cached => Written settings host cached) body.tickets found ∧
    sub.job = found.job sub.response.jobId body.tickets.length ∧
    (settled.map Prod.fst : Multiset Entry) = (enumerate found.uniqueTickets : Multiset Entry) ∧
    (∀ s ∈ settled, FromTicket settings host s.1 s.2) ∧
    final = found.preCachedResults ++ settled.map record

/-- A request and its task follow the protocol, if nothing raises. -/
theorem submission_protocol (sub : Submission Q settings host body) (quiet : ∀ act ∈ sub.calls, act.2 = .ok)
    (cache : Known (fun _ cached => Written settings host cached) sub.postTrace)
    (batches : Held (Settled (FromTicket settings host) False) sub.jobTrace) :
    ∃ final stats rest, Complete sub final ∧
      sub.calls.map Prod.fst = .create body.tickets.length :: rest ∧
      Protocol final stats .pending rest ∧ owed rest ≤ body.tickets.length := by
  obtain ⟨found, dedup, job, total, posted⟩ := sub.shape cache
  have calls := sub.calls_eq posted
  have quiet_rest : ∀ act ∈ countCalls found ++ acts sub.jobTrace, act.2 = .ok :=
    fun act member => quiet act (calls ▸ List.mem_cons_of_mem _ member)
  have quiet_job : ∀ act ∈ acts sub.jobTrace, act.2 = .ok :=
    (List.forall_mem_append.mp quiet_rest).2
  have numeric : ∀ entry ∈ sub.job.preCachedResults, NumericTokens entry := by
    intro entry member
    rw [job] at member
    obtain ⟨ticket, cached, written, rfl⟩ := dedup.cached entry member
    exact (written.numericTokens.set (by decide) _).set (by decide) _
  have run := processJob_runs sub.ran batches
  obtain ⟨_, results, finish⟩ := run.completes quiet_job numeric fun _ => FromTicket.numeric
  obtain ⟨rounds, totals, settled, tokens, percentiles, duration, ledger, did⟩ := run.all_ok quiet_job finish
  refine ⟨totals.results, finalStats settings sub.job totals tokens percentiles duration,
    (countCalls found ++ acts sub.jobTrace).map Prod.fst, ⟨found, settled, dedup, job, ?_, ledger.known, ?_⟩,
    by rw [calls]; rfl, ?_, ?_⟩
  · have conserved := ledger.conserved
    rw [add_zero, job] at conserved
    exact conserved.symm
  · rw [ledger.results, job]
    rfl
  · have counting : ∀ call ∈ (countCalls found).map Prod.fst, RoundCall call :=
      List.forall_mem_map.mpr fun act member => (countCalls_quiet found act member).1
    have rounding : ∀ call ∈ rounds.map Prod.fst, RoundCall call := List.forall_mem_map.mpr ledger.rounds
    rw [List.map_append, did, List.map_cons, List.map_append]
    exact .rounds counting (.start (.rounds rounding (.finish (.publishDone (.nil _)))))
  · rw [owed_eq_tally quiet_rest]
    rcases (RequestRun.accepted sub rfl).shape with none | ⟨reply, rest, same, _, _, counted⟩
    · rw [calls] at none
      cases none
    · rw [calls] at same
      cases same
      exact counted

end Request

/-! ## Poles -/

section Poles

variable {settings : Settings} {jobId : String} {now : ℚ} {s : JobRedis}

/-- No key is gone by `now`. -/
def Fresh (now : ℚ) (s : JobRedis) : Prop :=
  ∀ key entry, s.keys key = some entry → entry.expireAt.all (fun limit => now ≤ limit) = true

theorem Fresh.put (fresh : Fresh now s) {key : String} {entry : Option (Redis.Entry (List Dict))}
    (later : ∀ there, entry = some there → there.expireAt.all (fun limit => now ≤ limit) = true) :
    Fresh now (s.put key entry) := by
  intro other there stored
  have stored : Function.update s.keys key entry other = some there := stored
  by_cases same : other = key
  · subst same
    rw [Function.update_self] at stored
    exact later there stored
  · rw [Function.update_of_ne same] at stored
    exact fresh other there stored

/-- What a command writes at `now` does not expire before. -/
theorem Fresh.run (fresh : Fresh now s) (command : JobCommand) : Fresh now (Redis.run now s command) := by
  cases command with
  | publish channel message => exact fresh
  | set key document => exact fresh.put fun there same => by cases same; rfl
  | hset key mapping =>
      cases here : s.hashAt now key with
      | none => rwa [Redis.documented.hset_refused _ here]
      | some found =>
          rw [Redis.documented.hset _ here]
          exact fresh.put fun there same => by cases same; exact hashAt_limit here
  | hincrby key field amount =>
      cases here : s.hashAt now key with
      | none => rwa [Redis.documented.hincrby_refused _ _ here]
      | some found =>
          rw [Redis.documented.hincrby _ _ here]
          exact fresh.put fun there same => by cases same; exact hashAt_limit here
  | expire key seconds =>
      cases here : s.live now key with
      | none => rwa [Redis.documented.expire_absent _ here]
      | some entry =>
          rw [Redis.documented.expire _ here]
          refine fresh.put fun there same => ?_
          split at same
          · next positive =>
              cases same
              have later : (0 : ℚ) ≤ seconds := by exact_mod_cast positive.le
              simpa using later
          · cases same

theorem Fresh.exchange (fresh : Fresh now s) (turn : StoreCall × ℕ) :
    Fresh now (exchange settings jobId now s turn) := by
  unfold Readers.exchange Redis.transaction
  generalize ((roundTrips settings jobId now turn.1)[turn.2]?).getD [] = commands
  induction commands generalizing s with
  | nil => exact fresh
  | cons command rest ih => exact ih (fresh.run command)

/-- Nothing expires in a run at one instant. -/
theorem along_at_instant (now : ℚ) (events : List Event) :
    ∀ {w : System}, Fresh now w.redis → (∀ e ∈ events, ∀ instant ∈ e.instant?, instant = now) →
      Along (step settings jobId) (Unexpired jobId) w events := by
  induction events with
  | nil => exact fun _ _ => trivial
  | cons e rest ih =>
      intro w fresh single
      obtain ⟨here, later⟩ := List.forall_mem_cons.mp single
      refine ⟨fun instant given => ?_, fun t stepped => ih ?_ later⟩
      · rw [here instant given]
        exact fun key _ entry stored => fresh key entry stored
      · cases e with
        | write instant =>
            obtain rfl : instant = now := here instant rfl
            simp only [step] at stepped
            split at stepped
            · cases stepped
              exact fresh.exchange _
            · cases stepped
        | readState instant =>
            cases stepped
            exact fresh
        | readResults i instant | lookUp c instant | subscribe c =>
            simp only [step] at stepped
            split at stepped
            · cases stepped
              exact fresh
            · cases stepped
        | receive c =>
            obtain ⟨client, _, same⟩ := Option.map_eq_some_iff.mp stepped
            cases same
            exact fresh

/-- A read at each stage, and a client that receives the progress and the completion; the last
read begins before the completion is published and ends after it. -/
def observed : List Event :=
  [.write 0, .write 0, .readState 0, .lookUp 0 0, .subscribe 0, .write 0, .write 0, .readState 0,
    .write 0, .write 0, .receive 0, .write 0, .readState 0, .write 0, .receive 0, .readResults 2 0]

end Poles
end InferenceForge.Api.Readers
