/-
# InferenceForge.Api.JobStatus — the life of the status field

The values the status field takes while `_process_job` runs, each awaited call
raising or not as it may. They are a path of `pending → processing → done` or
`failed` exactly when `finish` does not take effect together with the write of
the failed status (`status_path_iff`): the handler covers also what follows
`finish`, so an error reported by a `finish` that was applied, or by
`publish_done`, turns a done job into a failed one (`done_then_failed`).
-/
import InferenceForge.Api.JobRuns
import InferenceForge.Pipeline.JobStoreRuns

namespace InferenceForge.Api

open InferenceForge.Python InferenceForge.Library InferenceForge.Pipeline
open InferenceForge.Pipeline.JobStore

set_option autoImplicit false

/-! ## The field -/

/-- The status a reader finds at instant `now`. -/
def statusAt (jobId : String) (now : ℚ) (s : JobRedis) : Option Field :=
  (getState jobId now s).bind fun fields => fields "status"

/-- The values of the field after each call, as long as it has one. -/
def statusesFrom (settings : Settings) (jobId : String) : JobRedis → List (ℚ × Act) → List Field
  | _, [] => []
  | s, act :: rest =>
      let after := perform settings jobId s act
      (statusAt jobId act.1 after).toList ++ statusesFrom settings jobId after rest

/-- The values of the field, from instant `begun` before the first call on. -/
def statuses (settings : Settings) (jobId : String) (begun : ℚ) (s : JobRedis)
    (timed : List (ℚ × Act)) : List Field :=
  (statusAt jobId begun s).toList ++ statusesFrom settings jobId s timed

/-- The field keeps its value or moves on. -/
def StatusStep (before after : Field) : Prop :=
  before = after ∨ (before, after) ∈
    [(.text "pending", .text "processing"), (.text "processing", .text "done"),
      (.text "processing", .text "failed")]

/-! ## The field without the rest of the hash -/

/-- Every call moves the last status written as `StatusStep` allows. -/
def Path : Field → List Act → Prop
  | _, [] => True
  | status, act :: rest => StatusStep status (statusAfter status act) ∧ Path (statusAfter status act) rest

theorem path_append (status : Field) (before after : List Act) :
    Path status (before ++ after) ↔
      Path status before ∧ Path (before.foldl statusAfter status) after := by
  induction before generalizing status with
  | nil => simp [Path]
  | cons act rest ih =>
      rw [List.cons_append, Path, ih, Path, and_assoc]
      rfl

section Field

variable {settings : Settings} {jobId : String} {now : ℚ} {s : JobRedis}

/-- The job's key holds a hash whose status, if it has one, is the last one written. -/
def Stored (jobId : String) (status : Field) (s : JobRedis) : Prop :=
  ∀ entry, s.keys (jobKey jobId) = some entry →
    ∃ fields, entry.value = .hash fields ∧ ∀ value, fields "status" = some value → value = status

theorem Stored.hashAt {status : Field} (stored : Stored jobId status s) (now : ℚ) :
    ∃ fields limit, s.hashAt now (jobKey jobId) = some (fields, limit) ∧
      ∀ value, fields "status" = some value → value = status := by
  cases found : s.live now (jobKey jobId) with
  | none => exact ⟨_, _, hashAt_of_absent found, by simp⟩
  | some entry =>
      obtain ⟨there, alive⟩ := live_eq_some.mp found
      obtain ⟨value, limit⟩ := entry
      obtain ⟨fields, rfl, same⟩ := stored _ there
      exact ⟨fields, limit, hashAt_of_keys there alive, same⟩

theorem statusAt_of_hashAt {fields : Hash} {limit : Option ℚ}
    (stored : s.keys (jobKey jobId) = some ⟨.hash fields, limit⟩)
    (alive : limit.all (fun l => now ≤ l) = true) : statusAt jobId now s = fields "status" := by
  have found : s.live now (jobKey jobId) = some ⟨.hash fields, limit⟩ :=
    live_eq_some.mpr ⟨stored, alive⟩
  simp only [statusAt, getState, Redis.hgetall, found, Option.bind_some]

theorem Stored.statusAt {status value : Field} (stored : Stored jobId status s)
    (read : statusAt jobId now s = some value) : value = status := by
  cases found : s.live now (jobKey jobId) with
  | none => simp [Api.statusAt, getState, Redis.hgetall, found] at read
  | some entry =>
      obtain ⟨there, alive⟩ := live_eq_some.mp found
      obtain ⟨content, limit⟩ := entry
      obtain ⟨fields, rfl, same⟩ := stored _ there
      rw [statusAt_of_hashAt there alive] at read
      exact same value read

/-- A call leaves the last status written in the field, or no value at all when
the hash has expired and the call writes no status. -/
theorem perform_status (settings : Settings) (now : ℚ) {call : StoreCall} (reply : Reply)
    {status : Field}
    (other : ∀ total, call ≠ .create total) (stored : Stored jobId status s) :
    Stored jobId (statusAfter status (call, reply))
        (perform settings jobId s (now, call, reply)) ∧
      (statusAt jobId now (perform settings jobId s (now, call, reply)) = none ∧
          statusAfter status (call, reply) = status ∨
        statusAt jobId now (perform settings jobId s (now, call, reply)) =
          some (statusAfter status (call, reply))) := by
  obtain ⟨fields, limit, here, same⟩ := stored.hashAt now
  have after := perform_hash settings call reply other here
  by_cases writes : reply.tookEffect = true ∧ call.writesHash = true
  · rw [if_pos writes] at after
    have moved : statusAfter status (call, reply) = (written call).getD status := if_pos writes.1
    have read := statusAt_of_hashAt after (hashAt_limit here)
    rw [hashWrites_status] at read
    rw [moved, read]
    cases writing : written call with
    | none =>
        refine ⟨?_, ?_⟩
        · intro entry there
          cases after.symm.trans there
          refine ⟨_, rfl, fun value found => ?_⟩
          rw [hashWrites_status, writing] at found
          exact same value found
        · cases found : fields "status" with
          | none => exact .inl ⟨rfl, rfl⟩
          | some value => exact .inr (congrArg some (same value found))
    | some value =>
        refine ⟨?_, .inr rfl⟩
        intro entry there
        cases after.symm.trans there
        refine ⟨_, rfl, fun value' found => ?_⟩
        rw [hashWrites_status, writing] at found
        exact (Option.some.inj found).symm
  · rw [if_neg writes] at after
    have kept : statusAfter status (call, reply) = status := by
      cases took : reply.tookEffect with
      | false => simp [statusAfter, took]
      | true =>
          have quiet : call.writesHash = false := by simpa [took] using writes
          simp [statusAfter, written_of_quiet quiet]
    have still : Stored jobId status (perform settings jobId s (now, call, reply)) := by
      intro entry there
      exact stored entry (after.symm.trans there)
    rw [kept]
    refine ⟨still, ?_⟩
    cases read : Api.statusAt jobId now (perform settings jobId s (now, call, reply)) with
    | none => exact .inl ⟨rfl, rfl⟩
    | some value => exact .inr (congrArg some (still.statusAt read))

/-- The values of the field are a path exactly when the calls move it along one. -/
theorem statusesFrom_isChain_iff {timed : List (ℚ × Act)} {status : Field}
    (stored : Stored jobId status s) (others : ∀ act ∈ timed, ∀ total, act.2.1 ≠ .create total) :
    (status :: statusesFrom settings jobId s timed).IsChain StatusStep ↔
      Path status (timed.map Prod.snd) := by
  induction timed generalizing s status with
  | nil => simp [statusesFrom, Path]
  | cons act rest ih =>
      obtain ⟨now, call, reply⟩ := act
      obtain ⟨still, read⟩ := perform_status settings now reply
        (others _ List.mem_cons_self) stored
      have later := ih still fun act member => others act (List.mem_cons_of_mem _ member)
      rw [List.map_cons, Path, ← later, statusesFrom]
      rcases read with ⟨gone, kept⟩ | found
      · rw [kept] at later ⊢
        simp only [gone, Option.toList_none, List.nil_append]
        exact (and_iff_right (.inl rfl)).symm
      · simp only [found, Option.toList_some, List.singleton_append]
        exact List.isChain_cons_cons

theorem Stored.of_statusAt {status : Field} (there : Api.statusAt jobId now s = some status) :
    Stored jobId status s := by
  simp only [Api.statusAt, getState, Redis.hgetall, Option.bind_eq_some_iff] at there
  obtain ⟨fields, read, value⟩ := there
  split at read
  · next fields' limit found =>
      cases read
      intro entry stored
      cases (live_eq_some.mp found).1.symm.trans stored
      exact ⟨fields, rfl, fun other same => Option.some.inj (same.symm.trans value)⟩
  · cases read

theorem statuses_isChain_iff {begun : ℚ} {timed : List (ℚ × Act)} {status : Field}
    (there : statusAt jobId begun s = some status)
    (others : ∀ act ∈ timed, ∀ total, act.2.1 ≠ .create total) :
    (statuses settings jobId begun s timed).IsChain StatusStep ↔
      Path status (timed.map Prod.snd) := by
  rw [statuses, there]
  exact statusesFrom_isChain_iff (.of_statusAt there) others

end Field

/-! ## Every run of a job -/

/-- The call raises although the job is committed as done: `finish` with its
transaction applied, or `publish_done`. -/
def Late : Act → Prop
  | (.finish _, .raised _ applied) => 0 < applied
  | (.publishDone .., .raised ..) => True
  | _ => False

/-- The call writes the failed status. -/
def WritesFailed : Act → Prop
  | (.fail _, reply) => reply.tookEffect = true
  | _ => False

/-- The job is committed as done and written as failed. -/
def Overwritten (calls : List Act) : Prop :=
  (∃ act ∈ calls, Late act) ∧ ∃ act ∈ calls, WritesFailed act

section Job

variable {Q : TicketQueue} {settings : Settings} {job : Job}

/-- The rounds keep the status. -/
theorem roundCalls_status {calls : List Act} (quiet : ∀ act ∈ calls, RoundCall act.1)
    (status : Field) : Path status calls ∧ calls.foldl statusAfter status = status := by
  induction calls with
  | nil => exact ⟨trivial, rfl⟩
  | cons act rest ih =>
      have same : statusAfter status act = status := by
        obtain ⟨call, reply⟩ := act
        have round := quiet _ List.mem_cons_self
        cases call with
        | create | start | finish | fail | publishDone => exact round.elim
        | incrementProgress | publishProgress => simp [statusAfter, written]
      obtain ⟨path, final⟩ := ih fun act member => quiet act (List.mem_cons_of_mem _ member)
      refine ⟨⟨.inl same.symm, ?_⟩, ?_⟩
      · rwa [same]
      · rw [List.foldl_cons, same, final]

/-- A started job is processing until its last calls. -/
theorem path_started {rounds : List Act} (quiet : ∀ act ∈ rounds, RoundCall act.1)
    (rest : List Act) :
    Path (.text "pending") ((.start, .ok) :: (rounds ++ rest)) ↔
      Path (.text "processing") rest := by
  obtain ⟨path, final⟩ := roundCalls_status quiet (.text "processing")
  show StatusStep (.text "pending") (.text "processing") ∧ Path (.text "processing") _ ↔ _
  rw [path_append, final]
  constructor
  · exact fun ⟨_, _, later⟩ => later
  · exact fun later => ⟨.inr (by simp), path, later⟩

/-- Nothing before the last calls makes a job overwritten. -/
theorem overwritten_started {rounds : List Act} (quiet : ∀ act ∈ rounds, RoundCall act.1)
    (rest : List Act) : Overwritten ((.start, .ok) :: (rounds ++ rest)) ↔ Overwritten rest := by
  have drop : ∀ P : Act → Prop, ¬ P (.start, .ok) →
      (∀ act : Act, RoundCall act.1 → ¬ P act) →
      ((∃ act ∈ (StoreCall.start, Reply.ok) :: (rounds ++ rest), P act) ↔ ∃ act ∈ rest, P act) := by
    intro P first others
    constructor
    · rintro ⟨act, member, holds⟩
      rcases List.mem_cons.mp member with rfl | member
      · exact absurd holds first
      · rcases List.mem_append.mp member with member | member
        · exact absurd holds (others act (quiet act member))
        · exact ⟨act, member, holds⟩
    · rintro ⟨act, member, holds⟩
      exact ⟨act, List.mem_cons_of_mem _ (List.mem_append_right _ member), holds⟩
  have late := drop Late id fun ⟨call, reply⟩ round => by
    cases call <;> first | exact id | exact round.elim
  have writes := drop WritesFailed id fun ⟨call, reply⟩ round => by
    cases call <;> first | exact id | exact round.elim
  exact and_congr late writes

/-- Without a write of the failed status the last calls stay on the path. -/
theorem Ending.path {last : List Act} {result : Except Exn Unit} (ending : Ending last result) :
    Path (.text "processing") last ∧ ¬ Overwritten last := by
  cases ending with
  | interrupted e => simp [Path, Overwritten]
  | finish results e applied =>
      refine ⟨⟨?_, trivial⟩, by simp [Overwritten, WritesFailed]⟩
      cases took : Reply.tookEffect (.raised e applied) <;>
        simp [statusAfter, took, written, StatusStep]
  | publish results stats reply =>
      refine ⟨⟨.inr (by simp [statusAfter, written]), .inl ?_, trivial⟩,
        by simp [Overwritten, WritesFailed]⟩
      cases took : reply.tookEffect <;> simp [statusAfter, took, written]

/-- The write of the failed status leaves the path exactly when the job was
committed as done before. -/
theorem Ending.path_failed {last : List Act} {e : Exn} (ending : Ending last (.error e))
    (reason : String) (reply : Reply) :
    Path (.text "processing") (last ++ [(.fail reason, reply)]) ↔
      ¬ Overwritten (last ++ [(.fail reason, reply)]) := by
  generalize outcome : Except.error e = result at ending
  cases ending with
  | interrupted e =>
      cases took : reply.tookEffect <;>
        simp [Path, statusAfter, took, written, StatusStep, Overwritten, Late]
  | finish results e applied =>
      -- the transaction was applied: the status is done when the failure is written
      cases applied <;> cases took : reply.tookEffect <;>
        simp [Path, statusAfter, took, written, StatusStep, Overwritten, Late, WritesFailed]
  | publish results stats published =>
      cases published with
      | ok => cases outcome
      | raised e applied =>
          cases took : reply.tookEffect <;> cases applied <;>
            simp [Path, statusAfter, took, written, StatusStep, Overwritten, Late, WritesFailed]

theorem JobRun.path_iff {held : AnswerFact} {calls : List Act} {result : Except Exn Unit}
    (run : JobRun Q settings job held calls result) :
    Path (.text "pending") calls ↔ ¬ Overwritten calls := by
  cases run with
  | enqueue e known => simp [Path, Overwritten]
  | start e applied =>
      refine iff_of_true ⟨?_, trivial⟩ (by simp [Overwritten, Late])
      cases took : Reply.tookEffect (.raised e applied) <;>
        simp [statusAfter, took, written, StatusStep]
  | completed ran =>
      obtain ⟨rounds, last, rfl, quiet, ending⟩ := ran.calls
      rw [path_started quiet, overwritten_started quiet]
      exact iff_of_true ending.path.1 ending.path.2
  | failed ran exception reply =>
      obtain ⟨rounds, last, rfl, quiet, ending⟩ := ran.calls
      rw [List.append_assoc, path_started quiet, overwritten_started quiet]
      exact ending.path_failed _ reply
  | abandoned ran base =>
      obtain ⟨rounds, last, rfl, quiet, ending⟩ := ran.calls
      rw [path_started quiet, overwritten_started quiet]
      exact iff_of_true ending.path.1 ending.path.2

variable {begun : ℚ} {s : JobRedis} {trace : RouteTrace} {result : Except Exn Unit}
  {timed : List (ℚ × Act)}

/-- **The status of a job is absorbing** exactly when the job is not committed as
done and written as failed: whatever raises, and whenever the hash expires, the
values of the field are a path of `pending → processing → done` or `failed` if
and only if the run does not have both a late error and an applied `fail`. -/
theorem status_path_iff (ran : Runs (processJob Q settings job) trace result)
    (calls : timed.map Prod.snd = acts trace)
    (pending : statusAt job.jobId begun s = some (.text "pending")) :
    (statuses settings job.jobId begun s timed).IsChain StatusStep ↔ ¬ Overwritten (acts trace) := by
  have run := processJob_runs ran (held_any _)
  have others : ∀ act ∈ timed, ∀ total, act.2.1 ≠ .create total := by
    intro act member
    exact run.no_create act.2 (calls ▸ List.mem_map_of_mem member)
  rw [statuses_isChain_iff pending others, calls]
  exact run.path_iff

end Job

/-! ## A done job that fails -/

section Poles

theorem requested_pending : statusAt foundJob.jobId 0 requested = some (.text "pending") :=
  statusAt_of_hashAt requested_keys requested_alive

/-- `finish` is applied, `publish_done` raises, and the failure is written. -/
def overwrittenTrace : RouteTrace :=
  cachedJobTrace 0 [⟨.monotonic, (0 : ℚ)⟩, ⟨.summary, ⟨0, 0, 0⟩⟩,
    ⟨.store (.finish foundJob.preCachedResults), .ok⟩,
    ⟨.store (.publishDone foundJob.preCachedResults foundStats),
      .raised { kind := .other "ConnectionError", message := "closed" } 0⟩,
    ⟨.store (.fail "closed"), .ok⟩]

/-- **Refuting pole.** A job whose completion cannot be published goes from done to
failed. -/
theorem done_then_failed :
    Runs (processJob (.sorted _) .defaults foundJob) overwrittenTrace (.ok ()) ∧
      statusAt foundJob.jobId 0 requested = some (.text "pending") ∧
      ¬ (statuses .defaults foundJob.jobId 0 requested
        ((acts overwrittenTrace).map fun act => (1, act))).IsChain StatusStep := by
  have ran : Runs (processJob (.sorted _) .defaults foundJob) overwrittenTrace (.ok ()) :=
    cachedJob_publish_raises .ok rfl foundJob_tokens rfl
  refine ⟨ran, requested_pending, fun chain => ?_⟩
  have run := processJob_runs ran (held_any _)
  have path := (statuses_isChain_iff requested_pending ?_).mp chain
  · obtain ⟨_, _, _, last, _⟩ := path
    have step : StatusStep (.text "done") (.text "failed") := last
    simp [StatusStep] at step
  · intro timed member
    obtain ⟨act, called, rfl⟩ := List.mem_map.mp member
    exact run.no_create act called

/-- Satisfiable pole: a job that succeeds. -/
theorem status_path_iff_completed :
    (statuses .defaults foundJob.jobId 0 requested
      ((acts foundTrace).map fun act => (1, act))).IsChain StatusStep := by
  refine (status_path_iff (Q := .sorted _) foundTrace_runs ?_ requested_pending).mpr ?_
  · rfl
  · simp [foundTrace, cachedJobTrace, acts, storeAct, Overwritten, WritesFailed]

end Poles

end InferenceForge.Api
