/-
# InferenceForge.Api.JobExpiry — the job's hash and its lifetime

The lifetime of the job's hash is set once, by `create`; the calls after it
neither extend it nor look whether the hash is still there. `WellFormedAt` is what
a reader may rely on at an instant: the hash has an expiry, a status and a total, and
the results are there when the status is done. A `GET /results` (`Get`) reads at two
moments; it should succeed and report a progress between 0 and 1.

The store is well formed at every moment of a request and its task, and the `GET`s
succeed, if and only if `create` is not interrupted between its two exchanges, every
later write finds the hash alive, and a `GET` that has found the job done looks for the
results while they are there (`well_formed_iff_kept`). A write that comes too late
creates a hash that never expires and has no total (`late_finish`).
-/
import InferenceForge.Api.JobLedger
import InferenceForge.Api.RequestRuns

namespace InferenceForge.Api

open InferenceForge.Python InferenceForge.Library InferenceForge.Pipeline
open InferenceForge.Pipeline.JobStore

set_option autoImplicit false

/-! ## What a reader may rely on -/

/-- The hash has an expiry, a status and a total, and results if it is done. -/
def WellFormedAt (jobId : String) (now : ℚ) (s : JobRedis) : Prop :=
  ∀ entry, s.live now (jobKey jobId) = some entry →
    entry.expireAt.isSome = true ∧ ∃ fields, entry.value = .hash fields ∧
      (fields "status").isSome = true ∧ (fields "total").isSome = true ∧
      (fields "status" = some (.text "done") → (s.live now (resultsKey jobId)).isSome = true)

/-- A `GET /results`: the calls that were made before its first read, and between its reads, and
the instants of these. -/
structure Get where
  before : List (ℚ × Act)
  now : ℚ
  between : List (ℚ × Act)
  later : ℚ

/-- It comes while the calls are made, or after them. -/
def Get.During (get : Get) (timed : List (ℚ × Act)) : Prop := get.before ++ get.between <+: timed

def Get.response (settings : Settings) (jobId : String) (s : JobRedis) (get : Get) :
    Except Exn (Option ResultsResponse) :=
  Api.getResults jobId get.now (performAll settings jobId s get.before) get.later
    (performAll settings jobId s (get.before ++ get.between))

/-- It is answered, and a progress that it reports is one. -/
def Get.Succeeds (settings : Settings) (jobId : String) (s : JobRedis) (get : Get) : Prop :=
  ∃ response, get.response settings jobId s = .ok response ∧
    ∀ r ∈ response, ∀ progress ∈ r.progress, 0 ≤ progress ∧ progress ≤ 1

/-- If its first read comes within a lifetime of `create` and after `finish`, its second read comes
within a lifetime of that. -/
def Get.InTime (settings : Settings) (get : Get) : Prop :=
  Done get.before → ∀ created ∈ get.before.head?, get.now ≤ created.1 + settings.jobTtlSeconds →
    ∀ finished ∈ finishedAt (get.before ++ get.between), get.later ≤ finished + settings.jobTtlSeconds

/-- `P` holds at every moment from `since` on, while the calls are made. -/
def Throughout (settings : Settings) (jobId : String) (P : ℚ → JobRedis → Prop) :
    ℚ → JobRedis → List (ℚ × Act) → Prop
  | since, s, [] => ∀ now, since ≤ now → P now s
  | since, s, act :: rest =>
      (∀ now, since ≤ now → now ≤ act.1 → P now s) ∧
        Throughout settings jobId P act.1 (perform settings jobId s act) rest

/-- The instants of the calls, in order from `since` on. -/
def Ordered (since : ℚ) (timed : List (ℚ × Act)) : Prop :=
  (since :: timed.map Prod.fst).IsChain (· ≤ ·)

/-- A call that writes to the job's hash. -/
def Writes (act : Act) : Prop := act.2.tookEffect = true ∧ act.1.writesHash = true

/-- `create` is not interrupted between its exchanges, and no later write comes
after the lifetime it gave the hash. -/
def Kept (settings : Settings) : List (ℚ × Act) → Prop
  | [] => True
  | (created, _, reply) :: rest =>
      (reply.tookEffect = true → reply.expires = true) ∧
        ∀ act ∈ rest, Writes act.2 →
          0 < settings.jobTtlSeconds ∧ act.1 ≤ created + settings.jobTtlSeconds

section Moments

variable {settings : Settings} {jobId : String} {P : ℚ → JobRedis → Prop} {since now : ℚ}
  {s : JobRedis} {timed : List (ℚ × Act)}

theorem Throughout.start (holds : Throughout settings jobId P since s timed)
    (ordered : Ordered since timed) : P since s := by
  cases timed with
  | nil => exact holds since le_rfl
  | cons act rest => exact holds.1 since le_rfl (List.isChain_cons_cons.mp ordered).1

/-- A hash without an expiry is not well formed. -/
theorem not_wellFormedAt_of_no_expiry {value : Redis.Value (List Dict)}
    (stored : s.keys (jobKey jobId) = some ⟨value, none⟩) : ¬ WellFormedAt jobId now s := by
  intro formed
  have impossible := (formed _ (live_eq_some.mpr ⟨stored, rfl⟩)).1
  cases impossible

theorem wellFormedAt_of_gone (gone : s.live now (jobKey jobId) = none) : WellFormedAt jobId now s := by
  intro entry found
  rw [gone] at found
  cases found

/-- A write that finds no hash leaves one without an expiry. -/
theorem write_of_gone (settings : Settings) {act : ℚ × Act}
    (other : ∀ total, act.2.1 ≠ .create total)
    (writes : Writes act.2) (gone : s.live act.1 (jobKey jobId) = none) :
    ∃ value, (perform settings jobId s act).keys (jobKey jobId) = some ⟨value, none⟩ := by
  obtain ⟨now, call, reply⟩ := act
  exact ⟨_, (perform_hash settings call reply other (hashAt_of_absent gone)).trans (if_pos writes)⟩

/-- Without a hash, the calls are well formed exactly when none of them writes. -/
theorem throughout_of_absent (ordered : Ordered since timed)
    (others : ∀ act ∈ timed, ∀ total, act.2.1 ≠ .create total)
    (absent : s.keys (jobKey jobId) = none) :
    Throughout settings jobId (WellFormedAt jobId) since s timed ↔
      ∀ act ∈ timed, ¬ Writes act.2 := by
  induction timed generalizing since s with
  | nil =>
      refine iff_of_true (fun now _ => wellFormedAt_of_gone (live_of_absent absent)) ?_
      intro act member
      cases member
  | cons act rest ih =>
      have later : Ordered act.1 rest := (List.isChain_cons_cons.mp ordered).2
      by_cases writes : Writes act.2
      · refine iff_of_false ?_ fun quiet => quiet act List.mem_cons_self writes
        rintro ⟨_, formed⟩
        obtain ⟨value, stored⟩ := write_of_gone settings
          (others act List.mem_cons_self) writes (live_of_absent absent)
        exact not_wellFormedAt_of_no_expiry stored (formed.start later)
      · have still := perform_keys_of_quiet settings jobId s
          (others act List.mem_cons_self) writes
        have after := ih later (fun act member => others act (List.mem_cons_of_mem _ member))
          (still.trans absent)
        constructor
        · rintro ⟨_, formed⟩
          exact List.forall_mem_cons.mpr ⟨writes, after.mp formed⟩
        · intro quiet
          exact ⟨fun now _ _ => wellFormedAt_of_gone (live_of_absent absent),
            after.mpr (List.forall_mem_cons.mp quiet).2⟩

/-- Calls that write nothing leave an absent hash absent. -/
theorem absent_of_quiet (settings : Settings) (others : ∀ act ∈ timed, ∀ total, act.2.1 ≠ .create total)
    (quiet : ∀ act ∈ timed, ¬ Writes act.2) (absent : s.keys (jobKey jobId) = none) :
    (performAll settings jobId s timed).keys (jobKey jobId) = none := by
  induction timed generalizing s with
  | nil => exact absent
  | cons act rest ih =>
      have still := perform_keys_of_quiet settings jobId s (others act List.mem_cons_self)
        (quiet act List.mem_cons_self)
      exact ih (fun act member => others act (List.mem_cons_of_mem _ member))
        (fun act member => quiet act (List.mem_cons_of_mem _ member)) (still.trans absent)

end Moments

/-! ## A hash that was not lost -/

section Kept

variable {settings : Settings} {jobId : String} {now : ℚ} {s : JobRedis} {total : ℕ}
  {timed before after : List (ℚ × Act)} {rest : List Act} {state : Hash}

/-- The fields of a hash that was not lost since `create` are those the calls have
written. -/
theorem state_when_kept (kept : Kept settings timed) (split : timed = before ++ after)
    (fresh : s.keys (jobKey jobId) = none)
    (calls : before.map Prod.snd = (.create total, .ok) :: rest)
    (others : ∀ act ∈ rest, ∀ total, act.1 ≠ .create total)
    (found : JobStore.getState jobId now (performAll settings jobId s before) = some state) :
    ∃ created later, later.map Prod.snd = rest ∧
      (∀ act ∈ later, ∀ total, act.2.1 ≠ .create total) ∧
      state = hashAfter (hashWrites created (.create total) fun _ => none) later := by
  obtain ⟨⟨created, _⟩, later, rfl, rfl, rfl⟩ := List.map_eq_cons_iff.mp calls
  subst split
  obtain ⟨_, within⟩ := kept
  have others : ∀ act ∈ later, ∀ total, act.2.1 ≠ .create total :=
    fun act member => others act.2 (List.mem_map_of_mem member)
  refine ⟨created, later, rfl, others, ?_⟩
  have alive : ∀ act ∈ later, Writes act.2 →
      0 < settings.jobTtlSeconds ∧ act.1 ≤ created + settings.jobTtlSeconds :=
    fun act member => within act (List.mem_append_left _ member)
  have absent : s.live created (jobKey jobId) = none := live_of_absent fresh
  have stored := perform_create settings total .ok absent
  rw [if_pos (show Reply.ok.expires = true from rfl)] at stored
  unfold JobStore.getState Redis.hgetall Redis.Server.live at found
  by_cases positive : 0 < settings.jobTtlSeconds
  · rw [if_pos positive] at stored
    have keys := performAll_keys settings others
      (fun act member took writes => by simpa using (alive act member ⟨took, writes⟩).2) stored
    have reached : (performAll settings jobId s ((created, .create total, .ok) :: later)).keys
        (jobKey jobId) = _ := keys
    rw [reached, Option.filter_some] at found
    split at found
    · next fields expiry live =>
        split at live
        · cases live
          cases found
          rfl
        · cases live
    · cases found
  · -- a lifetime that is not positive deletes the hash at once
    rw [if_neg positive] at stored
    have keys := absent_of_quiet settings others
      (fun act member writes => positive (alive act member writes).1) stored
    have gone : (performAll settings jobId s ((created, .create total, .ok) :: later)).keys
        (jobKey jobId) = none := keys
    rw [gone] at found
    cases found

/-- The counters of a hash that was not lost since `create`. -/
theorem counters_when_kept (kept : Kept settings timed) (split : timed = before ++ after)
    (fresh : s.keys (jobKey jobId) = none)
    (calls : before.map Prod.snd = (.create total, .ok) :: rest)
    (others : ∀ act ∈ rest, ∀ total, act.1 ≠ .create total)
    (found : JobStore.getState jobId now (performAll settings jobId s before) = some state)
    (counter : Counter) : state counter.field = some (.int (tally counter rest)) := by
  obtain ⟨created, later, rfl, others, rfl⟩ :=
    state_when_kept kept split fresh calls others found
  have zero : hashWrites created (.create total) (fun _ => none) counter.field =
      some (.int (0 : ℤ)) := by
    cases counter <;> rfl
  rw [hashAfter_counter others zero, zero_add]

/-- Its total is the one `create` has written. -/
theorem total_when_kept (kept : Kept settings timed) (split : timed = before ++ after)
    (fresh : s.keys (jobKey jobId) = none)
    (calls : before.map Prod.snd = (.create total, .ok) :: rest)
    (others : ∀ act ∈ rest, ∀ total, act.1 ≠ .create total)
    (found : JobStore.getState jobId now (performAll settings jobId s before) = some state) :
    state "total" = some (.int total) := by
  obtain ⟨created, later, rfl, others, rfl⟩ :=
    state_when_kept kept split fresh calls others found
  exact hashAfter_total others

end Kept

/-! ## While the hash is alive -/

/-- The hash of a job of `total` tickets that was created at `created`; the results are
there, and live longer, once it is done. -/
structure Healthy (settings : Settings) (jobId : String) (created : ℚ) (total : ℕ) (s : JobRedis) : Prop where
  stored : ∃ fields status, s.keys (jobKey jobId) =
      some ⟨.hash fields, some (created + settings.jobTtlSeconds)⟩ ∧
    fields "status" = some (.text status) ∧ fields "total" = some (.int total) ∧
    (status = "done" → ∃ results limit, s.keys (resultsKey jobId) =
      some ⟨.document results, some limit⟩ ∧ created + settings.jobTtlSeconds ≤ limit)

section Healthy

variable {settings : Settings} {jobId : String} {created now since : ℚ} {total : ℕ}
  {s : JobRedis} {timed : List (ℚ × Act)}

theorem Healthy.wellFormed (healthy : Healthy settings jobId created total s) : WellFormedAt jobId now s := by
  obtain ⟨fields, status, stored, has_status, has_total, results⟩ := healthy.stored
  by_cases alive : now ≤ created + settings.jobTtlSeconds
  · have found : s.live now (jobKey jobId) =
        some ⟨.hash fields, some (created + settings.jobTtlSeconds)⟩ :=
      live_eq_some.mpr ⟨stored, by simpa using alive⟩
    intro entry same
    cases found.symm.trans same
    refine ⟨rfl, fields, rfl, by simp [has_status], by simp [has_total], fun done => ?_⟩
    rw [has_status] at done
    injection done with done
    injection done with done
    obtain ⟨document, limit, there, longer⟩ := results done
    have live : s.live now (resultsKey jobId) = some ⟨.document document, some limit⟩ :=
      live_eq_some.mpr ⟨there, by simpa using alive.trans longer⟩
    rw [live]
    rfl
  · apply wellFormedAt_of_gone
    exact (live_eq_none_iff stored).mpr (not_le.mp alive)

/-- The status after a call is a text, and done only if it was or `finish` was applied. -/
theorem statusAfter_text (status : String) (act : Act) :
    ∃ next, statusAfter (.text status) act = .text next ∧
      (next = "done" → status = "done" ∨
        (∃ results, act.1 = .finish results) ∧ act.2.tookEffect = true) := by
  obtain ⟨call, reply⟩ := act
  cases took : reply.tookEffect with
  | false => exact ⟨status, by simp [statusAfter, took], .inl⟩
  | true =>
      cases call with
      | finish results => exact ⟨"done", by simp [statusAfter, took, written], by simp⟩
      | create total => exact ⟨"pending", by simp [statusAfter, took, written], by simp⟩
      | start => exact ⟨"processing", by simp [statusAfter, took, written], by simp⟩
      | fail reason => exact ⟨"failed", by simp [statusAfter, took, written], by simp⟩
      | incrementProgress | publishProgress | publishDone =>
          exact ⟨status, by simp [statusAfter, took, written], .inl⟩

theorem statusAfter_foldl_text (calls : List Act) (status : String) :
    ∃ next, calls.foldl statusAfter (.text status) = .text next := by
  induction calls generalizing status with
  | nil => exact ⟨status, rfl⟩
  | cons act rest ih =>
      obtain ⟨next, same, _⟩ := statusAfter_text status act
      rw [List.foldl_cons, same]
      exact ih next

/-- A write within the lifetime of the hash, or no write, keeps it healthy. -/
theorem Healthy.step {act : ℚ × Act} (healthy : Healthy settings jobId created total s)
    (positive : 0 < settings.jobTtlSeconds) (after : created ≤ act.1)
    (other : ∀ total, act.2.1 ≠ .create total)
    (within : Writes act.2 → act.1 ≤ created + settings.jobTtlSeconds) :
    Healthy settings jobId created total (perform settings jobId s act) := by
  obtain ⟨fields, status, stored, has_status, has_total, results⟩ := healthy.stored
  obtain ⟨next, same, done_from⟩ := statusAfter_text status act.2
  have keys := perform_keys settings other
    (fun took writes => by simpa using within ⟨took, writes⟩) stored
  refine ⟨_, next, keys, ?_, ?_, fun done => ?_⟩
  · rw [hashStep_status has_status, same]
  · rw [hashStep_total other, has_total]
  · obtain ⟨now, call, reply⟩ := act
    by_cases finish : (∃ results, call = .finish results) ∧ reply.tookEffect = true
    · obtain ⟨⟨documents, rfl⟩, took⟩ := finish
      refine ⟨documents, now + settings.jobTtlSeconds, ?_, by linarith⟩
      rw [perform_results_finish took, if_pos positive]
    · have before : status = "done" := (done_from done).resolve_right finish
      obtain ⟨documents, limit, there, longer⟩ := results before
      refine ⟨documents, limit, ?_, longer⟩
      by_cases named : ∃ results, call = .finish results
      · have untouched : ¬ reply.tookEffect = true := fun took => finish ⟨named, took⟩
        rw [perform_of_ne_create other, if_neg untouched]
        exact there
      · rw [perform_results_of_ne fun results same => named ⟨results, same⟩]
        exact there

/-- **From a healthy hash** the calls are well formed exactly when every write
comes within its lifetime. -/
theorem Healthy.throughout_iff (healthy : Healthy settings jobId created total s)
    (positive : 0 < settings.jobTtlSeconds) (after : created ≤ since)
    (ordered : Ordered since timed) (others : ∀ act ∈ timed, ∀ total, act.2.1 ≠ .create total) :
    Throughout settings jobId (WellFormedAt jobId) since s timed ↔
      ∀ act ∈ timed, Writes act.2 → act.1 ≤ created + settings.jobTtlSeconds := by
  induction timed generalizing since s with
  | nil =>
      refine iff_of_true (fun now _ => healthy.wellFormed) ?_
      intro act member
      cases member
  | cons act rest ih =>
      obtain ⟨here, later⟩ := List.isChain_cons_cons.mp ordered
      by_cases within : Writes act.2 → act.1 ≤ created + settings.jobTtlSeconds
      · have next := healthy.step positive (after.trans here) (others act List.mem_cons_self) within
        have rest_iff := ih next (after.trans here) later
          (fun act member => others act (List.mem_cons_of_mem _ member))
        constructor
        · rintro ⟨_, formed⟩
          exact List.forall_mem_cons.mpr ⟨within, rest_iff.mp formed⟩
        · intro all
          refine ⟨fun now _ _ => healthy.wellFormed, rest_iff.mpr ?_⟩
          exact (List.forall_mem_cons.mp all).2
      · obtain ⟨writes, late⟩ := Classical.not_imp.mp within
        refine iff_of_false ?_ fun all => late (all act List.mem_cons_self writes)
        rintro ⟨_, formed⟩
        obtain ⟨fields, status, stored, _⟩ := healthy.stored
        have gone : s.live act.1 (jobKey jobId) = none := (live_eq_none_iff stored).mpr (not_le.mp late)
        obtain ⟨value, replaced⟩ := write_of_gone settings
          (others act List.mem_cons_self) writes gone
        exact not_wellFormedAt_of_no_expiry replaced (formed.start later)

end Healthy

/-! ## The reads of a `GET` -/

section Reads

variable {settings : Settings} {jobId : String} {s : JobRedis} {total completed : ℕ} {created : ℚ} {reply : Reply}
  {timed before rest later : List (ℚ × Act)} {get : Get}

theorem progressOf_of_fields {fields : Hash} (stored : fields "total" = some (.int total))
    (counted : fields "completed" = some (.int completed)) (le : completed ≤ total) :
    ∃ progress, progressOf fields = .ok progress ∧ 0 ≤ progress ∧ progress ≤ 1 := by
  refine ⟨if total ≠ 0 then round 4 (completed / total) else 0, ?_, ?_⟩
  · simp [progressOf, stored, counted, fieldInt, pure, Except.pure, bind, Except.bind]
  · split
    · exact round_ratio le
    · exact ⟨le_rfl, zero_le_one⟩

/-- Calls that write nothing leave the status as it is. -/
theorem statusAfter_quiet {calls : List (ℚ × Act)} (quiet : ∀ act ∈ calls, ¬ Writes act.2) (status : Field) :
    (calls.map Prod.snd).foldl statusAfter status = status := by
  induction calls with
  | nil => rfl
  | cons act rest ih =>
      obtain ⟨silent, quiet⟩ := List.forall_mem_cons.mp quiet
      have same : statusAfter status act.2 = status := by
        obtain ⟨now, call, reply⟩ := act
        cases took : reply.tookEffect with
        | false => simp [statusAfter, took]
        | true =>
            have nothing : written call = none := written_of_quiet (by simpa [Writes, took] using silent)
            simp [statusAfter, nothing]
      rw [List.map_cons, List.foldl_cons, same]
      exact ih quiet

/-- The hash of a job whose writes came in time: there is none and the job is not done, or it
has the fields the calls have written, and the expiry that `create` gave it. -/
theorem hash_when_kept (kept : Kept settings ((created, .create total, reply) :: rest))
    (fresh : s.keys (jobKey jobId) = none) (raised : reply = .ok ∨ rest = [])
    (others : ∀ act ∈ rest, ∀ total, act.2.1 ≠ .create total) (inside : later <+: rest) :
    ((performAll settings jobId s ((created, .create total, reply) :: later)).keys (jobKey jobId) = none ∧
        ¬ Done ((created, .create total, reply) :: later)) ∨
      (0 < settings.jobTtlSeconds ∧ reply.tookEffect = true ∧
        (performAll settings jobId s ((created, .create total, reply) :: later)).keys (jobKey jobId) =
          some ⟨.hash (hashAfter (hashWrites created (.create total) fun _ => none) later),
            some (created + settings.jobTtlSeconds)⟩) := by
  have absent : s.live created (jobKey jobId) = none := live_of_absent fresh
  have stored := perform_create settings total reply absent
  have others : ∀ act ∈ later, ∀ total, act.2.1 ≠ .create total := fun act member => others act (inside.subset member)
  have unfinished : statusAfter (.text "") (.create total, reply) ≠ .text "done" := by
    cases took : reply.tookEffect <;> simp [statusAfter, took, written]
  obtain ⟨complete, within⟩ := kept
  by_cases expires : reply.expires = true
  · rw [if_pos expires] at stored
    by_cases positive : 0 < settings.jobTtlSeconds
    · rw [if_pos positive] at stored
      have took : reply.tookEffect = true := by
        cases reply with
        | ok => rfl
        | raised e applied =>
            have both : 1 < applied := by simpa [Reply.expires] using expires
            simp [Reply.tookEffect]
            omega
      refine .inr ⟨positive, took, performAll_keys settings others (fun act member took writes => ?_) stored⟩
      simpa using (within act (inside.subset member) ⟨took, writes⟩).2
    · -- a lifetime that is not positive deletes the hash at once, and nothing is written after that
      rw [if_neg positive] at stored
      have quiet : ∀ act ∈ later, ¬ Writes act.2 := fun act member writes =>
        positive (within act (inside.subset member) writes).1
      have gone := absent_of_quiet settings others quiet stored
      refine .inl ⟨gone, fun done => unfinished ?_⟩
      rwa [Done, List.map_cons, List.foldl_cons, statusAfter_quiet quiet] at done
  · rw [if_neg expires] at stored
    have untouched : ¬ reply.tookEffect = true := fun took => expires (complete took)
    rw [if_neg untouched] at stored
    obtain rfl : later = [] := by
      rcases raised with rfl | rfl
      · exact absurd rfl expires
      · exact List.prefix_nil.mp inside
    exact .inl ⟨stored.trans fresh, unfinished⟩

theorem getState_of_keys {fields : Hash} {limit : ℚ} (stored : s.keys (jobKey jobId) = some ⟨.hash fields, some limit⟩)
    (now : ℚ) : JobStore.getState jobId now s = if now ≤ limit then some fields else none := by
  unfold JobStore.getState Redis.hgetall
  by_cases alive : now ≤ limit
  · rw [live_eq_some.mpr ⟨stored, by simpa using alive⟩, if_pos alive]
  · rw [(live_eq_none_iff stored).mpr (not_le.mp alive), if_neg alive]

theorem getState_of_absent (absent : s.keys (jobKey jobId) = none) (now : ℚ) :
    JobStore.getState jobId now s = none := by
  unfold JobStore.getState Redis.hgetall
  rw [live_of_absent absent]

theorem getResults_of_keys {results : List Dict} {limit : ℚ}
    (stored : s.keys (resultsKey jobId) = some ⟨.document results, some limit⟩) (now : ℚ) :
    JobStore.getResults jobId now s = if now ≤ limit then some results else none := by
  unfold JobStore.getResults Redis.get
  by_cases alive : now ≤ limit
  · rw [live_eq_some.mpr ⟨stored, by simpa using alive⟩, if_pos alive]
  · rw [(live_eq_none_iff stored).mpr (not_le.mp alive), if_neg alive]

/-- A job that is not done is answered with its progress. -/
theorem respond_progress {state : Hash} {progress : ℚ} (unfinished : statusOf state ≠ "done")
    (reported : progressOf state = .ok progress) (results : Option (List Dict)) :
    ∃ r, respond (some state) results = .ok (some r) ∧ r.progress = some progress := by
  simp only [respond, if_neg unfinished, reported]
  split
  · exact ⟨_, rfl, rfl⟩
  · exact ⟨_, rfl, rfl⟩

/-- A job that is done is answered if its results are found. -/
theorem respond_done_iff {state : Hash} (done : statusOf state = "done") (results : Option (List Dict)) :
    (∃ response, respond (some state) results = .ok response ∧
      ∀ r ∈ response, ∀ progress ∈ r.progress, 0 ≤ progress ∧ progress ≤ 1) ↔ results.isSome = true := by
  cases results with
  | none => simp [respond, done]
  | some stored =>
      simp only [respond, done, if_true, Option.isSome_some, iff_true]
      exact ⟨_, rfl, by simp⟩

/-- A state reads as done if the calls have left it so. -/
theorem statusOf_hashAfter_iff (took : reply.tookEffect = true) :
    statusOf (hashAfter (hashWrites created (.create total) fun _ => none) later) = "done" ↔
      Done ((created, .create total, reply) :: later) := by
  have pending : statusAfter (.text "") (.create total, reply) = .text "pending" := by
    simp [statusAfter, took, written]
  have status : hashAfter (hashWrites created (.create total) fun _ => none) later "status" =
      some ((later.map Prod.snd).foldl statusAfter (.text "pending")) := hashAfter_status rfl
  obtain ⟨last, written⟩ := statusAfter_foldl_text (later.map Prod.snd) "pending"
  rw [written] at status
  simp only [statusOf, status, Option.map_some, fieldText, Option.getD_some, Done, List.map_cons,
    List.foldl_cons, pending, written, Field.text.injEq]

theorem Get.unfound (gone : JobStore.getState jobId get.now (performAll settings jobId s get.before) = none) :
    get.Succeeds settings jobId s := by
  refine ⟨none, ?_, by simp⟩
  rw [Get.response, Api.getResults, gone]
  rfl

/-- Before the first call a `GET` finds no job. -/
theorem Get.succeeds_of_nothing (fresh : s.keys (jobKey jobId) = none) (nothing : get.before = []) :
    get.Succeeds settings jobId s ↔ get.InTime settings := by
  refine iff_of_true (Get.unfound ?_) fun done => ?_
  · rw [nothing]
    exact getState_of_absent fresh get.now
  · simp [nothing, Done] at done

/-- A `GET` that finds a progress succeeds. -/
theorem Get.succeeds_of_progress {state : Hash} {progress : ℚ}
    (read : JobStore.getState jobId get.now (performAll settings jobId s get.before) = some state)
    (unfinished : statusOf state ≠ "done") (reported : progressOf state = .ok progress)
    (bounds : 0 ≤ progress ∧ progress ≤ 1) : get.Succeeds settings jobId s := by
  obtain ⟨r, answered, shown⟩ := respond_progress unfinished reported
    (JobStore.getResults jobId get.later (performAll settings jobId s (get.before ++ get.between)))
  refine ⟨some r, ?_, ?_⟩
  · rw [Get.response, Api.getResults, read]
    exact answered
  · intro r' member progress' member'
    cases Option.some.inj member
    rw [shown] at member'
    cases Option.some.inj member'
    exact bounds

/-- A `GET` that finds the job done succeeds while the results are kept. -/
theorem Get.succeeds_iff_of_done {state : Hash} {finished : ℚ} (positive : 0 < settings.jobTtlSeconds)
    (read : JobStore.getState jobId get.now (performAll settings jobId s get.before) = some state)
    (done : statusOf state = "done") (last : finishedAt (get.before ++ get.between) = some finished) :
    get.Succeeds settings jobId s ↔ get.later ≤ finished + settings.jobTtlSeconds := by
  obtain ⟨results, there⟩ : ∃ results, (performAll settings jobId s _).keys (resultsKey jobId) =
    some ⟨.document results, _⟩ := performAll_finished positive last
  have second := getResults_of_keys there get.later
  rw [Get.Succeeds, Get.response, Api.getResults, read, second, respond_done_iff done]
  by_cases alive : get.later ≤ finished + settings.jobTtlSeconds <;> simp [alive]

/-- The calls leave a progress. -/
theorem progressOf_hashAfter (created : ℚ) {made : List (ℚ × Act)} (others : ∀ act ∈ made, ∀ total, act.2.1 ≠ .create total)
    (counted : tally .completed (made.map Prod.snd) ≤ total) :
    ∃ progress, progressOf (hashAfter (hashWrites created (.create total) fun _ => none) made) = .ok progress ∧
      0 ≤ progress ∧ progress ≤ 1 := by
  have has_total : hashAfter (hashWrites created (.create total) fun _ => none) made "total" = some (.int total) := by
    rw [hashAfter_total others]
    rfl
  have zero : hashWrites created (.create total) (fun _ => none) Counter.completed.field = some (.int (0 : ℤ)) := rfl
  have has_completed := hashAfter_counter others zero
  rw [zero_add] at has_completed
  exact progressOf_of_fields has_total has_completed counted

/-- **A `GET` succeeds** exactly if it comes in time. -/
theorem Get.succeeds_iff (kept : Kept settings ((created, .create total, reply) :: rest))
    (fresh : s.keys (jobKey jobId) = none) (raised : reply = .ok ∨ rest = [])
    (others : ∀ act ∈ rest, ∀ total, act.2.1 ≠ .create total)
    (counted : tally .completed (rest.map Prod.snd) ≤ total)
    (during : get.During ((created, .create total, reply) :: rest)) :
    get.Succeeds settings jobId s ↔ get.InTime settings := by
  obtain ⟨before, now, between, later⟩ := get
  cases before with
  | nil => exact Get.succeeds_of_nothing fresh rfl
  | cons act made =>
      obtain ⟨same, inside⟩ := List.cons_prefix_cons.mp during
      subst same
      have earlier := (List.prefix_append made between).trans inside
      have others_made : ∀ act ∈ made, ∀ total, act.2.1 ≠ .create total :=
        fun act member => others act (earlier.subset member)
      rcases hash_when_kept kept fresh raised others earlier with ⟨absent, unfinished⟩ | ⟨positive, took, stored⟩
      · exact iff_of_true (Get.unfound (getState_of_absent absent now)) fun done => absurd done unfinished
      have read := getState_of_keys stored now
      by_cases alive : now ≤ created + settings.jobTtlSeconds
      · rw [if_pos alive] at read
        have is_done : statusOf (hashAfter (hashWrites created (.create total) fun _ => none) made) = "done" ↔ _ :=
          statusOf_hashAfter_iff took
        by_cases done : Done ((created, .create total, reply) :: made)
        · obtain ⟨act, member, finish⟩ := done.finished
          obtain ⟨finished, last⟩ := finishedAt_of_mem (List.mem_append_left between member) finish
          rw [Get.succeeds_iff_of_done positive read (is_done.mpr done) last]
          constructor
          · intro in_time _ _ _ _ _ same
            cases last.symm.trans same
            exact in_time
          · intro in_time
            exact in_time done _ rfl alive finished last
        · obtain ⟨after, split⟩ := earlier
          rw [← split, List.map_append, tally_append] at counted
          obtain ⟨progress, reported, bounds⟩ := progressOf_hashAfter created others_made
            (Nat.le_of_add_right_le counted)
          refine iff_of_true ?_ fun is => absurd is done
          exact Get.succeeds_of_progress read (fun same => done (is_done.mp same)) reported bounds
      · rw [if_neg alive] at read
        refine iff_of_true (Get.unfound read) fun _ first member soon => ?_
        cases Option.some.inj member
        exact absurd soon alive

end Reads

/-! ## Every request -/

section Requests

variable {Q : TicketQueue} {settings : Settings} {host : Host} {body : ProcessRequest settings}
  {jobId : String} {calls : List Act} {begun : ℚ} {s : JobRedis} {timed : List (ℚ × Act)}

/-- The calls of a request and its task: `create`, which raises or is followed by
calls that count no more tickets than there are. -/
theorem RequestRun.shape (run : RequestRun Q settings host body jobId calls) :
    calls = [] ∨ ∃ reply rest, calls = (.create body.tickets.length, reply) :: rest ∧
      (reply = .ok ∨ rest = []) ∧ (∀ act ∈ rest, ∀ total, act.1 ≠ .create total) ∧
      tally .completed rest ≤ body.tickets.length := by
  cases run with
  | refused posted =>
      obtain ⟨_, _, same, run⟩ := processTickets_runs posted (known_any _)
      cases same
      have quiet : ∀ {rest : RouteTrace}, acts (⟨.uuid, jobId⟩ :: rest) = acts rest := rfl
      rw [quiet] at run
      generalize acts _ = calls at run ⊢
      generalize launched _ = jobs at run
      generalize refused : Except.error _ = result at run
      cases run with
      | lookup e => exact .inl rfl
      | create e applied => exact .inr ⟨_, [], rfl, .inr rfl, by simp, by simp⟩
      | count dedup some e applied =>
          have counted := (dedup.deduplicated deduplicated_nil).counted
          refine .inr ⟨_, _, rfl, .inl rfl, by simp, ?_⟩
          simp only [tally_cons, tally_nil, StoreCall.adds]
          rw [List.nil_append] at counted
          split <;> omega
      | accepted dedup named total => cases refused
  | accepted sub named =>
      obtain ⟨found, dedup, job, _, posted⟩ := sub.shape (known_any _)
      have run := processJob_runs sub.ran (settled_any _)
      have completed := run.completed_le
      have counted := dedup.counted
      rw [job] at completed
      have completed : tally .completed (acts sub.jobTrace) ≤ found.uniqueTickets.length := completed
      refine .inr ⟨.ok, countCalls found ++ acts sub.jobTrace, ?_, .inl rfl, ?_, ?_⟩
      · rw [Submission.calls, posted]
        rfl
      · intro act member
        rcases List.mem_append.mp member with member | member
        · unfold countCalls at member
          split at member
          · obtain rfl := List.mem_singleton.mp member
            simp
          · cases member
        · exact run.no_create act member
      · have first : tally .completed (countCalls found) ≤ found.cachedCount := by
          unfold countCalls
          split <;> simp [StoreCall.adds]
        rw [tally_append]
        omega

/-- The store is well formed at every moment exactly when `create` is not interrupted and every
later write finds the hash alive. -/
theorem RequestRun.throughout_iff (run : RequestRun Q settings host body jobId calls)
    (called : timed.map Prod.snd = calls) (ordered : Ordered begun timed)
    (fresh : s.keys (jobKey jobId) = none) :
    Throughout settings jobId (WellFormedAt jobId) begun s timed ↔ Kept settings timed := by
  have gone : ∀ now, s.live now (jobKey jobId) = none := fun _ => live_of_absent fresh
  cases timed with
  | nil => exact iff_of_true (fun now _ => wellFormedAt_of_gone (gone now)) trivial
  | cons act rest =>
      obtain ⟨created, call, reply⟩ := act
      rcases run.shape with rfl | ⟨_, later, rfl, refused, others, counted⟩
      · cases called
      · rw [List.map_cons] at called
        obtain ⟨first, rfl⟩ := List.cons.inj called
        cases first
        obtain ⟨_, ordered_rest⟩ := List.isChain_cons_cons.mp ordered
        have others : ∀ act ∈ rest, ∀ total, act.2.1 ≠ .create total :=
          fun act member => others act.2 (List.mem_map_of_mem member)
        have before : ∀ now, begun ≤ now → now ≤ created → WellFormedAt jobId now s :=
          fun now _ _ => wellFormedAt_of_gone (gone now)
        have after := perform_create settings body.tickets.length reply (gone created)
        rw [Throughout, and_iff_right before, Kept]
        by_cases expires : reply.expires = true
        · rw [if_pos expires] at after
          rw [and_iff_right fun _ => expires]
          by_cases positive : 0 < settings.jobTtlSeconds
          · rw [if_pos positive] at after
            have healthy : Healthy settings jobId created body.tickets.length
                (perform settings jobId s (created, .create body.tickets.length, reply)) :=
              ⟨_, "pending", after, rfl, rfl, by simp⟩
            rw [healthy.throughout_iff positive le_rfl ordered_rest others]
            simp [positive]
          · rw [if_neg positive] at after
            rw [throughout_of_absent ordered_rest others after]
            simp [positive]
        · rw [if_neg expires] at after
          have last : rest = [] := by
            rcases refused with rfl | empty
            · exact absurd rfl expires
            · exact List.map_eq_nil_iff.mp empty
          subst last
          by_cases took : reply.tookEffect = true
          · rw [if_pos took] at after
            refine iff_of_false ?_ fun kept => expires (kept.1 took)
            intro formed
            exact not_wellFormedAt_of_no_expiry after (formed created le_rfl)
          · rw [if_neg took] at after
            refine iff_of_true ?_ ⟨fun impossible => absurd impossible took, by simp⟩
            intro now _
            apply wellFormedAt_of_gone
            exact live_of_absent (after.trans fresh)

/-- If the writes of the run come in time, a `GET` that comes during it succeeds exactly if it
comes in time. -/
theorem RequestRun.succeeds_iff {get : Get} (run : RequestRun Q settings host body jobId calls)
    (called : timed.map Prod.snd = calls) (fresh : s.keys (jobKey jobId) = none)
    (kept : Kept settings timed) (during : get.During timed) :
    get.Succeeds settings jobId s ↔ get.InTime settings := by
  rcases run.shape with rfl | ⟨reply, later, rfl, refused, others, counted⟩
  · obtain rfl := List.map_eq_nil_iff.mp called
    exact Get.succeeds_of_nothing fresh (List.append_eq_nil_iff.mp (List.prefix_nil.mp during)).1
  · obtain ⟨⟨created, first⟩, rest, rfl, rfl, rfl⟩ := List.map_eq_cons_iff.mp called
    exact Get.succeeds_iff kept fresh (refused.imp_right List.map_eq_nil_iff.mp)
      (fun act member => others act.2 (List.mem_map_of_mem member)) counted during

/-- **The store is well formed at every moment** of a request and its task, and the `GET`s that come
meanwhile or later **succeed**, exactly when `create` is not interrupted, every later write finds
the hash alive, and every `GET` that finds the job done reads the results in time. -/
theorem well_formed_iff_kept (run : RequestRun Q settings host body jobId calls)
    (called : timed.map Prod.snd = calls) (ordered : Ordered begun timed)
    (fresh : s.keys (jobKey jobId) = none) (gets : List Get) (during : ∀ get ∈ gets, get.During timed) :
    (Throughout settings jobId (WellFormedAt jobId) begun s timed ∧
        ∀ get ∈ gets, get.Succeeds settings jobId s) ↔
      Kept settings timed ∧ ∀ get ∈ gets, get.InTime settings := by
  rw [run.throughout_iff called ordered fresh]
  refine and_congr_right fun kept => forall₂_congr fun get member => ?_
  exact run.succeeds_iff called fresh kept (during get member)

end Requests

/-! ## Poles -/

section Poles

/-- The request of `foundJob` and its task. -/
def foundSubmission : Submission (.sorted _) .defaults plainHost single := singleSubmission foundTrace_runs

/-- Redis before the request. -/
def empty : JobRedis where
  keys _ := none
  published := []

/-- The calls of the request at instants 0, and of the task at `started` and `finished`. -/
def scheduled (started finished : ℚ) : List (ℚ × Act) :=
  [(0, .create 1, .ok), (0, .incrementProgress 1 0 1, .ok), (started, .start, .ok),
    (finished, .finish foundJob.preCachedResults, .ok),
    (finished, .publishDone foundJob.preCachedResults foundStats, .ok)]

theorem scheduled_calls (started finished : ℚ) :
    (scheduled started finished).map Prod.snd = foundSubmission.calls := rfl

/-- **Refuting pole.** The task finishes after the hash has expired. -/
theorem late_finish :
    RequestRun (.sorted _) .defaults plainHost single "j" ((scheduled 1 4000).map Prod.snd) ∧
      Ordered 0 (scheduled 1 4000) ∧
      ¬ Throughout .defaults "j" (WellFormedAt "j") 0 empty (scheduled 1 4000) := by
  refine ⟨.accepted foundSubmission rfl, ?_, fun formed => ?_⟩
  · norm_num [Ordered, scheduled]
  · have absent : Redis.Server.live 0 empty (jobKey "j") = none := rfl
    have after := perform_create .defaults 1 .ok absent
    have healthy : Healthy .defaults "j" 0 1 (perform .defaults "j" empty (0, .create 1, .ok)) :=
      ⟨_, "pending", after, rfl, rfl, by simp⟩
    have ordered : Ordered 0 (scheduled 1 4000).tail := by norm_num [Ordered, scheduled]
    have within := (healthy.throughout_iff (by decide) le_rfl ordered (by simp [scheduled])).mp formed.2
    have late := within (4000, .finish foundJob.preCachedResults, .ok) (by simp [scheduled])
      ⟨rfl, rfl⟩
    norm_num at late

/-- A `GET` that reads the state just before the hash expires, and the results after they have. -/
def lastGet : Get := ⟨scheduled 1 2, 3600, [], 3603⟩

/-- **Refuting pole.** The task finishes in time, and a `GET` fails on the missing results. -/
theorem late_read : Kept .defaults (scheduled 1 2) ∧ ¬ lastGet.Succeeds .defaults "j" empty := by
  have kept : Kept .defaults (scheduled 1 2) := by norm_num [Kept, scheduled, Reply.expires]
  have run : RequestRun (.sorted _) .defaults plainHost single "j" foundSubmission.calls :=
    .accepted foundSubmission rfl
  refine ⟨kept, fun succeeds => ?_⟩
  have during : lastGet.During (scheduled 1 2) := List.prefix_rfl
  have in_time := (run.succeeds_iff (scheduled_calls 1 2) rfl kept during).mp succeeds
  have late := in_time rfl _ rfl (by norm_num [lastGet, scheduled]) 2 rfl
  norm_num [lastGet] at late

/-- Two `GET`s: one that reads while the task starts, and one that finds the job done. -/
def earlyGets : List Get :=
  [⟨(scheduled 1 2).take 2, 1 / 2, ((scheduled 1 2).drop 2).take 1, 1⟩, ⟨(scheduled 1 2).take 4, 2, [], 3602⟩]

/-- Satisfiable pole: a task that finishes in time, and two `GET`s. -/
theorem well_formed_iff_kept_in_time :
    Throughout .defaults "j" (WellFormedAt "j") 0 empty (scheduled 1 2) ∧
      ∀ get ∈ earlyGets, get.Succeeds .defaults "j" empty := by
  have run : RequestRun (.sorted _) .defaults plainHost single "j" foundSubmission.calls :=
    .accepted foundSubmission rfl
  refine (well_formed_iff_kept run (scheduled_calls 1 2) ?_ rfl earlyGets ?_).mpr ⟨?_, ?_⟩
  · norm_num [Ordered, scheduled]
  · simp [earlyGets, scheduled, Get.During]
  · norm_num [Kept, scheduled, Reply.expires]
  · rintro get member done created first soon finished last
    simp only [earlyGets, List.mem_cons, List.not_mem_nil, or_false] at member
    obtain rfl | rfl := member
    · simp [Done, scheduled, statusAfter, written, Reply.tookEffect] at done
    · obtain rfl : 2 = finished := Option.some.inj last
      norm_num

end Poles

end InferenceForge.Api
