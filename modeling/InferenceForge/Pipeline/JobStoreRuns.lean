/-
# InferenceForge.Pipeline.JobStoreRuns — what a sequence of calls adds up to

The fields of the job's hash under the calls that are made after `create`: the
status is the last one written (`hashAfter_status`), a counter is the sum of what
was added to it (`hashAfter_counter`), and the total stays (`hashAfter_total`).
`performAll_keys` says that this is what Redis holds while the hash is alive.
The results are there exactly when a `finish` was applied
(`performAll_results`).
-/
import InferenceForge.Pipeline.JobStoreSteps

namespace InferenceForge.Pipeline.JobStore

open InferenceForge.Python InferenceForge.Library

set_option autoImplicit false

/-! ## Counters -/

inductive Counter
  | completed
  | failed
  | cacheHits

/-- The field that keeps a counter. -/
def Counter.field : Counter → String
  | .completed => "completed"
  | .failed => "failed_count"
  | .cacheHits => "cache_hits"

/-- What a call adds to a counter. -/
def StoreCall.adds : StoreCall → Counter → ℕ
  | .incrementProgress completed _ _, .completed => completed
  | .incrementProgress _ failed _, .failed => failed
  | .incrementProgress _ _ cacheHits, .cacheHits => cacheHits
  | _, _ => 0

/-- What the calls that took effect add to a counter. -/
def tally (counter : Counter) (calls : List Act) : ℕ :=
  (calls.map fun act => if act.2.tookEffect then act.1.adds counter else 0).sum

@[simp] theorem tally_nil (counter : Counter) : tally counter [] = 0 := rfl

@[simp] theorem tally_cons (counter : Counter) (act : Act) (rest : List Act) :
    tally counter (act :: rest) =
      (if act.2.tookEffect then act.1.adds counter else 0) + tally counter rest :=
  List.sum_cons

@[simp] theorem tally_append (counter : Counter) (before after : List Act) :
    tally counter (before ++ after) = tally counter before + tally counter after := by
  simp [tally]

/-! ## One call -/

/-- The status a call writes. -/
def written : StoreCall → Option Field
  | .create _ => some (.text "pending")
  | .start => some (.text "processing")
  | .finish _ => some (.text "done")
  | .fail _ => some (.text "failed")
  | .incrementProgress .. | .publishProgress .. | .publishDone .. => none

section Writes

variable {now : ℚ} {fields : Hash}

theorem bump_of_ne {field other : String} (ne : other ≠ field) (amount : ℕ) :
    bump fields field amount other = fields other := by
  by_cases zero : amount = 0
  · simp [bump, zero]
  · rw [bump, if_pos zero]
    cases given : fields field with
    | none => simp only [Redis.increment, given, Function.update_of_ne ne]
    | some value => cases value <;> simp only [Redis.increment, given, Function.update_of_ne ne]

theorem bump_self {field : String} {value : ℤ} (given : fields field = some (.int value))
    (amount : ℕ) : bump fields field amount field = some (.int (value + amount)) := by
  by_cases zero : amount = 0
  · simp [bump, zero, given]
  · rw [bump, if_pos zero]
    simp only [Redis.increment, given, Function.update_self]

theorem hashWrites_status (call : StoreCall) (fields : Hash) :
    hashWrites now call fields "status" = (written call).or (fields "status") := by
  cases call with
  | create total | start | finish results | fail reason => rfl
  | incrementProgress completed failed cacheHits =>
      show bump (bump (bump fields _ _) _ _) _ _ "status" = fields "status"
      rw [bump_of_ne (by decide), bump_of_ne (by decide), bump_of_ne (by decide)]
  | publishProgress | publishDone => rfl

theorem hashWrites_total {call : StoreCall} (other : ∀ total, call ≠ .create total) (fields : Hash) :
    hashWrites now call fields "total" = fields "total" := by
  cases call with
  | create total => exact absurd rfl (other total)
  | incrementProgress completed failed cacheHits =>
      show bump (bump (bump fields _ _) _ _) _ _ "total" = fields "total"
      rw [bump_of_ne (by decide), bump_of_ne (by decide), bump_of_ne (by decide)]
  | start | finish | fail | publishProgress | publishDone => rfl

theorem hashWrites_counter {call : StoreCall} (other : ∀ total, call ≠ .create total)
    {counter : Counter} {value : ℤ} (given : fields counter.field = some (.int value)) :
    hashWrites now call fields counter.field = some (.int (value + call.adds counter)) := by
  cases call with
  | create total => exact absurd rfl (other total)
  | incrementProgress completed failed cacheHits =>
      show bump (bump (bump fields "completed" completed) "failed_count" failed) "cache_hits"
        cacheHits counter.field = _
      cases counter with
      | completed =>
          rw [bump_of_ne (by decide), bump_of_ne (by decide)]
          exact bump_self given completed
      | failed =>
          rw [bump_of_ne (by decide)]
          exact bump_self ((bump_of_ne (by decide) completed).trans given) failed
      | cacheHits =>
          refine bump_self ?_ cacheHits
          rw [bump_of_ne (by decide), bump_of_ne (by decide)]
          exact given
  | publishProgress | publishDone => exact given.trans (by simp [StoreCall.adds])
  | start | finish | fail =>
      refine (Redis.assign_of_ne ?_ fields).trans (given.trans (by simp [StoreCall.adds]))
      cases counter <;> simp [Counter.field]

end Writes

/-! ## A sequence of calls -/

/-- The fields of a hash that is alive at the call. -/
def hashStep (fields : Hash) (act : ℚ × Act) : Hash :=
  if act.2.2.tookEffect ∧ act.2.1.writesHash then hashWrites act.1 act.2.1 fields else fields

/-- The fields of a hash that is alive at every call. -/
def hashAfter (fields : Hash) (timed : List (ℚ × Act)) : Hash := timed.foldl hashStep fields

/-- The last status written, after a call. -/
def statusAfter (status : Field) : Act → Field
  | (call, reply) => if reply.tookEffect then (written call).getD status else status

/-- A call that does not write to the hash adds to no counter. -/
theorem adds_of_quiet {call : StoreCall} (quiet : call.writesHash = false) (counter : Counter) :
    call.adds counter = 0 := by
  cases call with
  | incrementProgress completed failed cacheHits =>
      obtain ⟨⟨rfl, rfl⟩, rfl⟩ : (completed = 0 ∧ failed = 0) ∧ cacheHits = 0 := by
        simpa [StoreCall.writesHash] using quiet
      cases counter <;> rfl
  | create | start | finish | fail | publishProgress | publishDone => cases counter <;> rfl

/-- A call that does not write to the hash writes no status. -/
theorem written_of_quiet {call : StoreCall} (quiet : call.writesHash = false) :
    written call = none := by
  cases call with
  | create | start | finish | fail => cases quiet
  | incrementProgress | publishProgress | publishDone => rfl

section Runs

variable {settings : Settings} {jobId : String} {s : JobRedis} {fields : Hash}
  {limit : Option ℚ} {act : ℚ × Act} {timed : List (ℚ × Act)}

theorem hashStep_total (other : ∀ total, act.2.1 ≠ .create total) :
    hashStep fields act "total" = fields "total" := by
  unfold hashStep
  split
  · exact hashWrites_total other fields
  · rfl

theorem hashStep_counter (other : ∀ total, act.2.1 ≠ .create total) {counter : Counter} {value : ℤ}
    (given : fields counter.field = some (.int value)) :
    hashStep fields act counter.field =
      some (.int (value + (if act.2.2.tookEffect then act.2.1.adds counter else 0 : ℕ))) := by
  unfold hashStep
  by_cases took : act.2.2.tookEffect = true
  · by_cases writes : act.2.1.writesHash = true
    · rw [if_pos ⟨took, writes⟩, if_pos took]
      exact hashWrites_counter other given
    · rw [if_neg (fun both => writes both.2), if_pos took, adds_of_quiet (by simpa using writes)]
      simpa using given
  · rw [if_neg (fun both => took both.1), if_neg took]
    simpa using given

theorem hashStep_status {status : Field} (given : fields "status" = some status) :
    hashStep fields act "status" = some (statusAfter status act.2) := by
  obtain ⟨now, call, reply⟩ := act
  unfold hashStep statusAfter
  dsimp only
  by_cases took : reply.tookEffect = true
  · by_cases writes : call.writesHash = true
    · rw [if_pos ⟨took, writes⟩, hashWrites_status, given, if_pos took]
      cases written call <;> rfl
    · rw [if_neg (fun both => writes both.2), if_pos took, written_of_quiet (by simpa using writes)]
      exact given
  · rw [if_neg (fun both => took both.1), if_neg took]
    exact given

/-- A call that writes nothing to the job's hash leaves its key alone. -/
theorem perform_keys_of_quiet (settings : Settings) (jobId : String) (s : JobRedis)
    (other : ∀ total, act.2.1 ≠ .create total)
    (quiet : ¬ (act.2.2.tookEffect = true ∧ act.2.1.writesHash = true)) :
    (perform settings jobId s act).keys (jobKey jobId) = s.keys (jobKey jobId) := by
  obtain ⟨now, call, reply⟩ := act
  rw [perform_of_ne_create other]
  split
  · next took =>
      have silent : call.writesHash = false := by simpa [took] using quiet
      rw [roundTrips_hash_of_quiet silent]
  · rfl

/-- What a call leaves under the job's key, alive if the call writes to it. -/
theorem perform_keys (settings : Settings) (other : ∀ total, act.2.1 ≠ .create total)
    (alive : act.2.2.tookEffect = true → act.2.1.writesHash = true →
      limit.all (fun l => act.1 ≤ l) = true)
    (stored : s.keys (jobKey jobId) = some ⟨.hash fields, limit⟩) :
    (perform settings jobId s act).keys (jobKey jobId) =
      some ⟨.hash (hashStep fields act), limit⟩ := by
  by_cases writes : act.2.2.tookEffect = true ∧ act.2.1.writesHash = true
  · obtain ⟨now, call, reply⟩ := act
    have here := hashAt_of_keys stored (alive writes.1 writes.2)
    rw [perform_hash _ _ _ other here, if_pos writes, hashStep, if_pos writes]
  · rw [perform_keys_of_quiet settings jobId s other writes, stored, hashStep, if_neg writes]

/-- What the job's key holds while it is alive. -/
theorem performAll_keys (settings : Settings)
    (others : ∀ act ∈ timed, ∀ total, act.2.1 ≠ .create total)
    (alive : ∀ act ∈ timed, act.2.2.tookEffect = true → act.2.1.writesHash = true →
      limit.all (fun l => act.1 ≤ l) = true)
    (stored : s.keys (jobKey jobId) = some ⟨.hash fields, limit⟩) :
    (performAll settings jobId s timed).keys (jobKey jobId) =
      some ⟨.hash (hashAfter fields timed), limit⟩ := by
  induction timed generalizing s fields with
  | nil => exact stored
  | cons act rest ih =>
      exact ih (fun act member => others act (List.mem_cons_of_mem _ member))
        (fun act member => alive act (List.mem_cons_of_mem _ member))
        (perform_keys settings (others _ List.mem_cons_self) (alive _ List.mem_cons_self) stored)

/-- A counter is the sum of what was added to it. -/
theorem hashAfter_counter (others : ∀ act ∈ timed, ∀ total, act.2.1 ≠ .create total)
    {counter : Counter} {value : ℤ} (given : fields counter.field = some (.int value)) :
    hashAfter fields timed counter.field =
      some (.int (value + tally counter (timed.map Prod.snd))) := by
  induction timed generalizing fields value with
  | nil => simpa [hashAfter] using given
  | cons act rest ih =>
      refine (ih (fun act member => others act (List.mem_cons_of_mem _ member))
        (hashStep_counter (others _ List.mem_cons_self) given)).trans ?_
      rw [List.map_cons, tally_cons]
      push_cast
      rw [add_assoc]

/-- The total is the one `create` has written. -/
theorem hashAfter_total (others : ∀ act ∈ timed, ∀ total, act.2.1 ≠ .create total) :
    hashAfter fields timed "total" = fields "total" := by
  induction timed generalizing fields with
  | nil => rfl
  | cons act rest ih =>
      exact (ih fun act member => others act (List.mem_cons_of_mem _ member)).trans
        (hashStep_total (others _ List.mem_cons_self))

/-- The status is the last one written. -/
theorem hashAfter_status {status : Field} (given : fields "status" = some status) :
    hashAfter fields timed "status" = some ((timed.map Prod.snd).foldl statusAfter status) := by
  induction timed generalizing fields status with
  | nil => exact given
  | cons act rest ih => exact ih (hashStep_status given)

/-! ## The results -/

/-- Results that are found were stored by a `finish` that was applied. -/
theorem performAll_results {results : List Dict} {expiry : Option ℚ}
    (found : (performAll settings jobId s timed).keys (resultsKey jobId) =
      some ⟨.document results, expiry⟩) :
    s.keys (resultsKey jobId) = some ⟨.document results, expiry⟩ ∨
      ∃ act ∈ timed, act.2.1 = .finish results ∧ act.2.2.tookEffect = true := by
  induction timed generalizing s with
  | nil => exact .inl found
  | cons act rest ih =>
      rcases ih found with before | ⟨act, member, stored⟩
      · obtain ⟨now, call, reply⟩ := act
        by_cases finish : ∃ results, call = .finish results
        · obtain ⟨results', rfl⟩ := finish
          by_cases took : reply.tookEffect = true
          · rw [perform_results_finish took] at before
            split at before
            · cases before
              exact .inr ⟨_, List.mem_cons_self, rfl, took⟩
            · cases before
          · rw [perform_of_ne_create (by simp), if_neg took] at before
            exact .inl before
        · rw [perform_results_of_ne fun results same => finish ⟨results, same⟩] at before
          exact .inl before
      · exact .inr ⟨act, List.mem_cons_of_mem _ member, stored⟩

/-- A `finish` that was applied. -/
def isFinish : Act → Bool
  | (.finish _, reply) => reply.tookEffect
  | _ => false

theorem isFinish_cases {act : Act} (finish : isFinish act = true) : ∃ results reply, act = (.finish results, reply) := by
  obtain ⟨call, reply⟩ := act
  cases call with
  | finish results => exact ⟨results, reply, rfl⟩
  | _ => cases finish

/-- When the last `finish` was called that was applied. -/
def finishedAt (timed : List (ℚ × Act)) : Option ℚ :=
  timed.foldl (fun last act => if isFinish act.2 then some act.1 else last) none

/-- The last status the calls have written is that of `finish`. -/
def Done (timed : List (ℚ × Act)) : Prop := (timed.map Prod.snd).foldl statusAfter (.text "") = .text "done"

theorem finishedAt_concat (timed : List (ℚ × Act)) (act : ℚ × Act) :
    finishedAt (timed ++ [act]) = if isFinish act.2 then some act.1 else finishedAt timed := by
  rw [finishedAt, List.foldl_append]
  rfl

/-- Only a `finish` makes the status that of `finish`. -/
theorem statusAfter_done {status : Field} {act : Act} (done : statusAfter status act = .text "done") :
    isFinish act = true ∨ status = .text "done" := by
  obtain ⟨call, reply⟩ := act
  cases took : reply.tookEffect with
  | false => exact .inr (by simpa [statusAfter, took] using done)
  | true =>
      cases call with
      | finish => exact .inl took
      | create | start | fail => simp [statusAfter, took, written] at done
      | incrementProgress | publishProgress | publishDone => exact .inr (by simpa [statusAfter, took, written] using done)

/-- A job that is done was finished. -/
theorem Done.finished (done : Done timed) : ∃ act ∈ timed, isFinish act.2 = true := by
  induction timed using List.reverseRecOn with
  | nil => simp [Done] at done
  | append_singleton timed act ih =>
      rw [Done, List.map_append, List.foldl_append] at done
      rcases statusAfter_done done with finish | before
      · exact ⟨act, by simp, finish⟩
      · obtain ⟨act', member, finish⟩ := ih before
        exact ⟨act', List.mem_append_left _ member, finish⟩

theorem finishedAt_of_mem {act : ℚ × Act} (member : act ∈ timed) (finish : isFinish act.2 = true) :
    ∃ finished, finishedAt timed = some finished := by
  induction timed using List.reverseRecOn with
  | nil => cases member
  | append_singleton timed last ih =>
      rw [finishedAt_concat]
      by_cases now : isFinish last.2 = true
      · exact ⟨last.1, if_pos now⟩
      · rw [if_neg now]
        rcases List.mem_append.mp member with before | same
        · exact ih before
        · cases List.mem_singleton.mp same
          exact absurd finish now

/-- The results live for one lifetime from the last `finish` on. -/
theorem performAll_finished (positive : 0 < settings.jobTtlSeconds) {finished : ℚ}
    (at_ : finishedAt timed = some finished) :
    ∃ results, (performAll settings jobId s timed).keys (resultsKey jobId) =
      some ⟨.document results, some (finished + settings.jobTtlSeconds)⟩ := by
  induction timed using List.reverseRecOn with
  | nil => cases at_
  | append_singleton timed act ih =>
      have step : performAll settings jobId s (timed ++ [act]) =
          perform settings jobId (performAll settings jobId s timed) act := List.foldl_append ..
      obtain ⟨now, call, reply⟩ := act
      rw [finishedAt_concat] at at_
      rw [step]
      by_cases finish : isFinish (call, reply) = true
      · rw [if_pos finish] at at_
        cases at_
        cases call with
        | finish results =>
            refine ⟨results, ?_⟩
            rw [perform_results_finish finish, if_pos positive]
        | _ => cases finish
      · rw [if_neg finish] at at_
        obtain ⟨results, there⟩ := ih at_
        refine ⟨results, ?_⟩
        rw [← there]
        cases call with
        | finish results' =>
            have untouched : ¬ reply.tookEffect = true := finish
            rw [perform_of_ne_create (by simp), if_neg untouched]
        | _ => exact perform_results_of_ne (by simp)

/-- What the calls have published. -/
theorem performAll_published :
    (performAll settings jobId s timed).published =
      s.published ++ (timed.map Prod.snd).flatMap (sent jobId) := by
  induction timed generalizing s with
  | nil => exact (List.append_nil _).symm
  | cons act rest ih =>
      have first : (perform settings jobId s act).published = s.published ++ sent jobId act.2 :=
        perform_published act.2
      rw [List.map_cons, List.flatMap_cons, ← List.append_assoc, ← first]
      exact ih

end Runs

end InferenceForge.Pipeline.JobStore
