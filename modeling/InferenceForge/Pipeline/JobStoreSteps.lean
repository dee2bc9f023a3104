/-
# InferenceForge.Pipeline.JobStoreSteps — what a call does to the job's keys

One lemma for each part of Redis a call can touch: the job's hash
(`perform_hash`, whether the hash is there or not), the results
(`perform_results_finish`, `perform_results_of_ne`) and the channel
(`perform_published`). `create` apart, a call is one exchange, so it takes effect
as a whole or not at all (`Reply.tookEffect`).
-/
import InferenceForge.Pipeline.JobStore

namespace InferenceForge.Pipeline.JobStore

open InferenceForge.Python InferenceForge.Library

set_option autoImplicit false

/-! ## Hashes under a key -/

section Server

variable {now : ℚ} {s : JobRedis} {key : String}

theorem live_eq_some {entry : Redis.Entry (List Dict)} :
    s.live now key = some entry ↔
      s.keys key = some entry ∧ entry.expireAt.all (fun limit => now ≤ limit) = true := by
  rw [Redis.Server.live, Option.filter_eq_some_iff]

theorem live_eq_none_iff {value : Redis.Value (List Dict)} {limit : ℚ}
    (stored : s.keys key = some ⟨value, some limit⟩) : s.live now key = none ↔ limit < now := by
  rw [Redis.Server.live, stored]
  simp [Option.filter]

theorem live_of_no_expiry {value : Redis.Value (List Dict)}
    (stored : s.keys key = some ⟨value, none⟩) : s.live now key ≠ none := by
  rw [live_eq_some.mpr ⟨stored, rfl⟩]
  exact Option.some_ne_none _

theorem live_of_absent (absent : s.keys key = none) : s.live now key = none := by
  rw [Redis.Server.live, absent]
  rfl

theorem hashAt_limit {fields : Hash} {limit : Option ℚ}
    (here : s.hashAt now key = some (fields, limit)) : limit.all (fun l => now ≤ l) = true := by
  unfold Redis.Server.hashAt at here
  split at here
  · cases here
    rfl
  · next found =>
      cases here
      exact (live_eq_some.mp found).2
  · cases here

theorem hashAt_of_keys {fields : Hash} {limit : Option ℚ}
    (stored : s.keys key = some ⟨.hash fields, limit⟩)
    (alive : limit.all (fun l => now ≤ l) = true) : s.hashAt now key = some (fields, limit) := by
  have found : s.live now key = some ⟨.hash fields, limit⟩ := live_eq_some.mpr ⟨stored, alive⟩
  rw [Redis.Server.hashAt, found]

theorem hashAt_of_absent (absent : s.live now key = none) :
    s.hashAt now key = some (fun _ => none, none) := by
  rw [Redis.Server.hashAt, absent]

theorem hset_keys {fields : Hash} {limit : Option ℚ} (mapping : List (String × Field))
    (here : s.hashAt now key = some (fields, limit)) :
    (Redis.run now s (.hset key mapping)).keys key =
      some ⟨.hash (Redis.assign fields mapping), limit⟩ := by
  rw [Redis.documented.hset mapping here]
  exact Function.update_self ..

theorem hincrby_keys {fields : Hash} {limit : Option ℚ} {field : String} {amount : ℤ}
    (here : s.hashAt now key = some (fields, limit)) :
    (Redis.run now s (.hincrby key field amount)).keys key =
      some ⟨.hash (Redis.increment fields field amount), limit⟩ := by
  rw [Redis.documented.hincrby field amount here]
  exact Function.update_self ..

/-- `EXPIRE` on a key without an expiry. -/
theorem expire_keys {key : String} {value : Redis.Value (List Dict)} (now : ℚ) (seconds : ℤ)
    (stored : s.keys key = some ⟨value, none⟩) :
    (Redis.run now s (.expire key seconds)).keys key =
      if 0 < seconds then some ⟨value, some (now + seconds)⟩ else none := by
  have found : s.live now key = some ⟨value, none⟩ := live_eq_some.mpr ⟨stored, rfl⟩
  rw [Redis.documented.expire seconds found]
  exact Function.update_self ..

end Server

/-! ## One call -/

/-- Whether a call that is one exchange took effect. -/
def Reply.tookEffect : Reply → Bool
  | .ok => true
  | .raised _ applied => 0 < applied

@[simp] theorem Reply.tookEffect_ok : Reply.ok.tookEffect = true := rfl

@[simp] theorem Reply.tookEffect_raised (e : Exn) (applied : ℕ) :
    (Reply.raised e applied).tookEffect = decide (0 < applied) := rfl

/-- Whether `create` got to its second exchange. -/
def Reply.expires : Reply → Bool
  | .ok => true
  | .raised _ applied => 1 < applied

/-- Whether a call writes to the job's hash. -/
def StoreCall.writesHash : StoreCall → Bool
  | .create _ | .start | .finish _ | .fail _ => true
  | .incrementProgress completed failed cacheHits =>
      completed ≠ 0 || failed ≠ 0 || cacheHits ≠ 0
  | .publishProgress .. | .publishDone .. => false

/-- `HINCRBY` by an amount that is only sent when it is not zero. -/
def bump (fields : Hash) (field : String) (amount : ℕ) : Hash :=
  if amount ≠ 0 then Redis.increment fields field amount else fields

/-- The fields of the hash after a call that takes effect. -/
def hashWrites (now : ℚ) (call : StoreCall) (fields : Hash) : Hash :=
  match call with
  | .create total => Redis.assign fields [("status", .text "pending"), ("total", .int total),
      ("completed", .int 0), ("failed_count", .int 0), ("cache_hits", .int 0),
      ("created_at", .real now), ("started_at", .text ""), ("completed_at", .text "")]
  | .start => Redis.assign fields [("status", .text "processing"), ("started_at", .real now)]
  | .incrementProgress completed failed cacheHits =>
      bump (bump (bump fields "completed" completed) "failed_count" failed) "cache_hits" cacheHits
  | .finish _ => Redis.assign fields [("status", .text "done"), ("completed_at", .real now)]
  | .fail reason => Redis.assign fields [("status", .text "failed"), ("completed_at", .real now),
      ("error", .text reason)]
  | .publishProgress .. | .publishDone .. => fields

section Steps

variable {settings : Settings} {jobId : String} {now : ℚ} {s : JobRedis}

theorem resultsKey_ne_jobKey : resultsKey jobId ≠ jobKey jobId := by
  intro same
  have lengths := congrArg String.length same
  simp [resultsKey, jobKey] at lengths

/-- What `create` leaves under an absent key: nothing, the hash without an expiry
when the error comes between its two exchanges, or the hash with its expiry. -/
theorem perform_create (settings : Settings) (total : ℕ) (reply : Reply)
    (absent : s.live now (jobKey jobId) = none) :
    (perform settings jobId s (now, .create total, reply)).keys (jobKey jobId) =
      if reply.expires then
        if 0 < settings.jobTtlSeconds then
          some ⟨.hash (hashWrites now (.create total) fun _ => none),
            some (now + settings.jobTtlSeconds)⟩
        else none
      else if reply.tookEffect then
        some ⟨.hash (hashWrites now (.create total) fun _ => none), none⟩
      else s.keys (jobKey jobId) := by
  have first := hset_keys [("status", .text "pending"), ("total", .int total),
    ("completed", .int 0), ("failed_count", .int 0), ("cache_hits", .int 0),
    ("created_at", .real now), ("started_at", .text ""), ("completed_at", .text "")]
    (hashAt_of_absent absent)
  have both := expire_keys now settings.jobTtlSeconds first
  match reply with
  | .ok => exact both
  | .raised _ 0 => rfl
  | .raised _ 1 => exact first
  | .raised _ (n + 2) =>
      have expires : Reply.expires (.raised ‹_› (n + 2)) = true := by simp [Reply.expires]
      have whole : ((create settings jobId now total).take (n + 2)) =
          create settings jobId now total := by simp [create]
      rw [if_pos expires]
      show ((List.take (n + 2) (create settings jobId now total)).foldl _ s).keys _ = _
      rw [whole]
      exact both

/-- A call other than `create` takes effect as one transaction or not at all. -/
theorem perform_of_ne_create {call : StoreCall} {reply : Reply}
    (other : ∀ total, call ≠ .create total) :
    perform settings jobId s (now, call, reply) =
      if reply.tookEffect then
        (roundTrips settings jobId now call).foldl (Redis.transaction now) s
      else s := by
  have single : ∃ commands, roundTrips settings jobId now call = [commands] := by
    cases call with
    | create total => exact absurd rfl (other total)
    | _ => exact ⟨_, rfl⟩
  obtain ⟨commands, one⟩ := single
  cases reply with
  | ok => rfl
  | raised e applied =>
      cases applied with
      | zero => simp [perform, JobStore.applied, Reply.tookEffect]
      | succ n => simp [perform, JobStore.applied, Reply.tookEffect, one]

/-- The `HINCRBY` commands of a pipeline. -/
def hincrbys (key : String) (amounts : List (String × ℕ)) : List JobCommand :=
  amounts.filterMap fun (field, amount) =>
    if amount ≠ 0 then some (.hincrby key field amount) else none

theorem hincrbys_keys_of_stored {key : String} {fields : Hash} {limit : Option ℚ}
    (amounts : List (String × ℕ)) (alive : limit.all (fun l => now ≤ l) = true)
    (stored : s.keys key = some ⟨.hash fields, limit⟩) :
    (Redis.transaction now s (hincrbys key amounts)).keys key =
      some ⟨.hash (amounts.foldl (fun f entry => bump f entry.1 entry.2) fields), limit⟩ := by
  induction amounts generalizing s fields with
  | nil => exact stored
  | cons entry rest ih =>
      obtain ⟨field, amount⟩ := entry
      by_cases zero : amount = 0
      · subst zero
        exact ih stored
      · have first : hincrbys key ((field, amount) :: rest) =
            .hincrby key field amount :: hincrbys key rest := by simp [hincrbys, zero]
        rw [first]
        have written : (Redis.run now s (.hincrby key field amount)).keys key = _ :=
          hincrby_keys (hashAt_of_keys stored alive)
        show (Redis.transaction now (Redis.run now s _) (hincrbys key rest)).keys key = _
        rw [ih written]
        simp [bump, zero]

theorem hincrbys_keys {key : String} {fields : Hash} {limit : Option ℚ}
    (amounts : List (String × ℕ)) (here : s.hashAt now key = some (fields, limit))
    (writes : ∃ entry ∈ amounts, entry.2 ≠ 0) :
    (Redis.transaction now s (hincrbys key amounts)).keys key =
      some ⟨.hash (amounts.foldl (fun f entry => bump f entry.1 entry.2) fields), limit⟩ := by
  induction amounts with
  | nil => simp at writes
  | cons entry rest ih =>
      obtain ⟨field, amount⟩ := entry
      by_cases zero : amount = 0
      · subst zero
        exact ih (by simpa using writes)
      · have first : hincrbys key ((field, amount) :: rest) =
            .hincrby key field amount :: hincrbys key rest := by simp [hincrbys, zero]
        rw [first]
        show (Redis.transaction now (Redis.run now s _) (hincrbys key rest)).keys key = _
        rw [hincrbys_keys_of_stored rest (hashAt_limit here) (hincrby_keys here)]
        simp [bump, zero]

/-- The three commands of `finish`, one after the other. -/
theorem finish_commands (results : List Dict) :
    (roundTrips settings jobId now (.finish results)).foldl (Redis.transaction now) s =
      Redis.run now
        (Redis.run now
          (Redis.run now s
            (.hset (jobKey jobId) [("status", .text "done"), ("completed_at", .real now)]))
          (.set (resultsKey jobId) results))
        (.expire (resultsKey jobId) settings.jobTtlSeconds) := rfl

/-- What a call that writes to the job's hash leaves there. -/
theorem roundTrips_hash {call : StoreCall} {fields : Hash} {limit : Option ℚ}
    (other : ∀ total, call ≠ .create total) (writes : call.writesHash = true)
    (here : s.hashAt now (jobKey jobId) = some (fields, limit)) :
    ((roundTrips settings jobId now call).foldl (Redis.transaction now) s).keys (jobKey jobId) =
      some ⟨.hash (hashWrites now call fields), limit⟩ := by
  cases call with
  | create total => exact absurd rfl (other total)
  | publishProgress | publishDone => cases writes
  | start => exact hset_keys _ here
  | fail reason => exact hset_keys _ here
  | incrementProgress completed failed cacheHits =>
      refine hincrbys_keys [("completed", completed), ("failed_count", failed),
        ("cache_hits", cacheHits)] here ?_
      simpa [StoreCall.writesHash, or_assoc] using writes
  | finish results =>
      -- the two commands after the `HSET` are about the results
      have apart : jobKey jobId ≠ resultsKey jobId := resultsKey_ne_jobKey.symm
      rw [finish_commands, Redis.run_keys_of_ne (by simpa [Redis.Command.key?] using apart.symm),
        Redis.run_keys_of_ne (by simpa [Redis.Command.key?] using apart.symm), hset_keys _ here]
      rfl

/-- A call that does not write to the job's hash leaves it alone. -/
theorem roundTrips_hash_of_quiet {call : StoreCall} (quiet : call.writesHash = false) :
    ((roundTrips settings jobId now call).foldl (Redis.transaction now) s).keys = s.keys := by
  cases call with
  | publishProgress | publishDone => rfl
  | create | start | finish | fail => cases quiet
  | incrementProgress completed failed cacheHits =>
      obtain ⟨⟨rfl, rfl⟩, rfl⟩ : (completed = 0 ∧ failed = 0) ∧ cacheHits = 0 := by
        simpa [StoreCall.writesHash] using quiet
      rfl

/-- **The job's hash after a call**, whatever its reply, while the key is present
or absent; `fields` are those of an empty hash when it is absent. -/
theorem perform_hash (settings : Settings) (call : StoreCall) (reply : Reply) {fields : Hash}
    {limit : Option ℚ} (other : ∀ total, call ≠ .create total)
    (here : s.hashAt now (jobKey jobId) = some (fields, limit)) :
    (perform settings jobId s (now, call, reply)).keys (jobKey jobId) =
      if reply.tookEffect ∧ call.writesHash then some ⟨.hash (hashWrites now call fields), limit⟩
      else s.keys (jobKey jobId) := by
  rw [perform_of_ne_create other]
  cases took : reply.tookEffect with
  | false => simp
  | true =>
      cases writes : call.writesHash with
      | false => simp [roundTrips_hash_of_quiet writes]
      | true => simpa using roundTrips_hash other writes here

/-- Exchanges without a command for a key leave it alone. -/
theorem exchanges_keys {key : String} {exchanges : List (List JobCommand)}
    (elsewhere : ∀ commands ∈ exchanges, ∀ command ∈ commands, command.key? ≠ some key)
    (s : JobRedis) : (exchanges.foldl (Redis.transaction now) s).keys key = s.keys key := by
  have frame : ∀ (commands : List JobCommand) (s : JobRedis),
      (∀ command ∈ commands, command.key? ≠ some key) →
      (Redis.transaction now s commands).keys key = s.keys key := by
    intro commands
    induction commands with
    | nil => exact fun _ _ => rfl
    | cons command rest ih =>
        intro s elsewhere
        show (Redis.transaction now (Redis.run now s command) rest).keys _ = _
        rw [ih _ fun c member => elsewhere c (List.mem_cons_of_mem _ member),
          Redis.run_keys_of_ne (elsewhere command List.mem_cons_self)]
  induction exchanges generalizing s with
  | nil => rfl
  | cons commands rest ih =>
      rw [List.foldl_cons, ih fun c member => elsewhere c (List.mem_cons_of_mem _ member),
        frame commands s (elsewhere commands List.mem_cons_self)]

theorem mem_incrementProgress {completed failed cacheHits : ℕ} {commands : List JobCommand}
    {command : JobCommand} (one : commands ∈ incrementProgress jobId completed failed cacheHits)
    (member : command ∈ commands) : ∃ field amount, command = .hincrby (jobKey jobId) field amount := by
  obtain rfl := List.mem_singleton.mp one
  simp only [List.mem_filterMap] at member
  obtain ⟨⟨field, amount⟩, _, sent⟩ := member
  split at sent
  · cases sent
    exact ⟨field, amount, rfl⟩
  · cases sent

/-- No command of a call other than `finish` is about the results. -/
theorem roundTrips_elsewhere (settings : Settings) (jobId : String) (now : ℚ) {call : StoreCall}
    (unfinished : ∀ results, call ≠ .finish results) :
    ∀ commands ∈ roundTrips settings jobId now call, ∀ command ∈ commands,
      command.key? ≠ some (resultsKey jobId) := by
  have apart : jobKey jobId ≠ resultsKey jobId := resultsKey_ne_jobKey.symm
  cases call with
  | finish results => exact absurd rfl (unfinished results)
  | create total => simp [roundTrips, create, Redis.Command.key?, apart]
  | start => simp [roundTrips, start, Redis.Command.key?, apart]
  | fail reason => simp [roundTrips, fail, Redis.Command.key?, apart]
  | publishProgress | publishDone => simp [roundTrips, publish, Redis.Command.key?]
  | incrementProgress completed failed cacheHits =>
      intro commands one command member
      obtain ⟨field, amount, rfl⟩ := mem_incrementProgress one member
      simpa [Redis.Command.key?] using apart

/-- The results are written by `finish` alone. -/
theorem perform_results_of_ne {call : StoreCall} {reply : Reply}
    (unfinished : ∀ results, call ≠ .finish results) :
    (perform settings jobId s (now, call, reply)).keys (resultsKey jobId) =
      s.keys (resultsKey jobId) := by
  have elsewhere := roundTrips_elsewhere settings jobId now unfinished
  cases reply with
  | ok => exact exchanges_keys elsewhere s
  | raised e applied =>
      exact exchanges_keys (fun commands member => elsewhere commands (List.mem_of_mem_take member)) s

/-- `finish` stores the results, to expire one lifetime later. -/
theorem perform_results_finish {results : List Dict} {reply : Reply}
    (took : reply.tookEffect = true) :
    (perform settings jobId s (now, .finish results, reply)).keys (resultsKey jobId) =
      if 0 < settings.jobTtlSeconds then
        some ⟨.document results, some (now + settings.jobTtlSeconds)⟩
      else none := by
  rw [perform_of_ne_create (by simp), if_pos took, finish_commands]
  generalize Redis.run now s (.hset (jobKey jobId) _) = t
  have stored : (Redis.run now t (.set (resultsKey jobId) results)).keys (resultsKey jobId) =
      some ⟨.document results, none⟩ := by
    rw [Redis.documented.set]
    exact Function.update_self ..
  exact expire_keys _ _ stored

/-- The message a call publishes. -/
def message (jobId : String) : StoreCall → List (String × Dict)
  | .publishProgress completed total cacheHits failed eta =>
      [(eventChannel jobId, progressEvent completed total cacheHits failed eta)]
  | .publishDone results stats => [(eventChannel jobId, doneEvent results stats)]
  | _ => []

/-- The messages of a call that was answered. -/
def sent (jobId : String) (act : Act) : List (String × Dict) :=
  if act.2.tookEffect then message jobId act.1 else []

/-- Exchanges without `PUBLISH` publish nothing. -/
theorem exchanges_published {exchanges : List (List JobCommand)}
    (quiet : ∀ commands ∈ exchanges, ∀ command ∈ commands, ∀ channel m,
      command ≠ .publish channel m) (s : JobRedis) :
    (exchanges.foldl (Redis.transaction now) s).published = s.published := by
  have silent : ∀ (commands : List JobCommand) (s : JobRedis),
      (∀ command ∈ commands, ∀ channel m, command ≠ .publish channel m) →
      (Redis.transaction now s commands).published = s.published := by
    intro commands
    induction commands with
    | nil => exact fun _ _ => rfl
    | cons command rest ih =>
        intro s quiet
        show (Redis.transaction now (Redis.run now s command) rest).published = _
        rw [ih _ fun c member => quiet c (List.mem_cons_of_mem _ member),
          Redis.run_published (quiet command List.mem_cons_self)]
  induction exchanges generalizing s with
  | nil => rfl
  | cons commands rest ih =>
      rw [List.foldl_cons, ih fun c member => quiet c (List.mem_cons_of_mem _ member),
        silent commands s (quiet commands List.mem_cons_self)]

/-- No command of a call without a message is a `PUBLISH`. -/
theorem roundTrips_quiet (settings : Settings) (now : ℚ) {call : StoreCall}
    (silent : message jobId call = []) :
    ∀ commands ∈ roundTrips settings jobId now call, ∀ command ∈ commands, ∀ channel m,
      command ≠ .publish channel m := by
  cases call with
  | publishProgress | publishDone => cases silent
  | create total => simp [roundTrips, create]
  | start => simp [roundTrips, start]
  | finish results => simp [roundTrips, finish]
  | fail reason => simp [roundTrips, fail]
  | incrementProgress completed failed cacheHits =>
      intro commands one command member channel m same
      obtain ⟨field, amount, rfl⟩ := mem_incrementProgress one member
      cases same

theorem perform_published (act : Act) :
    (perform settings jobId s (now, act)).published = s.published ++ sent jobId act := by
  obtain ⟨call, reply⟩ := act
  by_cases silent : message jobId call = []
  · have quiet := roundTrips_quiet settings now silent
    have nothing : sent jobId (call, reply) = [] := by simp [sent, silent]
    rw [nothing, List.append_nil]
    cases reply with
    | ok => exact exchanges_published quiet s
    | raised e applied =>
        exact exchanges_published (fun commands member => quiet commands (List.mem_of_mem_take member)) s
  · cases call with
    | create | start | incrementProgress | finish | fail => exact absurd rfl silent
    | publishProgress | publishDone =>
        rw [perform_of_ne_create (by simp)]
        cases took : reply.tookEffect <;> simp [sent, took, roundTrips, publish, Redis.transaction,
          Redis.documented.publish, message]

end Steps

end InferenceForge.Pipeline.JobStore
