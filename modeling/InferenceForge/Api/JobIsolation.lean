/-
# InferenceForge.Api.JobIsolation — many jobs in one Redis

Every job has its keys and its channel in the one Redis all jobs share. Whatever the
handlers and tasks of the jobs are, in any order of their steps and with any instants
and replies, what Redis holds and has published for a job is what it would hold and
have published if this job had been alone (`jobs_isolated`). So what is proved of a job
that is alone holds of it among others.

It takes that the identifiers are distinct and have no `:` in them, as the texts of
`uuid.uuid4()` have: with identifiers `a` and `a:results` the hash of one job would be
the results of the other.
-/
import InferenceForge.Api.Stream
import InferenceForge.Library.Footprint

namespace InferenceForge.Api.Isolation

open InferenceForge.Python InferenceForge.Library InferenceForge.Pipeline
open InferenceForge.Pipeline.JobStore

set_option autoImplicit false

/-! ## The part of a job -/

/-- The keys of a job and its channel. -/
def jobPart (jobId : String) : Redis.Part where
  keys key := key = jobKey jobId ∨ key = resultsKey jobId
  channels channel := channel = eventChannel jobId

/-- An identifier like those of `uuid.uuid4()`. -/
def Plain (jobId : String) : Prop := ':' ∉ jobId.toList

instance (jobId : String) : Decidable (Plain jobId) := inferInstanceAs (Decidable (_ ∉ _))

section Part

variable {settings : Settings} {jobId other : String} {now : ℚ} {s t : JobRedis}

theorem jobKey_inj (same : jobKey jobId = jobKey other) : jobId = other := by
  have lists := congrArg String.toList same
  simp only [jobKey, String.toList_append, List.append_cancel_left_eq] at lists
  exact String.toList_inj.mp lists

theorem resultsKey_inj (same : resultsKey jobId = resultsKey other) : jobId = other := by
  have lists := congrArg String.toList same
  simp only [resultsKey, String.toList_append, List.append_cancel_left_eq, List.append_cancel_right_eq] at lists
  exact String.toList_inj.mp lists

theorem eventChannel_inj (same : eventChannel jobId = eventChannel other) : jobId = other := by
  have lists := congrArg String.toList same
  simp only [eventChannel, String.toList_append, List.append_cancel_left_eq, List.append_cancel_right_eq] at lists
  exact String.toList_inj.mp lists

/-- The hash of a job is not where the results of another are. -/
theorem jobKey_ne_resultsKey (plain : Plain jobId) : jobKey jobId ≠ resultsKey other := by
  intro same
  have lists := congrArg String.toList same
  simp only [jobKey, resultsKey, String.toList_append, List.append_assoc, List.append_cancel_left_eq] at lists
  refine plain ?_
  rw [lists]
  exact List.mem_append_right _ (by decide)

theorem mem_roundTrips_key {call : StoreCall} {commands : List JobCommand} {command : JobCommand}
    (one : commands ∈ roundTrips settings jobId now call) (member : command ∈ commands) :
    command.key? = some (jobKey jobId) ∨ command.key? = some (resultsKey jobId) ∨
      ∃ payload, command = .publish (eventChannel jobId) payload := by
  cases call with
  | incrementProgress completed failed cacheHits =>
      obtain ⟨field, amount, rfl⟩ := mem_incrementProgress one member
      exact .inl rfl
  | create total =>
      simp only [roundTrips, create, List.mem_cons, List.not_mem_nil, or_false] at one
      rcases one with rfl | rfl <;> rw [List.mem_singleton.mp member] <;> exact .inl rfl
  | start | fail reason =>
      rw [List.mem_singleton.mp one] at member
      rw [List.mem_singleton.mp member]
      exact .inl rfl
  | finish results =>
      rw [List.mem_singleton.mp one] at member
      simp only [List.mem_cons, List.not_mem_nil, or_false] at member
      rcases member with rfl | rfl | rfl
      · exact .inl rfl
      · exact .inr (.inl rfl)
      · exact .inr (.inl rfl)
  | publishProgress | publishDone =>
      rw [List.mem_singleton.mp one] at member
      rw [List.mem_singleton.mp member]
      exact .inr (.inr ⟨_, rfl⟩)

/-- The commands of a job are not about the part of another. -/
theorem uncovered_of_ne (ne : jobId ≠ other) (plain : Plain jobId) (plain' : Plain other) {call : StoreCall} :
    ∀ commands ∈ roundTrips settings jobId now call, ∀ command ∈ commands,
      (jobPart other).covers command = false := by
  intro commands one command member
  have job : (jobPart other).keys (jobKey jobId) = false := by
    simp only [jobPart, decide_eq_false_iff_not, not_or]
    exact ⟨fun same => ne (jobKey_inj same), jobKey_ne_resultsKey plain⟩
  have results : (jobPart other).keys (resultsKey jobId) = false := by
    simp only [jobPart, decide_eq_false_iff_not, not_or]
    exact ⟨fun same => jobKey_ne_resultsKey plain' same.symm, fun same => ne (resultsKey_inj same)⟩
  rcases mem_roundTrips_key one member with key | key | ⟨payload, rfl⟩
  · cases command <;> cases key <;> exact job
  · cases command <;> cases key <;> exact results
  · simp only [jobPart, Redis.Part.covers, decide_eq_false_iff_not]
    exact fun same => ne (eventChannel_inj same)

theorem mem_applied {act : Act} {commands : List JobCommand} (one : commands ∈ applied settings jobId now act) :
    commands ∈ roundTrips settings jobId now act.1 := by
  obtain ⟨call, reply⟩ := act
  cases reply with
  | ok => exact one
  | raised e n => exact List.mem_of_mem_take one

/-- A call of another job leaves the part of a job alone. -/
theorem perform_frame (ne : jobId ≠ other) (plain : Plain jobId) (plain' : Plain other) (act : ℚ × Act) :
    Redis.Agree (jobPart other) (perform settings jobId s act) s :=
  Redis.exchanges_frame fun commands one => uncovered_of_ne ne plain plain' commands (mem_applied one)

/-- What a reader of the job sees, with its two reads. -/
theorem getResults_congr {s' t' : JobRedis} (agree : Redis.Agree (jobPart jobId) s t)
    (agree' : Redis.Agree (jobPart jobId) s' t') (now later : ℚ) :
    Api.getResults jobId now s later s' = Api.getResults jobId now t later t' := by
  have state : getState jobId now s = getState jobId now t := by
    rw [getState, getState, Redis.hgetall, Redis.hgetall, agree.live now (by simp [jobPart])]
  have results : JobStore.getResults jobId later s' = JobStore.getResults jobId later t' := by
    rw [JobStore.getResults, JobStore.getResults, Redis.get, Redis.get, agree'.live later (by simp [jobPart])]
  rw [Api.getResults, Api.getResults, state, results]

theorem jobExists_congr (agree : Redis.Agree (jobPart jobId) s t) (now : ℚ) :
    jobExists jobId now s = jobExists jobId now t := by
  rw [jobExists, jobExists, Redis.present, Redis.present, agree.live now (by simp [jobPart])]

end Part

/-! ## All jobs -/

section Jobs

variable {ι α : Type} [DecidableEq ι]

/-- The handlers and tasks of the jobs. -/
abbrev Jobs (ι α : Type) := Pool RouteOp RouteAnswer Exn α ι JobRedis

/-- When an operation is answered, and how; `none` while it waits. -/
abbrev Answers (ι : Type) := ι → RouteTrace → (op : RouteOp) → Option (ℚ × RouteAnswer op)

/-- The calls of the store, each for the keys of its own job. -/
def serve (settings : Settings) (jobId : ι → String) (answers : Answers ι) : Serve RouteOp RouteAnswer ι JobRedis :=
  fun i trace s op =>
    (answers i trace op).map fun reply =>
      (reply.2, Stream.serve settings (jobId i) reply.1 s ⟨op, reply.2⟩)

variable {settings : Settings} {jobId : ι → String} {answers : Answers ι} {start : ι → Handler α} {s : JobRedis}
  {before : ι → List (ℚ × Act)} {w w' : Jobs ι α} {i : ι}

/-- The calls a job has made, `before` and since then, with the instants at which they took effect,
and the server they make together. -/
def Alone (settings : Settings) (jobId : ι → String) (s : JobRedis) (before : ι → List (ℚ × Act))
    (w : Jobs ι α) (i : ι) : Prop :=
  ∃ between : List (ℚ × Act), (before i ++ between).map Prod.snd = acts (w.traces i) ∧
    Redis.Agree (jobPart (jobId i)) w.shared (performAll settings (jobId i) s (before i ++ between))

omit [DecidableEq ι] in
theorem alone_init (settings : Settings) (jobId : ι → String) (s : JobRedis) (start : ι → Handler α) (i : ι) :
    Alone settings jobId s (fun _ => []) (Pool.init s start) i := ⟨[], rfl, .refl _ s⟩

theorem acts_concat (trace : RouteTrace) (asked : Asked RouteOp RouteAnswer) :
    acts (trace ++ [asked]) = acts trace ++ (storeAct asked).toList := by
  rw [acts, acts, List.filterMap_append, List.filterMap_cons, List.filterMap_nil]
  cases storeAct asked <;> rfl

/-- **One step** of any job. -/
theorem Alone.step (alone : ∀ i, Alone settings jobId s before w i) (distinct : Function.Injective jobId)
    (plain : ∀ i, Plain (jobId i)) (stepped : Pool.step (serve settings jobId answers) w i = some w') (j : ι) :
    Alone settings jobId s before w' j := by
  obtain ⟨op, next, answer, shared, _, served, rfl⟩ := Pool.step_cases stepped
  obtain ⟨⟨now, reply⟩, _, eq⟩ := Option.map_eq_some_iff.mp served
  cases eq
  obtain ⟨calls, listed, agree⟩ := alone j
  by_cases same : j = i
  · subst same
    cases op with
    | store call =>
        refine ⟨calls ++ [(now, call, reply)], ?_, ?_⟩
        · rw [Pool.served_traces_self, acts_concat, ← listed, ← List.append_assoc, List.map_append]
          rfl
        · rw [performAll, ← List.append_assoc, List.foldl_append]
          exact agree.exchanges _
    | _ =>
        refine ⟨calls, ?_, agree⟩
        rw [Pool.served_traces_self, acts_concat, listed]
        exact (List.append_nil _).symm
  · refine ⟨calls, ?_, ?_⟩
    · rw [Pool.served_traces_of_ne same]
      exact listed
    · rw [Pool.served_shared]
      cases op with
      | store call =>
          have ne : jobId i ≠ jobId j := fun eq => same (distinct eq).symm
          exact (perform_frame ne (plain i) (plain j) (now, call, reply)).trans agree
      | _ => exact agree

/-- **A run** of the jobs, from any moment on. -/
theorem Alone.exec (distinct : Function.Injective jobId) (plain : ∀ i, Plain (jobId i)) {schedule : List ι}
    (alone : ∀ i, Alone settings jobId s before w i)
    (ran : exec (Pool.step (serve settings jobId answers)) w schedule = some w') (i : ι) :
    Alone settings jobId s before w' i :=
  exec_invariant (fun _ _ _ alone stepped j => Alone.step alone distinct plain stepped j) schedule _ _ alone ran i

/-- **Isolation.** For every order of the steps of all jobs: what a reader finds of a job, with its
two reads, what exists of it and what was published for it is what its own calls make of the
server. -/
theorem jobs_isolated (distinct : Function.Injective jobId) (plain : ∀ i, Plain (jobId i)) {first second : List ι}
    (ran : exec (Pool.step (serve settings jobId answers)) (Pool.init s start) first = some w)
    (ran' : exec (Pool.step (serve settings jobId answers)) w second = some w') (i : ι) :
    ∃ before between : List (ℚ × Act), before.map Prod.snd = acts (w.traces i) ∧
      (before ++ between).map Prod.snd = acts (w'.traces i) ∧
      (∀ now later, Api.getResults (jobId i) now w.shared later w'.shared =
          Api.getResults (jobId i) now (performAll settings (jobId i) s before)
            later (performAll settings (jobId i) s (before ++ between))) ∧
      (∀ now, jobExists (jobId i) now w'.shared =
          jobExists (jobId i) now (performAll settings (jobId i) s (before ++ between))) ∧
      (jobPart (jobId i)).messages w'.shared =
        (jobPart (jobId i)).messages (performAll settings (jobId i) s (before ++ between)) := by
  have alone := Alone.exec distinct plain (alone_init settings jobId s start) ran
  choose before listed agree using alone
  have again := Alone.exec distinct plain (fun j => ⟨[], by simpa using listed j, by simpa using agree j⟩) ran' i
  obtain ⟨between, listed', agree'⟩ := again
  exact ⟨before i, between, listed i, listed', getResults_congr (agree i) agree', jobExists_congr agree',
    agree'.messages⟩

end Jobs

/-! ## A pole -/

section Pole

/-- `foundJob` under two identifiers. -/
def twinId : Bool → String
  | true => "j-1"
  | false => "j-2"

def twin (i : Bool) : Job := { foundJob with jobId := twinId i }

def twinTrace (i : Bool) : RouteTrace :=
  cachedJobTrace 0 [⟨.monotonic, (0 : ℚ)⟩, ⟨.summary, ⟨0, 0, 0⟩⟩,
    ⟨.store (.finish foundJob.preCachedResults), .ok⟩,
    ⟨.store (.publishDone foundJob.preCachedResults
      (finalStats .defaults (twin i) (initialTotals (twin i)) (.finite 7) ⟨0, 0, 0⟩ (0 - 0))), .ok⟩]

theorem twinTrace_leads (i : Bool) : Leads (processJob (.sorted _) .defaults (twin i)) (twinTrace i) (.done ()) :=
  leads_of_runs (cachedJob_completes 0 0 ⟨0, 0, 0⟩ rfl foundJob_tokens)

/-- Redis answers every call at once. -/
def prompt : Answers Bool := fun _ _ op => some (0, Stream.answers Stream.calm op)

theorem twinTrace_served (i : Bool) : ∀ asked ∈ twinTrace i, ∀ before shared,
    ∃ shared', serve .defaults twinId prompt i before shared asked.1 = some (asked.2, shared') := by
  have given : ∀ asked ∈ twinTrace i, Stream.answers Stream.calm asked.1 = asked.2 :=
    Stream.cachedTrace_given rfl (by simp [Stream.answers, Stream.calm])
  intro asked member before shared
  refine ⟨Stream.serve .defaults (twinId i) 0 shared ⟨asked.1, Stream.answers Stream.calm asked.1⟩, ?_⟩
  rw [← given asked member]
  rfl

/-- Redis before all jobs. -/
def empty : JobRedis := { keys := fun _ => none, published := [] }

/-- A task that has not started goes through, whatever the other one has done. -/
theorem twin_goes (i : Bool) (w : Jobs Bool Unit) (fresh : w.threads i = processJob (.sorted _) .defaults (twin i)) :
    ∃ w', exec (Pool.step (serve .defaults twinId prompt)) w (List.replicate (twinTrace i).length i) = some w' ∧
      w'.threads i = .done () ∧ w'.traces i = w.traces i ++ twinTrace i := by
  have leads := twinTrace_leads i
  rw [← fresh] at leads
  exact Pool.exec_of_leads leads (twinTrace_served i)

/-- Satisfiable pole: two jobs that run one after the other in one Redis, and a reader of each that
reads the state after the first and the results after both. -/
theorem jobs_isolated_twins :
    ∃ first second w w', exec (Pool.step (serve .defaults twinId prompt))
        (Pool.init empty fun i => processJob (.sorted _) .defaults (twin i)) first = some w ∧
      exec (Pool.step (serve .defaults twinId prompt)) w second = some w' ∧
      (∀ i, w'.threads i = .done ()) ∧
      ∀ i, ∃ before between : List (ℚ × Act), (before ++ between).map Prod.snd = acts (twinTrace i) ∧
        ∀ now later, Api.getResults (twinId i) now w.shared later w'.shared =
          Api.getResults (twinId i) now (performAll .defaults (twinId i) empty before)
            later (performAll .defaults (twinId i) empty (before ++ between)) := by
  obtain ⟨first, ran, ended, traced⟩ := twin_goes true
    (Pool.init empty fun i => processJob (.sorted _) .defaults (twin i)) rfl
  obtain ⟨waiting, unasked⟩ := Pool.exec_of_not_mem (i := false) (by simp) ran
  obtain ⟨w, ran', ended', traced'⟩ := twin_goes false first waiting
  obtain ⟨kept, remembered⟩ := Pool.exec_of_not_mem (i := true) (by simp) ran'
  have traces : ∀ i, w.traces i = twinTrace i := by
    intro i
    cases i with
    | true => exact remembered.trans traced
    | false => exact traced'.trans (congrArg (· ++ _) unasked)
  refine ⟨_, _, first, w, ran, ran', fun i => ?_, fun i => ?_⟩
  · cases i with
    | true => exact kept.trans ended
    | false => exact ended'
  · obtain ⟨before, between, _, listed, seen, _⟩ := jobs_isolated (by decide) (by decide) ran ran' i
    exact ⟨before, between, listed.trans (congrArg acts (traces i)), seen⟩

end Pole

end InferenceForge.Api.Isolation
