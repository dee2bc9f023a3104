/-
# InferenceForge.Api.JobBatches — the batches a job runs, and the first estimate

The loop of `_process_job` drains a batch at a time, and an exception can end it at any
operation. Whatever happens, the batches it has gathered are the first ones of a full
drain of its tickets, and all of them if the job stores its results
(`batches_agree`). So what `full_drain` says of `drain_all_batches`, which only the tests
call, holds of the loop.

`estimate_initial` divides the number of tickets of each complexity by the size of its
batches, without rounding up. It is never more than the time of the batches the job runs,
at its latency for each, and less by less than three batches (`estimate_close`).
-/
import InferenceForge.Api.JobProgress
import InferenceForge.Pipeline.EtaEstimator
import InferenceForge.Pipeline.FullDrain
import Mathlib.Tactic.Positivity

namespace InferenceForge.Api

open InferenceForge.Python InferenceForge.Library InferenceForge.Pipeline
open InferenceForge.Pipeline.JobStore (StoreCall Reply)
open InferenceForge.Pipeline.PriorityBatcher (drainAllBatches)

set_option autoImplicit false

/-! ## The batches of a run -/

def gathered : Asked RouteOp RouteAnswer → Option Batch
  | ⟨.gather batch, _⟩ => some batch
  | _ => none

/-- The batches a trace has handed to the caller. -/
def gathers (trace : RouteTrace) : List Batch := trace.filterMap gathered

theorem gathers_append (before after : RouteTrace) : gathers (before ++ after) = gathers before ++ gathers after :=
  List.filterMap_append

/-- Nothing is gathered and no results are stored. -/
def Apart : RouteOp → Prop
  | .gather _ | .store (.finish _) => False
  | _ => True

/-- The results are stored, whether or not the call raises. -/
def StoresResults (trace : RouteTrace) : Prop := ∃ asked ∈ trace, ∃ results, asked.1 = .store (.finish results)

section Batches

variable {Q : TicketQueue} {settings : Settings} {job : Job} {trace : RouteTrace}

theorem gathers_of_apart (apart : ∀ asked ∈ trace, Apart asked.1) : gathers trace = [] := by
  rw [gathers, List.filterMap_eq_nil_iff]
  rintro ⟨op, answer⟩ member
  have here := apart _ member
  cases op with
  | gather batch => exact here.elim
  | _ => rfl

theorem not_storesResults_of_apart (apart : ∀ asked ∈ trace, Apart asked.1) : ¬ StoresResults trace := by
  rintro ⟨⟨op, answer⟩, member, results, same⟩
  have here := apart _ member
  cases same
  exact here

theorem storesResults_append {before after : RouteTrace} : StoresResults (before ++ after) ↔ StoresResults before ∨ StoresResults after := by
  constructor
  · rintro ⟨asked, member, finish⟩
    rcases List.mem_append.mp member with left | right
    · exact .inl ⟨asked, left, finish⟩
    · exact .inr ⟨asked, right, finish⟩
  · rintro (⟨asked, member, finish⟩ | ⟨asked, member, finish⟩)
    · exact ⟨asked, List.mem_append_left _ member, finish⟩
    · exact ⟨asked, List.mem_append_right _ member, finish⟩

/-- A round gathers its batch, however it ends. -/
theorem processRound_gathers {batch : Batch} {totals : Totals} {result : Except Exn Totals}
    (ran : Runs (processRound job batch totals) trace result) : gathers trace = [batch] ∧ ¬ StoresResults trace := by
  obtain ⟨batchStart, rest, rfl, started⟩ := runs_perform_bind_iff.mp ran
  have apart : ∀ {before : RouteTrace} {answer : RouteAnswer (.gather batch)} {after : RouteTrace},
      (∀ asked ∈ before, Apart asked.1) → (∀ asked ∈ after, Apart asked.1) →
      gathers (before ++ ⟨.gather batch, answer⟩ :: after) = [batch] ∧
        ¬ StoresResults (before ++ ⟨.gather batch, answer⟩ :: after) := by
    intro before answer after first later
    constructor
    · rw [gathers_append, gathers_of_apart first, List.nil_append]
      exact congrArg (batch :: ·) (gathers_of_apart later)
    · rintro stored
      rcases storesResults_append.mp stored with left | ⟨asked, member, results, same⟩
      · exact not_storesResults_of_apart first left
      · rcases List.mem_cons.mp member with rfl | inside
        · cases same
        · exact not_storesResults_of_apart later ⟨asked, inside, results, same⟩
  have clock : ∀ asked ∈ ([⟨.monotonic, batchStart⟩] : RouteTrace), Apart asked.1 := by simp [Apart]
  rcases runs_call_bind_iff.mp started with ⟨raw, e, _, rfl, rfl⟩ | ⟨answer, raw, after, _, rfl, later⟩
  · exact apart clock (by simp)
  · refine apart clock ?_
    refine Program.Asks.of_runs ?_ later
    refine asks_bind (asks_perform trivial) fun _ => asks_bind (asks_perform trivial) fun _ => ?_
    refine asks_bind (asks_call trivial) fun _ => asks_bind (asks_perform trivial) fun _ => ?_
    exact asks_bind (asks_call trivial) fun _ => trivial

theorem drainAllBatches_none {queue : Q.Carrier} (empty : PriorityBatcher.drainBatch Q queue = none) :
    drainAllBatches Q queue = [] := by
  rw [drainAllBatches]
  split
  · rfl
  · next found => cases empty.symm.trans found

theorem drainAllBatches_some {queue rest : Q.Carrier} {batch : Batch}
    (drained : PriorityBatcher.drainBatch Q queue = some (batch, rest)) :
    drainAllBatches Q queue = batch :: drainAllBatches Q rest := by
  rw [drainAllBatches]
  split
  · next empty => cases drained.symm.trans empty
  · next found =>
      cases drained.symm.trans found
      rfl

/-- **The loop** gathers what a full drain would return, as far as it comes. -/
theorem drain_gathers {queue : Q.Carrier} {totals : Totals} {result : Except Exn Totals}
    (ran : Runs (drain Q job queue totals) trace result) :
    gathers trace <+: drainAllBatches Q queue ∧ ¬ StoresResults trace ∧
      ((∃ totals', result = .ok totals') → gathers trace = drainAllBatches Q queue) := by
  induction queue, totals using drain.induct Q generalizing trace result with
  | case1 queue totals ih =>
      rw [drain] at ran
      have quiet : ∀ (answer : Except Exn Unit) (depth : ℕ) (after : RouteTrace),
          gathers (⟨.drainBatch, answer⟩ :: ⟨.queueDepth depth, ()⟩ :: after) = gathers after ∧
            (StoresResults (⟨.drainBatch, answer⟩ :: ⟨.queueDepth depth, ()⟩ :: after) → StoresResults after) := by
        refine fun answer depth after => ⟨rfl, ?_⟩
        rintro ⟨asked, member, results, same⟩
        simp only [List.mem_cons] at member
        rcases member with rfl | rfl | inside
        · cases same
        · cases same
        · exact ⟨asked, inside, results, same⟩
      have drawn : ∀ answer : Except Exn Unit, ¬ StoresResults [⟨.drainBatch, answer⟩] :=
        fun answer => not_storesResults_of_apart (by simp [Apart])
      rcases runs_call_bind_iff.mp ran with ⟨_, e, _, rfl, rfl⟩ | ⟨answer, _, rest, _, rfl, drained⟩
      · refine ⟨List.nil_prefix, drawn _, ?_⟩
        rintro ⟨_, impossible⟩
        cases impossible
      · split at drained
        · next empty =>
            obtain ⟨rfl, rfl⟩ := runs_pure_iff.mp drained
            rw [drainAllBatches_none empty]
            exact ⟨List.nil_prefix, drawn _, fun _ => rfl⟩
        · next batch queue' found =>
            rw [drainAllBatches_some found]
            obtain ⟨_, rest, rfl, round⟩ := runs_perform_bind_iff.mp drained
            obtain ⟨passed, stored⟩ := quiet answer (Q.items queue').card rest
            rw [passed]
            rcases runs_bind_iff.mp round with ⟨e, raised, rfl⟩ | ⟨totals', before, after, rfl, went, later⟩
            · obtain ⟨one, unstored⟩ := processRound_gathers raised
              rw [one]
              refine ⟨List.cons_prefix_cons.mpr ⟨rfl, List.nil_prefix⟩, fun bad => unstored (stored bad), ?_⟩
              rintro ⟨_, impossible⟩
              cases impossible
            · obtain ⟨one, unstored⟩ := processRound_gathers went
              obtain ⟨more, unstored', whole⟩ := ih batch queue' found totals' later
              rw [gathers_append, one, List.singleton_append]
              refine ⟨List.cons_prefix_cons.mpr ⟨rfl, more⟩, fun bad => ?_, fun ended => ?_⟩
              · exact (storesResults_append.mp (stored bad)).elim unstored unstored'
              · rw [whole ended]

theorem finishJob_gathers {jobStart : ℚ} {totals : Totals} {result : Except Exn Unit}
    (ran : Runs (finishJob settings job jobStart totals) trace result) : gathers trace = [] := by
  have asks : (finishJob settings job jobStart totals).Asks fun op => ∀ batch, op ≠ .gather batch := by
    refine asks_bind (asks_perform (by simp)) fun _ => asks_bind (asks_ofResult _) fun _ => ?_
    refine asks_bind (asks_perform (by simp)) fun _ => ?_
    exact asks_bind (asks_call (by simp)) fun _ => asks_call (by simp)
  rw [gathers, List.filterMap_eq_nil_iff]
  rintro ⟨op, answer⟩ member
  have here := asks.of_runs ran _ member
  cases op with
  | gather batch => exact absurd rfl (here batch)
  | _ => rfl

theorem jobBody_gathers {queue : Q.Carrier} {jobStart : ℚ} {result : Except Exn Unit}
    (ran : Runs (jobBody Q settings job queue jobStart) trace result) :
    gathers trace <+: drainAllBatches Q queue ∧ (StoresResults trace → gathers trace = drainAllBatches Q queue) := by
  rcases runs_bind_iff.mp ran with ⟨e, raised, rfl⟩ | ⟨totals, before, after, rfl, drained, later⟩
  · obtain ⟨some, unstored, _⟩ := drain_gathers raised
    exact ⟨some, fun stored => absurd stored unstored⟩
  · obtain ⟨_, _, whole⟩ := drain_gathers drained
    have same : gathers (before ++ after) = drainAllBatches Q queue := by
      rw [gathers_append, finishJob_gathers later, List.append_nil]
      exact whole ⟨totals, rfl⟩
    exact ⟨same ▸ List.prefix_rfl, fun _ => same⟩

theorem jobFailed_apart (e : Exn) : (jobFailed e).Asks Apart := by
  unfold jobFailed
  split
  · exact asks_call trivial
  · trivial

/-- **The loop agrees with `drain_all_batches`.** Whatever a job is answered, the batches it gathers
are the first ones of a full drain of its tickets, and they are all of them if it stores its results. -/
theorem batches_agree {result : Except Exn Unit} (ran : Runs (processJob Q settings job) trace result) :
    gathers trace <+: drainAllBatches Q (jobQueue Q job) ∧
      (StoresResults trace → gathers trace = drainAllBatches Q (jobQueue Q job)) := by
  have around : ∀ {rest : RouteTrace}, (∀ asked ∈ rest, Apart asked.1) →
      gathers rest <+: drainAllBatches Q (jobQueue Q job) ∧
        (StoresResults rest → gathers rest = drainAllBatches Q (jobQueue Q job)) := by
    intro rest apart
    rw [gathers_of_apart apart]
    exact ⟨List.nil_prefix, fun stored => absurd stored (not_storesResults_of_apart apart)⟩
  have prologue_apart : ∀ jobStart, ∀ asked ∈ prologue Q job jobStart, Apart asked.1 := by
    simp [prologue, Apart]
  cases processJob_shape ran with
  | enqueue jobStart e => exact around (by simp [Apart])
  | start jobStart e applied => exact around (by simp [Apart])
  | @handled jobStart body _ handled =>
      have inside : gathers body <+: drainAllBatches Q (jobQueue Q job) ∧
          (StoresResults body → gathers body = drainAllBatches Q (jobQueue Q job)) := by
        rcases runs_rescue_iff.mp handled with ⟨value, completed, rfl⟩ | ⟨e, before, after, rfl, raised, recovered⟩
        · exact jobBody_gathers completed
        · have apart := (jobFailed_apart e).of_runs recovered
          obtain ⟨some, whole⟩ := jobBody_gathers raised
          rw [gathers_append, gathers_of_apart apart, List.append_nil]
          refine ⟨some, fun stored => whole ((storesResults_append.mp stored).resolve_right (not_storesResults_of_apart apart))⟩
      have cleanup : ∀ asked ∈ ([⟨.activeJobs (-1), ()⟩] : RouteTrace), Apart asked.1 := by simp [Apart]
      rw [gathers_append, gathers_append, gathers_of_apart (prologue_apart jobStart), gathers_of_apart cleanup,
        List.nil_append, List.append_nil]
      refine ⟨inside.1, fun stored => inside.2 ?_⟩
      rcases storesResults_append.mp stored with before | within
      · exact absurd before (not_storesResults_of_apart (prologue_apart jobStart))
      · exact (storesResults_append.mp within).resolve_right (not_storesResults_of_apart cleanup)

end Batches

/-! ## The first estimate -/

section Estimate

variable {K : Type} [Field K] [LinearOrder K] [IsStrictOrderedRing K]

/-- The batches of all complexities are the batches. -/
theorem length_batchesOf (batches : List Batch) :
    batches.length = (batchesOf .complex batches).length + (batchesOf .medium batches).length +
      (batchesOf .simple batches).length := by
  induction batches with
  | nil => rfl
  | cons batch rest ih =>
      have here : ∀ c, (batchesOf c (batch :: rest)).length =
          (batchesOf c rest).length + if batch.complexity = c then 1 else 0 := by
        intro c
        rw [batchesOf, List.filter_cons]
        by_cases same : batch.complexity = c
        · simp [same, batchesOf]
        · simp [same, batchesOf]
      rw [List.length_cons, here, here, here, ih]
      cases batch.complexity <;> simp <;> omega

/-- As few batches as there can be are hardly more than the tickets over the size of a batch. -/
theorem div_le_ceil (n : ℕ) {s : ℕ} (room : 0 < s) :
    (n : K) / s ≤ (⌈(n : ℚ) / s⌉₊ : K) ∧ (⌈(n : ℚ) / s⌉₊ : K) < (n : K) / s + 1 := by
  have positive : (0 : ℚ) < s := by exact_mod_cast room
  have positive' : (0 : K) < s := by exact_mod_cast room
  have below := Nat.le_ceil ((n : ℚ) / s)
  have above := Nat.ceil_lt_add_one (div_nonneg n.cast_nonneg positive.le : (0 : ℚ) ≤ (n : ℚ) / s)
  rw [div_le_iff₀ positive] at below
  rw [← sub_lt_iff_lt_add, lt_div_iff₀ positive] at above
  constructor
  · rw [div_le_iff₀ positive']
    exact_mod_cast below
  · rw [← sub_lt_iff_lt_add, lt_div_iff₀ positive']
    have whole : ((⌈(n : ℚ) / s⌉₊ : ℤ) - 1) * s < n := by exact_mod_cast above
    exact_mod_cast whole

/-- **The first estimate** of a job is below the time of its batches, at the latency of the estimator
for each, by less than the time of three. -/
theorem estimate_close {Q : TicketQueue} {settings : Settings} {job : Job} {trace : RouteTrace}
    {result : Except Exn Unit} (ran : Runs (processJob Q settings job) trace result) (stores : StoresResults trace)
    (e : ETAEstimator K) (positive : 0 < e.latency) :
    e.estimateInitial (breakdown job.uniqueTickets) ≤ (gathers trace).length * e.latency ∧
      (gathers trace).length * e.latency < e.estimateInitial (breakdown job.uniqueTickets) + 3 * e.latency := by
  have whole := (batches_agree ran).2 stores
  have drained := full_drain Q job.uniqueTickets 0
  rw [whole, jobQueue, length_batchesOf, drained.number, drained.number, drained.number]
  obtain ⟨complexLow, complexHigh⟩ := div_le_ceil (K := K) ((breakdown job.uniqueTickets).of .complex) (batchSize_pos .complex)
  obtain ⟨mediumLow, mediumHigh⟩ := div_le_ceil (K := K) ((breakdown job.uniqueTickets).of .medium) (batchSize_pos .medium)
  obtain ⟨simpleLow, simpleHigh⟩ := div_le_ceil (K := K) ((breakdown job.uniqueTickets).of .simple) (batchSize_pos .simple)
  rw [ETAEstimator.estimateInitial, ← add_mul]
  constructor
  · apply mul_le_mul_of_nonneg_right _ positive.le
    push_cast
    exact add_le_add (add_le_add complexLow mediumLow) simpleLow
  · apply mul_lt_mul_of_pos_right _ positive
    push_cast
    have sum := add_lt_add (add_lt_add complexHigh mediumHigh) simpleHigh
    refine sum.trans_le (le_of_eq ?_)
    simp only [ComplexityBreakdown.of]
    ring

end Estimate

/-! ## Poles -/

section Poles

/-- A ticket of fifteen words. -/
def mediumTicket : String := "a a a a a a a a a a a a a a a"

/-- Two short tickets, and a longer one. -/
def twoBatchJob : Job where
  jobId := "j"
  uniqueTickets := ["lost", "wrong", mediumTicket]
  totalTickets := 3
  preCached := 0
  preCachedResults := []

def mediumBatch : Batch := .ofItems .medium [PriorityBatcher.prioritize 2 mediumTicket]

/-- The longer ticket raises. -/
def mediumRaw : Gathered mediumBatch := ⟨[brokenTicket], rfl⟩

def mediumTotals : Totals := (initialTotals twoBatchJob).absorb (batchEntries mediumBatch mediumRaw)

def twoBatchTotals : Totals := mediumTotals.absorb (batchEntries mixedBatch mixedRaw)

/-- What the first round leaves. -/
def shortQueue : (MinQueue.sorted PrioritizedTicket.priority).Carrier :=
  ⟨[PriorityBatcher.prioritize 1 "wrong", PriorityBatcher.prioritize 0 "lost"], by decide⟩

/-- The rounds of the job. -/
def twoRounds : RouteTrace :=
  ⟨.drainBatch, .ok ()⟩ :: ⟨.queueDepth 2, ()⟩ :: (roundTrace mediumBatch mediumRaw 2 ++
    ⟨.store (progressCall twoBatchJob mediumTotals 0), .ok⟩ :: ⟨.drainBatch, .ok ()⟩ :: ⟨.queueDepth 0, ()⟩ ::
      (roundTrace mixedBatch mixedRaw 0 ++
        ⟨.store (progressCall twoBatchJob twoBatchTotals 0), .ok⟩ :: [⟨.drainBatch, .ok ()⟩]))

theorem twoRounds_runs :
    Runs (drain (.sorted _) twoBatchJob (jobQueue (.sorted _) twoBatchJob) (initialTotals twoBatchJob)) twoRounds
      (.ok twoBatchTotals) := by
  have first : PriorityBatcher.drainBatch (.sorted _) (jobQueue (.sorted _) twoBatchJob) =
      some (mediumBatch, shortQueue) := rfl
  have second : PriorityBatcher.drainBatch (.sorted _) shortQueue =
      some (mixedBatch, (MinQueue.sorted _).empty) := rfl
  have last : Runs (drain (.sorted _) twoBatchJob shortQueue mediumTotals) _ (.ok twoBatchTotals) :=
    drain_of_round 0 0 0 mediumTotals mixedRaw 0 rfl second (drain_of_empty rfl twoBatchTotals)
  exact drain_of_round 0 0 0 (initialTotals twoBatchJob) mediumRaw 2 rfl first last

/-- The run of the job. -/
def twoBatchTrace : RouteTrace :=
  prologue (.sorted _) twoBatchJob 0 ++
    (twoRounds ++ finishTrace .defaults twoBatchJob 0 0 twoBatchTotals (.finite (0 + 0 + 0 + 7)))

theorem twoBatchTrace_runs : Runs (processJob (.sorted _) .defaults twoBatchJob) twoBatchTrace (.ok ()) :=
  processJob_of_drained 0 0 twoRounds_runs rfl

theorem twoBatchTrace_storesResults : StoresResults twoBatchTrace := by
  refine storesResults_append.mpr (.inr (storesResults_append.mpr (.inr ?_)))
  exact ⟨_, .tail _ (.tail _ List.mem_cons_self), _, rfl⟩

/-- Satisfiable pole: the longer ticket is drained first. -/
theorem batches_agree_two :
    [mediumBatch, mixedBatch] = drainAllBatches (.sorted _) (jobQueue (.sorted _) twoBatchJob) :=
  (batches_agree twoBatchTrace_runs).2 twoBatchTrace_storesResults

/-- Satisfiable pole: two batches in place of two twentieths and a tenth, at the default latency. -/
theorem estimate_close_two :
    (2 / 20 + 1 / 10 : ℚ) * (12 / 10) ≤ 2 * (12 / 10) ∧
      (2 : ℚ) * (12 / 10) < (2 / 20 + 1 / 10) * (12 / 10) + 3 * (12 / 10) := by
  have bounds := estimate_close twoBatchTrace_runs twoBatchTrace_storesResults
    (ETAEstimator.init (3 / 10 : ℚ) (12 / 10)) (by norm_num [ETAEstimator.latency, ETAEstimator.init])
  have initial : (ETAEstimator.init (3 / 10 : ℚ) (12 / 10)).estimateInitial (breakdown twoBatchJob.uniqueTickets) =
      (2 / 20 + 1 / 10) * (12 / 10) := by
    have counted : breakdown twoBatchJob.uniqueTickets = ⟨2, 1, 0⟩ := rfl
    rw [counted]
    norm_num [ETAEstimator.estimateInitial, ETAEstimator.latency, ETAEstimator.init, batchSize]
  have two : (gathers twoBatchTrace).length = 2 := rfl
  rw [initial, two] at bounds
  simpa [ETAEstimator.latency, ETAEstimator.init] using bounds

end Poles

end InferenceForge.Api
