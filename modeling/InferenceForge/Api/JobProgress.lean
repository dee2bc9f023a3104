/-
# InferenceForge.Api.JobProgress — the progress a job reports

While no call of the job store raises, a round of the drain loop leaves four notes
in the trace: the settled tickets of its batch, the increment of the counters in
Redis, the count it asks the estimator about, and the progress event. `roundNotes`
lists them for a run of rounds, and `drain_notes` says that the loop leaves nothing
else. What holds after a batch is then read off the notes up to its event
(`roundNotes_split`), and what holds of all events by induction on the rounds.

* `progress_exact`: the events of a job.
* `views_agree_iff`: the event counts failed tickets, the `completed` field of the
  hash does not, so `GET /results` agrees with the events exactly as long as no
  ticket has failed (`failed_ticket_divides_views`).
-/
import InferenceForge.Api.JobOutcome

namespace InferenceForge.Api

open InferenceForge.Python InferenceForge.Library InferenceForge.Pipeline
open InferenceForge.Pipeline.JobStore

set_option autoImplicit false

/-! ## Notes -/

/-- What the progress of a job shows in its trace. -/
inductive Note
  | settled (batch : List Settlement)
  | act (act : Act)
  | estimate (remaining : ℕ)

def noteOf : Asked RouteOp RouteAnswer → Option Note
  | ⟨.gather batch, .ok raw⟩ => some (.settled (settlements batch raw))
  | ⟨.store call, reply⟩ => some (.act (call, reply))
  | ⟨.etaEstimate remaining _, _⟩ => some (.estimate remaining)
  | _ => none

def notes (trace : RouteTrace) : List Note := trace.filterMap noteOf

def Note.settled? : Note → Option (List Settlement)
  | .settled batch => some batch
  | _ => none

def Note.act? : Note → Option Act
  | .act call => some call
  | _ => none

def Note.estimate? : Note → Option ℕ
  | .estimate remaining => some remaining
  | _ => none

/-- The `completed` and the `total` of an event that was published. -/
def Note.event? : Note → Option (ℕ × ℕ)
  | .act (.publishProgress completed total _ _ _, .ok) => some (completed, total)
  | _ => none

/-- The tickets of the batches drained and processed so far. -/
def drained (trace : RouteTrace) : List Settlement :=
  ((notes trace).filterMap Note.settled?).flatten

/-- The remaining counts passed to the estimator. -/
def estimates (trace : RouteTrace) : List ℕ := (notes trace).filterMap Note.estimate?

/-- The progress events that were published. -/
def events (trace : RouteTrace) : List (ℕ × ℕ) := (notes trace).filterMap Note.event?

@[simp] theorem notes_append (before after : RouteTrace) :
    notes (before ++ after) = notes before ++ notes after := List.filterMap_append

theorem acts_eq_notes (trace : RouteTrace) : acts trace = (notes trace).filterMap Note.act? := by
  rw [acts, notes, List.filterMap_filterMap]
  refine List.filterMap_congr fun asked _ => ?_
  obtain ⟨op, answer⟩ := asked
  cases op with
  | gather batch => cases answer <;> rfl
  | _ => rfl

section Rounds

variable (job : Job)

/-- The notes of rounds that settle these batches, with these estimates. -/
def roundNotes : Totals → List (List Settlement × ℚ) → List Note
  | _, [] => []
  | totals, (batch, eta) :: rest =>
      let after := totals.absorb (batch.map record)
      let remaining : ℤ := job.totalTickets - after.completed
      .settled batch :: .act (incrementCall (batch.map record), .ok) ::
        .estimate (max 0 remaining).toNat :: .act (progressCall job after eta, .ok) ::
        roundNotes after rest

/-- The queue after these batches were drained from it. -/
inductive Batches (Q : TicketQueue) : Q.Carrier → List (List Settlement) → Q.Carrier → Prop
  | nil (queue : Q.Carrier) : Batches Q queue [] queue
  | cons {queue rest queue' : Q.Carrier} {batch : Batch} {later : List (List Settlement)}
      (drained : PriorityBatcher.drainBatch Q queue = some (batch, rest)) (raw : Gathered batch)
      (more : Batches Q rest later queue') : Batches Q queue (settlements batch raw :: later) queue'

section Batches

variable {Q : TicketQueue} {queue queue' : Q.Carrier} {batches : List (List Settlement)}

/-- The batches and what they leave are what was queued. -/
theorem Batches.counted (drawn : Batches Q queue batches queue') :
    batches.flatten.length + (PriorityBatcher.entries Q queue').card =
      (PriorityBatcher.entries Q queue).card := by
  induction drawn with
  | nil queue => simp
  | cons drained raw more ih =>
      have conserved := congrArg Multiset.card (PriorityBatcher.drainBatch_entries drained)
      have length : (settlements _ raw).length = _ :=
        (List.length_map Prod.fst).symm.trans (congrArg List.length (settlements_entries _ raw))
      rw [Multiset.card_add, Multiset.coe_card] at conserved
      rw [List.flatten_cons, List.length_append, length]
      omega

/-- Every batch has a ticket. -/
theorem Batches.filled (drawn : Batches Q queue batches queue') : ∀ batch ∈ batches, batch ≠ [] := by
  induction drawn with
  | nil queue => simp
  | cons drained raw more ih =>
      refine List.forall_mem_cons.mpr ⟨fun empty => ?_, ih⟩
      have entries := settlements_entries _ raw
      rw [empty, List.map_nil] at entries
      have tickets := PriorityBatcher.drainBatch_ne_nil drained
      rw [← Batch.entries_tickets, ← entries] at tickets
      exact tickets rfl

end Batches

end Rounds

section Notes

variable {Q : TicketQueue} {settings : Settings} {job : Job}
  {fact : Entry → Except Exn Dict → Prop} {faults : Prop}

/-- One round, when no call raises. -/
theorem processRound_notes {batch : Batch} {totals : Totals} {trace : RouteTrace}
    {result : Except Exn Totals} (ran : Runs (processRound job batch totals) trace result)
    (quiet : ∀ act ∈ acts trace, act.2 = .ok) (all : Held (Settled fact faults) trace) :
    (∃ raw eta, result = .ok (totals.absorb ((settlements batch raw).map record)) ∧
      notes trace = roundNotes job totals [(settlements batch raw, eta)]) ∨
    ((∃ e, result = .error e) ∧ faults ∧ notes trace = []) := by
  obtain ⟨batchStart, rest, rfl, started⟩ := runs_perform_bind_iff.mp ran
  rcases runs_call_bind_iff.mp started with
    ⟨raw, e, rfl, rfl, rfl⟩ | ⟨_, raw, rest, rfl, rfl, gathered⟩
  · exact .inr ⟨⟨e, rfl⟩, all ⟨.gather batch, .error e⟩ (by simp), rfl⟩
  · obtain ⟨batchEnd, rest, rfl, timed⟩ := runs_perform_bind_iff.mp gathered
    obtain ⟨_, rest, rfl, updated⟩ := runs_perform_bind_iff.mp timed
    rcases store_bind_runs updated with ⟨e, applied, rfl, rfl⟩ | ⟨rest, rfl, counted⟩
    · cases quiet (incrementCall (batchEntries batch raw), .raised e applied) (by
        exact List.mem_singleton_self _)
    · obtain ⟨eta, rest, rfl, estimated⟩ := runs_perform_bind_iff.mp counted
      rcases store_bind_runs estimated with ⟨e, applied, rfl, rfl⟩ | ⟨rest, rfl, published⟩
      · cases quiet (progressCall job (totals.absorb (batchEntries batch raw)) eta, .raised e applied) (by
          exact List.mem_cons_of_mem _ (List.mem_singleton_self _))
      · obtain ⟨rfl, rfl⟩ := runs_pure_iff.mp published
        refine .inl ⟨raw, eta, ?_, ?_⟩
        · rw [← batchEntries_eq]
        · simp only [roundNotes, ← batchEntries_eq]
          rfl

/-- The loop, when no call raises. -/
theorem drain_notes (queue : Q.Carrier) (totals : Totals) {trace : RouteTrace}
    {result : Except Exn Totals} (ran : Runs (drain Q job queue totals) trace result)
    (quiet : ∀ act ∈ acts trace, act.2 = .ok) (all : Held (Settled fact faults) trace) :
    ∃ rounds queue', Batches Q queue (rounds.map Prod.fst) queue' ∧
      notes trace = roundNotes job totals rounds ∧
      (((∃ e, result = .error e) ∧ faults) ∨ PriorityBatcher.drainBatch Q queue' = none) := by
  induction queue, totals using drain.induct Q generalizing trace result with
  | case1 queue totals ih =>
      rw [drain] at ran
      rcases runs_call_bind_iff.mp ran with
        ⟨_, e, rfl, rfl, rfl⟩ | ⟨_, _, rest, rfl, rfl, drawn⟩
      · exact ⟨[], queue, .nil queue, rfl, .inl ⟨⟨e, rfl⟩, all ⟨.drainBatch, .error e⟩ (by simp)⟩⟩
      · split at drawn
        · next empty =>
            obtain ⟨rfl, rfl⟩ := runs_pure_iff.mp drawn
            exact ⟨[], queue, .nil queue, rfl, .inr empty⟩
        · next batch rest drained =>
            obtain ⟨_, rest', rfl, shown⟩ := runs_perform_bind_iff.mp drawn
            have held_rest : Held (Settled fact faults) rest' := all.of_cons.of_cons
            have quiet_rest : ∀ act ∈ acts rest', act.2 = .ok := quiet
            rcases runs_bind_iff.mp shown with
              ⟨e, raised, rfl⟩ | ⟨totals', before, after, rfl, round, later⟩
            · rcases processRound_notes raised quiet_rest held_rest with ⟨_, _, impossible, _⟩ | broken
              · cases impossible
              · exact ⟨[], queue, .nil queue, broken.2.2, .inl ⟨⟨e, rfl⟩, broken.2.1⟩⟩
            · obtain ⟨held_round, held_later⟩ := Held.append.mp held_rest
              rw [acts_append] at quiet_rest
              obtain ⟨quiet_round, quiet_later⟩ := List.forall_mem_append.mp quiet_rest
              rcases processRound_notes round quiet_round held_round with
                ⟨raw, eta, same, noted⟩ | ⟨⟨_, impossible⟩, _⟩
              · cases same
                obtain ⟨rounds, queue', batches, notes_later, ended⟩ :=
                  ih batch rest drained _ later quiet_later held_later
                refine ⟨(settlements batch raw, eta) :: rounds, queue', .cons drained raw batches, ?_, ended⟩
                have both : notes (before ++ after) = notes before ++ notes after := notes_append _ _
                show notes (before ++ after) = _
                rw [both, noted, notes_later]
                rfl
              · cases impossible

/-- A call after the rounds. -/
def Closing : Note → Prop
  | .act (.finish _, _) | .act (.publishDone _ _, _) | .act (.fail _, _) => True
  | _ => False

theorem finishJob_notes {jobStart : ℚ} {totals : Totals} {trace : RouteTrace}
    {result : Except Exn Unit} (ran : Runs (finishJob settings job jobStart totals) trace result) :
    ∀ note ∈ notes trace, Closing note := by
  obtain ⟨jobEnd, rest, rfl, timed⟩ := runs_perform_bind_iff.mp ran
  rcases runs_bind_iff.mp timed with ⟨e, raised, rfl⟩ | ⟨total, before, after, rfl, summed, later⟩
  · obtain ⟨rfl, _⟩ := runs_ofResult_iff.mp raised
    exact List.forall_mem_nil _
  · obtain ⟨rfl, _⟩ := runs_ofResult_iff.mp summed
    obtain ⟨percentiles, rest, rfl, measured⟩ := runs_perform_bind_iff.mp later
    rcases store_bind_runs measured with ⟨e, applied, rfl, rfl⟩ | ⟨rest, rfl, finished⟩
    · exact List.forall_mem_singleton.mpr trivial
    · obtain ⟨reply, rfl, rfl⟩ := store_runs finished
      exact List.forall_mem_cons.mpr ⟨trivial, List.forall_mem_singleton.mpr trivial⟩

/-- The `try` of a job, when no call raises. -/
theorem jobBody_notes {queue : Q.Carrier} {jobStart : ℚ} {trace : RouteTrace}
    {result : Except Exn Unit} (ran : Runs (jobBody Q settings job queue jobStart) trace result)
    (quiet : ∀ act ∈ acts trace, act.2 = .ok) (all : Held (Settled fact faults) trace) :
    ∃ rounds queue' last, Batches Q queue (rounds.map Prod.fst) queue' ∧
      notes trace = roundNotes job (initialTotals job) rounds ++ last ∧
      (∀ note ∈ last, Closing note) ∧ (faults ∨ PriorityBatcher.drainBatch Q queue' = none) := by
  rcases runs_bind_iff.mp ran with ⟨e, raised, rfl⟩ | ⟨totals, before, after, rfl, drained, later⟩
  · obtain ⟨rounds, queue', batches, noted, ended⟩ := drain_notes queue _ raised quiet all
    exact ⟨rounds, queue', [], batches, by rw [noted, List.append_nil], by simp, ended.imp_left And.right⟩
  · rw [acts_append] at quiet
    obtain ⟨rounds, queue', batches, noted, ended⟩ := drain_notes queue _ drained
      (List.forall_mem_append.mp quiet).1 (Held.append.mp all).1
    refine ⟨rounds, queue', notes after, batches, ?_, finishJob_notes later, ended.imp_left And.right⟩
    rw [notes_append, noted]

/-- A job, when no call raises. -/
theorem processJob_notes {trace : RouteTrace} {result : Except Exn Unit}
    (ran : Runs (processJob Q settings job) trace result) (quiet : ∀ act ∈ acts trace, act.2 = .ok)
    (all : Held (Settled fact faults) trace) :
    (faults ∧ notes trace = []) ∨
    ∃ rounds queue' last, Batches Q (jobQueue Q job) (rounds.map Prod.fst) queue' ∧
      notes trace = .act (.start, .ok) :: (roundNotes job (initialTotals job) rounds ++ last) ∧
      (∀ note ∈ last, Closing note) ∧ (faults ∨ PriorityBatcher.drainBatch Q queue' = none) := by
  cases processJob_shape ran with
  | enqueue jobStart e => exact .inl ⟨all ⟨.enqueueMany, .error e⟩ (by simp), rfl⟩
  | start jobStart e applied => cases quiet (.start, .raised e applied) (List.mem_singleton_self _)
  | @handled jobStart body _ handled =>
      refine .inr ?_
      have held_handled := (Held.append.mp (Held.append.mp all).2).1
      rw [acts_append, acts_append] at quiet
      have quiet_handled := (List.forall_mem_append.mp (List.forall_mem_append.mp quiet).2).1
      have noted : notes (prologue Q job jobStart ++ (body ++ [⟨.activeJobs (-1), ()⟩])) =
          .act (.start, .ok) :: notes body := by
        rw [notes_append, notes_append]
        exact congrArg _ (List.append_nil _)
      rw [noted]
      rcases runs_rescue_iff.mp handled with
        ⟨value, completed, rfl⟩ | ⟨e, before, after, rfl, raised, recovered⟩
      · obtain ⟨rounds, queue', last, batches, noted, closing, ended⟩ :=
          jobBody_notes completed quiet_handled held_handled
        exact ⟨rounds, queue', last, batches, by rw [noted], closing, ended⟩
      · rw [acts_append] at quiet_handled
        obtain ⟨rounds, queue', last, batches, noted, closing, ended⟩ :=
          jobBody_notes raised (List.forall_mem_append.mp quiet_handled).1
            (Held.append.mp held_handled).1
        have failing : ∀ note ∈ notes after, Closing note := by
          unfold jobFailed at recovered
          split at recovered
          · obtain ⟨reply, rfl, _⟩ := store_runs recovered
            exact List.forall_mem_singleton.mpr trivial
          · obtain ⟨rfl, _⟩ := runs_raise_iff.mp recovered
            exact List.forall_mem_nil _
        refine ⟨rounds, queue', last ++ notes after, batches, ?_, ?_, ended⟩
        · rw [notes_append, noted, List.append_assoc]
        · exact List.forall_mem_append.mpr ⟨closing, failing⟩

/-- The rounds of a job: each settles some of its unique tickets, together all of
them unless something other than the job store raises. -/
theorem processJob_rounds {trace : RouteTrace} {result : Except Exn Unit}
    (ran : Runs (processJob Q settings job) trace result) (quiet : ∀ act ∈ acts trace, act.2 = .ok)
    (all : Held (Settled fact faults) trace) :
    (faults ∧ notes trace = []) ∨
    ∃ rounds last,
      notes trace = .act (.start, .ok) :: (roundNotes job (initialTotals job) rounds ++ last) ∧
      (∀ note ∈ last, Closing note) ∧ (∀ round ∈ rounds, round.1 ≠ []) ∧
      (rounds.map Prod.fst).flatten.length ≤ job.uniqueTickets.length ∧
      (faults ∨ (rounds.map Prod.fst).flatten.length = job.uniqueTickets.length) := by
  refine (processJob_notes ran quiet all).imp_right ?_
  rintro ⟨rounds, queue', last, batches, noted, closing, ended⟩
  have counted := batches.counted
  rw [jobQueue_entries, Multiset.coe_card, length_enumerate] at counted
  refine ⟨rounds, last, noted, closing, ?_, by omega, ended.imp_right fun empty => ?_⟩
  · exact fun round member => batches.filled _ (List.mem_map_of_mem member)
  · rw [(PriorityBatcher.drainBatch_eq_none_iff queue').mp empty, Multiset.card_zero] at counted
    exact counted

end Notes

/-! ## After a batch -/

/-- What the task has reported at a progress event, `before` being its notes so far. -/
structure Standing (job : Job) (totals : Totals) (before : List Note) (completed total : ℕ) :
    Prop where
  completed : completed =
    totals.completed + ((before.filterMap Note.settled?).flatten).length
  total : total = job.totalTickets
  tallied : ∀ counter, tally counter (before.filterMap Note.act?) =
    among (((before.filterMap Note.settled?).flatten).map record) counter

section Standing

variable {job : Job}

theorem absorb_completed (totals : Totals) (batch : List Settlement) :
    (totals.absorb (batch.map record)).completed = totals.completed + batch.length := by
  have counted := among_completed_add_failed (batch.map record)
  rw [List.length_map] at counted
  show totals.completed + (batchCompleted _ + batchFailed _) = _
  exact congrArg _ counted

/-- The notes up to an event say what the event reports. -/
theorem roundNotes_split (rounds : List (List Settlement × ℚ)) :
    ∀ {totals : Totals} {before after : List Note} {completed total hits failed : ℕ} {eta : ℚ}
      {reply : Reply},
      roundNotes job totals rounds =
        before ++ .act (.publishProgress completed total hits failed eta, reply) :: after →
      Standing job totals before completed total := by
  induction rounds with
  | nil =>
      intro totals before after completed total hits failed eta reply split
      simp [roundNotes] at split
  | cons round rest ih =>
      intro totals before after completed total hits failed eta reply split
      obtain ⟨batch, eta'⟩ := round
      rcases before with _ | ⟨first, _ | ⟨second, _ | ⟨third, _ | ⟨fourth, before⟩⟩⟩⟩
      · simp [roundNotes] at split
      · simp [roundNotes, incrementCall] at split
      · simp [roundNotes] at split
      · simp only [roundNotes, progressCall, List.cons_append, List.nil_append, List.cons.injEq,
          Note.act.injEq, Prod.mk.injEq, StoreCall.publishProgress.injEq] at split
        obtain ⟨rfl, rfl, rfl, ⟨⟨rfl, rfl, _⟩, _⟩, _⟩ := split
        refine ⟨?_, rfl, fun counter => ?_⟩
        · simp [List.filterMap_cons, Note.settled?, absorb_completed]
        · simp [List.filterMap_cons, Note.settled?, Note.act?, incrementCall_adds]
      · simp only [roundNotes, List.cons_append, List.cons.injEq] at split
        obtain ⟨rfl, rfl, rfl, rfl, split⟩ := split
        obtain ⟨same, known, tallied⟩ := ih split
        refine ⟨?_, known, fun counter => ?_⟩
        · rw [same, absorb_completed]
          simp [List.filterMap_cons, Note.settled?, add_assoc]
        · simp [List.filterMap_cons, Note.settled?, Note.act?, incrementCall_adds, progressCall_adds, tallied, among_append]

/-! ## The events of the rounds -/

/-- The events count up from `totals` to the last settled ticket. -/
theorem roundNotes_events (rounds : List (List Settlement × ℚ)) :
    ∀ totals : Totals, (∀ round ∈ rounds, round.1 ≠ []) →
      (∀ event ∈ (roundNotes job totals rounds).filterMap Note.event?,
        totals.completed < event.1 ∧
          event.1 ≤ totals.completed + (rounds.map Prod.fst).flatten.length ∧
          event.2 = job.totalTickets) ∧
      ((roundNotes job totals rounds).filterMap Note.event?).Pairwise (fun a b => a.1 < b.1) ∧
      (∀ event ∈ ((roundNotes job totals rounds).filterMap Note.event?).getLast?,
        event.1 = totals.completed + (rounds.map Prod.fst).flatten.length) := by
  induction rounds with
  | nil => simp [roundNotes]
  | cons round rest ih =>
      intro totals filled
      obtain ⟨batch, eta⟩ := round
      have first : batch ≠ [] := filled _ List.mem_cons_self
      have positive := List.length_pos_iff.mpr first
      have counted := absorb_completed totals batch
      obtain ⟨bounds, increasing, last⟩ := ih (totals.absorb (batch.map record))
        fun round member => filled round (List.mem_cons_of_mem _ member)
      have shown : (roundNotes job totals ((batch, eta) :: rest)).filterMap Note.event? =
          ((totals.absorb (batch.map record)).completed, job.totalTickets) ::
            (roundNotes job (totals.absorb (batch.map record)) rest).filterMap Note.event? := rfl
      have all : (((batch, eta) :: rest).map Prod.fst).flatten.length =
          batch.length + (rest.map Prod.fst).flatten.length := by
        rw [List.map_cons, List.flatten_cons, List.length_append]
      rw [shown, all]
      refine ⟨List.forall_mem_cons.mpr ⟨by dsimp only; omega, ?_⟩,
        List.pairwise_cons.mpr ⟨fun event member => (bounds event member).1, increasing⟩, ?_⟩
      · intro event member
        obtain ⟨above, below, known⟩ := bounds event member
        exact ⟨by omega, by omega, known⟩
      · intro event final
        cases ends : ((roundNotes job (totals.absorb (batch.map record)) rest).filterMap
            Note.event?).getLast? with
        | none =>
            -- no round is left: the event of this one is the last
            have last_round : rest = [] := by
              cases rest with
              | nil => rfl
              | cons round more =>
                  have none := List.getLast?_eq_none_iff.mp ends
                  cases none
            subst last_round
            obtain rfl : event = _ := by simpa [List.getLast?_cons, ends, eq_comm] using final
            simp [counted]
        | some ending =>
            obtain rfl : event = ending := by simpa [List.getLast?_cons, ends, eq_comm] using final
            rw [last event ends]
            omega

/-- Each estimate is asked for what is left at the event after it. -/
theorem roundNotes_estimates (rounds : List (List Settlement × ℚ)) :
    ∀ totals : Totals,
      totals.completed + (rounds.map Prod.fst).flatten.length ≤ job.totalTickets →
      ((roundNotes job totals rounds).filterMap Note.estimate?).map (Nat.cast : ℕ → ℤ) =
        ((roundNotes job totals rounds).filterMap Note.event?).map
          fun event => (event.2 : ℤ) - event.1 := by
  induction rounds with
  | nil => simp [roundNotes]
  | cons round rest ih =>
      intro totals within
      obtain ⟨batch, eta⟩ := round
      have counted := absorb_completed totals batch
      have all : (((batch, eta) :: rest).map Prod.fst).flatten.length =
          batch.length + (rest.map Prod.fst).flatten.length := by
        rw [List.map_cons, List.flatten_cons, List.length_append]
      rw [all] at within
      have later := ih (totals.absorb (batch.map record)) (by omega)
      have asked : (roundNotes job totals ((batch, eta) :: rest)).filterMap Note.estimate? =
          (max 0 ((job.totalTickets : ℤ) - (totals.absorb (batch.map record)).completed)).toNat ::
            (roundNotes job (totals.absorb (batch.map record)) rest).filterMap Note.estimate? := rfl
      have shown : (roundNotes job totals ((batch, eta) :: rest)).filterMap Note.event? =
          ((totals.absorb (batch.map record)).completed, job.totalTickets) ::
            (roundNotes job (totals.absorb (batch.map record)) rest).filterMap Note.event? := rfl
      rw [asked, shown, List.map_cons, List.map_cons, later]
      congr 1
      omega

end Standing

/-! ## A moment after a batch -/

/-- How the ticket of a settlement is counted. -/
def ticketFailed : Except Exn Dict → Bool
  | .ok result => Dict.truthy result "error"
  | .error _ => true

theorem errorText_ne_empty (e : Exn) : errorText e ≠ "" := by
  intro empty
  have text := congrArg String.toList empty
  rw [errorText, String.toList_ofList, String.toList_empty, List.take_eq_nil_iff] at text
  rcases text with impossible | text
  · cases impossible
  · have separator : toString ": " ≠ "" := by decide
    simp only [String.toList_append, List.append_eq_nil_iff, String.toList_eq_nil_iff] at text
    exact separator text.1.2

theorem truthy_failureResult (ticket error : String) :
    Dict.truthy (failureResult ticket error) "error" = decide (error ≠ "") := rfl

theorem record_error (settled : Settlement) :
    Dict.truthy (record settled) "error" = ticketFailed settled.2 := by
  obtain ⟨⟨ticket, index⟩, ended⟩ := settled
  rw [record, Dict.truthy_set_of_ne _ (by decide)]
  cases ended with
  | ok result => rfl
  | error e =>
      refine (truthy_failureResult ticket (errorText e)).trans ?_
      exact decide_eq_true (errorText_ne_empty e)

section Moments

variable {Q : TicketQueue} {settings : Settings} {host : Host} {body : ProcessRequest settings}

/-- The moment after an event of a task: the event, the trace of the task before it,
and the hash a reader finds then. -/
structure Moment (sub : Submission Q settings host body) (timed : List (ℚ × Act)) (s : JobRedis) where
  earlier : RouteTrace
  later : RouteTrace
  completed : ℕ
  total : ℕ
  cacheHits : ℕ
  failed : ℕ
  eta : ℚ
  published : sub.jobTrace = earlier ++
    ⟨.store (.publishProgress completed total cacheHits failed eta), .ok⟩ :: later
  before : List (ℚ × Act)
  after : List (ℚ × Act)
  split : timed = before ++ after
  reached : before.map Prod.snd = acts sub.postTrace ++
    (acts earlier ++ [(.publishProgress completed total cacheHits failed eta, .ok)])
  now : ℚ
  state : Hash
  read : JobStore.getState sub.response.jobId now
    (performAll settings sub.response.jobId s before) = some state

/-- What the event and the hash say at a moment. -/
structure Moment.Reported {sub : Submission Q settings host body} {timed : List (ℚ × Act)}
    {s : JobRedis} (moment : Moment sub timed s) : Prop where
  completed : moment.completed = sub.response.cached + (drained moment.earlier).length
  total : moment.total = sub.response.total
  counted : moment.state "completed" = some (.int (sub.response.cached +
    among ((drained moment.earlier).map record) .completed : ℕ))
  failed : moment.state "failed_count" =
    some (.int (among ((drained moment.earlier).map record) .failed))
  known : moment.state "total" = some (.int sub.response.total)

/-- A member that is not in the second part splits the first. -/
theorem split_of_not_mem {α : Type} {before after first second : List α} {member : α}
    (split : before ++ member :: after = first ++ second) (absent : member ∉ second) :
    ∃ more, first = before ++ member :: more := by
  rcases List.append_eq_append_iff.mp split with ⟨more, rfl, rest⟩ | ⟨more, rfl, rest⟩
  · match more, rest with
    | [], rest =>
        rw [List.nil_append] at rest
        exact absurd (rest ▸ List.mem_cons_self) absent
    | _ :: more, rest =>
        cases rest
        exact ⟨more, rfl⟩
  · exact absurd (rest ▸ List.mem_append_right more List.mem_cons_self) absent

variable {sub : Submission Q settings host body} {timed : List (ℚ × Act)} {s : JobRedis}

/-- The task has made its first call, and its notes so far say what the event reports. -/
theorem Moment.standing (moment : Moment sub timed s) (quiet : ∀ act ∈ sub.calls, act.2 = .ok) :
    ∃ before, notes moment.earlier = .act (.start, .ok) :: before ∧
      Standing sub.job (initialTotals sub.job) before moment.completed moment.total := by
  have quiet_job : ∀ act ∈ acts sub.jobTrace, act.2 = .ok :=
    fun act member => quiet act (List.mem_append_right _ member)
  have noted : notes sub.jobTrace = notes moment.earlier ++
      .act (.publishProgress moment.completed moment.total moment.cacheHits moment.failed moment.eta, .ok) ::
        notes moment.later := by
    rw [moment.published, notes_append]
    rfl
  rcases processJob_rounds sub.ran quiet_job (settled_any _) with
    ⟨_, none⟩ | ⟨rounds, last, all, closing, _⟩
  · rw [none] at noted
    simp at noted
  · rw [all] at noted
    -- the event is not the first note
    cases begun : notes moment.earlier with
    | nil =>
        rw [begun] at noted
        cases noted
    | cons first before =>
        rw [begun, List.cons_append] at noted
        obtain ⟨rfl, rest⟩ := List.cons.inj noted
        obtain ⟨more, split⟩ := split_of_not_mem rest.symm (closing _)
        exact ⟨before, rfl, roundNotes_split rounds split⟩

/-- The calls after `create`, up to the event. -/
def Moment.calls (moment : Moment sub timed s) (found : Dedup) : List Act :=
  countCalls found ++ (acts moment.earlier ++ [(.publishProgress moment.completed moment.total
    moment.cacheHits moment.failed moment.eta, .ok)])

theorem Moment.no_create (moment : Moment sub timed s) (found : Dedup) :
    ∀ act ∈ moment.calls found, ∀ total, act.1 ≠ .create total := by
  intro act member total same
  rcases List.mem_append.mp member with member | member
  · simpa [same, RoundCall] using (countCalls_quiet found act member).1
  · rcases List.mem_append.mp member with member | member
    · refine (processJob_runs sub.ran (held_any _)).no_create act ?_ total same
      rw [moment.published, acts_append]
      exact List.mem_append_left _ member
    · rw [List.mem_singleton.mp member] at same
      cases same

/-- **What is reported after a batch**, if no call raises and the hash is not lost. -/
theorem Moment.reported (moment : Moment sub timed s)
    (fresh : s.keys (jobKey sub.response.jobId) = none)
    (quiet : ∀ act ∈ sub.calls, act.2 = .ok) (kept : Kept settings timed) : moment.Reported := by
  obtain ⟨found, dedup, job, total, posted⟩ := sub.shape (known_any _)
  obtain ⟨cached, unique⟩ := sub.counts
  obtain ⟨before, begun, completed, known, tallied⟩ := moment.standing quiet
  have settled : drained moment.earlier = (before.filterMap Note.settled?).flatten := by
    rw [drained, begun]
    rfl
  have did : acts moment.earlier = (.start, .ok) :: before.filterMap Note.act? := by
    rw [acts_eq_notes, begun]
    rfl
  have calls : moment.before.map Prod.snd = (.create body.tickets.length, .ok) :: moment.calls found := by
    rw [moment.reached, posted]
    rfl
  have others := moment.no_create found
  have counters := counters_when_kept kept moment.split fresh calls others moment.read
  have tallies : ∀ counter, tally counter (moment.calls found) = tally counter (countCalls found) +
      among ((drained moment.earlier).map record) counter := by
    intro counter
    rw [Moment.calls, tally_append, tally_append, did, tally_cons, tallied, settled]
    cases counter <;> simp [StoreCall.adds]
  constructor
  · rw [completed, settled, cached]
    rfl
  · rw [known, total, job]
    rfl
  · refine (counters .completed).trans ?_
    rw [tallies, tally_countCalls, cached, job]
    rfl
  · refine (counters .failed).trans ?_
    rw [tallies, tally_countCalls, Nat.zero_add]
  · rw [total]
    exact total_when_kept kept moment.split fresh calls others moment.read

/-! ## The events of a job -/

/-- The events of a task whose request was answered with `response`. -/
structure ExactEvents (response : ProcessResponse) (trace : RouteTrace) : Prop where
  increasing : (events trace).Pairwise fun earlier later => earlier.1 < later.1
  bounded : ∀ event ∈ events trace, event.1 ≤ response.total ∧ event.2 = response.total
  remaining : (estimates trace).map (Nat.cast : ℕ → ℤ) =
    (events trace).map fun event => (event.2 : ℤ) - event.1
  last : ∀ event ∈ (events trace).getLast?, event.1 = response.total

theorem Closing.silent {note : Note} (closing : Closing note) :
    note.event? = none ∧ note.estimate? = none := by
  unfold Closing at closing
  split at closing
  · exact ⟨rfl, rfl⟩
  · exact ⟨rfl, rfl⟩
  · exact ⟨rfl, rfl⟩
  · exact closing.elim

theorem closing_silent {last : List Note} (closing : ∀ note ∈ last, Closing note) :
    last.filterMap Note.event? = [] ∧ last.filterMap Note.estimate? = [] :=
  ⟨List.filterMap_eq_nil_iff.mpr fun note member => (closing note member).silent.1,
    List.filterMap_eq_nil_iff.mpr fun note member => (closing note member).silent.2⟩

theorem exactEvents (quiet : ∀ act ∈ sub.calls, act.2 = .ok)
    (batches : Held (Settled (fun _ _ => True) False) sub.jobTrace) :
    ExactEvents sub.response sub.jobTrace := by
  obtain ⟨found, dedup, job, total, _⟩ := sub.shape (known_any _)
  have quiet_job : ∀ act ∈ acts sub.jobTrace, act.2 = .ok :=
    fun act member => quiet act (List.mem_append_right _ member)
  rcases processJob_rounds sub.ran quiet_job batches with
    ⟨impossible, _⟩ | ⟨rounds, last, noted, closing, filled, _, settled⟩
  · exact impossible.elim
  have settled := settled.resolve_left id
  obtain ⟨no_event, no_estimate⟩ := closing_silent closing
  have all : events sub.jobTrace =
      (roundNotes sub.job (initialTotals sub.job) rounds).filterMap Note.event? := by
    rw [events, noted]
    show (_ ++ last).filterMap Note.event? = _
    rw [List.filterMap_append, no_event, List.append_nil]
  have asked : estimates sub.jobTrace =
      (roundNotes sub.job (initialTotals sub.job) rounds).filterMap Note.estimate? := by
    rw [estimates, noted]
    show (_ ++ last).filterMap Note.estimate? = _
    rw [List.filterMap_append, no_estimate, List.append_nil]
  -- the tickets that were found and those that are drained are all of them
  have whole : (initialTotals sub.job).completed + (rounds.map Prod.fst).flatten.length =
      sub.response.total := by
    rw [settled, total, ← dedup.counted, job]
    rfl
  have known : sub.job.totalTickets = sub.response.total := by
    rw [total, job]
    rfl
  obtain ⟨bounds, increasing, ends⟩ := roundNotes_events rounds (initialTotals sub.job) filled
  constructor
  · rw [all]
    exact increasing
  · intro event member
    rw [all] at member
    obtain ⟨_, below, same⟩ := bounds event member
    exact ⟨whole ▸ below, same.trans known⟩
  · rw [all, asked]
    exact roundNotes_estimates rounds _ (le_of_eq (whole.trans known.symm))
  · intro event final
    rw [all] at final
    exact (ends event final).trans whole

/-- **Progress is exact and monotone**: whatever the tickets come to, as long as no
call raises and the hash is not lost. -/
theorem progress_exact (fresh : s.keys (jobKey sub.response.jobId) = none)
    (quiet : ∀ act ∈ sub.calls, act.2 = .ok) (kept : Kept settings timed)
    (batches : Held (Settled (fun _ _ => True) False) sub.jobTrace) :
    ExactEvents sub.response sub.jobTrace ∧
      ∀ moment : Moment sub timed s,
        moment.completed = sub.response.cached + (drained moment.earlier).length ∧
        ∃ done failed : ℕ, moment.state "completed" = some (.int done) ∧
          moment.state "failed_count" = some (.int failed) ∧ moment.completed = done + failed := by
  refine ⟨exactEvents quiet batches, fun moment => ?_⟩
  have reported := moment.reported fresh quiet kept
  refine ⟨reported.completed, _, _, reported.counted, reported.failed, ?_⟩
  have counted := among_completed_add_failed ((drained moment.earlier).map record)
  rw [List.length_map] at counted
  rw [reported.completed, ← counted, Nat.add_assoc]

/-! ## Both views of the progress -/

/-- The event and `GET /results` report the same progress, and all of it when every
unique ticket was processed. -/
structure ViewsAgree (moment : Moment sub timed s) : Prop where
  same : moment.state "completed" = some (.int moment.completed)
  fraction : progressOf moment.state = .ok (round 4 (moment.completed / moment.total))
  whole : (drained moment.earlier).length = sub.response.unique →
    moment.completed = moment.total ∧ moment.state "completed" = some (.int moment.total)

/-- **The views agree** after a batch exactly when no ticket has failed so far. -/
theorem views_agree_iff (fresh : s.keys (jobKey sub.response.jobId) = none)
    (quiet : ∀ act ∈ sub.calls, act.2 = .ok) (kept : Kept settings timed)
    (moment : Moment sub timed s) :
    ViewsAgree moment ↔ ∀ settled ∈ drained moment.earlier, ticketFailed settled.2 = false := by
  have reported := moment.reported fresh quiet kept
  have counted := among_completed_add_failed ((drained moment.earlier).map record)
  rw [List.length_map] at counted
  have failed : among ((drained moment.earlier).map record) .failed = 0 ↔
      ∀ settled ∈ drained moment.earlier, ticketFailed settled.2 = false := by
    show List.countP _ _ = 0 ↔ _
    rw [List.countP_eq_zero]
    simp only [List.forall_mem_map, record_error, Bool.not_eq_true]
  rw [← failed]
  constructor
  · intro agree
    have both := agree.same.symm.trans reported.counted
    simp only [Option.some.injEq, Field.int.injEq, Nat.cast_inj] at both
    rw [reported.completed] at both
    omega
  · intro none
    have same : moment.state "completed" = some (.int moment.completed) := by
      rw [reported.counted, reported.completed, ← counted, none, Nat.add_zero]
    obtain ⟨found, dedup, job, total, _⟩ := sub.shape (known_any _)
    obtain ⟨cached, unique⟩ := sub.counts
    have positive : sub.response.total ≠ 0 := by
      rw [total]
      exact fun empty => body.nonempty (List.length_eq_zero_iff.mp empty)
    refine ⟨same, ?_, fun processed => ?_⟩
    · rw [reported.total]
      simp [progressOf, same, reported.known, positive, fieldInt, pure, Except.pure, bind, Except.bind]
    · have whole : moment.completed = moment.total := by
        rw [reported.completed, reported.total, processed, cached, unique, total, ← dedup.counted, job]
        rfl
      exact ⟨whole, whole ▸ same⟩

end Moments

/-! ## Poles -/

section Poles

/-- The batch of `missedJob`. -/
def helpBatch : Batch := .ofItems (classify "help") [PriorityBatcher.prioritize 0 "help"]

section Missed

variable (ended : Except Exn Dict)

def helpRaw : Gathered helpBatch := ⟨[ended], rfl⟩

def helpTotals : Totals := (initialTotals missedJob).absorb (batchEntries helpBatch (helpRaw ended))

theorem helpTotals_completed : (helpTotals ended).completed = 1 := by
  rw [helpTotals, batchEntries_eq, absorb_completed]
  rfl

/-- The task of `missedJob` up to its event, its ticket coming to `ended`. -/
abbrev missedEarlier : RouteTrace :=
  earlierTrace (.sorted _) missedJob (MinQueue.sorted _).empty (helpRaw ended) 0

/-- The task of `missedJob` after its event. -/
abbrev missedLater (total : Number) : RouteTrace := laterTrace .defaults missedJob (helpTotals ended) total

theorem missedJob_runs {total : Number} (summed : totalTokens (helpTotals ended).results = .ok total) :
    Runs (processJob (.sorted _) .defaults missedJob)
      (missedEarlier ended ++ ⟨.store (progressCall missedJob (helpTotals ended) 0), .ok⟩ ::
        missedLater ended total) (.ok ()) := by
  have left : (max 0 ((missedJob.totalTickets : ℤ) - (helpTotals ended).completed)).toNat = 0 := by
    rw [helpTotals_completed]
    rfl
  have drained : PriorityBatcher.drainBatch (.sorted _) (jobQueue (.sorted _) missedJob) =
      some (helpBatch, (MinQueue.sorted _).empty) := rfl
  exact processJob_of_batch (helpRaw ended) left drained rfl summed

/-- The request of `missedJob`, with a run of its task. -/
def missedSubmission {total : Number} (summed : totalTokens (helpTotals ended).results = .ok total) :
    Submission (.sorted _) .defaults plainHost single where
  postTrace := _
  response := _
  posted := processTickets_of_missed { seen := [("help", "help")], uniqueTickets := ["help"] }
    (deduplicate_of_miss (by decide) (runs_pure_iff.mpr ⟨rfl, rfl⟩)) rfl "j" 0
  job := missedJob
  launches := List.mem_singleton.mpr rfl
  jobTrace := _
  ended := _
  ran := missedJob_runs ended summed

/-- Its calls up to the event, and those after it. -/
def missedBefore : List (ℚ × Act) :=
  [(0, .create 1, .ok), (1, .start, .ok), (2, incrementCall (batchEntries helpBatch (helpRaw ended)), .ok),
    (2, progressCall missedJob (helpTotals ended) 0, .ok)]

def missedAfter (total : Number) : List (ℚ × Act) :=
  [(2, .finish (helpTotals ended).results, .ok),
    (2, .publishDone (helpTotals ended).results
      (finalStats .defaults missedJob (helpTotals ended) total ⟨0, 0, 0⟩ (0 - 0)), .ok)]

theorem missed_kept (total : Number) : Kept .defaults (missedBefore ended ++ missedAfter ended total) := by
  norm_num [Kept, missedBefore, missedAfter, Reply.expires]

theorem missed_quiet {total : Number} (summed : totalTokens (helpTotals ended).results = .ok total) :
    ∀ act ∈ (missedSubmission ended summed).calls, act.2 = .ok := by
  intro act member
  have member : act ∈ (missedBefore ended ++ missedAfter ended total).map Prod.snd := member
  simp only [missedBefore, missedAfter, List.map_append, List.map_cons, List.map_nil, List.mem_append,
    List.mem_cons, List.not_mem_nil, or_false] at member
  rcases member with (rfl | rfl | rfl | rfl) | rfl | rfl <;> rfl

theorem missed_settled (total : Number) : Held (Settled (fun _ _ => True) False)
    (missedEarlier ended ++ ⟨.store (progressCall missedJob (helpTotals ended) 0), .ok⟩ ::
      missedLater ended total) :=
  settled_of_batch fun _ _ => trivial

/-- What the hash holds right after the event. -/
def missedState : Hash := hashAfter (hashWrites 0 (.create 1) fun _ => none) (missedBefore ended).tail

theorem missed_read : JobStore.getState "j" 2 (performAll .defaults "j" empty (missedBefore ended)) =
    some (missedState ended) := by
  have absent : Redis.Server.live 0 empty (jobKey "j") = none := rfl
  have created := perform_create .defaults 1 .ok absent
  have others : ∀ act ∈ (missedBefore ended).tail, ∀ total, act.2.1 ≠ .create total := by
    simp [missedBefore, incrementCall, progressCall]
  have keys := performAll_keys .defaults others (by norm_num [missedBefore]) created
  have state : Redis.Server.live 2 (performAll .defaults "j" empty (missedBefore ended)) (jobKey "j") =
      some ⟨.hash (missedState ended), some (0 + (3600 : ℤ))⟩ := live_eq_some.mpr ⟨keys, by norm_num⟩
  rw [JobStore.getState, Redis.hgetall, state]

/-- A reader who comes right after the event. -/
def missedMoment {total : Number} (summed : totalTokens (helpTotals ended).results = .ok total) :
    Moment (missedSubmission ended summed) (missedBefore ended ++ missedAfter ended total) empty where
  earlier := missedEarlier ended
  later := missedLater ended total
  completed := (helpTotals ended).completed
  total := 1
  cacheHits := (helpTotals ended).cacheHits
  failed := (helpTotals ended).failedCount
  eta := 0
  published := rfl
  before := missedBefore ended
  after := missedAfter ended total
  split := rfl
  reached := rfl
  now := 2
  state := missedState ended
  read := missed_read ended

end Missed

theorem answered_tokens : totalTokens (helpTotals (.ok foundRecord)).results = .ok (.finite (0 + 7)) := rfl

/-- A ticket that raised. -/
def brokenTicket : Except Exn Dict := .error { kind := .other "ReadTimeout", message := "" }

theorem broken_tokens : totalTokens (helpTotals brokenTicket).results = .ok (.finite (0 + 0)) := rfl

/-- Satisfiable pole: the ticket was classified. -/
theorem views_agree_iff_answered : ViewsAgree (missedMoment (.ok foundRecord) answered_tokens) := by
  refine (views_agree_iff rfl (missed_quiet _ _) (missed_kept _ _) _).mpr fun settled member => ?_
  obtain rfl : settled = (("help", 0), .ok foundRecord) := List.mem_singleton.mp member
  decide

/-- **Refuting pole.** The ticket raised: the event reports it as completed, the hash
does not. -/
theorem failed_ticket_divides_views : ¬ ViewsAgree (missedMoment brokenTicket broken_tokens) := by
  intro agree
  have same := agree.same
  have event : (missedMoment brokenTicket broken_tokens).completed = 1 := helpTotals_completed _
  have hash : (missedMoment brokenTicket broken_tokens).state "completed" = some (.int 0) := rfl
  rw [event, hash] at same
  cases same

/-- Satisfiable pole: the event of a job whose ticket raised. -/
theorem progress_exact_broken :
    ExactEvents (missedSubmission brokenTicket broken_tokens).response
      (missedSubmission brokenTicket broken_tokens).jobTrace ∧
    (missedMoment brokenTicket broken_tokens).completed = 0 + 1 := by
  have batches : Held (Settled (fun _ _ => True) False) (missedSubmission brokenTicket broken_tokens).jobTrace :=
    missed_settled brokenTicket _
  obtain ⟨exact_events, moments⟩ := progress_exact (s := empty) rfl (missed_quiet _ _) (missed_kept _ _) batches
  exact ⟨exact_events, (moments (missedMoment brokenTicket broken_tokens)).1⟩

end Poles

end InferenceForge.Api
