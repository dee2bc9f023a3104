/-
# InferenceForge.Pipeline.UpstreamRuns — load, agreement and progress of the whole

What follows for all tickets together (`SharedUpstream`), in any order of their steps
and whatever is answered elsewhere:

* the requests of an outage are few, however many tickets there are and however often
  each of them tries (`outage_requests`);
* each ticket behaves as `processTicket` does, with the answers to `admission` that the
  breaker's own record tells (`admissions_agree`);
* every run is finite, and one that cannot go on has ended every ticket: semaphore and
  `_probe_lock` together do not deadlock, although a ticket waits for the one while it
  holds a slot of the other (`all_end`).
-/
import InferenceForge.Pipeline.SharedUpstream

namespace InferenceForge.Pipeline.Composed

open InferenceForge.Python InferenceForge.Library
open InferenceForge.Pipeline.CircuitBreaker
open InferenceForge.Pipeline.Semaphore (keeper slotsOf)

set_option autoImplicit false

/-! ## The requests of an outage -/

/-- The calls that were started while the breaker was not CLOSED, with the instants. -/
def outageCalls : List Observation → List (ℕ × ℚ)
  | [] => []
  | .started c instant :: earlier =>
      if stateAfter earlier ≠ .closed then (c, instant) :: outageCalls earlier else outageCalls earlier
  | _ :: earlier => outageCalls earlier

/-- Those that were started from `a` to `b`. -/
def outageCallsIn (a b : ℚ) (h : List Observation) : List ℕ :=
  ((outageCalls h).filter fun call => a ≤ call.2 ∧ call.2 ≤ b).map Prod.fst

theorem outageCalls_instants (h : List Observation) : (outageCalls h).map Prod.snd = outageStarts h := by
  induction h with
  | nil => rfl
  | cons o earlier ih =>
      cases o with
      | started c instant =>
          rw [outageCalls, outageStarts]
          split
          · exact congrArg (instant :: ·) ih
          · exact ih
      | entered | ended | moved | rejected | cancelled => exact ih

theorem length_outageCallsIn (a b : ℚ) (h : List Observation) :
    (outageCallsIn a b h).length = ((outageStarts h).filter fun t => a ≤ t ∧ t ≤ b).length := by
  rw [← outageCalls_instants, List.filter_map, outageCallsIn, List.length_map, List.length_map]
  rfl

section Runs

variable {n : ℕ} {settings : Settings} {host : Host} {tickets : Fin n → String} {slots : ℕ}
  {p : Params} {clock : ℕ → ℚ} {elsewhere : Elsewhere n} {w : Tickets n} {schedule : List (Fin n)}

/-- **The load of an outage.** Every request is sent in a call of its own that the breaker
has started, and of those that were started from `a` to `b` while it was not CLOSED, at
most `(b - a) / recovery_timeout + 1` sent one, over all tickets and attempts. -/
theorem outage_requests (enabled : settings.cbEnabled = true) (monotone : Monotone clock)
    (nonneg : 0 ≤ p.recoveryTimeout)
    (ran : exec (Pool.step (serve p clock elsewhere)) (start clock settings host slots tickets) schedule = some w)
    (uncancelled : ∀ i k, ⟨.leave k none, ()⟩ ∉ w.traces i) :
    (w.shared.requests.Nodup ∧ w.shared.requests ⊆ startedCalls w.shared.breaker.history) ∧
      ∀ a b, a ≤ b →
        ((w.shared.requests.filter (· ∈ outageCallsIn a b w.shared.breaker.history)).length : ℚ) * p.recoveryTimeout ≤
          b - a + p.recoveryTimeout := by
  have linked := linked_of_run enabled ran
  obtain ⟨es, driven, cancels⟩ := linked.driven
  have kept : ∀ e ∈ es, e.isCancel = false := by
    intro e member
    by_contra cancel
    obtain ⟨i, k, left⟩ := cancels e member (Bool.eq_true_of_not_eq_false cancel)
    exact uncancelled i k left
  refine ⟨⟨linked.requested.once, linked.requested.started⟩, fun a b le => ?_⟩
  have load := (outageSpaced_of_run p clock monotone es kept _ driven).apart.length_mul_le le nonneg
  rw [← length_outageCallsIn] at load
  have fewer : (w.shared.requests.filter (· ∈ outageCallsIn a b w.shared.breaker.history)).length ≤
      (outageCallsIn a b w.shared.breaker.history).length := by
    refine (List.subperm_of_subset (linked.requested.once.filter _) fun c member => ?_).length_le
    simpa using (List.mem_filter.mp member).2
  have fewer : ((w.shared.requests.filter (· ∈ outageCallsIn a b w.shared.breaker.history)).length : ℚ) ≤
      (outageCallsIn a b w.shared.breaker.history).length := by exact_mod_cast fewer
  exact (mul_le_mul_of_nonneg_right fewer nonneg).trans load

/-- **Agreement.** What a ticket has done is, without the breaker, something `process_ticket`
can do, and what it was told of its attempts is what the breaker has recorded of its calls
in a run of its own. -/
theorem admissions_agree (enabled : settings.cbEnabled = true)
    (ran : exec (Pool.step (serve p clock elsewhere)) (start clock settings host slots tickets) schedule = some w) :
    (∃ es, exec (CircuitBreaker.step p clock) (init clock) es = some w.shared.breaker) ∧
      ∀ i,
        (∃ q, Leads (Pipeline.processTicket settings host (tickets i)) ((w.traces i).filterMap seen) q ∧
          (w.threads i).Refines seen q) ∧
        ∀ k, (⟨.admission k, true⟩ ∈ (w.traces i).filterMap seen ↔
            callId i k ∈ startedCalls w.shared.breaker.history) ∧
          (⟨.admission k, false⟩ ∈ (w.traces i).filterMap seen ↔
            callId i k ∈ rejectedCalls w.shared.breaker.history) := by
  have linked := linked_of_run enabled ran
  obtain ⟨es, driven, _⟩ := linked.driven
  exact ⟨⟨es, driven⟩, fun i => ⟨seen_leads enabled linked.faithful i,
    fun k => ⟨linked.told i k true, linked.told i k false⟩⟩⟩

/-! ## Progress -/

/-- It has returned or raised. -/
def Ended : GuardedCoroutine Dict → Prop
  | .ask _ _ => False
  | _ => True

/-- A ticket that cannot go on waits for `_probe_lock` or for a slot. -/
theorem blocked (linked : Linked settings host tickets slots p clock w)
    (answers : ∀ i trace op, (elsewhere i trace op).isSome) {i : Fin n}
    (stuck : Pool.step (serve p clock elsewhere) w i = none) {op : GuardedOp}
    {next : GuardedAnswer op → GuardedCoroutine Dict} (asks : w.threads i = .ask op next) :
    (∃ k, stageOf (w.traces i) = .queued k ∧
        CircuitBreaker.step p clock w.shared.breaker (.resume (callId i k)) = none) ∨
      (op = .ticket .acquire ∧ (∃ next, stageOf (w.traces i) = .outside next) ∧ w.shared.free = 0) := by
  have leads := linked.faithful i
  rw [asks] at leads
  have follows : ∀ answer, ∃ s', follow (stageOf (w.traces i)) ⟨op, answer⟩ = some s' :=
    fun answer => ⟨_, processTicket_follows.next leads answer⟩
  have own := (linked.placed.fits i).own
  rw [Pool.step, asks] at stuck
  have refused : serve p clock elsewhere i (w.traces i) w.shared op = none := Option.map_eq_none_iff.mp stuck
  generalize stageOf (w.traces i) = stage at follows own ⊢
  cases op with
  | enter k =>
      obtain ⟨s', followed⟩ := follows .runs
      cases stage with
      | queued _ | running _ _ => cases followed
      | outside next =>
          simp only [follow, Option.ite_none_right_eq_some] at followed
          obtain ⟨rfl, _⟩ := followed
          have idle : w.shared.breaker.calls (callId i k) = .idle := own
          simp [serve, tell, CircuitBreaker.step, idle] at refused
  | resume k =>
      obtain ⟨s', followed⟩ := follows true
      cases stage with
      | outside _ | running _ _ => cases followed
      | queued attempt =>
          simp only [follow, Option.ite_none_right_eq_some] at followed
          obtain ⟨rfl, _⟩ := followed
          exact .inl ⟨k, rfl, Option.map_eq_none_iff.mp refused⟩
  | leave k outcome =>
      obtain ⟨s', followed⟩ := follows ()
      cases stage with
      | outside _ | queued _ => cases followed
      | running attempt sent =>
          simp only [follow, Option.ite_none_right_eq_some] at followed
          obtain ⟨rfl, _⟩ := followed
          obtain ⟨mode, running⟩ : (w.shared.breaker.calls (callId i k)).Running := own
          cases outcome with
          | some outcome =>
              rw [serve, tell, step_finish running] at refused
              cases refused
          | none =>
              rw [serve, tell, CircuitBreaker.step, abandon, running] at refused
              cases mode <;> cases refused
  | ticket op =>
      obtain ⟨answer⟩ : Nonempty (TicketAnswer op) := inferInstance
      obtain ⟨s', followed⟩ := follows answer
      have given := answers i (w.traces i) op
      cases op with
      | acquire =>
          cases stage with
          | queued _ | running _ _ => cases followed
          | outside next =>
              refine .inr ⟨rfl, ⟨next, rfl⟩, ?_⟩
              by_contra some_
              rw [serve, if_neg some_] at refused
              cases refused
      | release => cases refused
      | _ =>
          rw [Option.isSome_iff_exists] at given
          obtain ⟨_, given⟩ := given
          simp only [serve, given, Option.map_some] at refused
          cases refused

/-- A ticket in the breaker has not ended. -/
theorem asks_of_stage (linked : Linked settings host tickets slots p clock w) {i : Fin n}
    (inside : ∀ next, stageOf (w.traces i) ≠ .outside next) : ∃ op next, w.threads i = .ask op next := by
  obtain ⟨_, safe⟩ := processTicket_follows.now (linked.faithful i)
  cases pending : w.threads i with
  | ask op next => exact ⟨op, next, rfl⟩
  | done value | raise error =>
      rw [pending] at safe
      obtain ⟨next, outside⟩ := safe
      exact absurd outside (inside next)

/-- Where nothing can go on, nobody holds the lock. -/
theorem lock_free (linked : Linked settings host tickets slots p clock w)
    (answers : ∀ i trace op, (elsewhere i trace op).isSome)
    (stuck : ∀ i, Pool.step (serve p clock elsewhere) w i = none) : w.shared.breaker.lock = none := by
  cases held : w.shared.breaker.lock with
  | none => rfl
  | some c =>
      obtain ⟨mode, _, running⟩ := linked.sound.locked.held c held
      obtain ⟨i, k, rfl⟩ := linked.placed.known c (by simp [running])
      obtain ⟨sent, stage⟩ := (linked.placed.fits i).running running
      obtain ⟨op, next, asks⟩ := asks_of_stage linked (i := i) (by simp [stage])
      rcases blocked linked answers (stuck i) asks with ⟨_, queued, _⟩ | ⟨_, ⟨_, outside⟩, _⟩
      · cases stage.symm.trans queued
      · cases stage.symm.trans outside

/-- And nobody waits for it. -/
theorem unqueued (linked : Linked settings host tickets slots p clock w)
    (answers : ∀ i trace op, (elsewhere i trace op).isSome)
    (stuck : ∀ i, Pool.step (serve p clock elsewhere) w i = none) (c : ℕ) : w.shared.breaker.calls c ≠ .waiting := by
  intro waiting
  obtain ⟨first, waits, enabled⟩ := linked.sound.resumes (lock_free linked answers stuck) waiting
  obtain ⟨i, k, rfl⟩ := linked.placed.known first (by simp [waits])
  have stage := (linked.placed.fits i).queued waits
  obtain ⟨op, next, asks⟩ := asks_of_stage linked (i := i) (by simp [stage])
  rcases blocked linked answers (stuck i) asks with ⟨l, queued, refused⟩ | ⟨_, ⟨_, outside⟩, _⟩
  · cases stage.symm.trans queued
    rw [refused] at enabled
    cases enabled
  · cases stage.symm.trans outside

/-- Who holds a slot does not ask for one. -/
theorem idle_of_acquire (linked : Linked settings host tickets slots p clock w) (enabled : settings.cbEnabled = true)
    {i : Fin n} (waits : ∀ op next, w.threads i = .ask op next → op = .ticket .acquire) :
    slotsOf ((w.traces i).filterMap seen) = 0 := by
  obtain ⟨q, leads, refines⟩ := seen_leads enabled linked.faithful i
  have safe := (Semaphore.processTicket_safe.now leads).2
  rw [slotsOf, Semaphore.holding]
  generalize Monitor.after keeper false ((w.traces i).filterMap seen) = holding at safe
  cases pending : w.threads i with
  | done value | raise error =>
      rw [pending] at refines
      cases refines
      exact congrArg Bool.toNat safe
  | ask op next =>
      have acquires := waits op next pending
      subst acquires
      rw [pending] at refines
      have looked : seen ⟨.ticket .acquire, ()⟩ = some ⟨.acquire, ()⟩ := rfl
      obtain ⟨next', rfl, _⟩ := refines.seen looked
      obtain ⟨_, followed, _⟩ := safe () trivial
      cases holding with
      | false => rfl
      | true => cases followed

/-- **Progress.** Every run is finite; and when nothing can go on, although everything but the
semaphore and the breaker answers, every ticket has ended, every slot is free, and nobody
holds `_probe_lock` or waits for it. -/
theorem all_end (enabled : settings.cbEnabled = true) (some_slot : 0 < slots)
    (answers : ∀ i trace op, (elsewhere i trace op).isSome)
    (ran : exec (Pool.step (serve p clock elsewhere)) (start clock settings host slots tickets) schedule = some w) :
    schedule.length ≤ n * (settings.maxRetries * 9 + 4) ∧
      ((∀ i, Pool.step (serve p clock elsewhere) w i = none) →
        (∀ i, Ended (w.threads i)) ∧ w.shared.free = slots ∧ w.shared.breaker.lock = none ∧
          w.shared.breaker.waiters = []) := by
  have linked := linked_of_run enabled ran
  refine ⟨?_, fun stuck => ?_⟩
  · have short := Pool.exec_length_le (fun i => processTicket_within) ran
    rwa [Fintype.card_fin] at short
  · have waits : ∀ i op next, w.threads i = .ask op next → op = .ticket .acquire ∧ w.shared.free = 0 := by
      intro i op next asks
      rcases blocked linked answers (stuck i) asks with ⟨k, queued, _⟩ | ⟨acquires, _, none_free⟩
      · have own := (linked.placed.fits i).own
        rw [queued] at own
        exact absurd own (unqueued linked answers stuck _)
      · exact ⟨acquires, none_free⟩
    have full : w.shared.free = slots := by
      have slotted := linked.slotted
      have idle : ∀ i, slotsOf ((w.traces i).filterMap seen) = 0 := fun i =>
        idle_of_acquire linked enabled fun op next asks => (waits i op next asks).1
      simpa [Slotted, idle] using slotted
    refine ⟨fun i => ?_, full, lock_free linked answers stuck, ?_⟩
    · cases pending : w.threads i with
      | done value | raise error => trivial
      | ask op next =>
          have := (waits i op next pending).2
          omega
    · refine List.eq_nil_iff_forall_not_mem.mpr fun c member => ?_
      exact unqueued linked answers stuck c (linked.sound.locked.queued c member)

end Runs

/-! ## Poles -/

section Poles

/-- A cache without entries, and an upstream that is down. -/
def downElsewhere : Elsewhere 2 := fun _ _ op =>
  match op with
  | .cacheGet _ => some (.ok none)
  | .cacheSet _ _ | .sleep _ => some (.ok ())
  | .acquire | .release | .throttle _ | .count _ _ | .countStatus _ => some ()
  | .admission _ => some true
  | .post _ _ => some (.ok { statusCode := 500, retryAfter := none, json := .ok .null })
  | .uniform _ => some 0

theorem downElsewhere_answers (i : Fin 2) (trace : GuardedTrace) (op : TicketOp) :
    (downElsewhere i trace op).isSome := by
  cases op <;> rfl

/-- A failure opens the breaker, which tries again after 30 seconds. -/
def oneFailure : Params := ⟨1, 20, 30⟩

def twoTickets : Tickets 2 := start lateClock .defaults Semaphore.anyHost 2 fun _ => "help"

/-- Both tickets fail; the first is the probe then, behind which the second queues; the
probe fails, and both are rejected. -/
def outageSchedule : List (Fin 2) :=
  [0, 0, 1, 1, 0, 1, 0, 1, 0, 1, 0, 0, 0, 0, 1, 1, 1, 1, 0, 0, 1, 1, 0, 0, 0, 0, 0]

/-- It is not the end of a cancelled call. -/
def uncancelled (asked : Asked GuardedOp GuardedAnswer) : Bool :=
  match asked.1 with
  | .leave _ none => false
  | _ => true

/-- Nobody can go on, and nobody was cancelled in the breaker. -/
def stuckUncancelled (w : Tickets 2) : Bool :=
  (List.finRange 2).all fun i =>
    (Pool.step (serve oneFailure lateClock downElsewhere) w i).isNone && (w.traces i).all uncancelled

theorem outageSchedule_runs :
    ∃ w, exec (Pool.step (serve oneFailure lateClock downElsewhere)) twoTickets outageSchedule = some w ∧
      w.shared.requests = [callId (0 : Fin 2) 2, callId (1 : Fin 2) 1, callId (0 : Fin 2) 1] ∧
      outageCallsIn 0 30 w.shared.breaker.history = [callId (0 : Fin 2) 2] ∧
      callId (1 : Fin 2) 2 ∈ rejectedCalls w.shared.breaker.history ∧
      (∀ i, Pool.step (serve oneFailure lateClock downElsewhere) w i = none) ∧
      ∀ i k, ⟨.leave k none, ()⟩ ∉ w.traces i := by
  have looked : (exec (Pool.step (serve oneFailure lateClock downElsewhere)) twoTickets outageSchedule).map
      (fun w => (w.shared.requests, outageCallsIn 0 30 w.shared.breaker.history,
        decide (callId (1 : Fin 2) 2 ∈ rejectedCalls w.shared.breaker.history), stuckUncancelled w)) =
      some ([callId (0 : Fin 2) 2, callId (1 : Fin 2) 1, callId (0 : Fin 2) 1], [callId (0 : Fin 2) 2], true, true) := by decide +kernel
  obtain ⟨w, ran, seen⟩ := Option.map_eq_some_iff.mp looked
  simp only [Prod.mk.injEq, decide_eq_true_eq] at seen
  obtain ⟨requests, outage, rejected, rest⟩ := seen
  have each : ∀ i, (Pool.step (serve oneFailure lateClock downElsewhere) w i).isNone = true ∧
      (w.traces i).all uncancelled = true := fun i =>
    Bool.and_eq_true_iff.mp (List.all_eq_true.mp rest i (List.mem_finRange i))
  refine ⟨w, ran, requests, outage, rejected, fun i => Option.isNone_iff_eq_none.mp (each i).1, fun i k left => ?_⟩
  have impossible := List.all_eq_true.mp (each i).2 _ left
  cases impossible

/-- Of three requests, one was sent in the outage. -/
theorem outage_requests_outage :
    ∃ w, exec (Pool.step (serve oneFailure lateClock downElsewhere)) twoTickets outageSchedule = some w ∧
      w.shared.requests.length = 3 ∧
      ((w.shared.requests.filter (· ∈ outageCallsIn 0 30 w.shared.breaker.history)).length : ℚ) * 30 ≤ 30 - 0 + 30 := by
  obtain ⟨w, ran, requests, _, _, _, uncancelled⟩ := outageSchedule_runs
  refine ⟨w, ran, by rw [requests]; rfl, ?_⟩
  exact (outage_requests rfl lateClock_monotone (by decide) ran uncancelled).2 0 30 (by decide)

/-- The second ticket was told that it is rejected. -/
theorem admissions_agree_outage :
    ∃ w, exec (Pool.step (serve oneFailure lateClock downElsewhere)) twoTickets outageSchedule = some w ∧
      ⟨.admission 2, false⟩ ∈ (w.traces 1).filterMap seen := by
  obtain ⟨w, ran, _, _, rejected, _⟩ := outageSchedule_runs
  exact ⟨w, ran, (((admissions_agree rfl ran).2 1).2 2).2.mpr rejected⟩

/-- Both tickets have ended. -/
theorem all_end_outage :
    ∃ w, exec (Pool.step (serve oneFailure lateClock downElsewhere)) twoTickets outageSchedule = some w ∧
      (∀ i, Ended (w.threads i)) ∧ w.shared.free = 2 ∧ w.shared.breaker.lock = none := by
  obtain ⟨w, ran, _, _, _, stuck, _⟩ := outageSchedule_runs
  obtain ⟨ended, full, unlocked, _⟩ := (all_end rfl (by decide) downElsewhere_answers ran).2 stuck
  exact ⟨w, ran, ended, full, unlocked⟩

end Poles

end InferenceForge.Pipeline.Composed
