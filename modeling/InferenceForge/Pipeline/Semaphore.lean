/-
# InferenceForge.Pipeline.Semaphore — the slots of the upstream

`process_ticket` makes its upstream call inside `async with self._semaphore`, one
`asyncio.Semaphore` that all jobs share. The `keeper` follows a ticket and knows
whether it holds a slot; `processTicket_safe` says that a ticket never takes a second
slot, never gives one back that it does not hold, does everything of
`_call_with_retry` with a slot and everything of the cache without, and has none
when it ends, however it ends.

For any number of tickets that share `slots` slots, in any order of steps, the free
slots and the held ones are then `slots` together (`Slotted`). So there are never more
upstream calls at a time than slots (`concurrency_bounded`), and a state in which
nothing can go on is one in which every ticket has ended and every slot is free
(`no_deadlock`).
-/
import InferenceForge.Library.Monitor
import InferenceForge.Pipeline.TicketRuns
import Mathlib.Algebra.BigOperators.Group.Finset.Piecewise

namespace InferenceForge.Pipeline.Semaphore

open InferenceForge.Python InferenceForge.Library

set_option autoImplicit false

/-! ## A ticket under the keeper -/

/-- Whether the ticket holds a slot after an operation. -/
def keeper : Monitor TicketOp TicketAnswer Bool := fun holding asked =>
  match asked.1 with
  | .acquire => if holding then none else some true
  | .release => if holding then some false else none
  | .cacheGet _ | .cacheSet _ _ => if holding then none else some false
  | _ => if holding then some true else none

theorem keeper_inCall {op : TicketOp} (answer : TicketAnswer op) (inside : InCall op) :
    keeper true ⟨op, answer⟩ = some true := by
  cases op <;> first | exact inside.elim | rfl

section Ticket

variable {settings : Settings} {host : Host} {ticket : String} {allowed : Asked TicketOp TicketAnswer → Prop}

/-- A ticket that has ended holds no slot. -/
def Returned (_ : Except Exn Dict) (holding : Bool) : Prop := holding = false

theorem callWithRetry_keeps :
    (callWithRetry settings host ticket).Safe keeper allowed (fun _ holding => holding = true) true :=
  safe_of_asks (callWithRetry_asks settings host ticket) fun _ answer inside _ => keeper_inCall answer inside

theorem processTicket_safe : (processTicket settings host ticket).Safe keeper allowed Returned false := by
  unfold processTicket
  refine safe_bind (Q := fun _ holding => holding = false) (safe_call fun answer _ => ⟨false, rfl, rfl⟩) ?_
    fun _ _ ended => ended
  rintro cached _ rfl
  cases cached with
  | some cached => exact safe_pure rfl
  | none =>
      refine safe_bind (Q := fun ended holding => ended = .ok () ∧ holding = true)
        (safe_perform fun answer _ => ⟨true, rfl, rfl, rfl⟩) ?_ ?_
      · rintro _ _ ⟨_, rfl⟩
        refine safe_bind (Q := Returned) ?_ ?_ fun _ _ ended => ended
        · refine safe_tryFinally callWithRetry_keeps ?_
          rintro result _ rfl
          -- the slot is given back whether the call has returned or raised
          exact safe_perform fun answer _ => ⟨false, rfl, rfl⟩
        · rintro record _ rfl
          refine safe_bind (Q := fun _ holding => holding = false) ?_ (fun _ _ ended => ended)
            fun _ _ ended => ended
          exact safe_when (safe_call fun answer _ => ⟨false, rfl, rfl⟩) rfl
      · rintro e _ ⟨impossible, _⟩
        cases impossible

end Ticket

/-! ## Any number of tickets -/

section System

variable {ι : Type}

/-- The tickets of all jobs, and the free slots. -/
abbrev Calls (ι : Type) := Pool TicketOp TicketAnswer Exn Dict ι ℕ

/-- What ticket `i`, which was answered so far as the trace says, is answered next by all
that is not the semaphore; `none` while it has to wait. -/
abbrev Outside (ι : Type) := ι → TicketTrace → (op : TicketOp) → Option (TicketAnswer op)

/-- `asyncio.Semaphore`: who asks for a slot waits while there is none. -/
def serve (outside : Outside ι) : Serve TicketOp TicketAnswer ι ℕ := fun i trace free op =>
  match op with
  | .acquire => if free = 0 then none else some ((), free - 1)
  | .release => some ((), free + 1)
  | op => (outside i trace op).map (·, free)

/-- It is in its upstream call. -/
def Calling : Coroutine Dict → Prop
  | .ask op _ => InCall op
  | _ => False

/-- It has returned or raised. -/
def Ended : Coroutine Dict → Prop
  | .ask _ _ => False
  | _ => True

instance (op : TicketOp) : Decidable (InCall op) :=
  match op with
  | .cacheGet _ | .cacheSet _ _ | .acquire | .release => isFalse id
  | .admission _ | .throttle _ | .post _ _ | .count _ _ | .countStatus _ | .uniform _ | .sleep _ => isTrue trivial

instance : DecidablePred Calling
  | .ask op _ => inferInstanceAs (Decidable (InCall op))
  | .done _ | .raise _ => isFalse id

/-- Whether a ticket that has done what the trace says holds a slot. -/
def holding (trace : TicketTrace) : Bool := Monitor.after keeper false trace

/-- One slot for each ticket that holds one. -/
def slotsOf (trace : TicketTrace) : ℕ := (holding trace).toNat

variable [Fintype ι] [DecidableEq ι] {settings : Settings} {host : Host} {tickets : ι → String}
  {outside : Outside ι} {slots : ℕ} {w w' : Calls ι} {i : ι}

/-- The start of all calls, with every slot free. -/
def start (settings : Settings) (host : Host) (slots : ℕ) (tickets : ι → String) : Calls ι :=
  Pool.init slots fun i => processTicket settings host (tickets i)

/-- The slots are free or held. -/
def Slotted (slots : ℕ) (w : Calls ι) : Prop := w.shared + ∑ i, slotsOf (w.traces i) = slots

omit [Fintype ι] [DecidableEq ι] in
/-- What the keeper knows of a ticket. -/
theorem kept (faithful : Pool.Faithful (fun i => processTicket settings host (tickets i)) w) (i : ι) :
    (w.threads i).Safe keeper (fun _ => True) Returned (holding (w.traces i)) :=
  (processTicket_safe.now (faithful i)).2

omit [Fintype ι] [DecidableEq ι] in
/-- What the keeper knows after one more operation. -/
theorem holding_concat (faithful : Pool.Faithful (fun i => processTicket settings host (tickets i)) w)
    {op : TicketOp} {next : TicketAnswer op → Coroutine Dict} (asks : w.threads i = .ask op next)
    (answer : TicketAnswer op) :
    keeper (holding (w.traces i)) ⟨op, answer⟩ = some (holding (w.traces i ++ [⟨op, answer⟩])) := by
  have leads := faithful i
  rw [asks] at leads
  exact processTicket_safe.next leads answer

omit [Fintype ι] [DecidableEq ι] in
/-- A slot that is taken was free, and one that is given back was held. -/
theorem serve_slots {trace : TicketTrace} {free free' : ℕ} {op : TicketOp} {answer : TicketAnswer op}
    {before after : Bool} (served : serve outside i trace free op = some (answer, free'))
    (stepped : keeper before ⟨op, answer⟩ = some after) : free' + after.toNat = free + before.toNat := by
  cases op with
  | acquire =>
      cases before <;> cases stepped
      simp only [serve] at served
      split at served
      · cases served
      · cases served
        simp only [Bool.toNat_true, Bool.toNat_false]
        omega
  | release =>
      cases before <;> cases stepped
      cases served
      rfl
  | cacheGet key | cacheSet key value =>
      cases before <;> cases stepped
      obtain ⟨_, _, same⟩ := Option.map_eq_some_iff.mp served
      cases same
      rfl
  | admission attempt | throttle attempt | post ticket attempt | count status tokens | countStatus status
  | uniform attempt | sleep wait =>
      cases before <;> cases stepped
      obtain ⟨_, _, same⟩ := Option.map_eq_some_iff.mp served
      cases same
      rfl

omit [DecidableEq ι] in
theorem slotted_init (start : ι → Coroutine Dict) : Slotted slots (Pool.init slots start) := by
  simp [Slotted, Pool.init, slotsOf, holding, Monitor.after]

/-- **One step** keeps the slots together. -/
theorem Slotted.step (slotted : Slotted slots w)
    (faithful : Pool.Faithful (fun i => processTicket settings host (tickets i)) w)
    (stepped : Pool.step (serve outside) w i = some w') : Slotted slots w' := by
  obtain ⟨op, next, answer, free, asks, served, rfl⟩ := Pool.step_cases stepped
  have moved := serve_slots served (holding_concat faithful asks answer)
  rw [Slotted, ← Finset.add_sum_erase _ _ (Finset.mem_univ i)] at slotted
  rw [Slotted, Pool.served_shared, Pool.sum_served fun trace _ => slotsOf trace, slotsOf]
  rw [slotsOf] at slotted
  omega

/-- Every reachable state. -/
theorem reached {schedule : List ι}
    (ran : exec (Pool.step (serve outside)) (start settings host slots tickets) schedule = some w) :
    Pool.Faithful (fun i => processTicket settings host (tickets i)) w ∧ Slotted slots w := by
  have keeps : ∀ (v : Calls ι) (i : ι) (v' : Calls ι),
      Pool.Faithful (fun i => processTicket settings host (tickets i)) v ∧ Slotted slots v →
      Pool.step (serve outside) v i = some v' →
      Pool.Faithful (fun i => processTicket settings host (tickets i)) v' ∧ Slotted slots v' := by
    rintro v i v' ⟨faithful, slotted⟩ stepped
    exact ⟨faithful.step stepped, slotted.step faithful stepped⟩
  exact exec_invariant keeps schedule _ _ ⟨Pool.faithful_init _ _, slotted_init _⟩ ran

omit [Fintype ι] [DecidableEq ι] in
/-- In its upstream call, a ticket holds a slot. -/
theorem holding_of_calling (faithful : Pool.Faithful (fun i => processTicket settings host (tickets i)) w)
    (calling : Calling (w.threads i)) : holding (w.traces i) = true := by
  cases pending : w.threads i with
  | done value | raise e =>
      rw [pending] at calling
      exact calling.elim
  | ask op next =>
      rw [pending] at calling
      obtain ⟨answer⟩ : Nonempty (TicketAnswer op) := inferInstance
      have stepped := holding_concat faithful pending answer
      cases holds : holding (w.traces i) with
      | true => rfl
      | false =>
          rw [holds] at stepped
          cases op <;> first | exact calling.elim | cases stepped

/-- **The limit on concurrent calls**: in every reachable state there are no more tickets
in their upstream call than slots, less the free ones. -/
theorem concurrency_bounded {schedule : List ι}
    (ran : exec (Pool.step (serve outside)) (start settings host slots tickets) schedule = some w) :
    (Finset.univ.filter fun i => Calling (w.threads i)).card + w.shared ≤ slots := by
  obtain ⟨faithful, slotted⟩ := reached ran
  have held : (Finset.univ.filter fun i => Calling (w.threads i)).card ≤ ∑ i, slotsOf (w.traces i) := by
    rw [Finset.card_filter]
    refine Finset.sum_le_sum fun i _ => ?_
    split
    · next calling => rw [slotsOf, holding_of_calling faithful calling, Bool.toNat_true]
    · exact Nat.zero_le _
  rw [Slotted] at slotted
  omega

/-- **No deadlock, and no slot is lost**: a state in which nothing can go on, although
everything but the semaphore answers, is one in which every ticket has ended and every
slot is free. -/
theorem no_deadlock {schedule : List ι}
    (ran : exec (Pool.step (serve outside)) (start settings host slots tickets) schedule = some w)
    (some_slot : 0 < slots) (answers : ∀ i trace op, (outside i trace op).isSome)
    (stuck : ∀ i, Pool.step (serve outside) w i = none) :
    (∀ i, Ended (w.threads i)) ∧ w.shared = slots := by
  obtain ⟨faithful, slotted⟩ := reached ran
  rw [Slotted] at slotted
  -- who has not ended waits for a slot
  have waits : ∀ i op next, w.threads i = .ask op next → op = .acquire ∧ w.shared = 0 := by
    intro i op next pending
    have refused := stuck i
    rw [Pool.step, pending] at refused
    have refused := Option.map_eq_none_iff.mp refused
    have given := answers i (w.traces i) op
    cases op with
    | acquire =>
        refine ⟨rfl, ?_⟩
        by_contra free
        simp [serve, free] at refused
    | release => cases refused
    | _ => simp_all [serve]
  have idle : ∀ i, holding (w.traces i) = false := by
    intro i
    by_contra holds
    have holds := Bool.eq_true_of_not_eq_false holds
    have safe := kept faithful i
    rw [holds] at safe
    cases pending : w.threads i with
    | done value | raise e =>
        rw [pending] at safe
        cases safe
    | ask op next =>
        obtain ⟨rfl, _⟩ := waits i op next pending
        rw [pending] at safe
        obtain ⟨_, impossible, _⟩ := safe () trivial
        cases impossible
  have full : w.shared = slots := by
    simpa [slotsOf, idle] using slotted
  refine ⟨fun i => ?_, full⟩
  cases pending : w.threads i with
  | done value | raise e => trivial
  | ask op next =>
      have := (waits i op next pending).2
      omega

end System

/-! ## Poles -/

section Poles

/-- A cache without entries, and an upstream that classifies nothing. -/
def plainOutside : Outside Bool := fun _ _ op =>
  match op with
  | .cacheGet _ => some (.ok none)
  | .cacheSet _ _ | .sleep _ => some (.ok ())
  | .acquire | .release | .throttle _ | .count _ _ | .countStatus _ => some ()
  | .admission _ => some true
  | .post _ _ => some (.ok { statusCode := 401, retryAfter := none, json := .ok .null })
  | .uniform _ => some 0

/-- A host whose functions are never looked at. -/
def anyHost : Host where
  lower := id
  repr := id
  sha256 := id
  loads _ := .ok .null

/-- Two tickets, one slot. -/
def twoTickets : Calls Bool :=
  start { Settings.defaults with cbEnabled := false } anyHost 1 fun second => if second then "late" else "help"

/-- The first ticket is in its upstream call, and the second waits. -/
theorem concurrency_bounded_two :
    ∃ w, exec (Pool.step (serve plainOutside)) twoTickets [false, false, true] = some w ∧
      Calling (w.threads false) ∧ Pool.step (serve plainOutside) w true = none ∧
      (Finset.univ.filter fun i => Calling (w.threads i)).card + w.shared ≤ 1 := by
  have ran : exec (Pool.step (serve plainOutside)) twoTickets [false, false, true] = some _ := rfl
  exact ⟨_, ran, trivial, rfl, concurrency_bounded ran⟩

/-- Both tickets have ended, the second after the first. -/
theorem no_deadlock_two :
    ∃ w, exec (Pool.step (serve plainOutside)) twoTickets
        [false, false, true, false, false, false, true, true, true, true] = some w ∧
      (∀ i, Ended (w.threads i)) ∧ w.shared = 1 := by
  have ran : exec (Pool.step (serve plainOutside)) twoTickets
      [false, false, true, false, false, false, true, true, true, true] = some _ := rfl
  refine ⟨_, ran, no_deadlock ran one_pos ?_ ?_⟩
  · intro i trace op
    cases op <;> rfl
  · intro i
    cases i <;> rfl

end Poles

end InferenceForge.Pipeline.Semaphore
