/-
# InferenceForge.Pipeline.SharedUpstream — the tickets, the semaphore and the breaker

All tickets of the process share one `asyncio.Semaphore` and one `CircuitBreaker`. Here
any number of them run together (`Composed.processTicket`), in any order of steps: a
slot is taken when one is free, and the calls of the tickets are events of the breaker's
own step function, each under a number of its own (`callId`).

`Linked` ties the three together: a ticket is in the breaker where its own account says
(`Stage.Fits`), the slots are free or held, and the record of the breaker says of each
call what the ticket was answered.
-/
import InferenceForge.Pipeline.BreakerCalls
import InferenceForge.Pipeline.GuardedCalls
import InferenceForge.Pipeline.Semaphore
import Mathlib.Data.Nat.Pairing

namespace InferenceForge.Pipeline.Composed

open InferenceForge.Python InferenceForge.Library
open InferenceForge.Pipeline.CircuitBreaker
open InferenceForge.Pipeline.Semaphore (keeper slotsOf)

set_option autoImplicit false

/-! ## The system -/

structure Shared where
  /-- The free slots of the semaphore. -/
  free : ℕ
  breaker : Config
  /-- The calls in which a request was sent, newest first. -/
  requests : List ℕ

abbrev GuardedTrace := List (Asked GuardedOp GuardedAnswer)

/-- The tickets of all jobs. -/
abbrev Tickets (n : ℕ) := Pool GuardedOp GuardedAnswer Exn Dict (Fin n) Shared

/-- What a ticket is answered by all that is neither semaphore nor breaker. -/
abbrev Elsewhere (n : ℕ) := Fin n → GuardedTrace → (op : TicketOp) → Option (TicketAnswer op)

/-- The number under which the breaker knows an attempt of a ticket. -/
def callId {n : ℕ} (i : Fin n) (attempt : ℕ) : ℕ := Nat.pair i attempt

def decisionOf : Phase → Admission
  | .running _ => .runs
  | .waiting => .queued
  | _ => .rejected

def eventOf {n : ℕ} (i : Fin n) : GuardedOp → Option Event
  | .ticket _ => none
  | .enter attempt => some (.call (callId i attempt))
  | .resume attempt => some (.resume (callId i attempt))
  | .leave attempt (some outcome) => some (.finish (callId i attempt) outcome)
  | .leave attempt none => some (.cancel (callId i attempt))

section System

variable {n : ℕ} (p : Params) (clock : ℕ → ℚ) (elsewhere : Elsewhere n)

/-- An event of the breaker, of which the ticket learns `read`. -/
def tell {α : Type} (s : Shared) (e : Event) (read : Config → α) : Option (α × Shared) :=
  (CircuitBreaker.step p clock s.breaker e).map fun breaker => (read breaker, { s with breaker })

def serve : Serve GuardedOp GuardedAnswer (Fin n) Shared := fun i trace s op =>
  match op with
  | .enter attempt =>
      tell p clock s (.call (callId i attempt)) fun breaker => decisionOf (breaker.calls (callId i attempt))
  | .resume attempt =>
      tell p clock s (.resume (callId i attempt)) fun breaker =>
        decide (decisionOf (breaker.calls (callId i attempt)) = .runs)
  | .leave attempt (some outcome) => tell p clock s (.finish (callId i attempt) outcome) fun _ => ()
  | .leave attempt none => tell p clock s (.cancel (callId i attempt)) fun _ => ()
  | .ticket .acquire => if s.free = 0 then none else some ((), { s with free := s.free - 1 })
  | .ticket .release => some ((), { s with free := s.free + 1 })
  | .ticket (.post ticket attempt) =>
      (elsewhere i trace (.post ticket attempt)).map fun answer =>
        (answer, { s with requests := callId i attempt :: s.requests })
  | .ticket op => (elsewhere i trace op).map (·, s)

/-- The start of all tickets: every slot is free, and the breaker is new. -/
def start (settings : Settings) (host : Host) (slots : ℕ) (tickets : Fin n → String) : Tickets n :=
  Pool.init ⟨slots, init clock, []⟩ fun i => processTicket settings host (tickets i)

end System

/-! ## One step of a ticket -/

/-- Where a ticket is that has done what the trace says. -/
def stageOf (trace : GuardedTrace) : Stage := Monitor.after follow (.outside 1) trace

/-- It comes to the attempt, or waits in it to be let through. -/
def Stage.Awaits (s : Stage) (attempt : ℕ) : Prop := s = .outside attempt ∨ s = .queued attempt

/-- What a step of a ticket does to where it is, to the breaker and to the requests. -/
inductive Effect {n : ℕ} (i : Fin n) (s : Stage) (sh : Shared) (asked : Asked GuardedOp GuardedAnswer) :
    Stage → Shared → Prop
  | runs {attempt : ℕ} {breaker : Config} (awaits : s.Awaits attempt) (mode : Mode)
      (calls : breaker.calls = Function.update sh.breaker.calls (callId i attempt) (.running mode))
      (started : startedCalls breaker.history = callId i attempt :: startedCalls sh.breaker.history)
      (rejected : rejectedCalls breaker.history = rejectedCalls sh.breaker.history)
      (looked : seen asked = some ⟨.admission attempt, true⟩) :
      Effect i s sh asked (.running attempt false) { sh with breaker }
  | rejected {attempt : ℕ} {breaker : Config} (awaits : s.Awaits attempt)
      (calls : breaker.calls = Function.update sh.breaker.calls (callId i attempt) .finished)
      (started : startedCalls breaker.history = startedCalls sh.breaker.history)
      (rejected : rejectedCalls breaker.history = callId i attempt :: rejectedCalls sh.breaker.history)
      (looked : seen asked = some ⟨.admission attempt, false⟩) :
      Effect i s sh asked (.outside (attempt + 1)) { sh with breaker }
  | queues {attempt : ℕ} {breaker : Config} (outside : s = .outside attempt)
      (calls : breaker.calls = Function.update sh.breaker.calls (callId i attempt) .waiting)
      (alike : Alike sh.breaker.history breaker.history) (looked : seen asked = none) :
      Effect i s sh asked (.queued attempt) { sh with breaker }
  | leaves {attempt : ℕ} {breaker : Config} {sent : Bool} (running : s = .running attempt sent)
      (calls : breaker.calls = Function.update sh.breaker.calls (callId i attempt) .finished)
      (alike : Alike sh.breaker.history breaker.history) (looked : seen asked = none) :
      Effect i s sh asked (.outside (attempt + 1)) { sh with breaker }
  | posts {attempt : ℕ} (running : s = .running attempt false) {ticket : String}
      {answer : TicketAnswer (.post ticket attempt)} (looked : seen asked = some ⟨.post ticket attempt, answer⟩) :
      Effect i s sh asked (.running attempt true) { sh with requests := callId i attempt :: sh.requests }
  | passes (free : ℕ) {op : TicketOp} {answer : TicketAnswer op} (aside : Aside op)
      (looked : asked = ⟨.ticket op, answer⟩) : Effect i s sh asked s { sh with free }

section Step

variable {n : ℕ} {p : Params} {clock : ℕ → ℚ} {elsewhere : Elsewhere n} {i : Fin n} {s s' : Stage} {sh sh' : Shared}

theorem tell_eq_some {α : Type} {e : Event} {read : Config → α} {answer : α}
    (told : tell p clock sh e read = some (answer, sh')) :
    ∃ breaker, CircuitBreaker.step p clock sh.breaker e = some breaker ∧ answer = read breaker ∧
      sh' = { sh with breaker } := by
  obtain ⟨breaker, stepped, eq⟩ := Option.map_eq_some_iff.mp told
  cases eq
  exact ⟨breaker, stepped, rfl, rfl⟩

/-- What the ticket is told when the breaker has decided. -/
theorem effect_of_decided {attempt : ℕ} {breaker : Config} (awaits : s.Awaits attempt)
    (decided : Decided (callId i attempt) sh.breaker breaker) :
    (breaker.calls (callId i attempt) = .waiting ∧
        (s = .outside attempt → ∀ asked, seen asked = none →
          Effect i s sh asked (.queued attempt) { sh with breaker })) ∨
      (decisionOf (breaker.calls (callId i attempt)) = .runs ∧
        ∀ asked, seen asked = some ⟨.admission attempt, true⟩ →
          Effect i s sh asked (.running attempt false) { sh with breaker }) ∨
      (decisionOf (breaker.calls (callId i attempt)) = .rejected ∧
        ∀ asked, seen asked = some ⟨.admission attempt, false⟩ →
          Effect i s sh asked (.outside (attempt + 1)) { sh with breaker }) := by
  cases decided with
  | runs mode calls started rejected =>
      refine .inr (.inl ⟨?_, fun _ looked => .runs awaits mode calls started rejected looked⟩)
      rw [calls, Function.update_self]
      rfl
  | queued calls alike =>
      refine .inl ⟨?_, fun outside _ looked => .queues outside calls alike looked⟩
      rw [calls, Function.update_self]
  | rejected calls started rejected =>
      refine .inr (.inr ⟨?_, fun _ looked => .rejected awaits calls started rejected looked⟩)
      rw [calls, Function.update_self]
      rfl

/-- **What one step does**, for a ticket that follows its account. -/
theorem effect_of_step {trace : GuardedTrace} {op : GuardedOp} {answer : GuardedAnswer op}
    (followed : follow s ⟨op, answer⟩ = some s') (served : serve p clock elsewhere i trace sh op = some (answer, sh')) :
    Effect i s sh ⟨op, answer⟩ s' sh' := by
  cases op with
  | enter attempt =>
      cases s with
      | queued _ | running _ _ => cases followed
      | outside next =>
          simp only [follow, Option.ite_none_right_eq_some] at followed
          obtain ⟨rfl, followed⟩ := followed
          obtain ⟨breaker, stepped, rfl, rfl⟩ := tell_eq_some served
          rcases effect_of_decided (.inl rfl) (step_call_decided stepped) with
            ⟨waiting, effect⟩ | ⟨runs, effect⟩ | ⟨refused, effect⟩
          · rw [waiting] at followed ⊢
            cases followed
            exact effect rfl _ rfl
          · rw [runs] at followed ⊢
            cases followed
            exact effect _ rfl
          · rw [refused] at followed ⊢
            cases followed
            exact effect _ rfl
  | resume k =>
      cases s with
      | outside _ | running _ _ => cases followed
      | queued attempt =>
          simp only [follow, Option.ite_none_right_eq_some] at followed
          obtain ⟨rfl, followed⟩ := followed
          obtain ⟨breaker, stepped, rfl, rfl⟩ := tell_eq_some served
          rcases effect_of_decided (.inr rfl) (step_resume_decided stepped) with
            ⟨waiting, _⟩ | ⟨runs, effect⟩ | ⟨refused, effect⟩
          · exact absurd waiting (step_resume_waiting stepped)
          · rw [runs] at followed ⊢
            cases followed
            exact effect _ rfl
          · rw [refused] at followed ⊢
            cases followed
            exact effect _ rfl
  | leave k outcome =>
      cases s with
      | outside _ | queued _ => cases followed
      | running attempt sent =>
          simp only [follow, Option.ite_none_right_eq_some] at followed
          obtain ⟨rfl, followed⟩ := followed
          cases followed
          cases outcome with
          | some outcome =>
              obtain ⟨breaker, stepped, _, rfl⟩ := tell_eq_some served
              obtain ⟨calls, alike⟩ := step_finish_told stepped
              exact .leaves rfl calls alike rfl
          | none =>
              obtain ⟨breaker, stepped, _, rfl⟩ := tell_eq_some served
              obtain ⟨calls, alike⟩ := step_cancel_told stepped
              exact .leaves rfl calls alike rfl
  | ticket op =>
      by_cases aside : Aside op
      · have same : s' = s := by
          cases s with
          | outside next => exact Option.some.inj (followed.symm.trans (follow_aside answer aside))
          | queued _ => cases followed
          | running attempt sent =>
              cases op <;> first | exact aside.elim | cases followed <;> rfl
        subst same
        have kept : ∃ free, sh' = { sh with free } := by
          cases op with
          | acquire =>
              simp only [serve, Option.ite_none_left_eq_some] at served
              obtain ⟨_, eq⟩ := served
              cases eq
              exact ⟨_, rfl⟩
          | release =>
              cases served
              exact ⟨_, rfl⟩
          | post ticket attempt => exact aside.elim
          | _ =>
              obtain ⟨_, _, eq⟩ := Option.map_eq_some_iff.mp served
              cases eq
              exact ⟨_, rfl⟩
        obtain ⟨free, rfl⟩ := kept
        exact .passes free aside rfl
      · cases op with
        | post ticket k =>
            cases s with
            | outside _ | queued _ => cases followed
            | running attempt sent =>
                simp only [follow, sender] at followed
                split at followed
                · next first =>
                    obtain ⟨rfl, rfl⟩ := first
                    cases followed
                    obtain ⟨_, _, eq⟩ := Option.map_eq_some_iff.mp served
                    cases eq
                    exact .posts rfl rfl
                · cases followed
        | admission k => cases s <;> cases followed
        | _ => exact absurd trivial aside

end Step

/-! ## Where the breaker has a ticket -/

/-- The attempt a ticket is in, or comes to next. -/
def Stage.attempt : Stage → ℕ
  | .outside next => next
  | .queued attempt | .running attempt _ => attempt

/-- Where the breaker has this attempt. -/
def Stage.Own : Stage → Phase → Prop
  | .outside _, phase => phase = .idle
  | .queued _, phase => phase = .waiting
  | .running _ _, phase => phase.Running

/-- The breaker has the attempts of a ticket where the ticket is. -/
structure Stage.Fits (s : Stage) (phases : ℕ → Phase) : Prop where
  earlier : ∀ k < s.attempt, phases k = .idle ∨ phases k = .finished
  own : s.Own (phases s.attempt)
  later : ∀ k, s.attempt < k → phases k = .idle

/-- The request of this attempt may have been sent. -/
def Stage.Sent : Stage → ℕ → Prop
  | .outside next, k => k < next
  | .queued attempt, k => k < attempt
  | .running attempt sent, k => k < attempt ∨ (k = attempt ∧ sent = true)

section Fits

variable {s s' : Stage} {phases : ℕ → Phase} {phase : Phase} {attempt k : ℕ}

theorem Stage.Awaits.attempt_eq (awaits : s.Awaits attempt) : s.attempt = attempt := by
  rcases awaits with rfl | rfl <;> rfl

theorem Stage.Awaits.sent (awaits : s.Awaits attempt) (sent : s.Sent k) : k < attempt := by
  rcases awaits with rfl | rfl <;> exact sent

/-- The ticket stays in its attempt. -/
theorem Stage.Fits.stays (fits : s.Fits phases) (same : s'.attempt = s.attempt) (own : s'.Own phase) :
    s'.Fits (Function.update phases s.attempt phase) where
  earlier k lt := by
    rw [Function.update_of_ne (by omega)]
    exact fits.earlier k (by omega)
  own := by
    rw [same, Function.update_self]
    exact own
  later k lt := by
    rw [Function.update_of_ne (by omega)]
    exact fits.later k (by omega)

/-- The ticket comes to its next attempt. -/
theorem Stage.Fits.leaves (fits : s.Fits phases) :
    (Stage.outside (s.attempt + 1)).Fits (Function.update phases s.attempt .finished) where
  earlier k lt := by
    rcases Nat.lt_succ_iff_lt_or_eq.mp lt with before | rfl
    · rw [Function.update_of_ne (by omega)]
      exact fits.earlier k before
    · exact .inr (Function.update_self ..)
  own := by
    change Function.update phases s.attempt .finished (s.attempt + 1) = .idle
    rw [Function.update_of_ne (by omega)]
    exact fits.later _ (by omega)
  later k lt := by
    change s.attempt + 1 < k at lt
    rw [Function.update_of_ne (by omega)]
    exact fits.later k (by omega)

/-- Only a ticket in the queue waits in the breaker. -/
theorem Stage.Fits.queued (fits : s.Fits phases) (waiting : phases k = .waiting) : s = .queued k := by
  rcases lt_trichotomy k s.attempt with before | rfl | after
  · rcases fits.earlier k before with idle | finished
    · cases idle.symm.trans waiting
    · cases finished.symm.trans waiting
  · have own := fits.own
    rw [waiting] at own
    cases s with
    | outside next => cases own
    | queued attempt => rfl
    | running attempt sent =>
        obtain ⟨_, impossible⟩ := own
        cases impossible
  · cases (fits.later k after).symm.trans waiting

/-- Only a ticket in its call runs in the breaker. -/
theorem Stage.Fits.running (fits : s.Fits phases) {mode : Mode} (runs : phases k = .running mode) :
    ∃ sent, s = .running k sent := by
  rcases lt_trichotomy k s.attempt with before | rfl | after
  · rcases fits.earlier k before with idle | finished
    · cases idle.symm.trans runs
    · cases finished.symm.trans runs
  · have own := fits.own
    rw [runs] at own
    cases s with
    | outside next => cases own
    | queued attempt => cases own
    | running attempt sent => exact ⟨sent, rfl⟩
  · cases (fits.later k after).symm.trans runs

end Fits

/-! ## The invariant -/

section Invariant

variable {n : ℕ} {settings : Settings} {host : Host} {tickets : Fin n → String} {slots : ℕ}
  {p : Params} {clock : ℕ → ℚ} {elsewhere : Elsewhere n} {w w' : Tickets n}

/-- The attempts of a ticket, in the breaker. -/
def phasesOf (breaker : Config) (i : Fin n) : ℕ → Phase := fun k => breaker.calls (callId i k)

/-- The tickets are in the breaker where they are by their own account, and nobody else is. -/
structure Placed (w : Tickets n) : Prop where
  fits : ∀ i, (stageOf (w.traces i)).Fits (phasesOf w.shared.breaker i)
  known : ∀ c, w.shared.breaker.calls c ≠ .idle → ∃ (i : Fin n) (k : ℕ), c = callId i k

/-- Every request was sent in a call the breaker has started, and one in a call. -/
structure Requested (w : Tickets n) : Prop where
  sent : ∀ c ∈ w.shared.requests, ∃ (i : Fin n) (k : ℕ), c = callId i k ∧ (stageOf (w.traces i)).Sent k
  once : w.shared.requests.Nodup
  started : w.shared.requests ⊆ startedCalls w.shared.breaker.history

/-- What the tickets were told is what the record of the breaker says. -/
def Told (w : Tickets n) : Prop :=
  ∀ i k decision, ⟨.admission k, decision⟩ ∈ (w.traces i).filterMap seen ↔
    callId i k ∈ (if decision then startedCalls else rejectedCalls) w.shared.breaker.history

/-- The slots are free or held. -/
def Slotted (slots : ℕ) (w : Tickets n) : Prop :=
  w.shared.free + ∑ i, slotsOf ((w.traces i).filterMap seen) = slots

/-- The breaker has come where it is by its own steps. -/
def Driven (p : Params) (clock : ℕ → ℚ) (w : Tickets n) : Prop :=
  ∃ es, exec (CircuitBreaker.step p clock) (init clock) es = some w.shared.breaker ∧
    ∀ e ∈ es, e.isCancel = true → ∃ (i : Fin n) (k : ℕ), ⟨.leave k none, ()⟩ ∈ w.traces i

theorem callId_injective {i j : Fin n} {k l : ℕ} (same : callId i k = callId j l) : i = j ∧ k = l := by
  obtain ⟨ticket, attempt⟩ := Nat.pair_eq_pair.mp same
  exact ⟨Fin.ext ticket, attempt⟩

theorem phasesOf_update_self {breaker breaker' : Config} {i : Fin n} {k : ℕ} {phase : Phase}
    (calls : breaker'.calls = Function.update breaker.calls (callId i k) phase) :
    phasesOf breaker' i = Function.update (phasesOf breaker i) k phase := by
  funext l
  rw [phasesOf, calls]
  by_cases same : l = k
  · subst same
    rw [Function.update_self, Function.update_self]
  · have other : callId i l ≠ callId i k := fun eq => same (callId_injective eq).2
    rw [Function.update_of_ne other, Function.update_of_ne same]
    rfl

theorem phasesOf_update_of_ne {breaker breaker' : Config} {i j : Fin n} {k : ℕ} {phase : Phase} (ne : j ≠ i)
    (calls : breaker'.calls = Function.update breaker.calls (callId i k) phase) :
    phasesOf breaker' j = phasesOf breaker j := by
  funext l
  rw [phasesOf, calls]
  exact Function.update_of_ne (fun eq => ne (callId_injective eq).1) ..

/-- What a step does to the ticket's place in the breaker. -/
theorem Effect.fits {i : Fin n} {s s' : Stage} {sh sh' : Shared} {asked : Asked GuardedOp GuardedAnswer}
    (effect : Effect i s sh asked s' sh') (fits : s.Fits (phasesOf sh.breaker i)) :
    s'.Fits (phasesOf sh'.breaker i) := by
  cases effect with
  | runs awaits mode calls _ _ _ =>
      have at_ := awaits.attempt_eq
      rw [phasesOf_update_self calls, ← at_]
      exact fits.stays rfl ⟨mode, rfl⟩
  | rejected awaits calls _ _ _ =>
      have at_ := awaits.attempt_eq
      rw [phasesOf_update_self calls, ← at_]
      exact fits.leaves
  | queues outside calls _ _ =>
      subst outside
      rw [phasesOf_update_self calls]
      exact fits.stays rfl rfl
  | leaves running calls _ _ =>
      subst running
      rw [phasesOf_update_self calls]
      exact fits.leaves
  | posts running _ =>
      subst running
      exact ⟨fits.earlier, fits.own, fits.later⟩
  | passes _ _ _ => exact fits

/-- The other calls of the breaker stay where they are. -/
theorem Effect.calls {i : Fin n} {s s' : Stage} {sh sh' : Shared} {asked : Asked GuardedOp GuardedAnswer}
    (effect : Effect i s sh asked s' sh') :
    sh'.breaker.calls = sh.breaker.calls ∨
      ∃ k phase, sh'.breaker.calls = Function.update sh.breaker.calls (callId i k) phase := by
  cases effect with
  | runs _ mode calls _ _ _ => exact .inr ⟨_, _, calls⟩
  | rejected _ calls _ _ _ => exact .inr ⟨_, _, calls⟩
  | queues _ calls _ _ => exact .inr ⟨_, _, calls⟩
  | leaves _ calls _ _ => exact .inr ⟨_, _, calls⟩
  | posts _ _ => exact .inl rfl
  | passes _ _ _ => exact .inl rfl

/-- A step of the system is a step of one ticket. -/
theorem step_effect (faithful : Pool.Faithful (fun i => processTicket settings host (tickets i)) w) {i : Fin n}
    (stepped : Pool.step (serve p clock elsewhere) w i = some w') :
    ∃ op answer, serve p clock elsewhere i (w.traces i) w.shared op = some (answer, w'.shared) ∧
      (∃ next, w.threads i = .ask op next) ∧ w'.traces i = w.traces i ++ [⟨op, answer⟩] ∧
      (∀ j ≠ i, w'.traces j = w.traces j) ∧
      Effect i (stageOf (w.traces i)) w.shared ⟨op, answer⟩ (stageOf (w'.traces i)) w'.shared := by
  obtain ⟨op, next, answer, shared, asks, served, rfl⟩ := Pool.step_cases stepped
  have leads := faithful i
  rw [asks] at leads
  have followed := processTicket_follows.next leads answer
  refine ⟨op, answer, served, ⟨next, asks⟩, Pool.served_traces_self, fun j ne => Pool.served_traces_of_ne ne, ?_⟩
  rw [Pool.served_traces_self]
  exact effect_of_step followed served

theorem Placed.step (placed : Placed w) {i : Fin n} {asked : Asked GuardedOp GuardedAnswer}
    (others : ∀ j ≠ i, w'.traces j = w.traces j)
    (effect : Effect i (stageOf (w.traces i)) w.shared asked (stageOf (w'.traces i)) w'.shared) : Placed w' where
  fits j := by
    by_cases same : j = i
    · subst same
      exact effect.fits (placed.fits j)
    · rw [others j same]
      have unmoved : phasesOf w'.shared.breaker j = phasesOf w.shared.breaker j := by
        rcases effect.calls with eq | ⟨k, phase, calls⟩
        · funext k
          rw [phasesOf, eq]
          rfl
        · exact phasesOf_update_of_ne same calls
      rw [unmoved]
      exact placed.fits j
  known c moved := by
    rcases effect.calls with eq | ⟨k, phase, calls⟩
    · exact placed.known c (eq ▸ moved)
    · by_cases same : c = callId i k
      · exact ⟨i, k, same⟩
      · rw [calls, Function.update_of_ne same] at moved
        exact placed.known c moved

theorem Effect.sent {i : Fin n} {s s' : Stage} {sh sh' : Shared} {asked : Asked GuardedOp GuardedAnswer}
    (effect : Effect i s sh asked s' sh') {k : ℕ} (sent : s.Sent k) : s'.Sent k := by
  cases effect with
  | runs awaits _ _ _ _ _ => exact .inl (awaits.sent sent)
  | rejected awaits _ _ _ _ => exact Nat.lt_succ_of_lt (awaits.sent sent)
  | queues outside _ _ _ =>
      subst outside
      exact sent
  | leaves running _ _ _ =>
      subst running
      rcases sent with before | ⟨rfl, _⟩
      · exact Nat.lt_succ_of_lt before
      · exact Nat.lt_succ_self _
  | posts running _ =>
      subst running
      exact .inl (sent.resolve_right fun now => by cases now.2)
  | passes _ _ _ => exact sent

theorem Effect.started_subset {i : Fin n} {s s' : Stage} {sh sh' : Shared} {asked : Asked GuardedOp GuardedAnswer}
    (effect : Effect i s sh asked s' sh') :
    startedCalls sh.breaker.history ⊆ startedCalls sh'.breaker.history := by
  cases effect with
  | runs _ _ _ started _ _ =>
      rw [started]
      exact List.subset_cons_self _ _
  | rejected _ _ started _ _ => exact started ▸ List.Subset.refl _
  | queues _ _ alike _ => exact alike.1 ▸ List.Subset.refl _
  | leaves _ _ alike _ => exact alike.1 ▸ List.Subset.refl _
  | posts _ _ => exact List.Subset.refl _
  | passes _ _ _ => exact List.Subset.refl _

/-- A step sends a request or none. -/
theorem Effect.requests {i : Fin n} {s s' : Stage} {sh sh' : Shared} {asked : Asked GuardedOp GuardedAnswer}
    (effect : Effect i s sh asked s' sh') :
    sh'.requests = sh.requests ∨
      ∃ k, s = .running k false ∧ s' = .running k true ∧ sh'.breaker = sh.breaker ∧
        sh'.requests = callId i k :: sh.requests := by
  cases effect with
  | posts running _ => exact .inr ⟨_, running, rfl, rfl, rfl⟩
  | _ => exact .inl rfl

theorem Requested.step (requested : Requested w) (placed : Placed w) (sound : Sound w.shared.breaker) {i : Fin n}
    {asked : Asked GuardedOp GuardedAnswer} (others : ∀ j ≠ i, w'.traces j = w.traces j)
    (effect : Effect i (stageOf (w.traces i)) w.shared asked (stageOf (w'.traces i)) w'.shared) : Requested w' := by
  have kept : ∀ c ∈ w.shared.requests, ∃ (i : Fin n) (k : ℕ), c = callId i k ∧ (stageOf (w'.traces i)).Sent k := by
    intro c member
    obtain ⟨j, k, rfl, sent⟩ := requested.sent c member
    refine ⟨j, k, rfl, ?_⟩
    by_cases same : j = i
    · subst same
      exact effect.sent sent
    · rwa [others j same]
  have started := List.Subset.trans requested.started effect.started_subset
  rcases effect.requests with same | ⟨k, running, now, breaker, more⟩
  · exact ⟨same ▸ kept, same ▸ requested.once, same ▸ started⟩
  · refine ⟨?_, ?_, ?_⟩ <;> rw [more]
    · refine List.forall_mem_cons.mpr ⟨⟨i, k, rfl, ?_⟩, kept⟩
      rw [now]
      exact .inr ⟨rfl, rfl⟩
    · refine List.nodup_cons.mpr ⟨fun member => ?_, requested.once⟩
      obtain ⟨j, l, same, sent⟩ := requested.sent _ member
      obtain ⟨rfl, rfl⟩ := callId_injective same
      rw [running] at sent
      rcases sent with before | ⟨_, impossible⟩
      · exact absurd before (lt_irrefl _)
      · cases impossible
    · refine List.cons_subset.mpr ⟨?_, started⟩
      rw [breaker]
      have own := (placed.fits i).own
      rw [running] at own
      exact sound.begun.started _ own

theorem Effect.told {i : Fin n} {s s' : Stage} {sh sh' : Shared} {asked : Asked GuardedOp GuardedAnswer}
    (effect : Effect i s sh asked s' sh') (j : Fin n) (k : ℕ) (decision : Bool) :
    callId j k ∈ (if decision then startedCalls else rejectedCalls) sh'.breaker.history ↔
      callId j k ∈ (if decision then startedCalls else rejectedCalls) sh.breaker.history ∨
        (j = i ∧ seen asked = some ⟨.admission k, decision⟩) := by
  have here : ∀ {a : ℕ}, callId j k = callId i a ↔ j = i ∧ k = a := fun {a} =>
    ⟨callId_injective, fun ⟨same, attempt⟩ => by rw [same, attempt]⟩
  cases effect with
  | runs _ _ _ started rejected looked =>
      cases decision <;> simp [started, rejected, looked, here, or_comm, eq_comm]
  | rejected _ _ started rejected looked =>
      cases decision <;> simp [started, rejected, looked, here, or_comm, eq_comm]
  | queues _ _ alike looked => cases decision <;> simp [alike.1, alike.2, looked]
  | leaves _ _ alike looked => cases decision <;> simp [alike.1, alike.2, looked]
  | posts _ looked => simp [looked]
  | passes _ aside looked =>
      subst looked
      refine (or_iff_left ?_).symm
      rintro ⟨_, impossible⟩
      cases impossible
      exact aside

theorem Told.step (told : Told w) {i : Fin n} {asked : Asked GuardedOp GuardedAnswer}
    (traced : w'.traces i = w.traces i ++ [asked]) (others : ∀ j ≠ i, w'.traces j = w.traces j)
    (effect : Effect i (stageOf (w.traces i)) w.shared asked (stageOf (w'.traces i)) w'.shared) : Told w' := by
  intro j k decision
  rw [effect.told, ← told j k decision]
  by_cases same : j = i
  · subst same
    rw [traced, List.filterMap_append, List.mem_append, List.mem_filterMap (l := [asked])]
    simp
  · rw [others j same]
    exact (or_iff_left fun now => same now.1).symm

/-- The semaphore serves a ticket as it does without the breaker. -/
theorem serve_ticket {i : Fin n} {trace : GuardedTrace} {sh sh' : Shared} {op : TicketOp} {answer : TicketAnswer op}
    (served : serve p clock elsewhere i trace sh (.ticket op) = some (answer, sh')) :
    Semaphore.serve (fun j _ => elsewhere j trace) i [] sh.free op = some (answer, sh'.free) := by
  cases op with
  | acquire =>
      simp only [serve, Option.ite_none_left_eq_some] at served
      obtain ⟨some_, eq⟩ := served
      cases eq
      exact if_neg some_
  | release =>
      cases served
      rfl
  | _ =>
      obtain ⟨_, given, eq⟩ := Option.map_eq_some_iff.mp served
      cases eq
      exact Option.map_eq_some_iff.mpr ⟨_, given, rfl⟩

/-- An event of the breaker takes no slot and gives none back. -/
theorem serve_event {i : Fin n} {trace : GuardedTrace} {sh sh' : Shared} {op : GuardedOp} {answer : GuardedAnswer op}
    (served : serve p clock elsewhere i trace sh op = some (answer, sh')) {e : Event} (event : eventOf i op = some e) :
    CircuitBreaker.step p clock sh.breaker e = some sh'.breaker ∧ sh'.free = sh.free := by
  cases op with
  | ticket op => cases event
  | enter attempt | resume attempt =>
      cases event
      obtain ⟨breaker, stepped, _, rfl⟩ := tell_eq_some served
      exact ⟨stepped, rfl⟩
  | leave attempt outcome =>
      cases outcome <;>
        · cases event
          obtain ⟨breaker, stepped, _, rfl⟩ := tell_eq_some served
          exact ⟨stepped, rfl⟩

theorem serve_ticket_breaker {i : Fin n} {trace : GuardedTrace} {sh sh' : Shared} {op : TicketOp}
    {answer : TicketAnswer op} (served : serve p clock elsewhere i trace sh (.ticket op) = some (answer, sh')) :
    sh'.breaker = sh.breaker := by
  cases op with
  | acquire =>
      simp only [serve, Option.ite_none_left_eq_some] at served
      obtain ⟨_, eq⟩ := served
      cases eq
      rfl
  | release =>
      cases served
      rfl
  | _ =>
      obtain ⟨_, _, eq⟩ := Option.map_eq_some_iff.mp served
      cases eq
      rfl

theorem Driven.step (driven : Driven p clock w) {i : Fin n} {op : GuardedOp} {answer : GuardedAnswer op}
    (served : serve p clock elsewhere i (w.traces i) w.shared op = some (answer, w'.shared))
    (traced : w'.traces i = w.traces i ++ [⟨op, answer⟩]) (others : ∀ j ≠ i, w'.traces j = w.traces j) :
    Driven p clock w' := by
  obtain ⟨es, ran, cancels⟩ := driven
  have kept : ∀ e ∈ es, e.isCancel = true → ∃ (i : Fin n) (k : ℕ), ⟨.leave k none, ()⟩ ∈ w'.traces i := by
    intro e member cancel
    obtain ⟨j, k, left⟩ := cancels e member cancel
    refine ⟨j, k, ?_⟩
    by_cases same : j = i
    · subst same
      rw [traced]
      exact List.mem_append_left _ left
    · rwa [others j same]
  cases event : eventOf i op with
  | none =>
      have same : w'.shared.breaker = w.shared.breaker := by
        cases op with
        | ticket op => exact serve_ticket_breaker served
        | enter | resume => cases event
        | leave _ outcome => cases outcome <;> cases event
      exact ⟨es, same ▸ ran, kept⟩
  | some e =>
      obtain ⟨stepped, _⟩ := serve_event served event
      refine ⟨es ++ [e], ?_, fun f member cancel => ?_⟩
      · rw [exec_append, ran, Option.bind_some, exec_cons, stepped]
        rfl
      · rcases List.mem_append.mp member with before | last
        · exact kept f before cancel
        · rw [List.mem_singleton.mp last] at cancel
          cases op with
          | ticket | enter | resume =>
              cases event
              try cases cancel
          | leave k outcome =>
              cases outcome with
              | some _ =>
                  cases event
                  cases cancel
              | none => exact ⟨i, k, traced ▸ List.mem_append_right _ (List.mem_singleton_self _)⟩

theorem keeper_admission {k : ℕ} {decision before after : Bool}
    (followed : keeper before ⟨.admission k, decision⟩ = some after) : after = before := by
  cases before <;> cases followed
  rfl

/-- What a ticket has done, without the breaker. -/
theorem seen_leads (enabled : settings.cbEnabled = true)
    (faithful : Pool.Faithful (fun i => processTicket settings host (tickets i)) w) (i : Fin n) :
    ∃ q, Leads (Pipeline.processTicket settings host (tickets i)) ((w.traces i).filterMap seen) q ∧
      (w.threads i).Refines seen q := (processTicket_refines enabled).leads (faithful i)

/-- The slots of a ticket change with what it is seen to do. -/
theorem slots_step (enabled : settings.cbEnabled = true)
    (faithful : Pool.Faithful (fun i => processTicket settings host (tickets i)) w) {i : Fin n} {op : GuardedOp}
    {answer : GuardedAnswer op} {sh : Shared} (asks : ∃ next, w.threads i = .ask op next)
    (served : serve p clock elsewhere i (w.traces i) w.shared op = some (answer, sh)) :
    sh.free + slotsOf (List.filterMap seen (w.traces i ++ [⟨op, answer⟩])) =
      w.shared.free + slotsOf ((w.traces i).filterMap seen) := by
  obtain ⟨next, asks⟩ := asks
  obtain ⟨q, leads, refines⟩ := seen_leads enabled faithful i
  rw [asks] at refines
  rw [List.filterMap_append]
  cases looked : seen ⟨op, answer⟩ with
  | none =>
      rw [List.filterMap_cons_none looked, List.filterMap_nil, List.append_nil]
      obtain ⟨e, event⟩ : ∃ e, eventOf i op = some e := by
        cases op with
        | ticket op => cases looked
        | enter | resume => exact ⟨_, rfl⟩
        | leave _ outcome => cases outcome <;> exact ⟨_, rfl⟩
      rw [(serve_event served event).2]
  | some asked =>
      obtain ⟨next', rfl, _⟩ := refines.seen looked
      have followed := Semaphore.processTicket_safe.next leads asked.2
      rw [List.filterMap_cons_some looked, List.filterMap_nil]
      cases op with
      | ticket op =>
          cases looked
          exact Semaphore.serve_slots (serve_ticket served) followed
      | enter attempt =>
          rw [(serve_event served rfl).2]
          cases answer <;> cases looked <;> simp only [slotsOf, Semaphore.holding, keeper_admission followed]
      | resume attempt =>
          rw [(serve_event served rfl).2]
          cases looked
          simp only [slotsOf, Semaphore.holding, keeper_admission followed]
      | leave attempt outcome => cases looked

theorem Slotted.step (slotted : Slotted slots w) (enabled : settings.cbEnabled = true)
    (faithful : Pool.Faithful (fun i => processTicket settings host (tickets i)) w) {i : Fin n} {op : GuardedOp}
    {answer : GuardedAnswer op} (asks : ∃ next, w.threads i = .ask op next)
    (served : serve p clock elsewhere i (w.traces i) w.shared op = some (answer, w'.shared))
    (traced : w'.traces i = w.traces i ++ [⟨op, answer⟩]) (others : ∀ j ≠ i, w'.traces j = w.traces j) :
    Slotted slots w' := by
  have moved := slots_step enabled faithful asks served
  have rest : ∑ j ∈ Finset.univ.erase i, slotsOf ((w'.traces j).filterMap seen) =
      ∑ j ∈ Finset.univ.erase i, slotsOf ((w.traces j).filterMap seen) :=
    Finset.sum_congr rfl fun j member => by rw [others j (Finset.ne_of_mem_erase member)]
  rw [Slotted, ← Finset.add_sum_erase _ _ (Finset.mem_univ i)] at slotted ⊢
  rw [rest, traced]
  omega

/-- The invariant of the system. -/
structure Linked (settings : Settings) (host : Host) (tickets : Fin n → String) (slots : ℕ) (p : Params)
    (clock : ℕ → ℚ) (w : Tickets n) : Prop where
  faithful : Pool.Faithful (fun i => processTicket settings host (tickets i)) w
  sound : Sound w.shared.breaker
  driven : Driven p clock w
  placed : Placed w
  requested : Requested w
  told : Told w
  slotted : Slotted slots w

theorem linked_start (settings : Settings) (host : Host) (tickets : Fin n → String) (slots : ℕ) (p : Params)
    (clock : ℕ → ℚ) : Linked settings host tickets slots p clock (start clock settings host slots tickets) where
  faithful := Pool.faithful_init _ _
  sound := sound_init clock
  driven := ⟨[], rfl, by simp⟩
  placed := ⟨fun i => ⟨fun _ _ => .inl rfl, rfl, fun _ _ => rfl⟩, fun c moved => absurd rfl moved⟩
  requested := ⟨by simp [start, Pool.init], .nil, by simp [start, Pool.init]⟩
  told i k decision := by
    cases decision <;> simp [start, Pool.init, init, startedCalls, rejectedCalls]
  slotted := by simp [Slotted, start, Pool.init, slotsOf, Semaphore.holding, Monitor.after]

theorem Linked.step (linked : Linked settings host tickets slots p clock w) (enabled : settings.cbEnabled = true)
    {i : Fin n} (stepped : Pool.step (serve p clock elsewhere) w i = some w') :
    Linked settings host tickets slots p clock w' := by
  obtain ⟨faithful, sound, driven, placed, requested, told, slotted⟩ := linked
  obtain ⟨op, answer, served, asks, traced, others, effect⟩ := step_effect faithful stepped
  have driven' := driven.step served traced others
  refine ⟨faithful.step stepped, ?_, driven', placed.step others effect, requested.step placed sound others effect,
    told.step traced others effect, slotted.step enabled faithful asks served traced others⟩
  obtain ⟨es, ran, _⟩ := driven'
  exact exec_invariant (fun _ _ _ sound stepped => Sound.step sound stepped) es _ _ (sound_init clock) ran

theorem linked_of_run (enabled : settings.cbEnabled = true) {schedule : List (Fin n)}
    (ran : exec (Pool.step (serve p clock elsewhere)) (start clock settings host slots tickets) schedule = some w) :
    Linked settings host tickets slots p clock w := by
  have keeps : ∀ (v : Tickets n) (i : Fin n) (v' : Tickets n), Linked settings host tickets slots p clock v →
      Pool.step (serve p clock elsewhere) v i = some v' → Linked settings host tickets slots p clock v' :=
    fun _ _ _ linked stepped => linked.step enabled stepped
  exact exec_invariant keeps schedule _ _ (linked_start settings host tickets slots p clock) ran

end Invariant

end InferenceForge.Pipeline.Composed
