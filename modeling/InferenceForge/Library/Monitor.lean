/-
# InferenceForge.Library.Monitor — programs under a monitor

A monitor follows what a program performs: from its state, an operation with its
answer leads to a next state or is forbidden. `Safe` says that a program performs
nothing forbidden, whatever its environment answers within `allowed`, and how it
may end in which state. It is composed by the rules below, one for each way of
composing a program.

`Safe.leads` is what it is for: at every moment, what a safe program has done so
far is accepted by the monitor, and the program is safe in the state it led to.
-/
import InferenceForge.Library.Pool

namespace InferenceForge.Library

set_option autoImplicit false

variable {Op : Type} {Answer : Op → Type} {ε α β σ : Type}

/-- The next state, or `none` where the operation is forbidden. -/
abbrev Monitor (Op : Type) (Answer : Op → Type) (σ : Type) := σ → Asked Op Answer → Option σ

/-- From `s` on the program performs nothing forbidden, and its end satisfies `Q`. -/
def Program.Safe (monitor : Monitor Op Answer σ) (allowed : Asked Op Answer → Prop)
    (Q : Except ε α → σ → Prop) : Program Op Answer ε α → σ → Prop
  | .done value, s => Q (.ok value) s
  | .raise error, s => Q (.error error) s
  | .ask op next, s =>
      ∀ answer, allowed ⟨op, answer⟩ →
        ∃ s', monitor s ⟨op, answer⟩ = some s' ∧ (next answer).Safe monitor allowed Q s'

section Rules

variable {monitor : Monitor Op Answer σ} {allowed : Asked Op Answer → Prop} {s : σ}
  {Q : Except ε α → σ → Prop}

theorem Program.Safe.mono {R : Except ε α → σ → Prop} (weaker : ∀ result s, Q result s → R result s)
    {p : Program Op Answer ε α} (safe : p.Safe monitor allowed Q s) : p.Safe monitor allowed R s := by
  induction p generalizing s with
  | done value => exact weaker _ _ safe
  | raise error => exact weaker _ _ safe
  | ask op next ih =>
      intro answer permitted
      obtain ⟨s', followed, rest⟩ := safe answer permitted
      exact ⟨s', followed, ih answer rest⟩

theorem safe_pure {value : α} (ends : Q (.ok value) s) :
    (pure value : Program Op Answer ε α).Safe monitor allowed Q s := ends

theorem safe_raise {error : ε} (ends : Q (.error error) s) :
    (Program.raise error : Program Op Answer ε α).Safe monitor allowed Q s := ends

theorem safe_bind {R : Except ε β → σ → Prop} {p : Program Op Answer ε α}
    {f : α → Program Op Answer ε β} (first : p.Safe monitor allowed Q s)
    (value : ∀ value s, Q (.ok value) s → (f value).Safe monitor allowed R s)
    (error : ∀ error s, Q (.error error) s → R (.error error) s) :
    (p >>= f).Safe monitor allowed R s := by
  change (p.bind f).Safe monitor allowed R s
  induction p generalizing s with
  | done v => exact value v s first
  | raise e => exact error e s first
  | ask op next ih =>
      intro answer permitted
      obtain ⟨s', followed, rest⟩ := first answer permitted
      exact ⟨s', followed, ih answer rest⟩

theorem safe_rescue {R : Except ε α → σ → Prop} {p : Program Op Answer ε α}
    {handler : ε → Program Op Answer ε α} (body : p.Safe monitor allowed Q s)
    (value : ∀ value s, Q (.ok value) s → R (.ok value) s)
    (handled : ∀ error s, Q (.error error) s → (handler error).Safe monitor allowed R s) :
    (p.rescue handler).Safe monitor allowed R s := by
  induction p generalizing s with
  | done v => exact value v s body
  | raise e => exact handled e s body
  | ask op next ih =>
      intro answer permitted
      obtain ⟨s', followed, rest⟩ := body answer permitted
      exact ⟨s', followed, ih answer rest⟩

theorem safe_perform {op : Op} {R : Except ε (Answer op) → σ → Prop}
    (served : ∀ answer, allowed ⟨op, answer⟩ →
      ∃ s', monitor s ⟨op, answer⟩ = some s' ∧ R (.ok answer) s') :
    (Program.perform op : Program Op Answer ε (Answer op)).Safe monitor allowed R s := served

theorem safe_call {op : Op} {read : Answer op → Except ε α}
    (served : ∀ answer, allowed ⟨op, answer⟩ →
      ∃ s', monitor s ⟨op, answer⟩ = some s' ∧ Q (read answer) s') :
    (Program.call op read : Program Op Answer ε α).Safe monitor allowed Q s := by
  intro answer permitted
  obtain ⟨s', followed, ends⟩ := served answer permitted
  refine ⟨s', followed, ?_⟩
  dsimp only
  split
  · next value given => rwa [given] at ends
  · next error given => rwa [given] at ends

theorem safe_when {condition : Prop} [Decidable condition] {R : Except ε Unit → σ → Prop}
    {p : Program Op Answer ε Unit} (body : p.Safe monitor allowed R s) (skipped : R (.ok ()) s) :
    (p.when condition).Safe monitor allowed R s := by
  unfold Program.when
  split
  · exact body
  · exact skipped

theorem safe_attempt {p : Program Op Answer ε α} (body : p.Safe monitor allowed Q s) :
    (p.attempt : Program Op Answer ε (Except ε α)).Safe monitor allowed
      (fun ended s => ∃ result, ended = .ok result ∧ Q result s) s := by
  induction p generalizing s with
  | done v => exact ⟨_, rfl, body⟩
  | raise e => exact ⟨_, rfl, body⟩
  | ask op next ih =>
      intro answer permitted
      obtain ⟨s', followed, rest⟩ := body answer permitted
      exact ⟨s', followed, ih answer rest⟩

theorem safe_tryFinally {R : Except ε α → σ → Prop} {p : Program Op Answer ε α} {cleanup : Program Op Answer ε Unit}
    (body : p.Safe monitor allowed Q s)
    (cleaned : ∀ result s, Q result s →
      cleanup.Safe monitor allowed (fun ended s => R (ended.bind fun _ => result) s) s) :
    (p.tryFinally cleanup).Safe monitor allowed R s := by
  refine safe_bind (safe_attempt body) ?_ ?_
  · rintro result s ⟨_, ⟨⟩, ends⟩
    refine safe_bind (cleaned result s ends) (fun _ s ended => ?_) fun _ _ ended => ended
    cases result with
    | ok value => exact ended
    | error e => exact ended
  · rintro _ s ⟨result, impossible, _⟩
    cases impossible

/-- A program that asks only for what the monitor passes over leaves its state alone. -/
theorem safe_of_asks {P : Op → Prop} {p : Program Op Answer ε α} (asks : p.Asks P)
    (passed : ∀ op answer, P op → allowed ⟨op, answer⟩ → monitor s ⟨op, answer⟩ = some s) :
    p.Safe monitor allowed (fun _ s' => s' = s) s := by
  induction p with
  | done value => rfl
  | raise error => rfl
  | ask op next ih =>
      intro answer permitted
      exact ⟨s, passed op answer asks.1 permitted, ih answer (asks.2 answer)⟩

/-- A program under a monitor that records what it does. -/
theorem safe_of_recorded {P : Op → Prop} {state : List (Asked Op Answer) → σ}
    (recorded : ∀ done op answer, P op → monitor (state done) ⟨op, answer⟩ = some (state (done ++ [⟨op, answer⟩])))
    {p : Program Op Answer ε α} (asks : p.Asks P) (done : List (Asked Op Answer)) :
    p.Safe monitor allowed (fun result s => ∃ trace, Runs p trace result ∧ s = state (done ++ trace)) (state done) := by
  induction p generalizing done with
  | done value => exact ⟨[], .done value, by rw [List.append_nil]⟩
  | raise error => exact ⟨[], .raise error, by rw [List.append_nil]⟩
  | ask op next ih =>
      intro answer _
      refine ⟨_, recorded done op answer asks.1, ?_⟩
      refine (ih answer (asks.2 answer) _).mono ?_
      rintro result _ ⟨trace, ran, rfl⟩
      exact ⟨⟨op, answer⟩ :: trace, .ask ran, by rw [List.append_assoc, List.singleton_append]⟩

/-- What a safe program has done is accepted, and it is safe where it is now. -/
theorem Program.Safe.leads {p q : Program Op Answer ε α} (safe : p.Safe monitor allowed Q s)
    {trace : List (Asked Op Answer)} (leads : Leads p trace q) (permitted : ∀ asked ∈ trace, allowed asked) :
    ∃ s', exec monitor s trace = some s' ∧ q.Safe monitor allowed Q s' := by
  induction leads generalizing s with
  | refl p => exact ⟨s, rfl, safe⟩
  | ask rest ih =>
      obtain ⟨here, later⟩ := List.forall_mem_cons.mp permitted
      obtain ⟨s', followed, next⟩ := safe _ here
      obtain ⟨s'', ran, ends⟩ := ih next later
      exact ⟨s'', exec_cons_eq_some.mpr ⟨s', followed, ran⟩, ends⟩

/-- Where the monitor is after a trace it accepts. -/
def Monitor.after (monitor : Monitor Op Answer σ) (s : σ) (trace : List (Asked Op Answer)) : σ :=
  (exec monitor s trace).getD s

/-- A safe program, as far as it has come. -/
theorem Program.Safe.now {p q : Program Op Answer ε α} (safe : p.Safe monitor (fun _ => True) Q s)
    {trace : List (Asked Op Answer)} (leads : Leads p trace q) :
    exec monitor s trace = some (monitor.after s trace) ∧
      q.Safe monitor (fun _ => True) Q (monitor.after s trace) := by
  obtain ⟨s', followed, rest⟩ := safe.leads leads fun _ _ => trivial
  rw [Monitor.after, followed]
  exact ⟨rfl, rest⟩

/-- One more operation of a safe program. -/
theorem Program.Safe.next {p : Program Op Answer ε α} (safe : p.Safe monitor (fun _ => True) Q s)
    {trace : List (Asked Op Answer)} {op : Op} {next : Answer op → Program Op Answer ε α}
    (leads : Leads p trace (.ask op next)) (answer : Answer op) :
    monitor (monitor.after s trace) ⟨op, answer⟩ = some (monitor.after s (trace ++ [⟨op, answer⟩])) := by
  obtain ⟨followed, rest⟩ := safe.now leads
  obtain ⟨s', stepped, _⟩ := rest answer trivial
  have accepted : exec monitor s (trace ++ [⟨op, answer⟩]) = some s' := by
    rw [exec_append, followed, Option.bind_some, exec_cons, stepped]
    rfl
  rw [stepped, Monitor.after, accepted]
  rfl

end Rules

end InferenceForge.Library
