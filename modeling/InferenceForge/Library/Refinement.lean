/-
# InferenceForge.Library.Refinement — one program seen as another

A `view` reads an operation of one program, with its answer, as an operation of
another, or passes over it (`none`). `p.Refines view q` says that `p` does, through
the view, what `q` does, and ends as `q` ends, whatever is answered. It is composed by
a rule for each way of composing a program.

`Refines.leads` is what it is for: at every moment, what `p` has done so far is, through
the view, something `q` can do, and what is left of `p` refines what is left of `q`. So
what is known of the runs of `q` holds of the runs of `p`.
-/
import InferenceForge.Library.Monitor

namespace InferenceForge.Library

set_option autoImplicit false

variable {Op Op' : Type} {Answer : Op → Type} {Answer' : Op' → Type} {ε α β σ : Type}

/-- What an operation of one program is in another. -/
abbrev View (Op : Type) (Answer : Op → Type) (Op' : Type) (Answer' : Op' → Type) :=
  Asked Op Answer → Option (Asked Op' Answer')

/-- `p` does, through the view, what `q` does. -/
def Program.Refines (view : View Op Answer Op' Answer') :
    Program Op Answer ε α → Program Op' Answer' ε α → Prop
  | .done value, q => q = .done value
  | .raise error, q => q = .raise error
  | .ask op next, q =>
      ∀ answer,
        match view ⟨op, answer⟩ with
        | none => (next answer).Refines view q
        | some asked => ∃ next', q = .ask asked.1 next' ∧ (next answer).Refines view (next' asked.2)

/-- The program `q` with each of its operations injected into others. -/
def Program.embed (inject : Op' → Op) (read : (op : Op') → Answer (inject op) → Answer' op) :
    Program Op' Answer' ε α → Program Op Answer ε α
  | .done value => .done value
  | .raise error => .raise error
  | .ask op next => .ask (inject op) fun answer => (next (read op answer)).embed inject read

section Rules

variable {view : View Op Answer Op' Answer'}

theorem refines_ask_unseen {op : Op} {next : Answer op → Program Op Answer ε α}
    {q : Program Op' Answer' ε α} (unseen : ∀ answer, view ⟨op, answer⟩ = none)
    (rest : ∀ answer, (next answer).Refines view q) : (Program.ask op next).Refines view q := by
  intro answer
  rw [unseen answer]
  exact rest answer

theorem Program.Refines.unseen {op : Op} {next : Answer op → Program Op Answer ε α}
    {q : Program Op' Answer' ε α} (refines : (Program.ask op next).Refines view q) {answer : Answer op}
    (passed : view ⟨op, answer⟩ = none) : (next answer).Refines view q := by
  have here := refines answer
  rwa [passed] at here

theorem Program.Refines.seen {op : Op} {next : Answer op → Program Op Answer ε α}
    {q : Program Op' Answer' ε α} (refines : (Program.ask op next).Refines view q) {answer : Answer op}
    {asked : Asked Op' Answer'} (looked : view ⟨op, answer⟩ = some asked) :
    ∃ next', q = .ask asked.1 next' ∧ (next answer).Refines view (next' asked.2) := by
  have here := refines answer
  rwa [looked] at here

theorem refines_pure {value : α} :
    (pure value : Program Op Answer ε α).Refines view (pure value : Program Op' Answer' ε α) := rfl

theorem refines_raise {error : ε} :
    (Program.raise error : Program Op Answer ε α).Refines view (.raise error) := rfl

theorem refines_bind {p : Program Op Answer ε α} {q : Program Op' Answer' ε α}
    {f : α → Program Op Answer ε β} {g : α → Program Op' Answer' ε β} (first : p.Refines view q)
    (second : ∀ value, (f value).Refines view (g value)) : (p >>= f).Refines view (q >>= g) := by
  change (p.bind f).Refines view (q.bind g)
  induction p generalizing q with
  | done value =>
      cases first
      exact second value
  | raise error =>
      cases first
      rfl
  | ask op next ih =>
      intro answer
      have here := first answer
      split at here
      · exact ih answer here
      · obtain ⟨next', rfl, rest⟩ := here
        exact ⟨_, rfl, ih answer rest⟩

theorem refines_rescue {p : Program Op Answer ε α} {q : Program Op' Answer' ε α}
    {handler : ε → Program Op Answer ε α} {handler' : ε → Program Op' Answer' ε α}
    (body : p.Refines view q) (handled : ∀ error, (handler error).Refines view (handler' error)) :
    (p.rescue handler).Refines view (q.rescue handler') := by
  induction p generalizing q with
  | done value =>
      cases body
      rfl
  | raise error =>
      cases body
      exact handled error
  | ask op next ih =>
      intro answer
      have here := body answer
      split at here
      · exact ih answer here
      · obtain ⟨next', rfl, rest⟩ := here
        exact ⟨_, rfl, ih answer rest⟩

theorem refines_when {condition : Prop} [Decidable condition] {p : Program Op Answer ε Unit}
    {q : Program Op' Answer' ε Unit} (body : p.Refines view q) :
    (p.when condition).Refines view (q.when condition) := by
  unfold Program.when
  split
  · exact body
  · rfl

theorem refines_attempt {p : Program Op Answer ε α} {q : Program Op' Answer' ε α} (body : p.Refines view q) :
    (p.attempt : Program Op Answer ε (Except ε α)).Refines view q.attempt := by
  induction p generalizing q with
  | done value =>
      cases body
      rfl
  | raise error =>
      cases body
      rfl
  | ask op next ih =>
      intro answer
      have here := body answer
      split at here
      · exact ih answer here
      · obtain ⟨next', rfl, rest⟩ := here
        exact ⟨_, rfl, ih answer rest⟩

theorem refines_ofResult (result : Except ε α) :
    (Program.ofResult result : Program Op Answer ε α).Refines view (Program.ofResult result) := by
  cases result <;> rfl

theorem refines_tryFinally {p : Program Op Answer ε α} {q : Program Op' Answer' ε α}
    {cleanup : Program Op Answer ε Unit} {cleanup' : Program Op' Answer' ε Unit} (body : p.Refines view q)
    (cleaned : cleanup.Refines view cleanup') :
    (p.tryFinally cleanup).Refines view (q.tryFinally cleanup') :=
  refines_bind (refines_attempt body) fun result =>
    refines_bind cleaned fun _ => refines_ofResult result

/-- Running a program for how it ended, and ending so, is to run it. -/
theorem refines_report {p : Program Op Answer ε α} {q : Program Op' Answer' ε α} (body : p.Refines view q)
    {report : Except ε α → Program Op Answer ε α}
    (reported : ∀ result, (report result).Refines view (Program.ofResult result : Program Op' Answer' ε α)) :
    (p.attempt >>= report : Program Op Answer ε α).Refines view q := by
  change (p.attempt.bind report).Refines view q
  induction p generalizing q with
  | done value =>
      cases body
      exact reported (.ok value)
  | raise error =>
      cases body
      exact reported (.error error)
  | ask op next ih =>
      intro answer
      have here := body answer
      split at here
      · exact ih answer here
      · obtain ⟨next', rfl, rest⟩ := here
        exact ⟨next', rfl, ih answer rest⟩

/-- A program whose operations are injected does what it did. -/
theorem refines_embed {inject : Op' → Op} {read : (op : Op') → Answer (inject op) → Answer' op}
    {q : Program Op' Answer' ε α} {P : Op' → Prop} (asks : q.Asks P)
    (seen : ∀ op answer, P op → view ⟨inject op, answer⟩ = some ⟨op, read op answer⟩) :
    (q.embed inject read : Program Op Answer ε α).Refines view q := by
  induction q with
  | done value => rfl
  | raise error => rfl
  | ask op next ih =>
      intro answer
      rw [seen op answer asks.1]
      exact ⟨next, rfl, ih _ (asks.2 _)⟩

/-- What a program has done so far, through the view. -/
theorem Program.Refines.leads {p p' : Program Op Answer ε α} {q : Program Op' Answer' ε α}
    (refines : p.Refines view q) {trace : List (Asked Op Answer)} (leads : Leads p trace p') :
    ∃ q', Leads q (trace.filterMap view) q' ∧ p'.Refines view q' := by
  induction leads generalizing q with
  | refl p => exact ⟨q, .refl q, refines⟩
  | @ask op next answer trace p' rest ih =>
      cases looked : view ⟨op, answer⟩ with
      | none =>
          rw [List.filterMap_cons_none looked]
          exact ih (refines.unseen looked)
      | some asked =>
          obtain ⟨next', rfl, later⟩ := refines.seen looked
          obtain ⟨q', done, ends⟩ := ih later
          rw [List.filterMap_cons_some looked]
          exact ⟨q', .ask done, ends⟩

/-- A complete run, through the view. -/
theorem Program.Refines.runs {p : Program Op Answer ε α} {q : Program Op' Answer' ε α}
    (refines : p.Refines view q) {trace : List (Asked Op Answer)} {result : Except ε α}
    (ran : Runs p trace result) : Runs q (trace.filterMap view) result := by
  induction ran generalizing q with
  | done value =>
      cases refines
      exact .done value
  | raise error =>
      cases refines
      exact .raise error
  | @ask op next answer trace result rest ih =>
      cases looked : view ⟨op, answer⟩ with
      | none =>
          rw [List.filterMap_cons_none looked]
          exact ih (refines.unseen looked)
      | some asked =>
          obtain ⟨next', rfl, later⟩ := refines.seen looked
          rw [List.filterMap_cons_some looked]
          exact .ask (ih later)

end Rules

section Embedded

variable {σ' : Type} {inject : Op' → Op} {read : (op : Op') → Answer (inject op) → Answer' op}

/-- An injected program under a monitor that follows it as another monitor follows the program. -/
theorem Program.Safe.embed {monitor : Monitor Op Answer σ} {monitor' : Monitor Op' Answer' σ'}
    {allowed : Asked Op Answer → Prop} {Q : Except ε α → σ' → Prop} {q : Program Op' Answer' ε α} {s : σ'}
    (place : σ' → σ) (safe : q.Safe monitor' (fun _ => True) Q s)
    (follows : ∀ s op answer s', monitor' s ⟨op, read op answer⟩ = some s' →
      monitor (place s) ⟨inject op, answer⟩ = some (place s')) :
    (q.embed inject read : Program Op Answer ε α).Safe monitor allowed
      (fun ended t => ∃ s', t = place s' ∧ Q ended s') (place s) := by
  induction q generalizing s with
  | done value => exact ⟨s, rfl, safe⟩
  | raise error => exact ⟨s, rfl, safe⟩
  | ask op next ih =>
      intro answer _
      obtain ⟨s', followed, rest⟩ := safe (read op answer) trivial
      exact ⟨place s', follows s op answer s' followed, ih _ rest⟩

/-- An injected program under a monitor that passes over its operations. -/
theorem safe_embed {monitor : Monitor Op Answer σ} {allowed : Asked Op Answer → Prop} {s : σ}
    {P : Op' → Prop} {q : Program Op' Answer' ε α} (asks : q.Asks P)
    (passed : ∀ op answer, P op → monitor s ⟨inject op, answer⟩ = some s) :
    (q.embed inject read : Program Op Answer ε α).Safe monitor allowed (fun _ s' => s' = s) s := by
  induction q with
  | done value => rfl
  | raise error => rfl
  | ask op next ih => exact fun answer _ => ⟨s, passed op answer asks.1, ih _ (asks.2 _)⟩

end Embedded

end InferenceForge.Library
