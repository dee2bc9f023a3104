/-
# InferenceForge.Library.Program — programs that wait for their environment

A `Program` asks its environment to perform operations and continues with the
answers; it may also raise. Sequencing, `try`/`except` and `try`/`finally` are
the usual ones, so a coroutine is written down as it stands and every `await` in
it is one `perform`.

`Runs p trace result` is what the program can do under any environment: `trace`
lists the operations with their answers. The inversion rules (`runs_bind_iff`,
`runs_rescue_iff`, `runs_attempt_iff`) take a run of a composed program apart.

`Forwards` says of a program without a handler where its exceptions come from.

`runWith environment p n` is the run against one environment, which answers the
n-th operation or never does; a program whose operation is never answered is
stuck there (`none`). `runWith_runs` connects it to `Runs`, and `runWith_total`
shows that a program is never stuck when all that it may ask is answered (`Asks`).
Where the answers do not depend on the moment, `outcome` computes how a program
ends, by rules for each way of composing it.
-/
import Mathlib.Data.List.Basic

namespace InferenceForge.Library

set_option autoImplicit false

variable {Op : Type} {Answer : Op → Type} {ε α β : Type}

inductive Program (Op : Type) (Answer : Op → Type) (ε α : Type) : Type
  | done (value : α)
  | raise (error : ε)
  | ask (op : Op) (next : Answer op → Program Op Answer ε α)

namespace Program

def bind : Program Op Answer ε α → (α → Program Op Answer ε β) → Program Op Answer ε β
  | .done value, f => f value
  | .raise error, _ => .raise error
  | .ask op next, f => .ask op fun answer => (next answer).bind f

instance : Monad (Program Op Answer ε) where
  pure := .done
  bind := .bind

/-- Ask for one operation and return its answer. -/
def perform (op : Op) : Program Op Answer ε (Answer op) := .ask op .done

/-- Ask for an operation whose answer may be an exception, which is then raised. -/
def call (op : Op) (read : Answer op → Except ε α) : Program Op Answer ε α :=
  .ask op fun answer =>
    match read answer with
    | .ok value => .done value
    | .error error => .raise error

/-- `if condition: p`. -/
def when (p : Program Op Answer ε Unit) (condition : Prop) [Decidable condition] :
    Program Op Answer ε Unit :=
  if condition then p else .done ()

/-- `try: p except e: handler e`. -/
def rescue : Program Op Answer ε α → (ε → Program Op Answer ε α) → Program Op Answer ε α
  | .done value, _ => .done value
  | .raise error, handler => handler error
  | .ask op next, handler => .ask op fun answer => (next answer).rescue handler

/-- Run `p` and return how it ended. -/
def attempt : Program Op Answer ε α → Program Op Answer ε (Except ε α)
  | .done value => .done (.ok value)
  | .raise error => .done (.error error)
  | .ask op next => .ask op fun answer => (next answer).attempt

def ofResult : Except ε α → Program Op Answer ε α
  | .ok value => .done value
  | .error error => .raise error

/-- `try: p finally: cleanup`. -/
def tryFinally (p : Program Op Answer ε α) (cleanup : Program Op Answer ε Unit) :
    Program Op Answer ε α := do
  let result ← p.attempt
  cleanup
  ofResult result

end Program

/-- An operation with its answer. -/
abbrev Asked (Op : Type) (Answer : Op → Type) := (op : Op) × Answer op

/-- The complete runs of a program, under any environment. -/
inductive Runs : Program Op Answer ε α → List (Asked Op Answer) → Except ε α → Prop
  | done (value : α) : Runs (.done value) [] (.ok value)
  | raise (error : ε) : Runs (.raise error) [] (.error error)
  | ask {op : Op} {next : Answer op → Program Op Answer ε α} {answer : Answer op}
      {trace : List (Asked Op Answer)} {result : Except ε α}
      (rest : Runs (next answer) trace result) : Runs (.ask op next) (⟨op, answer⟩ :: trace) result

section Inversion

variable {trace : List (Asked Op Answer)}

@[simp] theorem runs_done_iff {value : α} {result : Except ε α} :
    Runs (.done value : Program Op Answer ε α) trace result ↔ trace = [] ∧ result = .ok value := by
  constructor
  · intro ran
    cases ran
    exact ⟨rfl, rfl⟩
  · rintro ⟨rfl, rfl⟩
    exact .done value

@[simp] theorem runs_pure_iff {value : α} {result : Except ε α} :
    Runs (pure value : Program Op Answer ε α) trace result ↔ trace = [] ∧ result = .ok value :=
  runs_done_iff

@[simp] theorem runs_raise_iff {error : ε} {result : Except ε α} :
    Runs (.raise error : Program Op Answer ε α) trace result ↔
      trace = [] ∧ result = .error error := by
  constructor
  · intro ran
    cases ran
    exact ⟨rfl, rfl⟩
  · rintro ⟨rfl, rfl⟩
    exact .raise error

theorem runs_ask_iff {op : Op} {next : Answer op → Program Op Answer ε α} {result : Except ε α} :
    Runs (.ask op next) trace result ↔
      ∃ answer rest, trace = ⟨op, answer⟩ :: rest ∧ Runs (next answer) rest result := by
  constructor
  · intro ran
    cases ran with
    | ask rest => exact ⟨_, _, rfl, rest⟩
  · rintro ⟨answer, rest, rfl, ran⟩
    exact .ask ran

@[simp] theorem runs_perform_iff {op : Op} {result : Except ε (Answer op)} :
    Runs (.perform op : Program Op Answer ε (Answer op)) trace result ↔
      ∃ answer, trace = [⟨op, answer⟩] ∧ result = .ok answer := by
  simp only [Program.perform, runs_ask_iff, runs_done_iff]
  constructor
  · rintro ⟨answer, rest, rfl, rfl, rfl⟩
    exact ⟨answer, rfl, rfl⟩
  · rintro ⟨answer, rfl, rfl⟩
    exact ⟨answer, [], rfl, rfl, rfl⟩

/-- A run of a sequence raises in its first part, or completes it and goes on. -/
theorem runs_bind_iff {p : Program Op Answer ε α} {f : α → Program Op Answer ε β}
    {result : Except ε β} :
    Runs (p >>= f) trace result ↔
      (∃ error, Runs p trace (.error error) ∧ result = .error error) ∨
      ∃ value before after, trace = before ++ after ∧ Runs p before (.ok value) ∧
        Runs (f value) after result := by
  change Runs (p.bind f) trace result ↔ _
  induction p generalizing trace with
  | done value =>
      simp only [Program.bind, runs_done_iff]
      constructor
      · exact fun ran => .inr ⟨value, [], trace, rfl, ⟨rfl, rfl⟩, ran⟩
      · rintro (⟨_, ⟨_, impossible⟩, _⟩ | ⟨_, _, after, rfl, ⟨rfl, same⟩, ran⟩)
        · cases impossible
        · cases same
          exact ran
  | raise error =>
      simp only [Program.bind, runs_raise_iff]
      constructor
      · rintro ⟨rfl, rfl⟩
        exact .inl ⟨error, ⟨rfl, rfl⟩, rfl⟩
      · rintro (⟨_, ⟨rfl, same⟩, rfl⟩ | ⟨_, _, _, _, ⟨_, impossible⟩, _⟩)
        · cases same
          exact ⟨rfl, rfl⟩
        · cases impossible
  | ask op next ih =>
      simp only [Program.bind, runs_ask_iff]
      constructor
      · rintro ⟨answer, rest, rfl, ran⟩
        rcases (ih answer).mp ran with ⟨error, raised, rfl⟩ | ⟨value, before, after, rfl, first, second⟩
        · exact .inl ⟨error, ⟨answer, rest, rfl, raised⟩, rfl⟩
        · exact .inr ⟨value, _ :: before, after, rfl, ⟨answer, before, rfl, first⟩, second⟩
      · rintro (⟨error, ⟨answer, rest, rfl, raised⟩, rfl⟩ |
          ⟨value, _, after, rfl, ⟨answer, before, rfl, first⟩, second⟩)
        · exact ⟨answer, rest, rfl, (ih answer).mpr (.inl ⟨error, raised, rfl⟩)⟩
        · exact ⟨answer, before ++ after, rfl,
            (ih answer).mpr (.inr ⟨value, before, after, rfl, first, second⟩)⟩

/-- A sequence that starts by performing an operation. -/
theorem runs_perform_bind_iff {op : Op} {f : Answer op → Program Op Answer ε β}
    {result : Except ε β} :
    Runs ((.perform op : Program Op Answer ε (Answer op)) >>= f) trace result ↔
      ∃ answer rest, trace = ⟨op, answer⟩ :: rest ∧ Runs (f answer) rest result :=
  runs_ask_iff

theorem runs_call_iff {op : Op} {read : Answer op → Except ε α} {result : Except ε α} :
    Runs (.call op read : Program Op Answer ε α) trace result ↔
      ∃ answer, trace = [⟨op, answer⟩] ∧ result = read answer := by
  simp only [Program.call, runs_ask_iff]
  constructor
  · rintro ⟨answer, rest, rfl, ran⟩
    refine ⟨answer, ?_⟩
    cases given : read answer <;> simp_all
  · rintro ⟨answer, rfl, rfl⟩
    refine ⟨answer, [], rfl, ?_⟩
    cases given : read answer <;> simp

/-- A sequence that starts with a call raises there or goes on with its value. -/
theorem runs_call_bind_iff {op : Op} {read : Answer op → Except ε α}
    {f : α → Program Op Answer ε β} {result : Except ε β} :
    Runs ((.call op read : Program Op Answer ε α) >>= f) trace result ↔
      (∃ answer error, read answer = .error error ∧ trace = [⟨op, answer⟩] ∧
        result = .error error) ∨
      ∃ answer value rest, read answer = .ok value ∧ trace = ⟨op, answer⟩ :: rest ∧
        Runs (f value) rest result := by
  rw [runs_bind_iff]
  simp only [runs_call_iff]
  constructor
  · rintro (⟨error, ⟨answer, rfl, raised⟩, rfl⟩ |
      ⟨value, _, after, rfl, ⟨answer, rfl, given⟩, ran⟩)
    · exact .inl ⟨answer, error, raised.symm, rfl, rfl⟩
    · exact .inr ⟨answer, value, after, given.symm, rfl, ran⟩
  · rintro (⟨answer, error, raised, rfl, rfl⟩ | ⟨answer, value, rest, given, rfl, ran⟩)
    · exact .inl ⟨error, ⟨answer, rfl, raised.symm⟩, rfl⟩
    · exact .inr ⟨value, [_], rest, rfl, ⟨answer, rfl, given.symm⟩, ran⟩

@[simp] theorem runs_attempt_iff {p : Program Op Answer ε α} {result : Except ε (Except ε α)} :
    Runs p.attempt trace result ↔ ∃ inner, result = .ok inner ∧ Runs p trace inner := by
  induction p generalizing trace with
  | done value =>
      simp only [Program.attempt, runs_done_iff]
      constructor
      · rintro ⟨rfl, rfl⟩
        exact ⟨_, rfl, rfl, rfl⟩
      · rintro ⟨_, rfl, rfl, rfl⟩
        exact ⟨rfl, rfl⟩
  | raise error =>
      simp only [Program.attempt, runs_done_iff, runs_raise_iff]
      constructor
      · rintro ⟨rfl, rfl⟩
        exact ⟨_, rfl, rfl, rfl⟩
      · rintro ⟨_, rfl, rfl, rfl⟩
        exact ⟨rfl, rfl⟩
  | ask op next ih =>
      simp only [Program.attempt, runs_ask_iff]
      constructor
      · rintro ⟨answer, rest, rfl, ran⟩
        obtain ⟨inner, rfl, ended⟩ := (ih answer).mp ran
        exact ⟨inner, rfl, answer, rest, rfl, ended⟩
      · rintro ⟨inner, rfl, answer, rest, rfl, ran⟩
        exact ⟨answer, rest, rfl, (ih answer).mpr ⟨inner, rfl, ran⟩⟩

@[simp] theorem runs_ofResult_iff {outcome result : Except ε α} :
    Runs (.ofResult outcome : Program Op Answer ε α) trace result ↔
      trace = [] ∧ result = outcome := by
  cases outcome <;> simp [Program.ofResult]

theorem runs_when_iff {condition : Prop} [Decidable condition] {p : Program Op Answer ε Unit}
    {result : Except ε Unit} :
    Runs (p.when condition) trace result ↔
      (condition ∧ Runs p trace result) ∨ (¬ condition ∧ trace = [] ∧ result = .ok ()) := by
  unfold Program.when
  by_cases holds : condition <;> simp [holds]

/-- A run of `try`/`except` completes the body, or raises in it and handles. -/
theorem runs_rescue_iff {p : Program Op Answer ε α} {handler : ε → Program Op Answer ε α}
    {result : Except ε α} :
    Runs (p.rescue handler) trace result ↔
      (∃ value, Runs p trace (.ok value) ∧ result = .ok value) ∨
      ∃ error before after, trace = before ++ after ∧ Runs p before (.error error) ∧
        Runs (handler error) after result := by
  induction p generalizing trace with
  | done value =>
      simp only [Program.rescue, runs_done_iff]
      constructor
      · rintro ⟨rfl, rfl⟩
        exact .inl ⟨value, ⟨rfl, rfl⟩, rfl⟩
      · rintro (⟨_, ⟨rfl, same⟩, rfl⟩ | ⟨_, _, _, _, ⟨_, impossible⟩, _⟩)
        · cases same
          exact ⟨rfl, rfl⟩
        · cases impossible
  | raise error =>
      simp only [Program.rescue, runs_raise_iff]
      constructor
      · exact fun ran => .inr ⟨error, [], trace, rfl, ⟨rfl, rfl⟩, ran⟩
      · rintro (⟨_, ⟨_, impossible⟩, _⟩ | ⟨_, _, after, rfl, ⟨rfl, same⟩, ran⟩)
        · cases impossible
        · cases same
          exact ran
  | ask op next ih =>
      simp only [Program.rescue, runs_ask_iff]
      constructor
      · rintro ⟨answer, rest, rfl, ran⟩
        rcases (ih answer).mp ran with ⟨value, first, rfl⟩ | ⟨error, before, after, rfl, first, second⟩
        · exact .inl ⟨value, ⟨answer, rest, rfl, first⟩, rfl⟩
        · exact .inr ⟨error, _ :: before, after, rfl, ⟨answer, before, rfl, first⟩, second⟩
      · rintro (⟨value, ⟨answer, rest, rfl, first⟩, rfl⟩ |
          ⟨error, _, after, rfl, ⟨answer, before, rfl, first⟩, second⟩)
        · exact ⟨answer, rest, rfl, (ih answer).mpr (.inl ⟨value, first, rfl⟩)⟩
        · exact ⟨answer, before ++ after, rfl,
            (ih answer).mpr (.inr ⟨error, before, after, rfl, first, second⟩)⟩

/-- A run of `try`/`finally` whose cleanup does not raise ends as its body does. -/
theorem runs_tryFinally_iff {p : Program Op Answer ε α} {cleanup : Program Op Answer ε Unit}
    (quiet : ∀ error after, ¬ Runs cleanup after (.error error)) {result : Except ε α} :
    Runs (p.tryFinally cleanup) trace result ↔
      ∃ before after, trace = before ++ after ∧ Runs p before result ∧
        Runs cleanup after (.ok ()) := by
  unfold Program.tryFinally
  simp only [runs_bind_iff, runs_attempt_iff, runs_ofResult_iff]
  constructor
  · rintro (⟨_, ⟨_, impossible, _⟩, _⟩ | ⟨_, before, _, rfl, ⟨_, same, ran⟩, cleaned⟩)
    · cases impossible
    · cases same
      rcases cleaned with ⟨_, raised, _⟩ | ⟨_, after, _, rfl, done, rfl, rfl⟩
      · exact absurd raised (quiet _ _)
      · exact ⟨before, after, by rw [List.append_nil], ran, done⟩
  · rintro ⟨before, after, rfl, ran, done⟩
    exact .inr ⟨result, before, after, rfl, ⟨result, rfl, ran⟩,
      .inr ⟨(), after, [], by rw [List.append_nil], done, rfl, rfl⟩⟩

/-- The answers determine how a run ends. -/
theorem Runs.unique {p : Program Op Answer ε α} {result other : Except ε α} (ran : Runs p trace result)
    (again : Runs p trace other) : other = result := by
  induction ran with
  | done value => exact (runs_done_iff.mp again).2
  | raise error => exact (runs_raise_iff.mp again).2
  | ask rest ih =>
      cases again with
      | ask rest' => exact ih rest'

end Inversion

/-! ## What a program returns -/

section Returns

/-- Every value the program may return satisfies `Q`. -/
def Program.Returns (Q : α → Prop) (p : Program Op Answer ε α) : Prop :=
  ∀ trace value, Runs p trace (.ok value) → Q value

theorem returns_pure {Q : α → Prop} {value : α} (holds : Q value) :
    (pure value : Program Op Answer ε α).Returns Q := by
  intro trace other ran
  cases (runs_pure_iff.mp ran).2
  exact holds

theorem returns_raise {Q : α → Prop} {error : ε} :
    (Program.raise error : Program Op Answer ε α).Returns Q := by
  intro trace value ran
  cases (runs_raise_iff.mp ran).2

theorem returns_bind_of {P : α → Prop} {Q : β → Prop} {p : Program Op Answer ε α}
    {f : α → Program Op Answer ε β} (first : p.Returns P)
    (second : ∀ value, P value → (f value).Returns Q) : (p >>= f).Returns Q := by
  intro trace result ran
  rcases runs_bind_iff.mp ran with ⟨_, _, impossible⟩ | ⟨value, before, after, _, ran, rest⟩
  · cases impossible
  · exact second value (first before value ran) after result rest

theorem returns_bind {Q : β → Prop} {p : Program Op Answer ε α} {f : α → Program Op Answer ε β}
    (second : ∀ value, (f value).Returns Q) : (p >>= f).Returns Q :=
  returns_bind_of (P := fun _ => True) (fun _ _ _ => trivial) fun value _ => second value

theorem returns_rescue {Q : α → Prop} {p : Program Op Answer ε α}
    {handler : ε → Program Op Answer ε α} (body : p.Returns Q)
    (handled : ∀ error, (handler error).Returns Q) : (p.rescue handler).Returns Q := by
  intro trace result ran
  rcases runs_rescue_iff.mp ran with ⟨value, ran, same⟩ | ⟨error, _, after, _, _, rest⟩
  · cases same
    exact body trace result ran
  · exact handled error after result rest

end Returns

/-! ## Where an exception comes from -/

section Forwards

/-- The exception an operation of a run ends with, if it does. -/
abbrev Fault (Op : Type) (Answer : Op → Type) (ε : Type) := Asked Op Answer → Option ε

/-- No operation of the trace ended with an exception. -/
def Faultless (fault : Fault Op Answer ε) (trace : List (Asked Op Answer)) : Prop :=
  ∀ asked ∈ trace, fault asked = none

/-- The trace stops at its first fault, which is the exception. -/
def StopsAt (fault : Fault Op Answer ε) (trace : List (Asked Op Answer)) (error : ε) : Prop :=
  ∃ before last, trace = before ++ [last] ∧ Faultless fault before ∧ fault last = some error

/-- The program catches nothing: it ends at the first operation that ends with an
exception, with that exception. Those it raises by itself satisfy `own`. -/
structure Program.Forwards (fault : Fault Op Answer ε) (own : ε → Prop)
    (p : Program Op Answer ε α) : Prop where
  value : ∀ {trace : List (Asked Op Answer)} {value : α}, Runs p trace (.ok value) → Faultless fault trace
  error : ∀ {trace : List (Asked Op Answer)} {error : ε}, Runs p trace (.error error) →
    (Faultless fault trace ∧ own error) ∨ StopsAt fault trace error

variable {fault : Fault Op Answer ε} {own : ε → Prop}

theorem Faultless.append {before after : List (Asked Op Answer)} :
    Faultless fault (before ++ after) ↔ Faultless fault before ∧ Faultless fault after :=
  List.forall_mem_append

theorem forwards_pure (value : α) : (pure value : Program Op Answer ε α).Forwards fault own where
  value ran := by
    obtain ⟨rfl, _⟩ := runs_pure_iff.mp ran
    simp [Faultless]
  error ran := by
    obtain ⟨_, impossible⟩ := runs_pure_iff.mp ran
    cases impossible

/-- An operation whose answer the program reads as its exception or its value. -/
theorem forwards_call {op : Op} {read : Answer op → Except ε α}
    (faults : ∀ answer, fault ⟨op, answer⟩ = match read answer with
      | .ok _ => none
      | .error error => some error) : (Program.call op read : Program Op Answer ε α).Forwards fault own where
  value ran := by
    obtain ⟨answer, rfl, given⟩ := runs_call_iff.mp ran
    have quiet := faults answer
    rw [← given] at quiet
    simpa [Faultless] using quiet
  error ran := by
    obtain ⟨answer, rfl, given⟩ := runs_call_iff.mp ran
    have raised := faults answer
    rw [← given] at raised
    exact .inr ⟨[], ⟨op, answer⟩, rfl, by simp [Faultless], raised⟩

theorem forwards_perform {op : Op} (quiet : ∀ answer, fault ⟨op, answer⟩ = none) :
    (Program.perform op : Program Op Answer ε (Answer op)).Forwards fault own where
  value ran := by
    obtain ⟨answer, rfl, _⟩ := runs_perform_iff.mp ran
    simpa [Faultless] using quiet answer
  error ran := by
    obtain ⟨_, _, impossible⟩ := runs_perform_iff.mp ran
    cases impossible

theorem forwards_bind {p : Program Op Answer ε α} {f : α → Program Op Answer ε β}
    (first : p.Forwards fault own) (second : ∀ value, (f value).Forwards fault own) :
    (p >>= f).Forwards fault own where
  value ran := by
    rcases runs_bind_iff.mp ran with ⟨_, _, impossible⟩ | ⟨value, before, after, rfl, begun, rest⟩
    · cases impossible
    · exact Faultless.append.mpr ⟨first.value begun, (second value).value rest⟩
  error ran := by
    rcases runs_bind_iff.mp ran with ⟨error, raised, same⟩ | ⟨value, before, after, rfl, begun, rest⟩
    · cases same
      exact first.error raised
    · refine ((second value).error rest).imp ?_ ?_
      · exact fun ⟨quiet, owned⟩ => ⟨Faultless.append.mpr ⟨first.value begun, quiet⟩, owned⟩
      · rintro ⟨middle, last, rfl, quiet, raised⟩
        exact ⟨before ++ middle, last, (List.append_assoc ..).symm,
          Faultless.append.mpr ⟨first.value begun, quiet⟩, raised⟩

end Forwards

/-! ## One environment -/

section Environment

/-- `environment n op` answers `op` as the `n`-th operation, or never (`none`). -/
abbrev Environment (Op : Type) (Answer : Op → Type) := ℕ → (op : Op) → Option (Answer op)

/-- Run `p` from its `n`-th operation on; `none` when it is stuck. -/
def runWith (environment : Environment Op Answer) :
    Program Op Answer ε α → ℕ → List (Asked Op Answer) × Option (Except ε α)
  | .done value, _ => ([], some (.ok value))
  | .raise error, _ => ([], some (.error error))
  | .ask op next, n =>
      match environment n op with
      | none => ([], none)
      | some answer =>
          let rest := runWith environment (next answer) (n + 1)
          (⟨op, answer⟩ :: rest.1, rest.2)

/-- The trace, from the `n`-th operation on, is what the environment answers. -/
def Answered (environment : Environment Op Answer) : ℕ → List (Asked Op Answer) → Prop
  | _, [] => True
  | n, asked :: rest =>
      environment n asked.1 = some asked.2 ∧ Answered environment (n + 1) rest

/-- Every operation the program may ever ask for satisfies `P`. -/
def Program.Asks (P : Op → Prop) : Program Op Answer ε α → Prop
  | .done _ => True
  | .raise _ => True
  | .ask op next => P op ∧ ∀ answer, (next answer).Asks P

variable {environment : Environment Op Answer}

/-- A run that is not stuck is a run of the program, answered by the environment. -/
theorem runWith_runs {p : Program Op Answer ε α} {n : ℕ} {result : Except ε α}
    (ended : (runWith environment p n).2 = some result) :
    Runs p (runWith environment p n).1 result ∧ Answered environment n (runWith environment p n).1 := by
  induction p generalizing n with
  | done value =>
      cases ended
      exact ⟨.done value, trivial⟩
  | raise error =>
      cases ended
      exact ⟨.raise error, trivial⟩
  | ask op next ih =>
      cases given : environment n op with
      | none => simp [runWith, given] at ended
      | some answer =>
          simp only [runWith, given] at ended ⊢
          obtain ⟨ran, answered⟩ := ih answer ended
          exact ⟨.ask ran, given, answered⟩

theorem Answered.of_mem {trace : List (Asked Op Answer)} {asked : Asked Op Answer} {n : ℕ}
    (answered : Answered environment n trace) (member : asked ∈ trace) :
    ∃ k, environment k asked.1 = some asked.2 := by
  induction trace generalizing n with
  | nil => cases member
  | cons first rest ih =>
      rcases List.mem_cons.mp member with rfl | later
      · exact ⟨n, answered.1⟩
      · exact ih answered.2 later

theorem asks_bind {P : Op → Prop} {p : Program Op Answer ε α} {f : α → Program Op Answer ε β}
    (first : p.Asks P) (second : ∀ value, (f value).Asks P) : (p >>= f).Asks P := by
  change (p.bind f).Asks P
  induction p with
  | done value => exact second value
  | raise error => trivial
  | ask op next ih => exact ⟨first.1, fun answer => ih answer (first.2 answer)⟩

theorem asks_perform {P : Op → Prop} {op : Op} (holds : P op) :
    (Program.perform op : Program Op Answer ε (Answer op)).Asks P :=
  ⟨holds, fun _ => trivial⟩

theorem asks_when {P : Op → Prop} {condition : Prop} [Decidable condition]
    {p : Program Op Answer ε Unit} (body : p.Asks P) : (p.when condition).Asks P := by
  unfold Program.when
  split
  · exact body
  · trivial

theorem asks_call {P : Op → Prop} {op : Op} (holds : P op) {read : Answer op → Except ε α} :
    (Program.call op read : Program Op Answer ε α).Asks P := by
  refine ⟨holds, fun answer => ?_⟩
  dsimp only
  split <;> trivial

theorem asks_ofResult {P : Op → Prop} (result : Except ε α) :
    (Program.ofResult result : Program Op Answer ε α).Asks P := by
  cases result <;> trivial

theorem asks_rescue {P : Op → Prop} {p : Program Op Answer ε α}
    {handler : ε → Program Op Answer ε α} (body : p.Asks P)
    (handled : ∀ error, (handler error).Asks P) : (p.rescue handler).Asks P := by
  induction p with
  | done value => trivial
  | raise error => exact handled error
  | ask op next ih => exact ⟨body.1, fun answer => ih answer (body.2 answer)⟩

theorem asks_attempt {P : Op → Prop} {p : Program Op Answer ε α} (body : p.Asks P) :
    p.attempt.Asks P := by
  induction p with
  | done value => trivial
  | raise error => trivial
  | ask op next ih => exact ⟨body.1, fun answer => ih answer (body.2 answer)⟩

theorem Program.Asks.mono {P Q : Op → Prop} (weaker : ∀ op, P op → Q op) {p : Program Op Answer ε α}
    (asks : p.Asks P) : p.Asks Q := by
  induction p with
  | done value => trivial
  | raise error => trivial
  | ask op next ih => exact ⟨weaker op asks.1, fun answer => ih answer (asks.2 answer)⟩

/-- A run performs only operations the program may ask for. -/
theorem Program.Asks.of_runs {P : Op → Prop} {p : Program Op Answer ε α} {result : Except ε α}
    {trace : List (Asked Op Answer)} (asks : p.Asks P) (ran : Runs p trace result) :
    ∀ asked ∈ trace, P asked.1 := by
  induction ran with
  | done value => simp
  | raise error => simp
  | ask rest ih =>
      intro asked member
      rcases List.mem_cons.mp member with rfl | later
      · exact asks.1
      · exact ih (asks.2 _) asked later

/-- A program whose operations are all answered is never stuck. -/
theorem runWith_total {P : Op → Prop} (answers : ∀ op, P op → ∀ n, (environment n op).isSome)
    {p : Program Op Answer ε α} (asks : p.Asks P) (n : ℕ) :
    ∃ result, (runWith environment p n).2 = some result := by
  induction p generalizing n with
  | done value => exact ⟨_, rfl⟩
  | raise error => exact ⟨_, rfl⟩
  | ask op next ih =>
      obtain ⟨answer, given⟩ := Option.isSome_iff_exists.mp (answers op asks.1 n)
      obtain ⟨result, ended⟩ := ih answer (asks.2 answer) (n + 1)
      exact ⟨result, by simp only [runWith, given, ended]⟩

end Environment

/-! ## Answers that do not depend on the moment -/

section Oracle

variable (oracle : (op : Op) → Option (Answer op))

/-- How the program ends when `oracle` answers; `none` when it is stuck. -/
def Program.outcome : Program Op Answer ε α → Option (Except ε α)
  | .done value => some (.ok value)
  | .raise error => some (.error error)
  | .ask op next => (oracle op).bind fun answer => (next answer).outcome

variable {oracle}

@[simp] theorem outcome_pure (value : α) :
    (pure value : Program Op Answer ε α).outcome oracle = some (.ok value) := rfl

@[simp] theorem outcome_raise (error : ε) :
    (Program.raise error : Program Op Answer ε α).outcome oracle = some (.error error) := rfl

@[simp] theorem outcome_perform (op : Op) :
    (Program.perform op : Program Op Answer ε (Answer op)).outcome oracle =
      (oracle op).map .ok := by
  cases given : oracle op <;> simp [Program.perform, Program.outcome, given]

@[simp] theorem outcome_call (op : Op) (read : Answer op → Except ε α) :
    (Program.call op read : Program Op Answer ε α).outcome oracle = (oracle op).map read := by
  cases given : oracle op with
  | none => simp [Program.call, Program.outcome, given]
  | some answer =>
      simp only [Program.call, Program.outcome, given, Option.bind_some, Option.map_some]
      cases read answer <;> rfl

@[simp] theorem outcome_ofResult (result : Except ε α) :
    (Program.ofResult result : Program Op Answer ε α).outcome oracle = some result := by
  cases result <;> rfl

@[simp] theorem outcome_bind (p : Program Op Answer ε α) (f : α → Program Op Answer ε β) :
    (p >>= f).outcome oracle =
      (p.outcome oracle).bind fun
        | .ok value => (f value).outcome oracle
        | .error error => some (.error error) := by
  change (p.bind f).outcome oracle = _
  induction p with
  | done value => rfl
  | raise error => rfl
  | ask op next ih =>
      cases given : oracle op with
      | none => simp [Program.bind, Program.outcome, given]
      | some answer => simpa [Program.bind, Program.outcome, given] using ih answer

@[simp] theorem outcome_when (p : Program Op Answer ε Unit) (condition : Prop)
    [Decidable condition] :
    (p.when condition).outcome oracle = if condition then p.outcome oracle else some (.ok ()) := by
  unfold Program.when
  split <;> rfl

@[simp] theorem outcome_rescue (p : Program Op Answer ε α) (handler : ε → Program Op Answer ε α) :
    (p.rescue handler).outcome oracle =
      (p.outcome oracle).bind fun
        | .ok value => some (.ok value)
        | .error error => (handler error).outcome oracle := by
  induction p with
  | done value => rfl
  | raise error => rfl
  | ask op next ih =>
      cases given : oracle op with
      | none => simp [Program.rescue, Program.outcome, given]
      | some answer => simpa [Program.rescue, Program.outcome, given] using ih answer

@[simp] theorem outcome_attempt (p : Program Op Answer ε α) :
    p.attempt.outcome oracle = (p.outcome oracle).map .ok := by
  induction p with
  | done value => rfl
  | raise error => rfl
  | ask op next ih =>
      cases given : oracle op with
      | none => simp [Program.attempt, Program.outcome, given]
      | some answer => simpa [Program.attempt, Program.outcome, given] using ih answer

/-- The outcome is that of a run whose operations the oracle answers. -/
theorem outcome_runs {p : Program Op Answer ε α} {result : Except ε α}
    (ended : p.outcome oracle = some result) :
    ∃ trace, Runs p trace result ∧ ∀ asked ∈ trace, oracle asked.1 = some asked.2 := by
  induction p with
  | done value =>
      cases ended
      exact ⟨[], .done value, by simp⟩
  | raise error =>
      cases ended
      exact ⟨[], .raise error, by simp⟩
  | ask op next ih =>
      obtain ⟨answer, given, rest⟩ := Option.bind_eq_some_iff.mp ended
      obtain ⟨trace, ran, answered⟩ := ih answer rest
      refine ⟨⟨op, answer⟩ :: trace, .ask ran, ?_⟩
      rintro asked member
      rcases List.mem_cons.mp member with rfl | later
      · exact given
      · exact answered asked later

theorem outcome_of_runs {p : Program Op Answer ε α} {trace : List (Asked Op Answer)}
    {result : Except ε α} (ran : Runs p trace result)
    (answered : ∀ asked ∈ trace, oracle asked.1 = some asked.2) : p.outcome oracle = some result := by
  induction ran with
  | done value => rfl
  | raise error => rfl
  | ask rest ih =>
      have given := answered _ List.mem_cons_self
      simp only at given
      rw [Program.outcome, given]
      exact ih fun asked member => answered asked (List.mem_cons_of_mem _ member)

end Oracle

end InferenceForge.Library
