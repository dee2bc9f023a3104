/-
# InferenceForge.Library.Pool — programs that share a state

A `Pool` runs a family of programs against one shared state. An event names the
program that goes on: its pending operation is served, atomically, by `serve`,
which sees the shared state and what this program was answered before. A list of
names is a schedule, and every interleaving is one (`exec` of
`InferenceForge.Library.Run`).

Every program of a pool has done, in its own order, something it can do:
`Faithful` says that the recorded trace leads from its start to where it is now.
What holds of the complete runs of a program therefore holds of what it has done
so far (`Leads.extend`).
-/
import InferenceForge.Library.Program
import InferenceForge.Library.Run
import Mathlib.Algebra.BigOperators.Group.Finset.Basic
import Mathlib.Logic.Function.Basic

namespace InferenceForge.Library

set_option autoImplicit false

variable {Op : Type} {Answer : Op → Type} {ε α ι σ : Type}

/-- `p` performs `trace` and is `q` then. -/
inductive Leads : Program Op Answer ε α → List (Asked Op Answer) → Program Op Answer ε α → Prop
  | refl (p : Program Op Answer ε α) : Leads p [] p
  | ask {op : Op} {next : Answer op → Program Op Answer ε α} {answer : Answer op}
      {trace : List (Asked Op Answer)} {q : Program Op Answer ε α}
      (rest : Leads (next answer) trace q) : Leads (.ask op next) (⟨op, answer⟩ :: trace) q

section Leads

variable {p q : Program Op Answer ε α} {trace : List (Asked Op Answer)}

theorem Leads.concat {op : Op} {next : Answer op → Program Op Answer ε α}
    (leads : Leads p trace (.ask op next)) (answer : Answer op) :
    Leads p (trace ++ [⟨op, answer⟩]) (next answer) := by
  generalize pending : Program.ask op next = r at leads
  induction leads with
  | refl p =>
      subst pending
      exact .ask (.refl _)
  | ask rest ih => exact .ask (ih pending)

theorem Leads.trans {r : Program Op Answer ε α} {later : List (Asked Op Answer)} (leads : Leads p trace q)
    (rest : Leads q later r) : Leads p (trace ++ later) r := by
  induction leads with
  | refl p => exact rest
  | ask _ ih => exact .ask (ih rest)

theorem Leads.runs (leads : Leads p trace q) {rest : List (Asked Op Answer)}
    {result : Except ε α} (ran : Runs q rest result) : Runs p (trace ++ rest) result := by
  induction leads with
  | refl p => exact ran
  | ask _ ih => exact .ask (ih ran)

theorem Leads.runs_done {value : α} (leads : Leads p trace (.done value)) :
    Runs p trace (.ok value) := by
  simpa using leads.runs (.done value)

theorem Leads.runs_raise {error : ε} (leads : Leads p trace (.raise error)) :
    Runs p trace (.error error) := by
  simpa using leads.runs (.raise error)

theorem leads_of_runs {value : α} (ran : Runs p trace (.ok value)) : Leads p trace (.done value) := by
  generalize outcome : Except.ok value = result at ran
  induction ran with
  | done _ =>
      cases outcome
      exact .refl _
  | raise _ => cases outcome
  | ask _ ih => exact .ask (ih outcome)

theorem exists_runs [∀ op, Nonempty (Answer op)] (q : Program Op Answer ε α) :
    ∃ trace result, Runs q trace result := by
  induction q with
  | done value => exact ⟨[], _, .done value⟩
  | raise error => exact ⟨[], _, .raise error⟩
  | ask op next ih =>
      obtain ⟨trace, result, ran⟩ := ih (Classical.arbitrary (Answer op))
      exact ⟨_ :: trace, result, .ask ran⟩

/-- What was done so far is the beginning of a complete run. -/
theorem Leads.extend [∀ op, Nonempty (Answer op)] (leads : Leads p trace q) :
    ∃ rest result, Runs q rest result ∧ Runs p (trace ++ rest) result := by
  obtain ⟨rest, result, ran⟩ := exists_runs q
  exact ⟨rest, result, ran, leads.runs ran⟩

end Leads

/-! ## Pools -/

structure Pool (Op : Type) (Answer : Op → Type) (ε α ι σ : Type) where
  shared : σ
  threads : ι → Program Op Answer ε α
  traces : ι → List (Asked Op Answer)

/-- How the pending operation of a program is served: the answer and the shared
state after it, or `none` when it has to wait. -/
abbrev Serve (Op : Type) (Answer : Op → Type) (ι σ : Type) :=
  ι → List (Asked Op Answer) → σ → (op : Op) → Option (Answer op × σ)

namespace Pool

variable [DecidableEq ι]

def init (shared : σ) (start : ι → Program Op Answer ε α) : Pool Op Answer ε α ι σ where
  shared := shared
  threads := start
  traces := fun _ => []

/-- Program `i` was answered `answer` and the shared state is `shared` then. -/
def served (w : Pool Op Answer ε α ι σ) (i : ι) (op : Op) (answer : Answer op)
    (next : Program Op Answer ε α) (shared : σ) : Pool Op Answer ε α ι σ where
  shared := shared
  threads := Function.update w.threads i next
  traces := Function.update w.traces i (w.traces i ++ [⟨op, answer⟩])

def step (serve : Serve Op Answer ι σ) (w : Pool Op Answer ε α ι σ) (i : ι) :
    Option (Pool Op Answer ε α ι σ) :=
  match w.threads i with
  | .ask op next =>
      (serve i (w.traces i) w.shared op).map fun reply => w.served i op reply.1 (next reply.1) reply.2
  | _ => none

variable {serve : Serve Op Answer ι σ} {w w' : Pool Op Answer ε α ι σ} {i : ι}

/-- What a step can do. -/
theorem step_cases (stepped : step serve w i = some w') :
    ∃ op next answer shared, w.threads i = .ask op next ∧
      serve i (w.traces i) w.shared op = some (answer, shared) ∧
      w' = w.served i op answer (next answer) shared := by
  unfold step at stepped
  split at stepped
  · next op next pending =>
      obtain ⟨⟨answer, shared⟩, given, rfl⟩ := Option.map_eq_some_iff.mp stepped
      exact ⟨op, next, answer, shared, pending, given, rfl⟩
  · cases stepped

section Served

variable {op : Op} {answer : Answer op} {next : Program Op Answer ε α} {shared : σ} {j : ι}

@[simp] theorem served_shared : (w.served i op answer next shared).shared = shared := rfl

@[simp] theorem served_traces_self :
    (w.served i op answer next shared).traces i = w.traces i ++ [⟨op, answer⟩] :=
  Function.update_self ..

theorem served_traces_of_ne (ne : j ≠ i) :
    (w.served i op answer next shared).traces j = w.traces j :=
  Function.update_of_ne ne ..

@[simp] theorem served_threads_self : (w.served i op answer next shared).threads i = next :=
  Function.update_self ..

theorem served_threads_of_ne (ne : j ≠ i) :
    (w.served i op answer next shared).threads j = w.threads j :=
  Function.update_of_ne ne ..

/-- Nothing a program has done is forgotten. -/
theorem mem_served {asked : Asked Op Answer} (member : asked ∈ w.traces j) :
    asked ∈ (w.served i op answer next shared).traces j := by
  by_cases same : j = i
  · subst same
    rw [served_traces_self]
    exact List.mem_append_left _ member
  · rwa [served_traces_of_ne same]

/-- What is new in a trace is the operation just served. -/
theorem mem_served_cases {asked : Asked Op Answer}
    (member : asked ∈ (w.served i op answer next shared).traces j) :
    asked ∈ w.traces j ∨ (j = i ∧ asked = ⟨op, answer⟩) := by
  by_cases same : j = i
  · subst same
    rw [served_traces_self] at member
    rcases List.mem_append.mp member with before | now
    · exact .inl before
    · exact .inr ⟨rfl, List.mem_singleton.mp now⟩
  · rw [served_traces_of_ne same] at member
    exact .inl member

/-- A sum over the programs, after a step of program `i`. -/
theorem sum_served [Fintype ι] {M : Type} [AddCommMonoid M]
    (f : List (Asked Op Answer) → Program Op Answer ε α → M) :
    ∑ j, f ((w.served i op answer next shared).traces j) ((w.served i op answer next shared).threads j) =
      f (w.traces i ++ [⟨op, answer⟩]) next + ∑ j ∈ Finset.univ.erase i, f (w.traces j) (w.threads j) := by
  rw [← Finset.add_sum_erase _ _ (Finset.mem_univ i), served_traces_self, served_threads_self]
  congr 1
  apply Finset.sum_congr rfl
  intro j member
  have other := Finset.ne_of_mem_erase member
  rw [served_traces_of_ne other, served_threads_of_ne other]

/-- What one more step of program `i` adds to a sum over the programs. -/
theorem sum_served_add [Fintype ι] {M : Type} [AddCommMonoid M] (f : List (Asked Op Answer) → M) (added : M)
    (grows : f (w.traces i ++ [⟨op, answer⟩]) = f (w.traces i) + added) :
    ∑ j, f ((w.served i op answer next shared).traces j) = ∑ j, f (w.traces j) + added := by
  rw [sum_served fun trace _ => f trace, grows, add_right_comm,
    Finset.add_sum_erase _ (fun j => f (w.traces j)) (Finset.mem_univ i)]

end Served

/-- Every program is where its trace leads from its start. -/
def Faithful (start : ι → Program Op Answer ε α) (w : Pool Op Answer ε α ι σ) : Prop :=
  ∀ j, Leads (start j) (w.traces j) (w.threads j)

omit [DecidableEq ι] in
theorem faithful_init (shared : σ) (start : ι → Program Op Answer ε α) :
    Faithful start (init shared start) := fun _ => .refl _

theorem Faithful.step {start : ι → Program Op Answer ε α} (faithful : Faithful start w)
    (stepped : step serve w i = some w') : Faithful start w' := by
  obtain ⟨op, next, answer, shared, pending, _, rfl⟩ := step_cases stepped
  intro j
  by_cases same : j = i
  · subst same
    rw [served_traces_self, served_threads_self]
    have leads := faithful j
    rw [pending] at leads
    exact leads.concat answer
  · rw [served_traces_of_ne same, served_threads_of_ne same]
    exact faithful j

/-- A program whose operations are served whenever it asks goes on alone. -/
theorem exec_of_leads {trace : List (Asked Op Answer)} {q : Program Op Answer ε α}
    (leads : Leads (w.threads i) trace q)
    (serves : ∀ asked ∈ trace, ∀ before shared, ∃ shared', serve i before shared asked.1 = some (asked.2, shared')) :
    ∃ w', exec (step serve) w (List.replicate trace.length i) = some w' ∧ w'.threads i = q ∧
      w'.traces i = w.traces i ++ trace := by
  generalize pending : w.threads i = p at leads
  induction leads generalizing w with
  | refl p => exact ⟨w, rfl, pending, (List.append_nil _).symm⟩
  | @ask op next answer trace q rest ih =>
      obtain ⟨here, later⟩ := List.forall_mem_cons.mp serves
      obtain ⟨shared, given⟩ := here (w.traces i) w.shared
      have stepped : step serve w i = some (w.served i op answer (next answer) shared) := by
        unfold step
        rw [pending]
        exact congrArg (Option.map _) given
      obtain ⟨w', ran, ended, traced⟩ := ih (w := w.served i op answer (next answer) shared) later
        served_threads_self
      refine ⟨w', exec_cons_eq_some.mpr ⟨_, stepped, ran⟩, ended, ?_⟩
      rw [traced, served_traces_self, List.append_assoc, List.singleton_append]

/-- What was done along a schedule and by whom, in the order of the steps. -/
def log (serve : Serve Op Answer ι σ) : Pool Op Answer ε α ι σ → List ι → List (ι × Asked Op Answer)
  | _, [] => []
  | w, i :: rest =>
      match w.threads i with
      | .ask op next =>
          match serve i (w.traces i) w.shared op with
          | some (answer, shared) => (i, ⟨op, answer⟩) :: log serve (w.served i op answer (next answer) shared) rest
          | none => []
      | _ => []

theorem log_cons {op : Op} {next : Answer op → Program Op Answer ε α} {answer : Answer op} {shared : σ}
    (pending : w.threads i = .ask op next) (given : serve i (w.traces i) w.shared op = some (answer, shared))
    (rest : List ι) :
    log serve w (i :: rest) = (i, ⟨op, answer⟩) :: log serve (w.served i op answer (next answer) shared) rest := by
  simp only [log, pending, given]

theorem log_append {start : Pool Op Answer ε α ι σ} {schedule : List ι}
    (ran : exec (step serve) start schedule = some w) (later : List ι) :
    log serve start (schedule ++ later) = log serve start schedule ++ log serve w later := by
  induction schedule generalizing start with
  | nil =>
      cases ran
      rfl
  | cons i rest ih =>
      obtain ⟨between, stepped, ran⟩ := exec_cons_eq_some.mp ran
      obtain ⟨op, next, answer, shared, pending, given, rfl⟩ := step_cases stepped
      rw [List.cons_append, log_cons pending given, log_cons pending given, ih ran, List.cons_append]

/-- What every step keeps, of the state and of what was done until then, holds at the end of
the state and the whole log. -/
theorem exec_log {Inv : Pool Op Answer ε α ι σ → List (ι × Asked Op Answer) → Prop}
    (keeps : ∀ w done i op next answer shared, Inv w done → w.threads i = .ask op next →
      serve i (w.traces i) w.shared op = some (answer, shared) →
      Inv (w.served i op answer (next answer) shared) (done ++ [(i, ⟨op, answer⟩)]))
    {start w : Pool Op Answer ε α ι σ} {schedule : List ι} {done : List (ι × Asked Op Answer)}
    (inv : Inv start done) (ran : exec (step serve) start schedule = some w) :
    Inv w (done ++ log serve start schedule) := by
  induction schedule generalizing start done with
  | nil =>
      cases ran
      rwa [log, List.append_nil]
  | cons i rest ih =>
      obtain ⟨between, stepped, later⟩ := exec_cons_eq_some.mp ran
      obtain ⟨op, next, answer, shared, pending, given, rfl⟩ := step_cases stepped
      have whole := ih (keeps _ _ _ _ _ _ _ inv pending given) later
      rwa [List.append_assoc, List.singleton_append, ← log_cons pending given] at whole

/-- From a shared state, a program that goes on alone is answered as the trace says. -/
inductive Alone (serve : Serve Op Answer ι σ) (i : ι) : List (Asked Op Answer) → σ → List (Asked Op Answer) → σ → Prop
  | nil {before : List (Asked Op Answer)} {shared : σ} : Alone serve i before shared [] shared
  | cons {before trace : List (Asked Op Answer)} {shared shared' shared'' : σ} {op : Op} {answer : Answer op}
      (given : serve i before shared op = some (answer, shared'))
      (later : Alone serve i (before ++ [⟨op, answer⟩]) shared' trace shared'') :
      Alone serve i before shared (⟨op, answer⟩ :: trace) shared''

/-- It goes on as its answers lead it. -/
theorem Alone.exec {trace : List (Asked Op Answer)} {q : Program Op Answer ε α} {shared' : σ}
    (alone : Alone serve i (w.traces i) w.shared trace shared') (leads : Leads (w.threads i) trace q) :
    ∃ w', exec (step serve) w (List.replicate trace.length i) = some w' ∧ w'.threads i = q ∧
      w'.traces i = w.traces i ++ trace ∧ w'.shared = shared' ∧
      log serve w (List.replicate trace.length i) = trace.map (i, ·) := by
  generalize started : w.traces i = before at alone
  generalize held : w.shared = shared at alone
  induction alone generalizing w with
  | nil =>
      generalize pending : w.threads i = p at leads
      cases leads
      exact ⟨w, rfl, pending, by rw [started, List.append_nil], held, rfl⟩
  | @cons before trace shared shared' shared'' op answer given later ih =>
      generalize pending : w.threads i = p at leads
      cases leads with
      | @ask _ next _ _ _ rest =>
          have replied : serve i (w.traces i) w.shared op = some (answer, shared') := by rwa [started, held]
          have stepped : step serve w i = some (w.served i op answer (next answer) shared') := by
            unfold step
            rw [pending]
            exact congrArg (Option.map _) replied
          have traced : (w.served i op answer (next answer) shared').traces i = before ++ [⟨op, answer⟩] := by
            rw [served_traces_self, started]
          obtain ⟨w', ran, ended, whole, shared, logged⟩ := @ih (w.served i op answer (next answer) shared')
            (by rwa [served_threads_self]) traced rfl
          refine ⟨w', exec_cons_eq_some.mpr ⟨_, stepped, ran⟩, ended, ?_, shared, ?_⟩
          · rw [whole, List.append_assoc, List.singleton_append]
          · rw [List.length_cons, List.replicate_succ, log_cons pending replied, logged, List.map_cons]

/-- What a program has done is the beginning of what it has done later. -/
theorem traces_prefix {start w : Pool Op Answer ε α ι σ} {schedule : List ι}
    (ran : exec (step serve) start schedule = some w) (i : ι) : start.traces i <+: w.traces i := by
  have keeps : ∀ (w : Pool Op Answer ε α ι σ) j w', start.traces i <+: w.traces i → step serve w j = some w' →
      start.traces i <+: w'.traces i := by
    intro w j w' before stepped
    obtain ⟨op, next, answer, shared, _, _, rfl⟩ := step_cases stepped
    by_cases same : i = j
    · subst same
      rw [served_traces_self]
      exact before.trans (List.prefix_append _ _)
    · rwa [served_traces_of_ne same]
  exact exec_invariant keeps schedule start w (List.prefix_refl _) ran

/-- A program that a schedule does not name has done nothing. -/
theorem exec_of_not_mem {start w : Pool Op Answer ε α ι σ} {schedule : List ι} (unnamed : i ∉ schedule)
    (ran : exec (step serve) start schedule = some w) :
    w.threads i = start.threads i ∧ w.traces i = start.traces i := by
  induction schedule generalizing start with
  | nil =>
      cases ran
      exact ⟨rfl, rfl⟩
  | cons j rest ih =>
      rw [List.mem_cons, not_or] at unnamed
      obtain ⟨between, stepped, later⟩ := exec_cons_eq_some.mp ran
      obtain ⟨op, next, answer, shared, _, _, rfl⟩ := step_cases stepped
      obtain ⟨threads, traces⟩ := ih unnamed.2 later
      exact ⟨threads.trans (served_threads_of_ne unnamed.1), traces.trans (served_traces_of_ne unnamed.1)⟩

/-- Two programs, one after the other. -/
theorem Alone.exec_turns (start : ι → Program Op Answer ε α) {j : ι} {trace trace' : List (Asked Op Answer)}
    {q q' : Program Op Answer ε α} {shared shared' shared'' : σ} (ne : j ≠ i)
    (first : Alone serve i [] shared trace shared') (leads : Leads (start i) trace q)
    (second : Alone serve j [] shared' trace' shared'') (leads' : Leads (start j) trace' q') :
    ∃ w, Library.exec (step serve) (init shared start)
        (List.replicate trace.length i ++ List.replicate trace'.length j) = some w ∧
      w.threads i = q ∧ w.traces i = trace ∧ w.threads j = q' ∧ w.traces j = trace' ∧ w.shared = shared'' ∧
      log serve (init shared start) (List.replicate trace.length i ++ List.replicate trace'.length j) =
        trace.map (i, ·) ++ trace'.map (j, ·) := by
  obtain ⟨between, ran, ended, traced, held, logged⟩ := first.exec (w := init shared start) leads
  have unnamed : j ∉ List.replicate trace.length i := fun member => ne (List.eq_of_mem_replicate member)
  obtain ⟨fresh, untouched⟩ := exec_of_not_mem unnamed ran
  have none_yet : between.traces j = [] := untouched
  obtain ⟨w, ran', ended', traced', held', logged'⟩ := Alone.exec (w := between) (i := j)
    (by rwa [none_yet, held]) (by rwa [fresh])
  have unnamed' : i ∉ List.replicate trace'.length j := fun member => ne (List.eq_of_mem_replicate member).symm
  obtain ⟨still, kept⟩ := exec_of_not_mem unnamed' ran'
  refine ⟨w, ?_, still.trans ended, kept.trans traced, ended', ?_, held', ?_⟩
  · rw [exec_append]
    exact Option.bind_eq_some_iff.mpr ⟨between, ran, ran'⟩
  · rw [traced', none_yet, List.nil_append]
  · rw [log_append ran, logged, logged']

end Pool

end InferenceForge.Library
