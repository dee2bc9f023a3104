/-
# InferenceForge.Library.ForkJoin — programs that start others and wait for them

Some operations of a program fork: such an operation starts tasks, programs of another
kind, and is answered by how they have ended, once all have. A `Branch` is a program with
the tasks it has started; in a `Nursery` any number of branches share a state, and they and
their tasks take turns in any order, as the programs of a `Pool` do.

`Moved` lists what a turn does to a branch. `Faithful` is what holds of every branch at
every moment: it and its tasks have done what they can do, the tasks that are running are
those its pending operation has started, and each fork that was answered was answered by
how its tasks ended (`Settled`).

`exec_length` counts the turns, and `waits_of_stuck` and `over_of_stuck` say what a branch
looks like that cannot go on.
-/
import InferenceForge.Library.Halting
import InferenceForge.Library.Monitor

namespace InferenceForge.Library

set_option autoImplicit false

variable {Op Op' : Type} {Answer : Op → Type} {Answer' : Op' → Type} {ε α β κ ι σ : Type}

/-- How a program that is over has ended. -/
def Program.ended? : Program Op Answer ε α → Option (Except ε α)
  | .done value => some (.ok value)
  | .raise error => some (.error error)
  | .ask _ _ => none

theorem Leads.runs_ended {p q : Program Op Answer ε α} {trace : List (Asked Op Answer)} {result : Except ε α}
    (leads : Leads p trace q) (through : q.ended? = some result) : Runs p trace result := by
  cases q with
  | done value =>
      cases through
      exact leads.runs_done
  | raise error =>
      cases through
      exact leads.runs_raise
  | ask op next => cases through

/-- What led past an operation led to it before. -/
theorem Leads.split {p q : Program Op Answer ε α} {before after : List (Asked Op Answer)} {op : Op}
    {answer : Answer op}
    (leads : Leads p (before ++ ⟨op, answer⟩ :: after) q) :
    ∃ next, Leads p before (.ask op next) ∧ Leads (next answer) after q := by
  induction before generalizing p with
  | nil =>
      cases leads with
      | ask rest => exact ⟨_, .refl _, rest⟩
  | cons asked before ih =>
      cases leads with
      | ask rest =>
          obtain ⟨next, first, last⟩ := ih rest
          exact ⟨next, .ask first, last⟩

/-! ## Branches -/

/-- A program that was started for an argument, and what it has done. -/
structure Task (Op : Type) (Answer : Op → Type) (ε α κ : Type) where
  argument : κ
  trace : List (Asked Op Answer)
  program : Program Op Answer ε α

/-- A program, what it has done, the tasks of the forks that were answered, and those of the fork that
is pending once it has started them. -/
structure Branch (Op : Type) (Answer : Op → Type) (Op' : Type) (Answer' : Op' → Type) (ε α β κ : Type) where
  program : Program Op Answer ε α
  trace : List (Asked Op Answer)
  joined : List (Task Op' Answer' ε β κ)
  running : Option (List (Task Op' Answer' ε β κ))

/-- Which operations start tasks, for which arguments, and how they are answered in the end. -/
structure Forks (Op : Type) (Answer : Op → Type) (Op' : Type) (Answer' : Op' → Type) (ε β κ : Type) where
  arguments : Op → Option (List κ)
  body : κ → Program Op' Answer' ε β
  join : (op : Op) → List (Except ε β) → Option (Answer op)

/-- Whose turn it is in a branch, and for what. -/
inductive Turn
  | answer
  | fork
  | task (place : ℕ)
  | join

namespace Branch

def init (p : Program Op Answer ε α) : Branch Op Answer Op' Answer' ε α β κ := ⟨p, [], [], none⟩

/-- All tasks it has started. -/
def tasks (b : Branch Op Answer Op' Answer' ε α β κ) : List (Task Op' Answer' ε β κ) := b.joined ++ b.running.getD []

section Step

variable (forks : Forks Op Answer Op' Answer' ε β κ)
  (serve : List (Asked Op Answer) → σ → (op : Op) → Option (Answer op × σ))
  (serveTask : κ → List (Asked Op' Answer') → σ → (op : Op') → Option (Answer' op × σ))

def start (k : κ) : Task Op' Answer' ε β κ := ⟨k, [], forks.body k⟩

/-- One turn, with the shared state. -/
def step (shared : σ) (b : Branch Op Answer Op' Answer' ε α β κ) :
    Turn → Option (σ × Branch Op Answer Op' Answer' ε α β κ)
  | .answer =>
      match b.program with
      | .ask op next =>
          match forks.arguments op with
          | some _ => none
          | none => (serve b.trace shared op).map fun reply =>
              (reply.2, { b with program := next reply.1, trace := b.trace ++ [⟨op, reply.1⟩] })
      | _ => none
  | .fork =>
      match b.program, b.running with
      | .ask op _, none => (forks.arguments op).map fun arguments =>
          (shared, { b with running := some (arguments.map (start forks)) })
      | _, _ => none
  | .task place => do
      let running ← b.running
      let t ← running[place]?
      match t.program with
      | .ask op next => (serveTask t.argument t.trace shared op).map fun reply =>
          let t' : Task Op' Answer' ε β κ := ⟨t.argument, t.trace ++ [⟨op, reply.1⟩], next reply.1⟩
          (reply.2, { b with running := some (running.set place t') })
      | _ => none
  | .join =>
      match b.program, b.running with
      | .ask op next, some running => do
          let results ← running.mapM fun t => t.program.ended?
          let answer ← forks.join op results
          return (shared, ⟨next answer, b.trace ++ [⟨op, answer⟩], b.joined ++ running, none⟩)
      | _, _ => none

/-- What a turn can do. -/
inductive Moved (shared : σ) (b : Branch Op Answer Op' Answer' ε α β κ) :
    σ → Branch Op Answer Op' Answer' ε α β κ → Prop
  | answer {op : Op} {next : Answer op → Program Op Answer ε α} {answer : Answer op} {shared' : σ}
      (pending : b.program = .ask op next) (plain : forks.arguments op = none)
      (served : serve b.trace shared op = some (answer, shared')) :
      Moved shared b shared' { b with program := next answer, trace := b.trace ++ [⟨op, answer⟩] }
  | fork {op : Op} {next : Answer op → Program Op Answer ε α} {arguments : List κ}
      (pending : b.program = .ask op next) (idle : b.running = none) (forked : forks.arguments op = some arguments) :
      Moved shared b shared { b with running := some (arguments.map (start forks)) }
  | task {before after : List (Task Op' Answer' ε β κ)} {t : Task Op' Answer' ε β κ} {op : Op'}
      {next : Answer' op → Program Op' Answer' ε β} {answer : Answer' op} {shared' : σ}
      (running : b.running = some (before ++ t :: after)) (pending : t.program = .ask op next)
      (served : serveTask t.argument t.trace shared op = some (answer, shared')) :
      Moved shared b shared'
        { b with running := some (before ++ ⟨t.argument, t.trace ++ [⟨op, answer⟩], next answer⟩ :: after) }
  | join {op : Op} {next : Answer op → Program Op Answer ε α} {running : List (Task Op' Answer' ε β κ)}
      {results : List (Except ε β)} {answer : Answer op} (pending : b.program = .ask op next)
      (started : b.running = some running) (through : running.mapM (fun t => t.program.ended?) = some results)
      (joins : forks.join op results = some answer) :
      Moved shared b shared ⟨next answer, b.trace ++ [⟨op, answer⟩], b.joined ++ running, none⟩

variable {forks serve serveTask} {shared shared' : σ} {b b' : Branch Op Answer Op' Answer' ε α β κ} {turn : Turn}

theorem step_moved (stepped : step forks serve serveTask shared b turn = some (shared', b')) :
    Moved forks serve serveTask shared b shared' b' := by
  cases turn with
  | answer =>
      simp only [step] at stepped
      split at stepped
      · next op next pending =>
          split at stepped
          · cases stepped
          · next plain =>
              obtain ⟨⟨answer, shared'⟩, served, same⟩ := Option.map_eq_some_iff.mp stepped
              cases same
              exact .answer pending plain served
      · cases stepped
  | fork =>
      simp only [step] at stepped
      split at stepped
      · next op next pending idle =>
          obtain ⟨arguments, forked, same⟩ := Option.map_eq_some_iff.mp stepped
          cases same
          exact .fork pending idle forked
      · cases stepped
  | task place =>
      obtain ⟨running, started, stepped⟩ := Option.bind_eq_some_iff.mp stepped
      obtain ⟨t, found, stepped⟩ := Option.bind_eq_some_iff.mp stepped
      split at stepped
      · next op next pending =>
          obtain ⟨⟨answer, shared'⟩, served, same⟩ := Option.map_eq_some_iff.mp stepped
          cases same
          obtain ⟨inside, rfl⟩ := List.getElem?_eq_some_iff.mp found
          rw [List.set_eq_take_append_cons_drop, if_pos inside]
          refine .task ?_ pending served
          rw [started, List.getElem_cons_drop, List.take_append_drop]
      · cases stepped
  | join =>
      simp only [step] at stepped
      split at stepped
      · next op next running pending started =>
          obtain ⟨results, through, stepped⟩ := Option.bind_eq_some_iff.mp stepped
          obtain ⟨answer, joins, same⟩ := Option.bind_eq_some_iff.mp stepped
          cases same
          exact .join pending started through joins
      · cases stepped

/-! ### What holds of a branch -/

/-- Every fork that was answered was answered by how its tasks have ended. -/
inductive Settled (forks : Forks Op Answer Op' Answer' ε β κ) :
    List (Asked Op Answer) → List (Task Op' Answer' ε β κ) → Prop
  | nil : Settled forks [] []
  | plain {trace : List (Asked Op Answer)} {joined : List (Task Op' Answer' ε β κ)} {asked : Asked Op Answer}
      (before : Settled forks trace joined) (plain : forks.arguments asked.1 = none) :
      Settled forks (trace ++ [asked]) joined
  | join {trace : List (Asked Op Answer)} {joined running : List (Task Op' Answer' ε β κ)} {op : Op}
      {results : List (Except ε β)} {answer : Answer op} (before : Settled forks trace joined)
      (forked : forks.arguments op = some (running.map Task.argument))
      (through : running.mapM (fun t => t.program.ended?) = some results)
      (joins : forks.join op results = some answer) :
      Settled forks (trace ++ [⟨op, answer⟩]) (joined ++ running)

structure Faithful (forks : Forks Op Answer Op' Answer' ε β κ) (p : Program Op Answer ε α)
    (b : Branch Op Answer Op' Answer' ε α β κ) : Prop where
  leads : Leads p b.trace b.program
  does : ∀ t ∈ b.tasks, Leads (forks.body t.argument) t.trace t.program
  pending : ∀ running, b.running = some running →
    ∃ op next, b.program = .ask op next ∧ forks.arguments op = some (running.map Task.argument)
  settled : Settled forks b.trace b.joined

theorem faithful_init (p : Program Op Answer ε α) : Faithful forks p (init p) where
  leads := .refl p
  does t member := by cases member
  pending running started := by cases started
  settled := .nil

/-- **One turn.** -/
theorem Faithful.moved {p : Program Op Answer ε α} (faithful : Faithful forks p b)
    (moved : Moved forks serve serveTask shared b shared' b') : Faithful forks p b' := by
  obtain ⟨leads, does, waits, settled⟩ := faithful
  cases moved with
  | answer pending plain served =>
      rw [pending] at leads
      refine ⟨leads.concat _, does, fun running started => ?_, settled.plain plain⟩
      obtain ⟨op, next, asks, forked⟩ := waits running started
      cases pending.symm.trans asks
      cases plain.symm.trans forked
  | @fork op next arguments pending idle forked =>
      refine ⟨leads, fun t member => ?_, ?_, settled⟩
      · rcases List.mem_append.mp member with before | fresh
        · exact does t (List.mem_append_left _ before)
        · obtain ⟨k, _, rfl⟩ := List.mem_map.mp fresh
          exact .refl _
      · rintro _ ⟨⟩
        refine ⟨op, next, pending, ?_⟩
        rw [forked, List.map_map]
        exact congrArg some (List.map_id _).symm
  | @task before after t op next answer shared' running pending served =>
      have here : ∀ t' ∈ before ++ t :: after, t' ∈ b.tasks := fun t' member => by
        rw [tasks, running]
        exact List.mem_append_right _ member
      refine ⟨leads, fun t' member => ?_, ?_, settled⟩
      · rcases List.mem_append.mp member with earlier | now
        · exact does t' (List.mem_append_left _ earlier)
        · simp only [Option.getD_some, List.mem_append, List.mem_cons] at now
          rcases now with first | rfl | last
          · exact does t' (here t' (List.mem_append_left _ first))
          · have led := does t (here t (List.mem_append_right _ List.mem_cons_self))
            rw [pending] at led
            exact led.concat answer
          · exact does t' (here t' (List.mem_append_right _ (List.mem_cons_of_mem _ last)))
      · rintro _ ⟨⟩
        obtain ⟨op', next', asks, forked⟩ := waits _ running
        exact ⟨op', next', asks, by simpa using forked⟩
  | @join op next running results answer pending started through joins =>
      obtain ⟨op', next', asks, forked⟩ := waits running started
      cases pending.symm.trans asks
      rw [pending] at leads
      refine ⟨leads.concat _, fun t member => does t ?_, fun _ impossible => (by cases impossible),
        settled.join forked through joins⟩
      rw [tasks, Option.getD_none, List.append_nil] at member
      rwa [tasks, started]

/-! ### Totals over the tasks -/

/-- A number for each task, by what it has done, in total. -/
def total (f : List (Asked Op' Answer') → ℕ) (b : Branch Op Answer Op' Answer' ε α β κ) : ℕ :=
  (b.tasks.map fun t => f t.trace).sum

variable {f : List (Asked Op' Answer') → ℕ}

/-- What a turn adds to a total. -/
theorem Moved.total (fresh : f [] = 0) (moved : Moved forks serve serveTask shared b shared' b') :
    (b'.total f = b.total f ∧ (shared' = shared ∨ ∃ op answer, serve b.trace shared op = some (answer, shared'))) ∨
      ∃ t ∈ b.tasks, ∃ op next answer, t.program = .ask op next ∧
        serveTask t.argument t.trace shared op = some (answer, shared') ∧
        b'.total f + f t.trace = b.total f + f (t.trace ++ [⟨op, answer⟩]) := by
  cases moved with
  | answer pending plain served => exact .inl ⟨rfl, .inr ⟨_, _, served⟩⟩
  | fork pending idle forked =>
      refine .inl ⟨?_, .inl rfl⟩
      simp [Branch.total, tasks, idle, start, fresh, Function.comp_def]
  | @task before after t op next answer shared' running pending served =>
      refine .inr ⟨t, by simp [tasks, running], op, next, answer, pending, served, ?_⟩
      simp only [Branch.total, tasks, running, Option.getD_some, List.map_append, List.map_cons, List.sum_append,
        List.sum_cons]
      omega
  | join pending started through joins =>
      refine .inl ⟨?_, .inl rfl⟩
      simp [Branch.total, tasks, started]

/-! ### How many turns there are -/

/-- The turns an operation takes. -/
def turnsOf (forks : Forks Op Answer Op' Answer' ε β κ) (op : Op) : ℕ := if (forks.arguments op).isSome then 2 else 1

/-- The turns a branch has taken. -/
def turns (forks : Forks Op Answer Op' Answer' ε β κ) (b : Branch Op Answer Op' Answer' ε α β κ) : ℕ :=
  costOf (turnsOf forks) b.trace + (if b.running.isSome then 1 else 0) + b.total List.length

theorem costOf_concat (cost : Op → ℕ) (trace : List (Asked Op Answer)) (op : Op) (answer : Answer op) :
    costOf cost (trace ++ [⟨op, answer⟩]) = costOf cost trace + cost op := by
  rw [costOf_append, costOf_cons, costOf_nil, Nat.add_zero]

theorem Faithful.turns {p : Program Op Answer ε α} (faithful : Faithful forks p b)
    (moved : Moved forks serve serveTask shared b shared' b') : b'.turns forks = b.turns forks + 1 := by
  cases moved with
  | @answer op next answer shared' pending plain served =>
      have one : turnsOf forks op = 1 := if_neg (by simp [plain])
      simp only [Branch.turns, costOf_concat, one, Branch.total, tasks]
      omega
  | fork pending idle forked =>
      simp [Branch.turns, Branch.total, tasks, idle, start, Function.comp_def]
      omega
  | task running pending served =>
      simp [Branch.turns, Branch.total, tasks, running]
      omega
  | @join op next running results answer pending started through joins =>
      obtain ⟨op', next', asks, forked⟩ := faithful.pending _ started
      cases pending.symm.trans asks
      have two : turnsOf forks op = 2 := if_pos (by simp [forked])
      simp [Branch.turns, costOf_concat, two, Branch.total, tasks, started]
      omega

/-- A task costs no more than it may. -/
theorem Faithful.cost_le {p : Program Op Answer ε α} {cost : Op' → ℕ} {m : ℕ} (faithful : Faithful forks p b)
    (costs : ∀ k, (forks.body k).Costs cost m) {t : Task Op' Answer' ε β κ} (inside : t ∈ b.tasks) :
    costOf cost t.trace ≤ m := by
  obtain ⟨k, rfl, _⟩ := (costs t.argument).leads (faithful.does t inside)
  exact Nat.le_add_left _ _

/-- Its tasks cost no more than each may. -/
theorem Faithful.total_le {p : Program Op Answer ε α} {cost : Op' → ℕ} {m : ℕ} (faithful : Faithful forks p b)
    (costs : ∀ k, (forks.body k).Costs cost m) : b.total (costOf cost) ≤ b.tasks.length * m := by
  have bounded : ∀ count ∈ b.tasks.map (fun t => costOf cost t.trace), count ≤ m := fun count member => by
    obtain ⟨t, inside, rfl⟩ := List.mem_map.mp member
    exact faithful.cost_le costs inside
  have summed := List.sum_le_card_nsmul _ m bounded
  rwa [List.length_map] at summed

/-- A branch takes no more turns than its program and its tasks can. -/
theorem Faithful.turns_le {p : Program Op Answer ε α} {n m : ℕ} (faithful : Faithful forks p b)
    (costs : p.Costs (turnsOf forks) n) (within : ∀ k, (forks.body k).Within m) :
    b.turns forks ≤ n + b.tasks.length * m := by
  have each : b.total List.length ≤ b.tasks.length * m := by
    have counted := faithful.total_le within
    simpa only [Branch.total, costOf_one] using counted
  obtain ⟨k, rfl, rest⟩ := costs.leads faithful.leads
  have last : (if b.running.isSome then 1 else 0) ≤ k := by
    cases started : b.running with
    | none => exact Nat.zero_le _
    | some running =>
        obtain ⟨op, next, asks, forked⟩ := faithful.pending running started
        rw [asks] at rest
        obtain ⟨j, rfl, _⟩ := rest
        have two : turnsOf forks op = 2 := if_pos (by simp [forked])
        simp only [two, Option.isSome_some, if_true]
        omega
  rw [Branch.turns]
  omega

/-! ### When a branch cannot go on -/

/-- A task whose branch cannot go on waits for an answer. -/
theorem waits_of_stuck (stuck : ∀ turn, step forks serve serveTask shared b turn = none)
    {running : List (Task Op' Answer' ε β κ)} (started : b.running = some running) {t : Task Op' Answer' ε β κ}
    (member : t ∈ running) {op : Op'} {next : Answer' op → Program Op' Answer' ε β}
    (pending : t.program = .ask op next) :
    serveTask t.argument t.trace shared op = none := by
  obtain ⟨place, inside, rfl⟩ := List.mem_iff_getElem.mp member
  have refused := stuck (.task place)
  simp only [step, started, Option.bind_eq_bind, Option.bind_some, List.getElem?_eq_getElem inside] at refused
  rw [pending] at refused
  exact Option.map_eq_none_iff.mp refused

/-- A branch whose tasks are over, and whose operations are answered, is over if it cannot go on. -/
theorem over_of_stuck {p : Program Op Answer ε α} (faithful : Faithful forks p b)
    (stuck : ∀ turn, step forks serve serveTask shared b turn = none)
    (answers : ∀ trace op, forks.arguments op = none → (serve trace shared op).isSome)
    (joins : ∀ op arguments results, forks.arguments op = some arguments → results.length = arguments.length →
      (forks.join op results).isSome)
    (through : ∀ running, b.running = some running → ∀ t ∈ running, t.program.ended?.isSome) :
    b.program.ended?.isSome ∧ b.running = none := by
  cases started : b.running with
  | some running =>
      exfalso
      obtain ⟨op, next, asks, forked⟩ := faithful.pending running started
      have ended : ∃ results, running.mapM (fun t => t.program.ended?) = some results ∧
          results.length = running.length := by
        have each := through running started
        clear forked started
        induction running with
        | nil => exact ⟨[], rfl, rfl⟩
        | cons t rest ih =>
            obtain ⟨here, later⟩ := List.forall_mem_cons.mp each
            obtain ⟨result, given⟩ := Option.isSome_iff_exists.mp here
            obtain ⟨results, more, length⟩ := ih later
            exact ⟨result :: results, by rw [List.mapM_cons, given, more]; rfl, congrArg (· + 1) length⟩
      obtain ⟨results, ended, length⟩ := ended
      obtain ⟨answer, given⟩ := Option.isSome_iff_exists.mp (joins op _ results forked (by rwa [List.length_map]))
      have refused := stuck .join
      simp only [step, asks, started, ended, given, Option.bind_eq_bind, Option.bind_some] at refused
      cases refused
  | none =>
      refine ⟨?_, rfl⟩
      cases asks : b.program with
      | done value | raise error => rfl
      | ask op next =>
          exfalso
          cases forked : forks.arguments op with
          | none =>
              have refused := stuck .answer
              simp only [step, asks, forked] at refused
              have given := answers b.trace op forked
              rw [Option.map_eq_none_iff.mp refused] at given
              cases given
          | some arguments =>
              have refused := stuck .fork
              simp only [step, asks, started, forked] at refused
              cases refused

end Step

end Branch

/-! ## Nurseries -/

structure Nursery (Op : Type) (Answer : Op → Type) (Op' : Type) (Answer' : Op' → Type) (ε α β κ ι σ : Type) where
  shared : σ
  branches : ι → Branch Op Answer Op' Answer' ε α β κ

namespace Nursery

variable [DecidableEq ι]

def init (shared : σ) (start : ι → Program Op Answer ε α) : Nursery Op Answer Op' Answer' ε α β κ ι σ :=
  ⟨shared, fun i => .init (start i)⟩

/-- Branch `i` is `b`, and the shared state is `shared` then. -/
def moved (w : Nursery Op Answer Op' Answer' ε α β κ ι σ) (i : ι) (shared : σ)
    (b : Branch Op Answer Op' Answer' ε α β κ) : Nursery Op Answer Op' Answer' ε α β κ ι σ :=
  ⟨shared, Function.update w.branches i b⟩

section Moved

variable {w : Nursery Op Answer Op' Answer' ε α β κ ι σ} {i j : ι} {shared : σ}
  {b : Branch Op Answer Op' Answer' ε α β κ}

@[simp] theorem moved_shared : (w.moved i shared b).shared = shared := rfl

@[simp] theorem moved_self : (w.moved i shared b).branches i = b := Function.update_self ..

theorem moved_of_ne (ne : j ≠ i) : (w.moved i shared b).branches j = w.branches j := Function.update_of_ne ne ..

@[simp] theorem moved_moved {shared' : σ} {b' : Branch Op Answer Op' Answer' ε α β κ} :
    (w.moved i shared b).moved i shared' b' = w.moved i shared' b' := by
  simp [moved]

/-- A sum over the branches, after a turn of one of them. -/
theorem sum_moved [Fintype ι] (f : Branch Op Answer Op' Answer' ε α β κ → ℕ) :
    ∑ j, f ((w.moved i shared b).branches j) + f (w.branches i) = ∑ j, f (w.branches j) + f b := by
  rw [← Finset.add_sum_erase _ _ (Finset.mem_univ i),
    ← Finset.add_sum_erase _ (fun j => f (w.branches j)) (Finset.mem_univ i), moved_self]
  have others : ∑ j ∈ Finset.univ.erase i, f ((w.moved i shared b).branches j) =
      ∑ j ∈ Finset.univ.erase i, f (w.branches j) := by
    refine Finset.sum_congr rfl fun j member => ?_
    rw [moved_of_ne (Finset.ne_of_mem_erase member)]
  rw [others]
  omega

end Moved

section Run

variable (forks : Forks Op Answer Op' Answer' ε β κ) (serve : Serve Op Answer ι σ)
  (serveTask : Serve Op' Answer' (ι × κ) σ)

def step (w : Nursery Op Answer Op' Answer' ε α β κ ι σ) (event : ι × Turn) :
    Option (Nursery Op Answer Op' Answer' ε α β κ ι σ) :=
  ((w.branches event.1).step forks (serve event.1) (fun k => serveTask (event.1, k)) w.shared event.2).map
    fun reply => w.moved event.1 reply.1 reply.2

variable {forks serve serveTask} {w w' : Nursery Op Answer Op' Answer' ε α β κ ι σ} {i : ι} {turn : Turn}
  {start : ι → Program Op Answer ε α} {schedule : List (ι × Turn)}

theorem step_cases (stepped : step forks serve serveTask w (i, turn) = some w') :
    ∃ shared b, Branch.Moved forks (serve i) (fun k => serveTask (i, k)) w.shared (w.branches i) shared b ∧
      w' = w.moved i shared b := by
  obtain ⟨⟨shared, b⟩, turned, rfl⟩ := Option.map_eq_some_iff.mp stepped
  exact ⟨shared, b, Branch.step_moved turned, rfl⟩

/-- Every branch has done what it can do. -/
def Faithful (forks : Forks Op Answer Op' Answer' ε β κ) (start : ι → Program Op Answer ε α)
    (w : Nursery Op Answer Op' Answer' ε α β κ ι σ) : Prop := ∀ i, Branch.Faithful forks (start i) (w.branches i)

omit [DecidableEq ι] in
theorem faithful_init (shared : σ) (start : ι → Program Op Answer ε α) :
    Faithful forks start (init shared start : Nursery Op Answer Op' Answer' ε α β κ ι σ) :=
  fun i => Branch.faithful_init (start i)

theorem Faithful.step (faithful : Faithful forks start w)
    (stepped : step forks serve serveTask w (i, turn) = some w') :
    Faithful forks start w' := by
  obtain ⟨shared, b, moved, rfl⟩ := step_cases stepped
  intro j
  by_cases same : j = i
  · subst same
    rw [moved_self]
    exact (faithful j).moved moved
  · rw [moved_of_ne same]
    exact faithful j

theorem faithful_of_run {shared : σ} (ran : exec (step forks serve serveTask) (init shared start) schedule = some w) :
    Faithful forks start w := by
  have keeps : ∀ (v : Nursery Op Answer Op' Answer' ε α β κ ι σ) event v', Faithful forks start v →
      step forks serve serveTask v event = some v' → Faithful forks start v' :=
    fun _ _ _ faithful stepped => faithful.step stepped
  exact exec_invariant keeps schedule _ _ (faithful_init shared start) ran

/-- A branch that forks nothing goes on alone where its operations are answered. -/
theorem exec_of_leads {trace : List (Asked Op Answer)} {q : Program Op Answer ε α}
    (leads : Leads (w.branches i).program trace q) (plain : ∀ asked ∈ trace, forks.arguments asked.1 = none)
    (serves : ∀ asked ∈ trace, ∀ before, serve i before w.shared asked.1 = some (asked.2, w.shared)) :
    exec (step forks serve serveTask) w (List.replicate trace.length (i, .answer)) =
      some (w.moved i w.shared { w.branches i with program := q, trace := (w.branches i).trace ++ trace }) := by
  generalize pending : (w.branches i).program = p at leads
  induction leads generalizing w with
  | refl p =>
      subst pending
      simp [moved]
  | @ask op next answer trace q rest ih =>
      obtain ⟨forked, plain⟩ := List.forall_mem_cons.mp plain
      obtain ⟨here, later⟩ := List.forall_mem_cons.mp serves
      have stepped : step forks serve serveTask w (i, .answer) = some (w.moved i w.shared
          { w.branches i with program := next answer, trace := (w.branches i).trace ++ [⟨op, answer⟩] }) := by
        simp only [step, Branch.step, pending, forked, here, Option.map_some]
      refine exec_cons_eq_some.mpr ⟨_, stepped, ?_⟩
      have continued := ih (w := w.moved i w.shared
        { w.branches i with program := next answer, trace := (w.branches i).trace ++ [⟨op, answer⟩] }) plain later
        (congrArg Branch.program moved_self)
      rw [continued]
      simp

variable [Fintype ι]

/-- Each event of a schedule is a turn of a branch. -/
theorem exec_length {shared : σ} (ran : exec (step forks serve serveTask) (init shared start) schedule = some w) :
    ∑ i, (w.branches i).turns forks = schedule.length := by
  induction schedule using List.reverseRecOn generalizing w with
  | nil =>
      cases ran
      simp [init, Branch.init, Branch.turns, Branch.total, Branch.tasks]
  | append_singleton before event ih =>
      rw [exec_append] at ran
      obtain ⟨v, earlier, last⟩ := Option.bind_eq_some_iff.mp ran
      obtain ⟨v', stepped, ended⟩ := exec_cons_eq_some.mp last
      cases ended
      obtain ⟨i, turn⟩ := event
      obtain ⟨shared', b, moved, rfl⟩ := step_cases stepped
      have counted := ih earlier
      have one := (faithful_of_run earlier i).turns moved
      have summed : ∑ j, ((v.moved i shared' b).branches j).turns forks + (v.branches i).turns forks =
          ∑ j, (v.branches j).turns forks + b.turns forks := sum_moved _
      rw [List.length_append, List.length_singleton]
      omega

end Run

end Nursery

end InferenceForge.Library
