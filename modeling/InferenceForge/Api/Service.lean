/-
# InferenceForge.Api.Service — requests, their tasks and the tickets of these, together

`POST /process` creates a background task; each round of the task starts a coroutine for
every ticket of its batch and waits for all of them (`asyncio.gather`). Here any number of
requests with their tasks and the coroutines of these take turns in any order. The
coroutines share the slots of the upstream, and everything else is answered from one state
that everything may change: Redis, the circuit breaker, the clock, the network.

`Knows` says what the desk knows of a request: its tickets that were joined have ended as settled.

* `results_exact`: what a task stores is what was found in the cache and one record for each
  other ticket, each the end of a coroutine of its own.
* `posts_bounded`: a request has one coroutine at most for each of its distinct tickets, and
  each costs the upstream at most `max_retries` requests.
* `ranks_respected`: a task has one batch in flight, of one complexity, and everything more
  urgent is settled before.
* `every_request_ends`: no order of turns goes on for ever, and where none is left every request is
  answered, every task has ended and every slot is free.
-/
import InferenceForge.Api.Desk
import InferenceForge.Api.RequestTurns
import InferenceForge.Library.ForkJoin
import InferenceForge.Pipeline.Semaphore
import InferenceForge.Pipeline.TicketBudget

namespace InferenceForge.Api.Service

open InferenceForge.Python InferenceForge.Library InferenceForge.Pipeline
open InferenceForge.Api.QueueDepth (request)

set_option autoImplicit false

/-! ## Requests, tasks and tickets -/

section System

variable {ι σ : Type}

/-- `asyncio.gather` over the tickets of a batch, with `return_exceptions=True`. -/
def forks (settings : Settings) (host : Host) : Forks RouteOp RouteAnswer TicketOp TicketAnswer Exn Dict Entry where
  arguments
    | .gather batch => some batch.entries
    | _ => none
  body entry := processTicket settings host entry.1
  join
    | .gather batch, raw => if length : raw.length = batch.tickets.length then some (.ok ⟨raw, length⟩) else none
    | _, _ => none

/-- Requests with their tasks and the tickets of these, over the free slots and everything else. -/
abbrev System (ι σ : Type) := Nursery RouteOp RouteAnswer TicketOp TicketAnswer Exn Unit Dict Entry ι (ℕ × σ)

abbrev Ticket := Task TicketOp TicketAnswer Exn Dict Entry

/-- What a request and its task are answered by everything but the gather. -/
def serveRequest (outside : Serve RouteOp RouteAnswer ι σ) : Serve RouteOp RouteAnswer ι (ℕ × σ) :=
  fun i trace shared op => (outside i trace shared.2 op).map fun reply => (reply.1, shared.1, reply.2)

/-- What a ticket is answered: by `asyncio.Semaphore`, and by everything else. -/
def serveTicket (upstream : Serve TicketOp TicketAnswer (ι × Entry) σ) :
    Serve TicketOp TicketAnswer (ι × Entry) (ℕ × σ) :=
  fun i trace shared op =>
    match op with
    | .acquire => if shared.1 = 0 then none else some ((), shared.1 - 1, shared.2)
    | .release => some ((), shared.1 + 1, shared.2)
    | op => (upstream i trace shared.2 op).map fun reply => (reply.1, shared.1, reply.2)

variable [DecidableEq ι] {Q : TicketQueue} {settings : Settings} {host : Host} {bodies : ι → ProcessRequest settings}
  {outside : Serve RouteOp RouteAnswer ι σ} {upstream : Serve TicketOp TicketAnswer (ι × Entry) σ}
  {slots : ℕ} {state : σ} {w w' : System ι σ} {i : ι} {schedule : List (ι × Turn)}

def start (Q : TicketQueue) (host : Host) (bodies : ι → ProcessRequest settings) (slots : ℕ) (state : σ) :
    System ι σ :=
  Nursery.init (slots, state) fun i => request Q settings host (bodies i)

/-- One turn of a request, of its task or of a ticket. -/
def step (settings : Settings) (host : Host) (outside : Serve RouteOp RouteAnswer ι σ)
    (upstream : Serve TicketOp TicketAnswer (ι × Entry) σ) : System ι σ → ι × Turn → Option (System ι σ) :=
  Nursery.step (forks settings host) (serveRequest outside) (serveTicket upstream)

/-- Every request has done what it can do, with its task and the tickets of this. -/
def Faithful (Q : TicketQueue) (settings : Settings) (host : Host) (bodies : ι → ProcessRequest settings)
    (w : System ι σ) : Prop :=
  Nursery.Faithful (forks settings host) (fun i => request Q settings host (bodies i)) w

/-! ### What the desk knows -/

/-- A ticket has ended as settled. -/
def Ended (t : Ticket) (s : Settlement) : Prop := t.argument = s.1 ∧ t.program.ended? = some s.2

/-- What a request has done, and the tickets of its task that were joined, by where the desk is. -/
def Knows (host : Host) (tickets : List String) (trace : RouteTrace) (joined : List Ticket) : Desk → Prop
  | .posting done => done = trace ∧ joined = [] ∧ (∀ job, ⟨.createTask job, ()⟩ ∉ trace) ∧
      ∀ asked ∈ trace, resultsOf asked.1 = none
  | .working job settled => Launches host tickets trace job ∧ (∀ job', ⟨.createTask job', ()⟩ ∈ trace → job' = job) ∧
      List.Forall₂ Ended joined settled ∧ settledOf settled ≤ entriesOf job ∧
      ∀ asked ∈ trace, ∀ results, resultsOf asked.1 = some results → Complete job settled results

omit [DecidableEq ι] in
theorem arguments_eq_some {op : RouteOp} {entries : List Entry}
    (forked : (forks settings host).arguments op = some entries) :
    ∃ batch, op = .gather batch ∧ entries = batch.entries := by
  cases op with
  | gather batch =>
      cases forked
      exact ⟨batch, rfl, rfl⟩
  | _ => cases forked

theorem join_gather {batch : Batch} {results : List (Except Exn Dict)} {answer : RouteAnswer (.gather batch)}
    (joins : (forks settings host).join (.gather batch) results = some answer) :
    ∃ raw, answer = .ok raw ∧ raw.1 = results := by
  simp only [forks] at joins
  split at joins
  · cases joins
    exact ⟨_, rfl, rfl⟩
  · cases joins

/-- A batch that is due once everything is settled is none. -/
theorem not_due_of_complete {job : Job} {settled : List Settlement} {results : List Dict} {batch : Batch}
    (complete : Complete job settled results) : ¬ Due job settled batch := by
  rintro ⟨queued, parts, greedy⟩
  have none_left : queued = 0 := by
    rw [complete.1] at parts
    exact left_eq_add.mp parts
  obtain ⟨entry, member, _⟩ := greedy.present
  rw [none_left] at member
  exact Multiset.notMem_zero _ member

/-- The settlements of a batch are the ends of its tickets. -/
theorem forall₂_ended {batch : Batch} {running : List Ticket} {raw : Gathered batch}
    (started : batch.entries = running.map Task.argument)
    (through : running.mapM (fun t => t.program.ended?) = some raw.1) :
    List.Forall₂ Ended running (settlements batch raw) := by
  rw [settlements, started]
  clear started
  generalize raw.1 = results at through
  induction running generalizing results with
  | nil =>
      cases through
      exact .nil
  | cons t rest ih =>
      rw [List.mapM_cons] at through
      obtain ⟨result, here, through⟩ := Option.bind_eq_some_iff.mp through
      obtain ⟨results', later, same⟩ := Option.bind_eq_some_iff.mp through
      cases same
      exact .cons ⟨rfl, here⟩ (ih results' later)

/-- One operation more. -/
theorem Knows.concat {tickets : List String} {trace : RouteTrace} {joined running : List Ticket} {s s' : Desk}
    {asked : Asked RouteOp RouteAnswer} (knows : Knows host tickets trace joined s)
    (followed : Followed host tickets s asked s')
    (ended : ∀ batch raw, asked = ⟨.gather batch, .ok raw⟩ → List.Forall₂ Ended running (settlements batch raw))
    (other : (∀ batch, asked.1 ≠ .gather batch) → running = [])
    (answered : ∀ batch e, asked ≠ ⟨.gather batch, .error e⟩) :
    Knows host tickets (trace ++ [asked]) (joined ++ running) s' := by
  have concat : ∀ other, other ∈ trace ++ [asked] ↔ other ∈ trace ∨ other = asked := by simp
  cases followed with
  | @posted done op answer posting =>
      obtain ⟨rfl, rfl, uncreated, unstored⟩ := knows
      have none_run : running = [] := other (by rintro batch rfl; cases posting)
      subst none_run
      refine ⟨rfl, rfl, fun job member => ?_, fun later member => ?_⟩
      · rcases (concat _).mp member with before | same
        · exact uncreated job before
        · cases same
          cases posting
      · rcases (concat _).mp member with before | rfl
        · exact unstored later before
        · cases op with
          | store call => cases call <;> first | rfl | cases posting
          | _ => rfl
  | @created done job launches =>
      obtain ⟨rfl, rfl, uncreated, unstored⟩ := knows
      have none_run : running = [] := other (by simp)
      subst none_run
      refine ⟨launches.mono _, fun job' member => ?_, .nil, Multiset.zero_le _, fun later member results found => ?_⟩
      · rcases (concat _).mp member with before | same
        · exact absurd before (uncreated job')
        · cases same
          rfl
      · rcases (concat _).mp member with before | rfl
        · cases (unstored later before).symm.trans found
        · cases found
  | @gathered job settled batch raw due =>
      obtain ⟨launches, unique, settles, _, stored⟩ := knows
      refine ⟨launches.mono _, fun job' member => ?_, List.rel_append settles (ended batch raw rfl), ?_, ?_⟩
      · rcases (concat _).mp member with before | same
        · exact unique job' before
        · cases same
      · obtain ⟨queued, parts, greedy⟩ := due
        rw [settledOf_append, settledOf_settlements, parts]
        exact add_le_add_right greedy.members _
      · intro later member results found
        rcases (concat _).mp member with before | rfl
        · exact absurd due (not_due_of_complete (stored later before results found))
        · cases found
  -- with `return_exceptions=True` the gather itself does not raise
  | @refused job settled batch e due => exact absurd rfl (answered batch e)
  | @inert job settled op answer inert complete =>
      obtain ⟨launches, unique, settles, part, stored⟩ := knows
      have none_run : running = [] := other (by rintro batch rfl; exact inert)
      subst none_run
      rw [List.append_nil]
      refine ⟨launches.mono _, fun job' member => ?_, settles, part, fun later member results found => ?_⟩
      · rcases (concat _).mp member with before | same
        · exact unique job' before
        · cases same
          exact inert.elim
      · rcases (concat _).mp member with before | rfl
        · exact stored later before results found
        · exact complete results found

/-- **What the desk knows** of every branch of the service. -/
theorem known {tickets : List String} {trace : RouteTrace} {joined : List Ticket}
    (settled : Branch.Settled (forks settings host) trace joined) {s : Desk}
    (followed : exec (desk host tickets) (.posting []) trace = some s) : Knows host tickets trace joined s := by
  induction settled generalizing s with
  | nil =>
      cases followed
      exact ⟨rfl, rfl, by simp, by simp⟩
  | @plain trace joined asked before plain ih =>
      rw [exec_append] at followed
      obtain ⟨v, earlier, last⟩ := Option.bind_eq_some_iff.mp followed
      obtain ⟨_, stepped, same⟩ := exec_cons_eq_some.mp last
      cases same
      have ungathered : ∀ batch, asked.1 ≠ .gather batch := by
        rintro batch same
        rw [same] at plain
        cases plain
      have knows : Knows host tickets (trace ++ [asked]) (joined ++ []) s :=
        (ih earlier).concat (desk_followed stepped)
          (fun batch raw same => absurd (congrArg Sigma.fst same) (ungathered batch)) (fun _ => rfl)
          fun batch e same => ungathered batch (congrArg Sigma.fst same)
      rwa [List.append_nil] at knows
  | @join trace joined running op results answer before forked through joins ih =>
      rw [exec_append] at followed
      obtain ⟨v, earlier, last⟩ := Option.bind_eq_some_iff.mp followed
      obtain ⟨_, stepped, same⟩ := exec_cons_eq_some.mp last
      cases same
      obtain ⟨batch, rfl, entries⟩ := arguments_eq_some forked
      obtain ⟨raw, rfl, rfl⟩ := join_gather joins
      refine (ih earlier).concat (desk_followed stepped) ?_ (fun other => absurd rfl (other batch)) ?_
      · intro batch' raw' same
        cases same
        exact forall₂_ended entries.symm through
      · intro batch' e same
        cases same

theorem faithful_of_run
    (ran : exec (step settings host outside upstream) (start Q host bodies slots state) schedule = some w) :
    Faithful Q settings host bodies w :=
  Nursery.faithful_of_run ran

omit [DecidableEq ι] in
/-- Where the desk is with a request. -/
theorem kept (faithful : Faithful Q settings host bodies w) (i : ι) :
    ∃ s, Knows host (bodies i).tickets (w.branches i).trace (w.branches i).joined s ∧
      (w.branches i).program.Safe (desk host (bodies i).tickets) (fun _ => True) (fun _ _ => True) s := by
  obtain ⟨s, followed, rest⟩ := (request_safe (bodies i)).leads (faithful i).leads fun _ _ => trivial
  exact ⟨s, known (faithful i).settled followed, rest⟩

omit [DecidableEq ι] in
/-- The tickets that are running are those of a batch that is due. -/
theorem due_of_running (faithful : Faithful Q settings host bodies w)
    {running : List Ticket} (started : (w.branches i).running = some running) :
    ∃ job settled batch,
      Knows host (bodies i).tickets (w.branches i).trace (w.branches i).joined (.working job settled) ∧
      Due job settled batch ∧ running.map Task.argument = batch.entries := by
  obtain ⟨s, knows, safe⟩ := kept faithful i
  obtain ⟨op, next, asks, forked⟩ := (faithful i).pending running started
  obtain ⟨batch, rfl, entries⟩ := arguments_eq_some forked
  rw [asks] at safe
  obtain ⟨s', stepped, _⟩ := safe (.error (.typeError "")) trivial
  cases desk_followed stepped with
  | posted posting => cases posting
  | @refused job settled _ _ due => exact ⟨job, settled, batch, knows, due, entries⟩
  | inert inert complete => exact inert.elim

/-- The ends of tickets are those of runs. -/
theorem forall₂_runs {joined : List Ticket} {settled : List Settlement} (settles : List.Forall₂ Ended joined settled)
    (does : ∀ t ∈ joined, Leads (processTicket settings host t.argument.1) t.trace t.program) :
    List.Forall₂ (fun t s => t.argument = s.1 ∧ Runs (processTicket settings host s.1.1) t.trace s.2)
      joined settled := by
  induction settles with
  | nil => exact .nil
  | @cons t s joined settled here later ih =>
      obtain ⟨first, rest⟩ := List.forall_mem_cons.mp does
      obtain ⟨same, ended⟩ := here
      rw [same] at first
      exact .cons ⟨same, first.runs_ended ended⟩ (ih rest)

theorem arguments_joined {joined : List Ticket} {settled : List Settlement}
    (settles : List.Forall₂ Ended joined settled) :
    (joined.map Task.argument : Multiset Entry) = settledOf settled := by
  rw [settledOf]
  congr 1
  induction settles with
  | nil => rfl
  | cons here later ih => rw [List.map_cons, List.map_cons, here.1, ih]

theorem ended_of_joined {joined : List Ticket} {settled : List Settlement}
    (settles : List.Forall₂ Ended joined settled) :
    ∀ t ∈ joined, t.program.ended?.isSome := by
  induction settles with
  | nil => simp
  | cons here later ih => exact List.forall_mem_cons.mpr ⟨by rw [here.2]; rfl, ih⟩

omit [DecidableEq ι] in
/-- The coroutines of a task are for different tickets of its job. -/
theorem tasks_launched (faithful : Faithful Q settings host bodies w)
    (i : ι) : (w.branches i).tasks = [] ∨ ∃ job, Launches host (bodies i).tickets (w.branches i).trace job ∧
      ((w.branches i).tasks.map Task.argument : Multiset Entry) ≤ entriesOf job := by
  cases started : (w.branches i).running with
  | none =>
      obtain ⟨s, knows, _⟩ := kept faithful i
      rw [Branch.tasks, started, Option.getD_none, List.append_nil]
      cases s with
      | posting done => exact .inl knows.2.1
      | working job settled =>
          obtain ⟨launches, _, settles, part, _⟩ := knows
          exact .inr ⟨job, launches, by rwa [arguments_joined settles]⟩
  | some running =>
      obtain ⟨job, settled, batch, ⟨launches, _, settles, _⟩, ⟨queued, parts, greedy⟩, entries⟩ :=
        due_of_running faithful started
      refine .inr ⟨job, launches, ?_⟩
      rw [Branch.tasks, started, Option.getD_some, List.map_append, ← Multiset.coe_add,
        arguments_joined settles, entries,
        parts]
      exact add_le_add_right greedy.members _

omit [DecidableEq ι] in
/-- They are for different ones. -/
theorem nodup_tasks (faithful : Faithful Q settings host bodies w) (i : ι) :
    ((w.branches i).tasks.map Task.argument).Nodup := by
  rcases tasks_launched faithful i with none | ⟨job, _, part⟩
  · rw [none]
    exact List.nodup_nil
  · exact Multiset.coe_nodup.mp (Multiset.nodup_of_le part (Multiset.coe_nodup.mpr (enumerate_nodup _ _)))

omit [DecidableEq ι] in
theorem length_tasks_le (faithful : Faithful Q settings host bodies w)
    (i : ι) : (w.branches i).tasks.length ≤ distinct host (bodies i).tickets := by
  rcases tasks_launched faithful i with none | ⟨job, ⟨found, jobId, dedup, rfl⟩, part⟩
  · rw [none]
    exact Nat.zero_le _
  · have count := Multiset.card_le_card part
    rw [entriesOf, Multiset.coe_card, Multiset.coe_card, length_enumerate, List.length_map] at count
    have firsts := dedup.firsts
    change (w.branches i).tasks.length ≤ found.uniqueTickets.length at count
    omega

/-- **One batch at a time, the most urgent first.** In whatever order all turns are taken, the tickets of a task
that are running are of one complexity and fit into one batch, and every ticket of the job that is
more urgent was joined before. -/
theorem ranks_respected
    (ran : exec (step settings host outside upstream) (start Q host bodies slots state) schedule = some w)
    {running : List Ticket} (started : (w.branches i).running = some running) :
    ∃ complexity, (∀ t ∈ running, classify t.argument.1 = complexity) ∧ running.length ≤ batchSize complexity ∧
      ∀ job, ⟨.createTask job, ()⟩ ∈ (w.branches i).trace → ∀ entry ∈ enumerate job.uniqueTickets,
        complexityPriority (classify entry.1) < complexityPriority complexity →
          ∃ t ∈ (w.branches i).joined, t.argument = entry ∧ t.program.ended?.isSome := by
  obtain ⟨job, settled, batch, ⟨_, unique, settles, _⟩, ⟨queued, parts, greedy⟩, entries⟩ :=
    due_of_running (faithful_of_run ran) started
  have tickets : running.map (fun t => t.argument.1) = batch.tickets := by
    rw [← Batch.entries_tickets, ← entries, List.map_map]
    rfl
  refine ⟨batch.complexity, fun t member => ?_, ?_, ?_⟩
  · refine greedy.homogeneous _ ?_
    rw [← tickets]
    exact List.mem_map_of_mem member
  · rw [← List.length_map (f := fun t : Ticket => t.argument.1), tickets, greedy.full]
    exact Nat.min_le_left _ _
  · intro job' created entry member urgent
    rw [unique job' created] at member
    have inside : entry ∈ settledOf settled + queued := parts ▸ Multiset.mem_coe.mpr member
    rcases Multiset.mem_add.mp inside with before | left
    · rw [← arguments_joined settles] at before
      obtain ⟨t, joined, same⟩ := List.mem_map.mp (Multiset.mem_coe.mp before)
      exact ⟨t, joined, same, ended_of_joined settles t joined⟩
    · exact absurd urgent (Nat.not_lt.mpr (greedy.ranked entry left))

/-! ### The slots -/

/-- The slots are free, or tickets hold them. -/
def Slotted [Fintype ι] (slots : ℕ) (w : System ι σ) : Prop :=
  w.shared.1 + ∑ i, (w.branches i).total Semaphore.slotsOf = slots

omit [DecidableEq ι] in
theorem serveTicket_slots {k : ι × Entry} {trace : TicketTrace} {shared shared' : ℕ × σ} {op : TicketOp}
    {answer : TicketAnswer op} (served : serveTicket upstream k trace shared op = some (answer, shared')) :
    Semaphore.serve (fun (_ : Unit) trace op => (upstream k trace shared.2 op).map Prod.fst) () trace shared.1 op =
      some (answer, shared'.1) := by
  cases op with
  | acquire =>
      obtain ⟨free, same⟩ := Option.ite_none_left_eq_some.mp served
      cases same
      exact if_neg free
  | release =>
      cases served
      rfl
  | _ =>
      obtain ⟨reply, given, same⟩ := Option.map_eq_some_iff.mp served
      cases same
      simp [Semaphore.serve, given]

theorem slotsOf_concat {ticket : String} {trace : TicketTrace} {op : TicketOp}
    {next : TicketAnswer op → Coroutine Dict}
    (leads : Leads (processTicket settings host ticket) trace (.ask op next)) (answer : TicketAnswer op) :
    Semaphore.keeper (Semaphore.holding trace) ⟨op, answer⟩ = some (Semaphore.holding (trace ++ [⟨op, answer⟩])) :=
  Semaphore.processTicket_safe.next leads answer

theorem Slotted.step [Fintype ι] {turn : Turn} (slotted : Slotted slots w)
    (faithful : Faithful Q settings host bodies w)
    (stepped : step settings host outside upstream w (i, turn) = some w') : Slotted slots w' := by
  obtain ⟨shared, b, moved, rfl⟩ := Nursery.step_cases stepped
  have summed : ∑ j, ((w.moved i shared b).branches j).total Semaphore.slotsOf +
      (w.branches i).total Semaphore.slotsOf =
        ∑ j, (w.branches j).total Semaphore.slotsOf + b.total Semaphore.slotsOf :=
    Nursery.sum_moved _
  have freed : shared.1 + b.total Semaphore.slotsOf = w.shared.1 + (w.branches i).total Semaphore.slotsOf := by
    rcases moved.total (f := Semaphore.slotsOf) rfl with
      ⟨same, kept | ⟨op, answer, served⟩⟩ | ⟨t, member, op, next, answer, pending, served, added⟩
    · rw [same, kept]
    · obtain ⟨reply, _, replied⟩ := Option.map_eq_some_iff.mp served
      cases replied
      rw [same]
    · have leads := (faithful i).does t member
      rw [pending] at leads
      have slots := Semaphore.serve_slots (serveTicket_slots served) (slotsOf_concat leads answer)
      simp only [Semaphore.slotsOf] at added ⊢
      omega
  rw [Slotted] at slotted ⊢
  rw [Nursery.moved_shared]
  omega

/-- Every reachable state. -/
theorem slotted_of_run [Fintype ι]
    (ran : exec (step settings host outside upstream) (start Q host bodies slots state) schedule = some w) :
    Slotted slots w := by
  have keeps : ∀ (v : System ι σ) event v',
      Faithful Q settings host bodies v ∧ Slotted slots v →
      step settings host outside upstream v event = some v' →
      Faithful Q settings host bodies v' ∧ Slotted slots v' := by
    rintro v ⟨i, turn⟩ v' ⟨faithful, slotted⟩ stepped
    exact ⟨faithful.step stepped, slotted.step faithful stepped⟩
  refine (exec_invariant keeps schedule _ _ ⟨Nursery.faithful_init _ _, ?_⟩ ran).2
  simp [Slotted, Nursery.init, Branch.init, Branch.total, Branch.tasks]

/-! ### Progress -/

omit [DecidableEq ι] in
/-- A ticket that is over, or waits for a slot, holds none. -/
theorem slotsOf_eq_zero {t : Ticket} (leads : Leads (processTicket settings host t.argument.1) t.trace t.program)
    (waits : ∀ op next, t.program = .ask op next → op = .acquire) : Semaphore.slotsOf t.trace = 0 := by
  have safe := (Semaphore.processTicket_safe.now leads).2
  cases pending : t.program with
  | done value | raise e =>
      rw [pending] at safe
      exact congrArg Bool.toNat safe
  | ask op next =>
      obtain rfl := waits op next pending
      rw [pending] at leads
      have stepped := slotsOf_concat leads ()
      rw [Semaphore.slotsOf]
      cases holds : Semaphore.holding t.trace with
      | false => rfl
      | true =>
          rw [holds] at stepped
          cases stepped

omit [DecidableEq ι] in
/-- What a ticket is not answered is a slot. -/
theorem serveTicket_eq_none (answers : ∀ k trace state op, (upstream k trace state op).isSome)
    {k : ι × Entry} {trace : TicketTrace} {shared : ℕ × σ} {op : TicketOp}
    (refused : serveTicket upstream k trace shared op = none) : op = .acquire ∧ shared.1 = 0 := by
  cases op with
  | acquire =>
      refine ⟨rfl, ?_⟩
      by_contra free
      cases (if_neg free).symm.trans refused
  | release => cases refused
  | _ =>
      have absent := Option.map_eq_none_iff.mp refused
      exact absurd absent (Option.ne_none_iff_isSome.mpr (answers k trace shared.2 _))

omit [DecidableEq ι] in
/-- The tickets that were joined are over. -/
theorem joined_over (faithful : Faithful Q settings host bodies w) (i : ι) :
    ∀ t ∈ (w.branches i).joined, t.program.ended?.isSome := by
  intro t member
  obtain ⟨s, knows, _⟩ := kept faithful i
  cases s with
  | posting done =>
      rw [knows.2.1] at member
      cases member
  | working job settled => exact ended_of_joined knows.2.2.1 t member

/-- No turn is left. -/
def Stuck (settings : Settings) (host : Host) (outside : Serve RouteOp RouteAnswer ι σ)
    (upstream : Serve TicketOp TicketAnswer (ι × Entry) σ) (w : System ι σ) : Prop :=
  ∀ event, step settings host outside upstream w event = none

theorem Stuck.turn (stuck : Stuck settings host outside upstream w) (i : ι) (turn : Turn) :
    Branch.step (forks settings host) (serveRequest outside i) (fun k => serveTicket upstream (i, k)) w.shared
      (w.branches i) turn = none := Option.map_eq_none_iff.mp (stuck (i, turn))

/-- Then a ticket that is not over waits for a slot, and there is none. -/
theorem Stuck.waits (stuck : Stuck settings host outside upstream w) (faithful : Faithful Q settings host bodies w)
    (answers : ∀ k trace state op, (upstream k trace state op).isSome) {t : Ticket} (member : t ∈ (w.branches i).tasks)
    {op : TicketOp} {next : TicketAnswer op → Coroutine Dict} (pending : t.program = .ask op next) :
    op = .acquire ∧ w.shared.1 = 0 := by
  rcases List.mem_append.mp member with before | now
  · have through := joined_over faithful i t before
    rw [pending] at through
    cases through
  · cases started : (w.branches i).running with
    | none =>
        rw [started] at now
        cases now
    | some running =>
        rw [started] at now
        exact serveTicket_eq_none answers (Branch.waits_of_stuck (stuck.turn i) started now pending)

/-- So every slot is free. -/
theorem Stuck.free [Fintype ι] (stuck : Stuck settings host outside upstream w)
    (faithful : Faithful Q settings host bodies w) (slotted : Slotted slots w)
    (answers : ∀ k trace state op, (upstream k trace state op).isSome) : w.shared.1 = slots := by
  have idle : ∀ i, (w.branches i).total Semaphore.slotsOf = 0 := by
    intro i
    rw [Branch.total, List.sum_eq_zero_iff]
    intro held member
    obtain ⟨t, inside, rfl⟩ := List.mem_map.mp member
    exact slotsOf_eq_zero ((faithful i).does t inside) fun op next pending =>
      (stuck.waits faithful answers inside pending).1
  rw [Slotted] at slotted
  simpa [idle] using slotted

/-- And every request is over whose tickets are. -/
theorem Stuck.request_over (stuck : Stuck settings host outside upstream w)
    (faithful : Faithful Q settings host bodies w) (answered : ∀ i trace state op, (outside i trace state op).isSome)
    (ended : ∀ t ∈ (w.branches i).tasks, t.program.ended?.isSome) : (w.branches i).program.ended?.isSome := by
  refine (Branch.over_of_stuck (faithful i) (stuck.turn i) ?_ ?_ ?_).1
  · intro trace op plain
    rw [serveRequest, Option.isSome_map]
    exact answered i trace w.shared.2 op
  · intro op entries results forked length
    obtain ⟨batch, rfl, rfl⟩ := arguments_eq_some forked
    have fits : results.length = batch.tickets.length := by
      rw [length, ← Batch.entries_tickets, List.length_map]
    simp [forks, fits]
  · intro running started t member
    refine ended t (List.mem_append_right _ ?_)
    rwa [started]

/-- **No deadlock, and no slot is lost**: where no turn is left, although everything but the semaphore answers,
every request and every ticket is over, and every slot is free. -/
theorem over_of_stuck [Fintype ι] (some_slot : 0 < slots)
    (answered : ∀ i trace state op, (outside i trace state op).isSome)
    (answers : ∀ k trace state op, (upstream k trace state op).isSome)
    (ran : exec (step settings host outside upstream) (start Q host bodies slots state) schedule = some w)
    (stuck : Stuck settings host outside upstream w) :
    (∀ i, (w.branches i).program.ended?.isSome ∧ ∀ t ∈ (w.branches i).tasks, t.program.ended?.isSome) ∧
      w.shared.1 = slots := by
  have faithful := faithful_of_run ran
  have free := stuck.free faithful (slotted_of_run ran) answers
  have ended : ∀ i, ∀ t ∈ (w.branches i).tasks, t.program.ended?.isSome := by
    intro i t member
    cases pending : t.program with
    | done value | raise e => rfl
    | ask op next =>
        have none_free := (stuck.waits faithful answers member pending).2
        omega
  exact ⟨fun i => ⟨stuck.request_over faithful answered (ended i), ended i⟩, free⟩

theorem twoForGather : TwoForGather (Branch.turnsOf (forks settings host)) := by
  refine ⟨fun batch => rfl, fun op plain => ?_⟩
  cases op with
  | gather batch => exact absurd rfl (plain batch)
  | _ => rfl

/-- **Every request comes to its end.** No order of turns goes on for longer than the tickets of the requests
allow; and where no turn is left, although everything but the semaphore answers, every request, every task and
every ticket is over, and every slot is free. -/
theorem every_request_ends [Fintype ι]
    (ran : exec (step settings host outside upstream) (start Q host bodies slots state) schedule = some w) :
    schedule.length ≤ ∑ i, ((bodies i).tickets.length * 11 + 18 +
        distinct host (bodies i).tickets * (settings.maxRetries * 7 + 4)) ∧
      (0 < slots → (∀ i trace state op, (outside i trace state op).isSome) →
        (∀ k trace state op, (upstream k trace state op).isSome) →
        (∀ event, step settings host outside upstream w event = none) →
        (∀ i, (w.branches i).program.ended?.isSome ∧ ∀ t ∈ (w.branches i).tasks, t.program.ended?.isSome) ∧
          w.shared.1 = slots) := by
  refine ⟨?_, fun some_slot answered answers => over_of_stuck some_slot answered answers ran⟩
  have faithful := faithful_of_run ran
  rw [← Nursery.exec_length ran]
  refine Finset.sum_le_sum fun i _ => ?_
  have within : ∀ entry, ((forks settings host).body entry).Within (settings.maxRetries * 7 + 4) :=
    fun _ => processTicket_within
  have bounded := (faithful i).turns_le (request_costs twoForGather (bodies i)) within
  exact bounded.trans (Nat.add_le_add_left (Nat.mul_le_mul_right _ (length_tasks_le faithful i)) _)

end System

/-! ## Poles -/

section Poles

/-- Everything but the gather is served, and "help" is in the cache. -/
def calm : Serve RouteOp RouteAnswer Unit Unit := fun i trace _ op =>
  match op with
  | .cacheGet key => some (.ok (if key = ticketKey plainHost "help" then some foundRecord else none), ())
  | op => (ProcessState.calm i trace op).map (·, ())

/-- The upstream classifies "lost", and refuses the others. -/
def upstream : Serve TicketOp TicketAnswer (Unit × Entry) Unit := fun _ trace _ op =>
  match op with
  | .post "lost" attempt => some (foundWorld.response attempt, ())
  | op => (Semaphore.plainOutside false trace op).map (·, ())

/-- One request of four tickets, and one slot. -/
abbrev oneRequest : System Unit Unit := start QueueDepth.Sorted plainHost (fun _ => mixed true) 1 ()

/-- One ticket is refused, and one is classified. -/
def servedRaw : Gathered mixedBatch :=
  ⟨[.ok (Dict.set (failureResult "wrong" "http_401") "cache_hit" (.bool false)),
    .ok (Dict.set foundRecord "cache_hit" (.bool false))], rfl⟩

def servedTotals : Totals := (initialTotals (mixedJob true)).absorb (batchEntries mixedBatch servedRaw)

/-- Their coroutines. -/
abbrev wrongTask : Ticket where
  argument := ("wrong", 1)
  trace := [⟨.cacheGet (ticketKey plainHost "wrong"), .ok none⟩, ⟨.acquire, ()⟩, ⟨.admission 1, true⟩,
    ⟨.post "wrong" 1, .ok { statusCode := 401, retryAfter := none, json := .ok .null }⟩,
    ⟨.count "401" (.finite 0), ()⟩, ⟨.release, ()⟩]
  program := .done (Dict.set (failureResult "wrong" "http_401") "cache_hit" (.bool false))

abbrev lostTask : Ticket where
  argument := ("lost", 0)
  trace := [⟨.cacheGet (ticketKey plainHost "lost"), .ok none⟩, ⟨.acquire, ()⟩, ⟨.admission 1, true⟩,
    ⟨.post "lost" 1, foundWorld.response 1⟩, ⟨.count "success" (.finite 7), ()⟩, ⟨.release, ()⟩,
    ⟨.cacheSet (ticketKey plainHost "lost") foundRecord, .ok ()⟩]
  program := .done (Dict.set foundRecord "cache_hit" (.bool false))

/-- What the request does. -/
abbrev posted : RouteTrace :=
  [⟨.uuid, "j"⟩, ⟨.cacheGet (ticketKey plainHost "help"), .ok (some foundRecord)⟩,
    ⟨.cacheGet (ticketKey plainHost "lost"), .ok none⟩, ⟨.cacheGet (ticketKey plainHost "wrong"), .ok none⟩,
    ⟨.etaInitial 2 (breakdown ["lost", "wrong"]), (0 : ℚ)⟩, ⟨.store (.create 4), .ok⟩,
    ⟨.store (.incrementProgress 2 0 2), .ok⟩, ⟨.createTask (mixedJob true), ()⟩, ⟨.queueDepth 2, ()⟩]

/-- And its task, before the batch is handed out. -/
abbrev earlier : RouteTrace :=
  posted ++ [⟨.activeJobs 1, ()⟩, ⟨.monotonic, (0 : ℚ)⟩, ⟨.enqueueMany, .ok ()⟩, ⟨.queueDepth 2, ()⟩,
    ⟨.store .start, .ok⟩, ⟨.drainBatch, .ok ()⟩, ⟨.queueDepth 0, ()⟩, ⟨.monotonic, (0 : ℚ)⟩]

/-- And what its task does afterwards. -/
abbrev later : RouteTrace :=
  ⟨.monotonic, (0 : ℚ)⟩ :: ⟨.etaUpdate (0 - 0), ()⟩ ::
    ⟨.store (incrementCall (batchEntries mixedBatch servedRaw)), .ok⟩ ::
    ⟨.etaEstimate 0 mixedBatch.complexity, (0 : ℚ)⟩ ::
    ⟨.store (progressCall (mixedJob true) servedTotals 0), .ok⟩ ::
    laterTrace .defaults (mixedJob true) servedTotals (.finite (0 + 7 + 0 + 7))

theorem oneRequest_leads : ∃ next, Leads (request QueueDepth.Sorted .defaults plainHost (mixed true)) earlier
      (.ask (.gather mixedBatch) next) ∧ Leads (next (.ok servedRaw)) later (.done ()) := by
  have accepted : Leads (request QueueDepth.Sorted .defaults plainHost (mixed true)) posted
      (processJob QueueDepth.Sorted .defaults (mixedJob true)) :=
    .ask (.ask (.ask (.ask (.ask (.ask (.ask (.ask (.ask (.refl _)))))))))
  have drained : PriorityBatcher.drainBatch QueueDepth.Sorted (jobQueue QueueDepth.Sorted (mixedJob true)) =
      some (mixedBatch, (MinQueue.sorted _).empty) := rfl
  have ran : Runs (processJob QueueDepth.Sorted .defaults (mixedJob true)) _ _ :=
    processJob_of_batch servedRaw (show _ = 0 from rfl) drained rfl
      (show totalTokens servedTotals.results = .ok (.finite (0 + 7 + 0 + 7)) from rfl)
  have whole : Leads (request QueueDepth.Sorted .defaults plainHost (mixed true))
      (earlier ++ ⟨.gather mixedBatch, .ok servedRaw⟩ :: later) (.done ()) :=
    accepted.trans (leads_of_runs ran)
  exact whole.split

/-- The state of its branch. -/
abbrev branch (program : Handler Unit) (trace : RouteTrace) (joined : List Ticket) (running : Option (List Ticket)) :
    System Unit Unit := ⟨(1, ()), fun _ => ⟨program, trace, joined, running⟩⟩

/-- The batch is due. -/
theorem oneRequest_forks : ∃ next, Leads (next (.ok servedRaw)) later (.done ()) ∧
    exec (step .defaults plainHost calm upstream) oneRequest (List.replicate 17 ((), .answer)) =
      some (branch (.ask (.gather mixedBatch) next) earlier [] none) := by
  obtain ⟨next, before, after⟩ := oneRequest_leads
  refine ⟨next, after, ?_⟩
  have plain : ∀ asked ∈ earlier, (forks .defaults plainHost).arguments asked.1 = none := by
    simp [forks]
  have served : ∀ asked ∈ earlier, ∀ trace, serveRequest calm () trace (1, ()) asked.1 = some (asked.2, 1, ()) := by
    have apart : ticketKey plainHost "lost" ≠ ticketKey plainHost "help" ∧
        ticketKey plainHost "wrong" ≠ ticketKey plainHost "help" := by decide
    simp [serveRequest, calm, ProcessState.calm, apart]
  exact Nursery.exec_of_leads (w := oneRequest) (i := ()) before plain served

/-- The turns of its coroutines: the second takes the slot, and the first waits for it. -/
abbrev turns : List (Unit × Turn) :=
  [((), .fork), ((), .task 0), ((), .task 1), ((), .task 1), ((), .task 1), ((), .task 1), ((), .task 1),
    ((), .task 1), ((), .task 0), ((), .task 0), ((), .task 1), ((), .task 0), ((), .task 0), ((), .task 0),
    ((), .join)]

/-- Its tickets are worked on. -/
theorem oneRequest_joins (next : RouteAnswer (.gather mixedBatch) → Handler Unit) (trace : RouteTrace) :
    exec (step .defaults plainHost calm upstream) (branch (.ask (.gather mixedBatch) next) trace [] none) turns =
      some (branch (next (.ok servedRaw)) (trace ++ [⟨.gather mixedBatch, .ok servedRaw⟩])
        [wrongTask, lostTask] none) := rfl

/-- The whole run. -/
abbrev schedule : List (Unit × Turn) :=
  List.replicate 17 ((), .answer) ++ (turns ++ List.replicate 11 ((), .answer))

abbrev answered : RouteTrace := earlier ++ [⟨.gather mixedBatch, .ok servedRaw⟩] ++ later

theorem oneRequest_ran : exec (step .defaults plainHost calm upstream) oneRequest schedule =
    some (branch (.done ()) answered [wrongTask, lostTask] none) := by
  obtain ⟨next, after, ran⟩ := oneRequest_forks
  have plain : ∀ asked ∈ later, (forks .defaults plainHost).arguments asked.1 = none := by
    simp [forks, laterTrace, finishTrace]
  have served : ∀ asked ∈ later, ∀ trace, serveRequest calm () trace (1, ()) asked.1 = some (asked.2, 1, ()) := by
    simp [serveRequest, calm, ProcessState.calm, laterTrace, finishTrace]
  rw [schedule, exec_append, ran, Option.bind_some, exec_append, oneRequest_joins, Option.bind_some]
  exact Nursery.exec_of_leads (w := branch _ _ _ _) (i := ()) after plain served

/-- Satisfiable pole: the tickets have not begun. -/
theorem ranks_respected_started : ∃ w running, exec (step .defaults plainHost calm upstream) oneRequest
      (List.replicate 17 ((), .answer) ++ [((), .fork)]) = some w ∧ (w.branches ()).running = some running ∧
    running.map Task.argument = [("wrong", 1), ("lost", 0)] ∧
    ∃ complexity, ∀ t ∈ running, classify t.argument.1 = complexity := by
  obtain ⟨next, _, ran⟩ := oneRequest_forks
  have started : exec (step .defaults plainHost calm upstream) oneRequest
      (List.replicate 17 ((), .answer) ++ [((), .fork)]) =
        some (branch (.ask (.gather mixedBatch) next) earlier []
          (some [⟨("wrong", 1), [], processTicket .defaults plainHost "wrong"⟩,
            ⟨("lost", 0), [], processTicket .defaults plainHost "lost"⟩])) := by
    rw [exec_append, ran, Option.bind_some]
    rfl
  obtain ⟨complexity, same, _⟩ := ranks_respected (i := ()) started rfl
  exact ⟨_, _, started, rfl, rfl, complexity, same⟩

/-- Satisfiable pole: all is over. -/
theorem every_request_ends_mixed : ∃ w, exec (step .defaults plainHost calm upstream) oneRequest schedule = some w ∧
    schedule.length ≤ 4 * 11 + 18 + distinct plainHost (mixed true).tickets * (Settings.defaults.maxRetries * 7 + 4) ∧
    (∀ t ∈ (w.branches ()).tasks, t.program.ended?.isSome) ∧ w.shared.1 = 1 := by
  have served : ∀ i trace state op, (calm i trace state op).isSome := fun _ _ _ op => by cases op <;> rfl
  have upstreamServed : ∀ k trace state op, (upstream k trace state op).isSome := by
    intro k trace state op
    unfold upstream
    split
    · rfl
    · cases op <;> rfl
  obtain ⟨short, ends⟩ := every_request_ends oneRequest_ran
  have stuck : ∀ event, step .defaults plainHost calm upstream
      (branch (.done ()) answered [wrongTask, lostTask] none) event = none := by
    rintro ⟨_, turn⟩
    cases turn <;> rfl
  obtain ⟨through, free⟩ := ends one_pos served upstreamServed stuck
  refine ⟨_, oneRequest_ran, ?_, (through ()).2, free⟩
  simpa [mixed] using short

end Poles
end InferenceForge.Api.Service
