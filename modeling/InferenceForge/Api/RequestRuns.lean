/-
# InferenceForge.Api.RequestRuns — what a request can do

`PostRun` lists the ways a run of `processTickets` can go: what it does to the job
store, which job it launches and how it ends (`processTickets_runs`). The loop
over the tickets is `DedupRun`, and `Deduplicated` is what it has established:
every ticket is counted once, and the first occurrence of each normalised form is
a cached result or a unique ticket.

`RequestRun` puts a request and its background task together.
-/
import InferenceForge.Api.JobRuns
import Mathlib.Data.Finset.Card

namespace InferenceForge.Api

open InferenceForge.Python InferenceForge.Library InferenceForge.Pipeline
open InferenceForge.Pipeline.JobStore (StoreCall Reply JobRedis Act)

set_option autoImplicit false

/-! ## The loop over the tickets -/

/-- What is known of what the cache holds under a key. -/
abbrev CacheFact := String → Dict → Prop

/-- Every cache hit in the trace is as `known` says. -/
def Known (known : CacheFact) (trace : RouteTrace) : Prop :=
  ∀ key cached, ⟨.cacheGet key, .ok (some cached)⟩ ∈ trace → known key cached

section Shape

variable (host : Host) (known : CacheFact)

/-- How the loop goes from one state to the next. -/
inductive DedupRun : List String → Dedup → Dedup → Prop
  | done (found : Dedup) : DedupRun [] found found
  | duplicate {ticket : String} {rest : List String} {found final : Dedup}
      (again : (found.seen.lookup (normalize host ticket)).isSome = true)
      (more : DedupRun rest { found with cachedCount := found.cachedCount + 1 } final) :
      DedupRun (ticket :: rest) found final
  | hit {ticket : String} {rest : List String} {found final : Dedup} {cached : Dict}
      (first : (found.seen.lookup (normalize host ticket)).isSome = false)
      (holds : known (ticketKey host ticket) cached)
      (more : DedupRun rest { found with
        seen := found.seen ++ [(normalize host ticket, ticket)]
        preCachedResults := found.preCachedResults ++ [preCachedEntry ticket cached]
        cachedCount := found.cachedCount + 1 } final) :
      DedupRun (ticket :: rest) found final
  | miss {ticket : String} {rest : List String} {found final : Dedup}
      (first : (found.seen.lookup (normalize host ticket)).isSome = false)
      (more : DedupRun rest { found with
        seen := found.seen ++ [(normalize host ticket, ticket)]
        uniqueTickets := found.uniqueTickets ++ [ticket] } final) :
      DedupRun (ticket :: rest) found final

/-- The call that counts the tickets that are done already. -/
def countCalls (found : Dedup) : List Act :=
  if found.cachedCount ≠ 0 then
    [(.incrementProgress found.cachedCount 0 found.cachedCount, .ok)]
  else []

/-- How a request can go: its calls of the job store, the jobs it launches, and
its response. -/
inductive PostRun (tickets : List String) (jobId : String) :
    List Act → List Job → Except Exn ProcessResponse → Prop
  | lookup (e : Exn) : PostRun tickets jobId [] [] (.error e)
  | create (e : Exn) (applied : ℕ) :
      PostRun tickets jobId [(.create tickets.length, .raised e applied)] [] (.error e)
  | count {found : Dedup} (dedup : DedupRun host known tickets {} found)
      (some : found.cachedCount ≠ 0) (e : Exn) (applied : ℕ) :
      PostRun tickets jobId
        [(.create tickets.length, .ok),
          (.incrementProgress found.cachedCount 0 found.cachedCount, .raised e applied)] [] (.error e)
  | accepted {found : Dedup} (dedup : DedupRun host known tickets {} found)
      {response : ProcessResponse} (named : response.jobId = jobId)
      (total : response.total = tickets.length) :
      PostRun tickets jobId ((.create tickets.length, .ok) :: countCalls found)
        [found.job jobId tickets.length] (.ok response)

end Shape

def launchedJob : Asked RouteOp RouteAnswer → Option Job
  | ⟨.createTask job, _⟩ => some job
  | _ => none

/-- The background tasks that were created. -/
def launched (trace : RouteTrace) : List Job := trace.filterMap launchedJob

@[simp] theorem launched_append (before after : RouteTrace) :
    launched (before ++ after) = launched before ++ launched after := List.filterMap_append

section Runs

variable {host : Host} {settings : Settings} {known : CacheFact}

theorem Known.of_cons {asked : Asked RouteOp RouteAnswer} {rest : RouteTrace}
    (all : Known known (asked :: rest)) : Known known rest :=
  fun key cached member => all key cached (List.mem_cons_of_mem _ member)

/-- Nothing has to be known. -/
theorem known_any (trace : RouteTrace) : Known (fun _ _ => True) trace := fun _ _ _ => trivial

theorem Known.left {before after : RouteTrace} (all : Known known (before ++ after)) :
    Known known before :=
  fun key cached member => all key cached (List.mem_append_left _ member)

/-- How the loop over the tickets goes. -/
theorem deduplicate_runs (tickets : List String) :
    ∀ {found : Dedup} {trace : RouteTrace} {result : Except Exn Dedup},
      Runs (deduplicate host tickets found) trace result → Known known trace →
      acts trace = [] ∧ launched trace = [] ∧
        ((∃ e, result = .error e) ∨
          ∃ final, result = .ok final ∧ DedupRun host known tickets found final) := by
  induction tickets with
  | nil =>
      intro found trace result ran all
      obtain ⟨rfl, rfl⟩ := runs_pure_iff.mp ran
      exact ⟨rfl, rfl, .inr ⟨found, rfl, .done found⟩⟩
  | cons ticket rest ih =>
      intro found trace result ran all
      unfold deduplicate at ran
      dsimp only at ran
      split at ran
      · next again =>
          obtain ⟨quiet, idle, ended⟩ := ih ran all
          refine ⟨quiet, idle, ended.imp_right fun ⟨final, same, run⟩ => ?_⟩
          exact ⟨final, same, .duplicate again run⟩
      · next first =>
          have first := Bool.eq_false_iff.mpr first
          rcases runs_call_bind_iff.mp ran with
            ⟨_, e, rfl, rfl, rfl⟩ | ⟨_, answer, later, rfl, rfl, looked⟩
          · exact ⟨rfl, rfl, .inl ⟨e, rfl⟩⟩
          · cases answer with
            | none =>
                obtain ⟨quiet, idle, ended⟩ := ih looked all.of_cons
                refine ⟨quiet, idle, ended.imp_right fun ⟨final, same, run⟩ => ?_⟩
                exact ⟨final, same, .miss first run⟩
            | some cached =>
                obtain ⟨quiet, idle, ended⟩ := ih looked all.of_cons
                have holds := all _ cached List.mem_cons_self
                refine ⟨quiet, idle, ended.imp_right fun ⟨final, same, run⟩ => ?_⟩
                exact ⟨final, same, .hit first holds run⟩

/-- **The runs of a request** are those `PostRun` lists. -/
theorem processTickets_runs {body : ProcessRequest settings} {trace : RouteTrace}
    {result : Except Exn ProcessResponse} (ran : Runs (processTickets settings host body) trace result)
    (all : Known known trace) :
    ∃ jobId rest, trace = ⟨.uuid, jobId⟩ :: rest ∧
      PostRun host known body.tickets jobId (acts trace) (launched trace) result := by
  obtain ⟨jobId, rest, rfl, named⟩ := runs_perform_bind_iff.mp ran
  refine ⟨jobId, rest, rfl, ?_⟩
  show PostRun host known body.tickets jobId (acts rest) (launched rest) result
  rcases runs_bind_iff.mp named with ⟨e, raised, rfl⟩ | ⟨found, before, after, rfl, dedup, later⟩
  · obtain ⟨quiet, idle, _⟩ := deduplicate_runs body.tickets raised all.of_cons
    rw [quiet, idle]
    exact .lookup e
  · obtain ⟨quiet, idle, ended⟩ := deduplicate_runs body.tickets dedup all.of_cons.left
    rw [acts_append, launched_append, quiet, idle]
    rcases ended with ⟨_, impossible⟩ | ⟨_, same, run⟩
    · cases impossible
    · cases same
      obtain ⟨estimated, rest, rfl, created⟩ := runs_perform_bind_iff.mp later
      rcases store_bind_runs created with ⟨e, applied, rfl, rfl⟩ | ⟨rest, rfl, counted⟩
      · exact .create e applied
      · rcases runs_bind_iff.mp counted with
          ⟨e, raised, rfl⟩ | ⟨_, before, after, rfl, incremented, accepted⟩
        · rcases runs_when_iff.mp raised with ⟨some, called⟩ | ⟨_, _, impossible⟩
          · obtain ⟨reply, rfl, seen⟩ := store_runs called
            cases reply with
            | ok => cases seen
            | raised e' applied =>
                cases seen
                exact .count run some e applied
          · cases impossible
        · obtain ⟨_, rest, rfl, launching⟩ := runs_perform_bind_iff.mp accepted
          obtain ⟨_, rest, rfl, shown⟩ := runs_perform_bind_iff.mp launching
          obtain ⟨rfl, rfl⟩ := runs_pure_iff.mp shown
          have calls : acts before = countCalls found ∧ launched before = [] := by
            unfold countCalls
            rcases runs_when_iff.mp incremented with ⟨some, called⟩ | ⟨none, rfl, _⟩
            · obtain ⟨reply, rfl, seen⟩ := store_runs called
              cases reply with
              | ok => exact ⟨(if_pos some).symm, rfl⟩
              | raised e' applied => cases seen
            · exact ⟨(if_neg none).symm, rfl⟩
          show PostRun host known body.tickets jobId
            ((.create body.tickets.length, .ok) :: acts (before ++ _)) (launched (before ++ _)) _
          rw [acts_append, launched_append, calls.1, calls.2]
          show PostRun host known body.tickets jobId
            ((.create body.tickets.length, .ok) :: (countCalls found ++ [])) _ _
          rw [List.append_nil]
          exact .accepted run rfl rfl

end Runs

/-! ## What the loop establishes -/

/-- The `ticket` field of an entry. -/
def ticketOf (entry : Dict) : Option Json := Dict.get? entry "ticket"

/-- The number of distinct normalised forms of the tickets. -/
def distinct (host : Host) (tickets : List String) : ℕ := (tickets.map (normalize host)).toFinset.card

section Deduplicated

variable {host : Host} {known : CacheFact} {tickets : List String} {ticket : String} {found : Dedup}

/-- What has been found of the tickets so far. -/
structure Deduplicated (host : Host) (known : CacheFact) (tickets : List String) (found : Dedup) :
    Prop where
  seen : ∀ form, (found.seen.lookup form).isSome = true ↔ form ∈ tickets.map (normalize host)
  counted : found.cachedCount + found.uniqueTickets.length = tickets.length
  firsts : found.preCachedResults.length + found.uniqueTickets.length = distinct host tickets
  cached : ∀ entry ∈ found.preCachedResults, ∃ ticket cached,
    known (ticketKey host ticket) cached ∧ entry = preCachedEntry ticket cached
  named : (tickets.map (normalize host)).Nodup →
    (found.preCachedResults.map ticketOf : Multiset (Option Json)) +
      (found.uniqueTickets.map (some ∘ Json.string)) = tickets.map (some ∘ Json.string)

theorem ticketOf_preCachedEntry (ticket : String) (cached : Dict) :
    ticketOf (preCachedEntry ticket cached) = some (.string ticket) := by
  rw [ticketOf, preCachedEntry, Dict.get?_set_of_ne _ (by decide), Dict.get?_set_self]

theorem lookup_concat {seen : List (String × String)} {form other ticket : String} :
    ((seen ++ [(form, ticket)]).lookup other).isSome = true ↔
      (seen.lookup other).isSome = true ∨ other = form := by
  rw [List.lookup_append]
  by_cases same : other = form
  · subst same
    simp
  · have differ : (other == form) = false := by simpa using same
    simp [List.lookup_cons, differ, same]

theorem distinct_concat_of_mem (again : normalize host ticket ∈ tickets.map (normalize host)) :
    distinct host (tickets ++ [ticket]) = distinct host tickets := by
  have there : normalize host ticket ∈ (tickets.map (normalize host)).toFinset :=
    List.mem_toFinset.mpr again
  simp only [distinct, List.map_append, List.map_singleton, List.toFinset_append]
  congr 1
  exact Finset.union_eq_left.mpr (by simpa using there)

theorem distinct_concat_of_not_mem (first : normalize host ticket ∉ tickets.map (normalize host)) :
    distinct host (tickets ++ [ticket]) = distinct host tickets + 1 := by
  have absent : normalize host ticket ∉ (tickets.map (normalize host)).toFinset :=
    fun there => first (List.mem_toFinset.mp there)
  simp only [distinct, List.map_append, List.map_singleton, List.toFinset_append]
  rw [Finset.union_comm, ← Finset.card_insert_of_notMem absent]
  rfl

theorem distinct_eq_length_iff :
    distinct host tickets = tickets.length ↔ (tickets.map (normalize host)).Nodup := by
  have card := Multiset.toFinset_card_eq_card_iff_nodup
    (m := (tickets.map (normalize host) : Multiset String))
  simpa [distinct] using card

theorem deduplicated_nil : Deduplicated host known [] {} where
  seen form := by simp
  counted := rfl
  firsts := rfl
  cached entry member := by cases member
  named _ := by simp

theorem Deduplicated.duplicate (before : Deduplicated host known tickets found)
    (again : (found.seen.lookup (normalize host ticket)).isSome = true) :
    Deduplicated host known (tickets ++ [ticket])
      { found with cachedCount := found.cachedCount + 1 } := by
  have member := (before.seen _).mp again
  constructor
  · intro form
    rw [List.map_append, List.mem_append, List.map_singleton, List.mem_singleton, before.seen]
    constructor
    · exact .inl
    · rintro (there | rfl)
      · exact there
      · exact member
  · have counted := before.counted
    simp only [List.length_append, List.length_singleton]
    omega
  · rw [distinct_concat_of_mem member]
    exact before.firsts
  · exact before.cached
  · intro nodup
    rw [List.map_append, List.nodup_append] at nodup
    exact absurd rfl (nodup.2.2 _ member _ (by simp))

theorem Deduplicated.hit (before : Deduplicated host known tickets found)
    (first : (found.seen.lookup (normalize host ticket)).isSome = false) {cached : Dict}
    (holds : known (ticketKey host ticket) cached) :
    Deduplicated host known (tickets ++ [ticket]) { found with
      seen := found.seen ++ [(normalize host ticket, ticket)]
      preCachedResults := found.preCachedResults ++ [preCachedEntry ticket cached]
      cachedCount := found.cachedCount + 1 } := by
  have absent : normalize host ticket ∉ tickets.map (normalize host) := by
    rw [← before.seen, first]
    decide
  have counted := before.counted
  have firsts := before.firsts
  constructor
  · intro form
    rw [lookup_concat, before.seen]
    simp
  · simp only [List.length_append, List.length_singleton]
    omega
  · rw [distinct_concat_of_not_mem absent]
    simp only [List.length_append, List.length_singleton]
    omega
  · intro entry member
    rcases List.mem_append.mp member with member | member
    · exact before.cached entry member
    · exact ⟨ticket, cached, holds, List.mem_singleton.mp member⟩
  · intro nodup
    rw [List.map_append, List.nodup_append] at nodup
    have named := before.named nodup.1
    simp only [List.map_append, List.map_singleton, ticketOf_preCachedEntry, Function.comp_apply,
      ← Multiset.coe_add, ← named]
    exact add_right_comm _ _ _

theorem Deduplicated.miss (before : Deduplicated host known tickets found)
    (first : (found.seen.lookup (normalize host ticket)).isSome = false) :
    Deduplicated host known (tickets ++ [ticket]) { found with
      seen := found.seen ++ [(normalize host ticket, ticket)]
      uniqueTickets := found.uniqueTickets ++ [ticket] } := by
  have absent : normalize host ticket ∉ tickets.map (normalize host) := by
    rw [← before.seen, first]
    decide
  have counted := before.counted
  have firsts := before.firsts
  constructor
  · intro form
    rw [lookup_concat, before.seen]
    simp
  · simp only [List.length_append, List.length_singleton]
    omega
  · rw [distinct_concat_of_not_mem absent]
    simp only [List.length_append, List.length_singleton]
    omega
  · exact before.cached
  · intro nodup
    rw [List.map_append, List.nodup_append] at nodup
    have named := before.named nodup.1
    simp only [List.map_append, List.map_singleton, Function.comp_apply, ← Multiset.coe_add, ← named]
    exact (add_assoc _ _ _).symm

/-- **What the loop has found** of the tickets of a request. -/
theorem DedupRun.deduplicated {final : Dedup} (run : DedupRun host known tickets found final) :
    ∀ {before : List String}, Deduplicated host known before found →
      Deduplicated host known (before ++ tickets) final := by
  induction run with
  | done found =>
      intro before so_far
      rwa [List.append_nil]
  | duplicate again more ih =>
      intro before so_far
      rw [← List.singleton_append, ← List.append_assoc]
      exact ih (so_far.duplicate again)
  | hit first holds more ih =>
      intro before so_far
      rw [← List.singleton_append, ← List.append_assoc]
      exact ih (so_far.hit first holds)
  | miss first more ih =>
      intro before so_far
      rw [← List.singleton_append, ← List.append_assoc]
      exact ih (so_far.miss first)

end Deduplicated

/-! ## A request with its background task -/

/-- An accepted request looks its tickets up, and then launches one job, with what
it has found. -/
theorem processTickets_accepted {settings : Settings} {host : Host} {body : ProcessRequest settings}
    {trace : RouteTrace} {response : ProcessResponse}
    (posted : Runs (processTickets settings host body) trace (.ok response)) :
    ∃ jobId found before after, trace = ⟨.uuid, jobId⟩ :: (before ++ after) ∧
      Runs (deduplicate host body.tickets {}) before (.ok found) ∧
      launched trace = [found.job jobId body.tickets.length] ∧
      (∀ key answer, ⟨.cacheGet key, answer⟩ ∉ after) ∧
      response.cached = found.cachedCount ∧ response.unique = found.uniqueTickets.length := by
  obtain ⟨jobId, rest, rfl, named⟩ := runs_perform_bind_iff.mp posted
  rcases runs_bind_iff.mp named with ⟨e, _, impossible⟩ | ⟨found, before, after, rfl, dedup, later⟩
  · cases impossible
  · obtain ⟨_, idle, _⟩ := deduplicate_runs body.tickets dedup (known_any _)
    obtain ⟨_, rest, rfl, created⟩ := runs_perform_bind_iff.mp later
    rcases store_bind_runs created with ⟨e, _, _, impossible⟩ | ⟨rest, rfl, counted⟩
    · cases impossible
    · rcases runs_bind_iff.mp counted with
        ⟨e, _, impossible⟩ | ⟨_, counting, after, rfl, incremented, accepted⟩
      · cases impossible
      · obtain ⟨_, rest, rfl, launching⟩ := runs_perform_bind_iff.mp accepted
        obtain ⟨_, rest, rfl, shown⟩ := runs_perform_bind_iff.mp launching
        obtain ⟨rfl, answered⟩ := runs_pure_iff.mp shown
        have quiet : launched counting = [] ∧ ∀ key answer, ⟨.cacheGet key, answer⟩ ∉ counting := by
          rcases runs_when_iff.mp incremented with ⟨_, called⟩ | ⟨_, rfl, _⟩
          · obtain ⟨_, rfl, _⟩ := store_runs called
            exact ⟨rfl, by simp⟩
          · exact ⟨rfl, by simp⟩
        refine ⟨jobId, found, before, _, rfl, dedup, ?_, fun key answer member => ?_, ?_⟩
        · show launched (before ++ _) = _
          rw [launched_append, idle]
          show launched (counting ++ _) = _
          rw [launched_append, quiet.1]
          rfl
        · have there : ⟨.cacheGet key, answer⟩ ∈ counting := by simpa using member
          exact quiet.2 key answer there
        · rw [Except.ok.inj answered]
          exact ⟨rfl, rfl⟩

/-- A request that was accepted, and a run of the background task it launched. -/
structure Submission (Q : TicketQueue) (settings : Settings) (host : Host)
    (body : ProcessRequest settings) where
  postTrace : RouteTrace
  response : ProcessResponse
  posted : Runs (processTickets settings host body) postTrace (.ok response)
  job : Job
  launches : job ∈ launched postTrace
  jobTrace : RouteTrace
  ended : Except Exn Unit
  ran : Runs (processJob Q settings job) jobTrace ended

/-- The calls of the job store, in order: the task starts after the request. -/
def Submission.calls {Q : TicketQueue} {settings : Settings} {host : Host}
    {body : ProcessRequest settings} (sub : Submission Q settings host body) : List Act :=
  acts sub.postTrace ++ acts sub.jobTrace

/-- What is known of an accepted request. -/
theorem Submission.shape {Q : TicketQueue} {settings : Settings} {host : Host}
    {body : ProcessRequest settings} {known : CacheFact} (sub : Submission Q settings host body)
    (all : Known known sub.postTrace) :
    ∃ found, Deduplicated host known body.tickets found ∧
      sub.job = found.job sub.response.jobId body.tickets.length ∧
      sub.response.total = body.tickets.length ∧
      acts sub.postTrace = (.create body.tickets.length, .ok) :: countCalls found := by
  obtain ⟨jobId, rest, _, run⟩ := processTickets_runs sub.posted all
  have launches := sub.launches
  generalize acts sub.postTrace = calls at run ⊢
  generalize launched sub.postTrace = jobs at run launches
  generalize accepted : Except.ok sub.response = result at run
  cases run with
  | lookup e => cases accepted
  | create e applied => cases accepted
  | count dedup some e applied => cases accepted
  | accepted dedup named total =>
      cases accepted
      refine ⟨_, dedup.deduplicated deduplicated_nil, ?_, total, rfl⟩
      rw [named]
      exact List.mem_singleton.mp launches

/-- The response counts the tickets of the job it launches. -/
theorem Submission.counts {Q : TicketQueue} {settings : Settings} {host : Host}
    {body : ProcessRequest settings} (sub : Submission Q settings host body) :
    sub.response.cached = sub.job.preCached ∧
      sub.response.unique = sub.job.uniqueTickets.length := by
  obtain ⟨jobId, found, before, after, _, _, launches, _, cached, unique⟩ := processTickets_accepted sub.posted
  have same : sub.job = found.job jobId body.tickets.length := by
    have there := sub.launches
    rw [launches] at there
    exact List.mem_singleton.mp there
  rw [same, cached, unique]
  exact ⟨rfl, rfl⟩

/-- What a request can do to the job store. -/
inductive RequestRun (Q : TicketQueue) (settings : Settings) (host : Host)
    (body : ProcessRequest settings) (jobId : String) : List Act → Prop
  | refused {rest : RouteTrace} {e : Exn}
      (posted : Runs (processTickets settings host body) (⟨.uuid, jobId⟩ :: rest) (.error e)) :
      RequestRun Q settings host body jobId (acts rest)
  | accepted (sub : Submission Q settings host body) (named : sub.response.jobId = jobId) :
      RequestRun Q settings host body jobId sub.calls

/-! ## Requests for a single ticket

The requests the examples of the modules below use. -/

section Single

variable {settings : Settings} {host : Host}

theorem deduplicate_of_again {ticket : String} {rest : List String} {found : Dedup}
    {trace : RouteTrace} {result : Except Exn Dedup}
    (again : (found.seen.lookup (normalize host ticket)).isSome = true)
    (ran : Runs (deduplicate host rest { found with cachedCount := found.cachedCount + 1 }) trace
      result) : Runs (deduplicate host (ticket :: rest) found) trace result := by
  unfold deduplicate
  rw [if_pos again]
  exact ran

theorem deduplicate_of_hit {ticket : String} {rest : List String} {found : Dedup} (cached : Dict)
    {trace : RouteTrace} {result : Except Exn Dedup}
    (first : ¬ (found.seen.lookup (normalize host ticket)).isSome = true)
    (ran : Runs (deduplicate host rest { found with
      seen := found.seen ++ [(normalize host ticket, ticket)]
      preCachedResults := found.preCachedResults ++ [preCachedEntry ticket cached]
      cachedCount := found.cachedCount + 1 }) trace result) :
    Runs (deduplicate host (ticket :: rest) found)
      (⟨.cacheGet (ticketKey host ticket), .ok (some cached)⟩ :: trace) result := by
  unfold deduplicate
  dsimp only
  rw [if_neg first]
  exact runs_call_bind_iff.mpr (.inr ⟨_, some cached, trace, rfl, rfl, ran⟩)

theorem deduplicate_of_miss {ticket : String} {rest : List String} {found : Dedup}
    {trace : RouteTrace} {result : Except Exn Dedup}
    (first : ¬ (found.seen.lookup (normalize host ticket)).isSome = true)
    (ran : Runs (deduplicate host rest { found with
      seen := found.seen ++ [(normalize host ticket, ticket)]
      uniqueTickets := found.uniqueTickets ++ [ticket] }) trace result) :
    Runs (deduplicate host (ticket :: rest) found)
      (⟨.cacheGet (ticketKey host ticket), .ok none⟩ :: trace) result := by
  unfold deduplicate
  dsimp only
  rw [if_neg first]
  exact runs_call_bind_iff.mpr (.inr ⟨_, none, trace, rfl, rfl, ran⟩)

/-- What follows the loop when tickets were found. -/
theorem processTickets_of_found {body : ProcessRequest settings} {trace : RouteTrace}
    (found : Dedup) (dedup : Runs (deduplicate host body.tickets {}) trace (.ok found))
    (some : found.cachedCount ≠ 0) (jobId : String) (eta : ℚ) :
    Runs (processTickets settings host body)
      (⟨.uuid, jobId⟩ :: (trace ++
        [⟨.etaInitial found.uniqueTickets.length (breakdown found.uniqueTickets), eta⟩,
          ⟨.store (.create body.tickets.length), .ok⟩,
          ⟨.store (.incrementProgress found.cachedCount 0 found.cachedCount), .ok⟩,
          ⟨.createTask (found.job jobId body.tickets.length), ()⟩,
          ⟨.queueDepth found.uniqueTickets.length, ()⟩]))
      (.ok {
        jobId
        total := body.tickets.length
        cached := found.cachedCount
        unique := found.uniqueTickets.length
        estimatedSeconds := round 1 eta
        complexityBreakdown := breakdown found.uniqueTickets }) := by
  refine runs_perform_bind_iff.mpr ⟨jobId, _, rfl, ?_⟩
  refine runs_bind_iff.mpr (.inr ⟨found, trace, _, rfl, dedup, ?_⟩)
  refine runs_perform_bind_iff.mpr ⟨eta, _, rfl, store_bind_of_ok ?_⟩
  refine runs_bind_iff.mpr (.inr ⟨(), [_], _, rfl, runs_when_iff.mpr (.inl ⟨some, ?_⟩), ?_⟩)
  · exact runs_call_iff.mpr ⟨.ok, rfl, rfl⟩
  · refine runs_perform_bind_iff.mpr ⟨(), _, rfl, runs_perform_bind_iff.mpr ⟨(), _, rfl, ?_⟩⟩
    exact runs_pure_iff.mpr ⟨rfl, rfl⟩

/-- What follows the loop over the tickets when none was found. -/
theorem processTickets_of_missed {body : ProcessRequest settings} {trace : RouteTrace} (found : Dedup) (dedup : Runs (deduplicate host body.tickets {}) trace (.ok found))
    (none : found.cachedCount = 0) (jobId : String) (eta : ℚ) :
    Runs (processTickets settings host body)
      (⟨.uuid, jobId⟩ :: (trace ++
        [⟨.etaInitial found.uniqueTickets.length (breakdown found.uniqueTickets), eta⟩,
          ⟨.store (.create body.tickets.length), .ok⟩,
          ⟨.createTask (found.job jobId body.tickets.length), ()⟩,
          ⟨.queueDepth found.uniqueTickets.length, ()⟩]))
      (.ok {
        jobId
        total := body.tickets.length
        cached := found.cachedCount
        unique := found.uniqueTickets.length
        estimatedSeconds := round 1 eta
        complexityBreakdown := breakdown found.uniqueTickets }) := by
  refine runs_perform_bind_iff.mpr ⟨jobId, _, rfl, ?_⟩
  refine runs_bind_iff.mpr (.inr ⟨found, trace, _, rfl, dedup, ?_⟩)
  refine runs_perform_bind_iff.mpr ⟨eta, _, rfl, store_bind_of_ok ?_⟩
  refine runs_bind_iff.mpr (.inr ⟨(), [], _, rfl, runs_when_iff.mpr (.inr ⟨by simpa, rfl, rfl⟩), ?_⟩)
  refine runs_perform_bind_iff.mpr ⟨(), _, rfl, runs_perform_bind_iff.mpr ⟨(), _, rfl, ?_⟩⟩
  exact runs_pure_iff.mpr ⟨rfl, rfl⟩

/-- A host for ASCII tickets in lower case, which knows one document. -/
def plainHost : Host where
  lower := id
  repr := id
  sha256 := id
  loads text :=
    if text = "\x7b\"category\":\"billing\"\x7d" then .ok (.object [("category", .string "billing")])
    else .error { kind := .jsonDecode, message := "Expecting value" }

/-- What the cache holds for the ticket of `foundJob`. -/
def foundRecord : Dict := [("category", .string "billing"), ("tokens", .number (.finite 7))]

/-- One ticket. -/
def single : ProcessRequest .defaults where
  tickets := ["help"]
  nonempty := by decide
  bounded := by decide
  short := by decide
  nonblank := by decide

/-- The same ticket twice. -/
def doubled : ProcessRequest .defaults where
  tickets := ["help", "help"]
  nonempty := by decide
  bounded := by decide
  short := by decide
  nonblank := by decide

/-- The request of `foundJob`, with a run of its task. -/
def singleSubmission {jobTrace : RouteTrace} {ended : Except Exn Unit}
    (ran : Runs (processJob (.sorted _) .defaults foundJob) jobTrace ended) :
    Submission (.sorted _) .defaults plainHost single where
  postTrace := _
  response := _
  posted := processTickets_of_found {
      seen := [("help", "help")]
      preCachedResults := [preCachedEntry "help" foundRecord]
      cachedCount := 1 }
    (deduplicate_of_hit foundRecord (by decide) (runs_pure_iff.mpr ⟨rfl, rfl⟩))
    (by decide) "j" 0
  job := foundJob
  launches := List.mem_singleton.mpr rfl
  jobTrace := jobTrace
  ended := ended
  ran := ran

end Single

end InferenceForge.Api
