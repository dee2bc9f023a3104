/-
# InferenceForge.Api.CacheStatistics — what the hits and misses of the cache count

`DeduplicationCache.get` counts look-ups, and a ticket that is not found with its
request is looked up again when its coroutine starts. A `LookedUp` job has what Redis
answered to both; `histories` are the answers for each of its distinct tickets.

Each ticket counts as one hit or one miss exactly if it is found with its request, or
is not and Redis answers no further look-up of it (`countedOnce_history_iff`). For
any number of jobs whose look-ups come in any order, the counters are those of the
tickets exactly under the same condition, and then `/health` shows the share of the
tickets that were served from the cache (`cache_counts_iff`).
-/
import InferenceForge.Api.JobCost

namespace InferenceForge.Api.Statistics

open InferenceForge.Python InferenceForge.Library InferenceForge.Pipeline

set_option autoImplicit false

/-! ## The counters -/

/-- What Redis answers to `GET`. -/
inductive RawAnswer
  | raised (e : Exn)
  | absent
  /-- A text, and what becomes of it: `json.loads` or the use of its value raises, or
  it is `null`, or a record. -/
  | text (read : Except Exn (Option Dict))

/-- `_hits` and `_misses`, and the totals of `metrics.py`. -/
structure CacheCounters where
  hits : ℕ
  misses : ℕ
  totalHits : ℕ
  totalMisses : ℕ

def recordCacheHit (counters : CacheCounters) : CacheCounters :=
  { counters with totalHits := counters.totalHits + 1 }

def recordCacheMiss (counters : CacheCounters) : CacheCounters :=
  { counters with totalMisses := counters.totalMisses + 1 }

/-- What a look-up returns. -/
def RawAnswer.answer : RawAnswer → Except Exn (Option Dict)
  | .raised e => .error e
  | .absent => .ok none
  | .text read => read

/-- `DeduplicationCache.get`, once Redis has answered. -/
def get (counters : CacheCounters) (raw : RawAnswer) : CacheCounters × Except Exn (Option Dict) :=
  match raw with
  | .raised _ => (counters, raw.answer)
  | .text _ => (recordCacheHit { counters with hits := counters.hits + 1 }, raw.answer)
  | .absent => (recordCacheMiss { counters with misses := counters.misses + 1 }, raw.answer)

/-- `hit_rate`. -/
def hitRate (counters : CacheCounters) : ℚ := rate counters.hits (counters.hits + counters.misses)

/-- The `cache_hit_rate` of `get_summary`. -/
def cacheHitRate (counters : CacheCounters) : ℚ :=
  round 4 (rate counters.totalHits (counters.totalHits + counters.totalMisses))

namespace RawAnswer

def isText : RawAnswer → Bool
  | .text _ => true
  | _ => false

def isAbsent : RawAnswer → Bool
  | .absent => true
  | _ => false

/-- A record was found. -/
def serves : RawAnswer → Bool
  | .text (.ok (some _)) => true
  | _ => false

/-- The look-up returned `None`. -/
def unfound : RawAnswer → Bool
  | .absent | .text (.ok none) => true
  | _ => false

end RawAnswer

open RawAnswer

/-- The counters after look-ups, in the order of their answers. -/
def counted (before : CacheCounters) (order : List RawAnswer) : CacheCounters :=
  order.foldl (fun counters raw => (get counters raw).1) before

/-- Every look-up that Redis answers is counted once. -/
theorem counted_eq (before : CacheCounters) (order : List RawAnswer) :
    counted before order = {
      hits := before.hits + order.countP isText
      misses := before.misses + order.countP isAbsent
      totalHits := before.totalHits + order.countP isText
      totalMisses := before.totalMisses + order.countP isAbsent } := by
  induction order generalizing before with
  | nil => rfl
  | cons raw rest ih =>
      show counted (get before raw).1 rest = _
      rw [ih]
      cases raw with
      | raised e => simp [get, isText, isAbsent]
      | absent =>
          simp only [get, recordCacheMiss, List.countP_cons, isText, isAbsent, CacheCounters.mk.injEq]
          simp [Nat.add_assoc, Nat.add_comm 1]
      | text read =>
          simp only [get, recordCacheHit, List.countP_cons, isText, isAbsent, CacheCounters.mk.injEq]
          simp [Nat.add_assoc, Nat.add_comm 1]

/-! ## The look-ups of one ticket -/

/-- A record was found, so it is the ticket's result. -/
def served (history : List RawAnswer) : Bool := history.any serves

/-- One hit if the ticket was served from the cache, else one miss. -/
structure CountedOnce (history : List RawAnswer) : Prop where
  hit : history.countP isText = if served history then 1 else 0
  miss : history.countP isAbsent = if served history then 0 else 1

/-- The request did not find the ticket. -/
def isUnfound (looked : String × RawAnswer) : Bool := unfound looked.2

/-- The look-up with the request, and the later ones of a ticket it did not find. -/
def history (second : String → List RawAnswer) (looked : String × RawAnswer) : List RawAnswer :=
  looked.2 :: if isUnfound looked then second looked.1 else []

/-- The ticket was found with its request; or Redis did not have it and answers no
further look-up. -/
def SettledAtOnce (second : String → List RawAnswer) (looked : String × RawAnswer) : Prop :=
  isUnfound looked = true → looked.2 = .absent ∧ ∀ raw ∈ second looked.1, ∃ e, raw = .raised e

theorem isText_of_serves {raw : RawAnswer} (serving : serves raw = true) : isText raw = true := by
  unfold serves at serving
  split at serving
  · rfl
  · cases serving

theorem serves_of_answer {raw : RawAnswer} {record : Dict} (returned : raw.answer = .ok (some record)) :
    serves raw = true := by
  cases raw with
  | raised e => cases returned
  | absent => cases returned
  | text read =>
      obtain rfl : read = .ok (some record) := returned
      rfl

theorem serves_of_unfound {raw : RawAnswer} (missing : unfound raw = true) : serves raw = false := by
  rcases raw with e | _ | (e | _ | record)
  · rfl
  · rfl
  · rfl
  · rfl
  · cases missing

/-- Who is served was counted as a hit. -/
theorem hit_of_served {history : List RawAnswer} (serving : served history = true) :
    0 < history.countP isText := by
  obtain ⟨raw, member, serves⟩ := List.any_eq_true.mp serving
  apply List.countP_pos_iff.mpr
  exact ⟨raw, member, isText_of_serves serves⟩

theorem uncounted_iff {list : List RawAnswer} :
    list.countP isText = 0 ∧ list.countP isAbsent = 0 ↔ ∀ raw ∈ list, ∃ e, raw = .raised e := by
  rw [List.countP_eq_zero, List.countP_eq_zero, ← forall₂_and]
  apply forall₂_congr
  intro raw _
  cases raw <;> simp [isText, isAbsent]

section History

variable {second : String → List RawAnswer} {looked : String × RawAnswer}

/-- The look-up with the request is counted. -/
theorem counted_history {value : Option Dict} (returned : looked.2.answer = .ok value) :
    0 < (history second looked).countP isText + (history second looked).countP isAbsent := by
  unfold history
  rw [List.countP_cons, List.countP_cons]
  cases raw : looked.2 with
  | raised e =>
      rw [raw] at returned
      cases returned
  | absent => simp [isText, isAbsent]
  | text read => simp [isText, isAbsent]

/-- After a miss nothing else may be counted. -/
theorem countedOnce_absent_iff {later : List RawAnswer} :
    CountedOnce (.absent :: later) ↔ ∀ raw ∈ later, ∃ e, raw = .raised e := by
  have served_later : served (.absent :: later) = served later := rfl
  have hits : List.countP isText (.absent :: later) = later.countP isText :=
    List.countP_cons_of_neg Bool.false_ne_true
  have misses : List.countP isAbsent (.absent :: later) = later.countP isAbsent + 1 :=
    List.countP_cons_of_pos rfl
  rw [← uncounted_iff]
  constructor
  · intro once
    have hit := once.hit
    have miss := once.miss
    rw [hits, served_later] at hit
    rw [misses, served_later] at miss
    by_cases serving : served later = true
    · rw [if_pos serving] at miss
      omega
    · rw [if_neg serving] at hit miss
      omega
  · rintro ⟨no_hit, no_miss⟩
    have unserved : served later = false := by
      by_contra serving
      have hit := hit_of_served (Bool.eq_true_of_not_eq_false serving)
      omega
    constructor
    · rw [hits, no_hit, served_later, unserved]
      rfl
    · rw [misses, no_miss, served_later, unserved]
      rfl

/-- The text `null` counts as a hit and serves nobody. -/
theorem not_countedOnce_null {later : List RawAnswer} : ¬ CountedOnce (.text (.ok none) :: later) := by
  intro once
  have served_later : served (.text (.ok none) :: later) = served later := rfl
  have hits : List.countP isText (.text (.ok none) :: later) = later.countP isText + 1 :=
    List.countP_cons_of_pos rfl
  have hit := once.hit
  rw [hits, served_later] at hit
  by_cases serving : served later = true
  · have again := hit_of_served serving
    rw [if_pos serving] at hit
    omega
  · rw [if_neg serving] at hit
    omega

/-- **A ticket counts once** exactly if it is settled at once. -/
theorem countedOnce_history_iff {value : Option Dict} (returned : looked.2.answer = .ok value) :
    CountedOnce (history second looked) ↔ SettledAtOnce second looked := by
  obtain ⟨ticket, raw⟩ := looked
  cases raw with
  | raised e => cases returned
  | absent =>
      show CountedOnce (.absent :: second ticket) ↔ _
      rw [countedOnce_absent_iff]
      constructor
      · intro unanswered _
        exact ⟨rfl, unanswered⟩
      · intro settled
        exact (settled rfl).2
  | text read =>
      cases read with
      | error e => cases returned
      | ok found =>
          cases found with
          | some record =>
              apply iff_of_true
              · exact ⟨rfl, rfl⟩
              · intro impossible
                cases impossible
          | none =>
              apply iff_of_false
              · exact not_countedOnce_null
              · intro settled
                cases (settled rfl).1

end History

/-! ## Any number of tickets -/

/-- No ticket has fewer hits than it was served, or fewer look-ups than one. -/
theorem sums_bounds {histories : List (List RawAnswer)}
    (looked : ∀ history ∈ histories, 0 < history.countP isText + history.countP isAbsent) :
    histories.countP served ≤ histories.flatten.countP isText ∧
      histories.countP served + histories.countP (fun history => !served history) ≤
        histories.flatten.countP isText + histories.flatten.countP isAbsent := by
  induction histories with
  | nil => simp
  | cons history rest ih =>
      obtain ⟨hits, all⟩ := ih fun other member => looked other (List.mem_cons_of_mem _ member)
      have here := looked history List.mem_cons_self
      rw [List.flatten_cons, List.countP_append, List.countP_append, List.countP_cons, List.countP_cons]
      cases serving : served history with
      | true =>
          have hit := hit_of_served serving
          simp only [Bool.not_true, Bool.false_eq_true, if_true, if_false]
          omega
      | false =>
          simp only [Bool.not_false, Bool.false_eq_true, if_true, if_false]
          omega

/-- The sums are those of the tickets exactly if each counts once. -/
theorem sums_exact_iff {histories : List (List RawAnswer)}
    (looked : ∀ history ∈ histories, 0 < history.countP isText + history.countP isAbsent) :
    histories.flatten.countP isText = histories.countP served ∧
        histories.flatten.countP isAbsent = histories.countP (fun history => !served history) ↔
      ∀ history ∈ histories, CountedOnce history := by
  induction histories with
  | nil => simp
  | cons history rest ih =>
      have others : ∀ history ∈ rest, 0 < history.countP isText + history.countP isAbsent :=
        fun other member => looked other (List.mem_cons_of_mem _ member)
      have here := looked history List.mem_cons_self
      obtain ⟨hits, all⟩ := sums_bounds others
      rw [List.forall_mem_cons, ← ih others, List.flatten_cons, List.countP_append, List.countP_append,
        List.countP_cons, List.countP_cons]
      cases serving : served history with
      | true =>
          have hit := hit_of_served serving
          simp only [Bool.not_true, Bool.false_eq_true, if_true, if_false]
          constructor
          · rintro ⟨texts, absents⟩
            refine ⟨⟨?_, ?_⟩, ?_⟩
            · rw [if_pos serving]
              omega
            · rw [if_pos serving]
              omega
            · omega
          · rintro ⟨once, texts, absents⟩
            have hit := once.hit
            have miss := once.miss
            simp only [serving, if_true] at hit miss
            omega
      | false =>
          simp only [Bool.not_false, Bool.false_eq_true, if_true, if_false]
          constructor
          · rintro ⟨texts, absents⟩
            have unserved : ¬ served history = true := by rw [serving]; exact Bool.false_ne_true
            refine ⟨⟨?_, ?_⟩, ?_⟩
            · rw [if_neg unserved]
              omega
            · rw [if_neg unserved]
              omega
            · omega
          · rintro ⟨once, texts, absents⟩
            have hit := once.hit
            have miss := once.miss
            simp only [serving, Bool.false_eq_true, if_false] at hit miss
            omega

/-! ## The look-ups of a request -/

def lookupOf : Asked RouteOp RouteAnswer → Option (Except Exn (Option Dict))
  | ⟨.cacheGet _, found⟩ => some found
  | _ => none

/-- What the look-ups of a request returned. -/
def lookups (trace : RouteTrace) : List (Except Exn (Option Dict)) := trace.filterMap lookupOf

/-- The first occurrences of the tickets whose normalised form is not among `forms`. -/
def firsts (host : Host) : List String → List String → List String
  | _, [] => []
  | forms, ticket :: rest =>
      if normalize host ticket ∈ forms then firsts host forms rest
      else ticket :: firsts host (forms ++ [normalize host ticket]) rest

section Request

variable {settings : Settings} {host : Host}

theorem lookups_append (before after : RouteTrace) :
    lookups (before ++ after) = lookups before ++ lookups after := List.filterMap_append

theorem lookups_eq_nil {trace : RouteTrace} (quiet : ∀ key found, ⟨.cacheGet key, found⟩ ∉ trace) :
    lookups trace = [] := by
  apply List.filterMap_eq_nil_iff.mpr
  rintro ⟨op, answer⟩ member
  cases op with
  | cacheGet key => exact absurd member (quiet key answer)
  | store | enqueueMany | drainBatch | gather | activeJobs | queueDepth | monotonic | etaUpdate
  | etaEstimate | etaInitial | summary | uuid | createTask => rfl

theorem lookup_isSome_iff {seen : List (String × String)} {form : String} :
    (seen.lookup form).isSome = true ↔ form ∈ seen.map Prod.fst := by
  induction seen with
  | nil => simp
  | cons entry rest ih =>
      obtain ⟨key, ticket⟩ := entry
      by_cases same : form = key
      · subst same
        simp
      · have differ : (form == key) = false := by simpa using same
        simp [List.lookup_cons, differ, same, ih]

/-- There is a first occurrence for each normalised form. -/
theorem length_firsts (tickets forms : List String) :
    (firsts host forms tickets).length + forms.toFinset.card =
      (forms ++ tickets.map (normalize host)).toFinset.card := by
  induction tickets generalizing forms with
  | nil => simp [firsts]
  | cons ticket rest ih =>
      unfold firsts
      by_cases again : normalize host ticket ∈ forms
      · rw [if_pos again, ih]
        congr 1
        ext form
        simp only [List.toFinset_append, List.map_cons, List.toFinset_cons, Finset.mem_union,
          Finset.mem_insert, List.mem_toFinset]
        constructor
        · rintro (there | there)
          · exact .inl there
          · exact .inr (.inr there)
        · rintro (there | rfl | there)
          · exact .inl there
          · exact .inl again
          · exact .inr there
      · have later := ih (forms ++ [normalize host ticket])
        have grown : (forms ++ [normalize host ticket]).toFinset.card = forms.toFinset.card + 1 := by
          have absent : normalize host ticket ∉ forms.toFinset := by rwa [List.mem_toFinset]
          rw [List.toFinset_append, Finset.union_comm, ← Finset.card_insert_of_notMem absent]
          rfl
        rw [if_neg again, List.length_cons, List.map_cons]
        rw [List.append_assoc, List.singleton_append, grown] at later
        omega

/-- The request does not find what is not there, or is `null`. -/
theorem isUnfound_eq {ticket : String} {raw : RawAnswer} {value : Option Dict}
    (returned : raw.answer = .ok value) : isUnfound (ticket, raw) = value.isNone := by
  cases raw with
  | raised e => cases returned
  | absent =>
      cases returned
      rfl
  | text read =>
      obtain rfl : read = .ok value := returned
      cases value <;> rfl

/-- The first look-up has the first answer. -/
theorem asked_cons {found : Except Exn (Option Dict)} {later : List (Except Exn (Option Dict))}
    {first : List RawAnswer} (asked : found :: later = first.map RawAnswer.answer) :
    ∃ raw others, first = raw :: others ∧ raw.answer = found ∧ later = others.map RawAnswer.answer := by
  cases first with
  | nil => cases asked
  | cons raw others =>
      obtain ⟨here, there⟩ := List.cons.inj asked
      exact ⟨raw, others, rfl, here.symm, there⟩

/-- **The look-ups of the loop**: one for each first occurrence, which all return, and
the unique tickets are those that were not found. -/
theorem deduplicate_lookups (tickets : List String) :
    ∀ {found final : Dedup} {trace : RouteTrace} {first : List RawAnswer},
      Runs (deduplicate host tickets found) trace (.ok final) →
      lookups trace = first.map RawAnswer.answer →
      first.length = (firsts host (found.seen.map Prod.fst) tickets).length ∧
        (∀ raw ∈ first, ∃ value, raw.answer = .ok value) ∧
        final.uniqueTickets = found.uniqueTickets ++
          (((firsts host (found.seen.map Prod.fst) tickets).zip first).filter isUnfound).map Prod.fst := by
  induction tickets with
  | nil =>
      intro found final trace first ran asked
      obtain ⟨rfl, same⟩ := runs_pure_iff.mp ran
      cases same
      have empty : first = [] := List.map_eq_nil_iff.mp asked.symm
      subst empty
      exact ⟨rfl, by simp, by simp [firsts]⟩
  | cons ticket rest ih =>
      intro found final trace first ran asked
      unfold deduplicate at ran
      dsimp only at ran
      by_cases again : (found.seen.lookup (normalize host ticket)).isSome = true
      · rw [if_pos again] at ran
        have skipped : firsts host (found.seen.map Prod.fst) (ticket :: rest) =
            firsts host (found.seen.map Prod.fst) rest := if_pos (lookup_isSome_iff.mp again)
        rw [skipped]
        exact @ih { found with cachedCount := found.cachedCount + 1 } final trace first ran asked
      · rw [if_neg again] at ran
        have taken : firsts host (found.seen.map Prod.fst) (ticket :: rest) =
            ticket :: firsts host (found.seen.map Prod.fst ++ [normalize host ticket]) rest :=
          if_neg fun there => again (lookup_isSome_iff.mpr there)
        rcases runs_call_bind_iff.mp ran with
          ⟨_, e, rfl, rfl, impossible⟩ | ⟨_, value, later, rfl, rfl, looked⟩
        · cases impossible
        · obtain ⟨raw, others, rfl, returned, rest_asked⟩ := asked_cons asked
          have unfound := @isUnfound_eq ticket raw value returned
          rw [taken, List.zip_cons_cons, List.length_cons, List.length_cons, List.forall_mem_cons]
          cases value with
          | none =>
              obtain ⟨length, returns, unique⟩ := ih looked rest_asked
              rw [List.map_append] at length unique
              refine ⟨congrArg Nat.succ length, ⟨⟨_, returned⟩, returns⟩, ?_⟩
              rw [unique, List.filter_cons_of_pos unfound, List.append_assoc]
              rfl
          | some cached =>
              obtain ⟨length, returns, unique⟩ := ih looked rest_asked
              have skipped : ¬ isUnfound (ticket, raw) = true := by rw [unfound]; exact Bool.false_ne_true
              rw [List.map_append] at length unique
              refine ⟨congrArg Nat.succ length, ⟨⟨_, returned⟩, returns⟩, ?_⟩
              rw [unique, List.filter_cons_of_neg skipped]
              rfl

end Request

/-! ## The look-up of a coroutine -/

def ticketLookupOf : Asked TicketOp TicketAnswer → Option (Except Exn (Option Dict))
  | ⟨.cacheGet _, found⟩ => some found
  | _ => none

/-- What the look-ups of a coroutine returned. -/
def ticketLookups (trace : TicketTrace) : List (Except Exn (Option Dict)) := trace.filterMap ticketLookupOf

section Ticket

variable {settings : Settings} {host : Host} {ticket : String} {trace : TicketTrace}
  {result : Except Exn Dict}

/-- A coroutine looks up once, and its result is a cache hit exactly if that found a record. -/
theorem ticketLookups_of_runs (ran : Runs (processTicket settings host ticket) trace result) :
    ∃ found, ticketLookups trace = [found] ∧
      (isHit (settle ticket result) = true ↔ ∃ cached, found = .ok (some cached)) := by
  have ignores : ∀ asked : Asked TicketOp TicketAnswer, Upstream asked.1 → ticketLookupOf asked = none := by
    rintro ⟨op, answer⟩ quiet
    cases op with
    | cacheGet key => exact quiet.elim
    | cacheSet | acquire | release | admission | throttle | post | count | countStatus | uniform | sleep => rfl
  have alone : ∀ {upstream last : TicketTrace} {ended : Except Exn Dict},
      Runs (callWithRetry settings host ticket) upstream ended → ticketLookups last = [] →
      ticketLookups (missed host ticket ++ (upstream ++ last)) = [.ok none] := by
    intro upstream last ended called silent
    have split : ticketLookups (missed host ticket ++ (upstream ++ last)) =
        ticketLookups (missed host ticket) ++ ticketLookups last := filterMap_missed ignores called
    rw [split, silent]
    rfl
  have no_hit : ∀ record : Dict,
      ¬ isHit (settle ticket (.ok (Dict.set record "cache_hit" (.bool false)))) = true := by
    intro record
    simp [settle, isHit]
  have failed : ∀ e : Exn, ¬ isHit (settle ticket (.error e)) = true := fun _ => Bool.false_ne_true
  cases processTicket_runs_iff.mp ran with
  | lookupRaised e => exact ⟨_, rfl, iff_of_false (failed e) (by simp)⟩
  | hit cached => exact ⟨_, rfl, by simp [settle, isHit]⟩
  | raised upstream e called => exact ⟨_, alone called rfl, iff_of_false (failed e) (by simp)⟩
  | failed upstream record called error =>
      exact ⟨_, alone called rfl, iff_of_false (no_hit record) (by simp)⟩
  | classified upstream record stored called noError =>
      refine ⟨_, alone called rfl, iff_of_false ?_ (by simp)⟩
      cases stored with
      | error e => exact failed e
      | ok _ => exact no_hit record

end Ticket

/-! ## Jobs -/

/-- An accepted request and its job, with what Redis answers to their look-ups. -/
structure LookedUp (settings : Settings) (host : Host) where
  body : ProcessRequest settings
  postTrace : RouteTrace
  response : ProcessResponse
  posted : Runs (processTickets settings host body) postTrace (.ok response)
  job : Job
  launches : job ∈ launched postTrace
  first : List RawAnswer
  asked : lookups postTrace = first.map RawAnswer.answer
  /-- What the coroutine of each unique ticket has done so far. -/
  coroutines : String → TicketTrace
  begun : ∀ ticket ∈ job.uniqueTickets, ∃ rest result,
    Runs (processTicket settings host ticket) (coroutines ticket ++ rest) result
  second : String → List RawAnswer
  askedAgain : ∀ ticket ∈ job.uniqueTickets,
    ticketLookups (coroutines ticket) = (second ticket).map RawAnswer.answer

namespace LookedUp

variable {settings : Settings} {host : Host}

/-- The distinct tickets of the request, with the answers to its look-ups. -/
def looked (job : LookedUp settings host) : List (String × RawAnswer) :=
  (firsts host [] job.body.tickets).zip job.first

/-- The answers to the look-ups of each distinct ticket. -/
def histories (job : LookedUp settings host) : List (List RawAnswer) :=
  job.looked.map (history job.second)

/-- The answers to all look-ups of the job. -/
def raws (job : LookedUp settings host) : List RawAnswer :=
  job.first ++ job.job.uniqueTickets.flatMap job.second

/-- Every ticket that the request does not find is not in Redis, and no further
look-up of it is answered. -/
def Settled (job : LookedUp settings host) : Prop := ∀ looked ∈ job.looked, SettledAtOnce job.second looked

theorem request (job : LookedUp settings host) :
    job.first.length = (firsts host [] job.body.tickets).length ∧
      (∀ raw ∈ job.first, ∃ value, raw.answer = .ok value) ∧
      job.job.uniqueTickets = (job.looked.filter isUnfound).map Prod.fst := by
  obtain ⟨jobId, found, before, after, traced, dedup, launches, quiet, _⟩ := processTickets_accepted job.posted
  have same : job.job = found.job jobId job.body.tickets.length := by
    have there := job.launches
    rw [launches] at there
    exact List.mem_singleton.mp there
  have before_asked : lookups before = job.first.map RawAnswer.answer := by
    have asked := job.asked
    rw [traced] at asked
    have split : lookups (⟨.uuid, jobId⟩ :: (before ++ after)) = lookups before ++ lookups after :=
      lookups_append before after
    rwa [split, lookups_eq_nil quiet, List.append_nil] at asked
  obtain ⟨length, returns, unique⟩ := deduplicate_lookups job.body.tickets dedup before_asked
  refine ⟨length, returns, ?_⟩
  rw [same]
  exact unique

/-- There is a history for each distinct ticket. -/
theorem length_histories (job : LookedUp settings host) :
    job.histories.length = distinct host job.body.tickets := by
  have firsts := @length_firsts host job.body.tickets []
  rw [histories, List.length_map, looked, List.length_zip, job.request.1, Nat.min_self]
  simpa [distinct] using firsts

theorem perm_histories (second : String → List RawAnswer) (looked : List (String × RawAnswer)) :
    (looked.map Prod.snd ++ ((looked.filter isUnfound).map Prod.fst).flatMap second).Perm
      (looked.map (history second)).flatten := by
  induction looked with
  | nil => exact .nil
  | cons entry rest ih =>
      obtain ⟨ticket, raw⟩ := entry
      rw [List.map_cons, List.map_cons, List.flatten_cons, List.cons_append]
      cases unfound : isUnfound (ticket, raw) with
      | true =>
          rw [List.filter_cons_of_pos unfound, List.map_cons, List.flatMap_cons, history, if_pos unfound,
            List.cons_append]
          apply List.Perm.cons
          rw [← List.append_assoc]
          refine (List.perm_append_comm.append_right _).trans ?_
          rw [List.append_assoc]
          exact ih.append_left _
      | false =>
          have found : ¬ isUnfound (ticket, raw) = true := by rw [unfound]; exact Bool.false_ne_true
          rw [List.filter_cons_of_neg found, history, if_neg found]
          exact ih.cons _

/-- The look-ups of a job are those of its tickets. -/
theorem raws_perm (job : LookedUp settings host) : job.raws.Perm job.histories.flatten := by
  have perm := perm_histories job.second job.looked
  obtain ⟨length, _, unique⟩ := job.request
  have first : job.looked.map Prod.snd = job.first := List.map_snd_zip length.le
  rwa [first, ← unique] at perm

/-- **Each ticket counts once** exactly in a settled job. -/
theorem countedOnce_iff (job : LookedUp settings host) :
    (∀ history ∈ job.histories, CountedOnce history) ↔ job.Settled := by
  rw [histories, List.forall_mem_map]
  apply forall₂_congr
  intro looked member
  obtain ⟨value, returned⟩ := job.request.2.1 looked.2 (List.of_mem_zip member).2
  exact countedOnce_history_iff returned

theorem lookedUp (job : LookedUp settings host) :
    ∀ history ∈ job.histories, 0 < history.countP isText + history.countP isAbsent := by
  rw [histories, List.forall_mem_map]
  intro looked member
  obtain ⟨value, returned⟩ := job.request.2.1 looked.2 (List.of_mem_zip member).2
  exact counted_history returned

/-- A ticket that is not found with the request is served exactly if its result is a cache hit. -/
theorem served_iff (job : LookedUp settings host) {ticket : String} {result : Except Exn Dict}
    (unique : ticket ∈ job.job.uniqueTickets)
    (ran : Runs (processTicket settings host ticket) (job.coroutines ticket) result) :
    served (job.second ticket) = true ↔ isHit (settle ticket result) = true := by
  obtain ⟨found, only, hit⟩ := ticketLookups_of_runs ran
  rw [job.askedAgain ticket unique] at only
  rw [hit]
  cases second : job.second ticket with
  | nil =>
      rw [second] at only
      cases only
  | cons raw rest =>
      rw [second] at only
      obtain ⟨rfl, nothing⟩ := List.cons.inj only
      have alone : rest = [] := List.map_eq_nil_iff.mp nothing
      subst alone
      cases raw with
      | raised e => simp [served, serves, answer]
      | absent => simp [served, serves, answer]
      | text read => rcases read with e | _ | record <;> simp [served, serves, answer]

/-- Who is served is read off the results: a ticket that is found with the request, and one whose
coroutine returns a cache hit. -/
def ReadOff (job : LookedUp settings host) : Prop :=
  ∀ looked ∈ job.looked,
    (isUnfound looked = false → served (history job.second looked) = true) ∧
    (isUnfound looked = true → ∀ result,
      Runs (processTicket settings host looked.1) (job.coroutines looked.1) result →
      (served (history job.second looked) = true ↔ isHit (settle looked.1 result) = true))

theorem readOff (job : LookedUp settings host) : job.ReadOff := by
  intro looked member
  obtain ⟨value, returned⟩ := job.request.2.1 looked.2 (List.of_mem_zip member).2
  constructor
  · intro found
    have unfound := @isUnfound_eq looked.1 looked.2 value returned
    cases value with
    | none => cases found.symm.trans unfound
    | some record =>
        rw [served, history, List.any_cons, serves_of_answer returned]
        rfl
  · intro missing result ran
    have unique : looked.1 ∈ job.job.uniqueTickets := by
      rw [job.request.2.2]
      exact List.mem_map_of_mem (List.mem_filter.mpr ⟨member, missing⟩)
    rw [← job.served_iff unique ran, served, history, if_pos missing, List.any_cons, serves_of_unfound missing]
    rfl

end LookedUp

/-! ## The counters of any number of jobs -/

section Jobs

variable {settings : Settings} {host : Host}

/-- The histories of all tickets. -/
def allHistories (jobs : List (LookedUp settings host)) : List (List RawAnswer) :=
  jobs.flatMap LookedUp.histories

/-- The counters have grown by one hit for each ticket that was served from the cache,
and one miss for each other. -/
structure Exact (jobs : List (LookedUp settings host)) (before after : CacheCounters) : Prop where
  hits : after.hits = before.hits + (allHistories jobs).countP served
  misses : after.misses = before.misses + (allHistories jobs).countP fun history => !served history
  totalHits : after.totalHits = before.totalHits + (allHistories jobs).countP served
  totalMisses : after.totalMisses = before.totalMisses + (allHistories jobs).countP fun history => !served history

/-- The distinct tickets of all jobs. -/
def distinctTickets (jobs : List (LookedUp settings host)) : ℕ :=
  (jobs.map fun job => distinct host job.body.tickets).sum

theorem raws_perm_all (jobs : List (LookedUp settings host)) :
    (jobs.flatMap LookedUp.raws).Perm (allHistories jobs).flatten := by
  induction jobs with
  | nil => exact .nil
  | cons job rest ih =>
      rw [allHistories, List.flatMap_cons, List.flatMap_cons, List.flatten_append]
      exact job.raws_perm.append ih

theorem length_allHistories (jobs : List (LookedUp settings host)) :
    (allHistories jobs).length = distinctTickets jobs := by
  rw [allHistories, List.length_flatMap, distinctTickets]
  congr 1
  apply List.map_congr_left
  intro job _
  exact job.length_histories

/-- **Each ticket counts once** in the hits and misses, and the counters are exact,
exactly if all jobs are settled. Then the hit rates, of the cache and on `/health`, are
the share of the distinct tickets that were served from the cache, as their results say. -/
theorem cache_counts_iff {jobs : List (LookedUp settings host)} {order : List RawAnswer}
    (made : order.Perm (jobs.flatMap LookedUp.raws)) :
    ((∀ history ∈ allHistories jobs, CountedOnce history) ↔ ∀ job ∈ jobs, job.Settled) ∧
      (∀ before, Exact jobs before (counted before order) ↔ ∀ job ∈ jobs, job.Settled) ∧
      ((∀ job ∈ jobs, job.Settled) →
        hitRate (counted ⟨0, 0, 0, 0⟩ order) =
            rate ((allHistories jobs).countP served) (distinctTickets jobs) ∧
          cacheHitRate (counted ⟨0, 0, 0, 0⟩ order) =
            round 4 (rate ((allHistories jobs).countP served) (distinctTickets jobs))) ∧
      ∀ job ∈ jobs, job.ReadOff := by
  have each : (∀ history ∈ allHistories jobs, CountedOnce history) ↔ ∀ job ∈ jobs, job.Settled := by
    rw [allHistories, List.forall_mem_flatMap]
    apply forall₂_congr
    intro job _
    exact job.countedOnce_iff
  have lookedUp : ∀ history ∈ allHistories jobs, 0 < history.countP isText + history.countP isAbsent := by
    rw [allHistories, List.forall_mem_flatMap]
    intro job _
    exact job.lookedUp
  have perm := made.trans (raws_perm_all jobs)
  have sums := sums_exact_iff lookedUp
  rw [← perm.countP_eq, ← perm.countP_eq] at sums
  have exact_iff : ∀ before, Exact jobs before (counted before order) ↔ ∀ job ∈ jobs, job.Settled := by
    intro before
    rw [← each, ← sums, counted_eq]
    constructor
    · intro right
      exact ⟨Nat.add_left_cancel right.hits, Nat.add_left_cancel right.misses⟩
    · rintro ⟨hits, misses⟩
      exact ⟨congrArg _ hits, congrArg _ misses, congrArg _ hits, congrArg _ misses⟩
  refine ⟨each, exact_iff, fun settled => ?_, fun job _ => job.readOff⟩
  have right := (exact_iff ⟨0, 0, 0, 0⟩).mpr settled
  have all := List.length_eq_countP_add_countP served (l := allHistories jobs)
  have others : (allHistories jobs).countP (fun history => !served history) =
      (allHistories jobs).countP fun history => decide ¬ served history = true := by
    congr 1
    funext history
    cases served history <;> rfl
  rw [length_allHistories, ← others] at all
  constructor
  · rw [hitRate, right.hits, right.misses, all, Nat.zero_add, Nat.zero_add]
  · rw [cacheHitRate, right.totalHits, right.totalMisses, all, Nat.zero_add, Nat.zero_add]

end Jobs

/-! ## Poles -/

section Poles

/-- The only ticket is found with the request. -/
def foundJobs : LookedUp .defaults plainHost where
  body := single
  postTrace := foundSubmission.postTrace
  response := foundSubmission.response
  posted := foundSubmission.posted
  job := foundJob
  launches := foundSubmission.launches
  first := [.text (.ok (some foundRecord))]
  asked := rfl
  coroutines _ := []
  begun ticket member := by cases member
  second _ := []
  askedAgain ticket member := by cases member

/-- The only ticket is not found, neither with the request nor by its coroutine, and is
classified. -/
def missedJobs : LookedUp .defaults plainHost where
  body := single
  postTrace := (missedSubmission helpEnded helpEnded_tokens).postTrace
  response := (missedSubmission helpEnded helpEnded_tokens).response
  posted := (missedSubmission helpEnded helpEnded_tokens).posted
  job := missedJob
  launches := (missedSubmission helpEnded helpEnded_tokens).launches
  first := [.absent]
  asked := rfl
  coroutines _ := helpTraces ("help", 0)
  begun ticket member := by
    obtain rfl := List.mem_singleton.mp member
    exact ⟨[], helpEnded, (List.append_nil _).symm ▸ helpTraces_runs 0⟩
  second _ := [.absent]
  askedAgain ticket member := rfl

def timedOut : Exn := { kind := .other "TimeoutError", message := "" }

/-- One ticket of three is found; the second look-up of another raises, and that of the last has not
begun. -/
def mixedJobs : LookedUp .defaults plainHost where
  body := mixed true
  postTrace := (mixedSubmission true).postTrace
  response := (mixedSubmission true).response
  posted := (mixedSubmission true).posted
  job := mixedJob true
  launches := (mixedSubmission true).launches
  first := [.text (.ok (some foundRecord)), .absent, .absent]
  asked := rfl
  coroutines ticket := if ticket = "lost" then [⟨.cacheGet (ticketKey plainHost "lost"), .error timedOut⟩] else []
  begun ticket member := by
    have member : ticket ∈ ["lost", "wrong"] := member
    simp only [List.mem_cons, List.not_mem_nil, or_false] at member
    rcases member with rfl | rfl
    · exact ⟨[], .error timedOut, processTicket_runs_iff.mpr (.lookupRaised timedOut)⟩
    · obtain ⟨trace, ran, _⟩ := mixedTickets_runs.1
      exact ⟨trace, _, ran⟩
  second ticket := if ticket = "lost" then [.raised timedOut] else []
  askedAgain ticket member := by
    have member : ticket ∈ ["lost", "wrong"] := member
    simp only [List.mem_cons, List.not_mem_nil, or_false] at member
    rcases member with rfl | rfl <;> rfl

/-- The look-ups of this job and of one whose ticket is found, in an order of their own. -/
def mixedOrder : List RawAnswer :=
  [.text (.ok (some foundRecord)), .absent, .text (.ok (some foundRecord)), .absent, .raised timedOut]

/-- Satisfiable pole: two jobs, of which the first looks up again. -/
theorem cache_counts_iff_mixed :
    counted ⟨0, 0, 0, 0⟩ mixedOrder = ⟨2, 2, 2, 2⟩ ∧
      cacheHitRate (counted ⟨0, 0, 0, 0⟩ mixedOrder) = round 4 (rate 2 4) := by
  have settled : ∀ job ∈ [mixedJobs, foundJobs], job.Settled := by
    intro job member
    simp only [List.mem_cons, List.not_mem_nil, or_false] at member
    rcases member with rfl | rfl
    · intro looked member missing
      have member : looked ∈ [("help", .text (.ok (some foundRecord))), ("lost", .absent), ("wrong", .absent)] :=
        member
      simp only [List.mem_cons, List.not_mem_nil, or_false] at member
      rcases member with rfl | rfl | rfl
      · cases missing
      · exact ⟨rfl, fun raw there => ⟨timedOut, List.mem_singleton.mp there⟩⟩
      · exact ⟨rfl, fun raw there => absurd there List.not_mem_nil⟩
    · intro looked member
      obtain rfl := List.mem_singleton.mp member
      intro impossible
      cases impossible
  have made : List.Perm mixedOrder ([mixedJobs, foundJobs].flatMap LookedUp.raws) := by
    have moved : @List.Perm RawAnswer (.text (.ok (some foundRecord)) :: [.absent, .raised timedOut])
        ([.absent, .raised timedOut] ++ [.text (.ok (some foundRecord))]) :=
      (List.perm_append_singleton _ _).symm
    exact moved.append_left [.text (.ok (some foundRecord)), .absent]
  have shared := ((cache_counts_iff made).2.2.1 settled).2
  exact ⟨rfl, shared⟩

/-- **Refuting pole.** A ticket is classified, and then found by a second request. The
counters say one hit and two misses for these two tickets, and a third instead of a
half. -/
theorem missed_ticket_counts_twice :
    List.Perm [.absent, .absent, .text (.ok (some foundRecord))]
        ([missedJobs, foundJobs].flatMap LookedUp.raws) ∧
      counted ⟨0, 0, 0, 0⟩ [.absent, .absent, .text (.ok (some foundRecord))] = ⟨1, 2, 1, 2⟩ ∧
      ¬ (∀ history ∈ allHistories [missedJobs, foundJobs], CountedOnce history) ∧
      (allHistories [missedJobs, foundJobs]).countP served = 1 ∧
      distinctTickets [missedJobs, foundJobs] = 2 ∧
      cacheHitRate ⟨1, 2, 1, 2⟩ ≠ round 4 (rate 1 2) := by
  refine ⟨.refl _, rfl, fun once => ?_, rfl, rfl, ?_⟩
  · have twice : [.absent, .absent] ∈ allHistories [missedJobs, foundJobs] := List.mem_cons_self
    have miss := (once _ twice).miss
    have two : List.countP isAbsent [.absent, .absent] = 2 := rfl
    rw [two] at miss
    cases miss
  · decide +kernel

end Poles

end InferenceForge.Api.Statistics
