/-
# InferenceForge.Api.Taxonomy — what keeps a classification in the taxonomy

`VALID_CATEGORIES` and `VALID_PRIORITIES` are compared with nothing: an object the
upstream's response is read to is passed on as it is. So the tickets that have ended
store and return classifications of the taxonomy exactly if every object they have
read is one (`Sound`), or is marked as an error and becomes a failure.

With a cache that holds only what these tickets have stored (`Built`), that is then
so for every entry of `GET /results` (`taxonomy_enforced_iff`), on the paths through
the cache as on the others.
-/
import InferenceForge.Api.JobCost

namespace InferenceForge.Api

open InferenceForge.Python InferenceForge.Library InferenceForge.Pipeline
open InferenceForge.Pipeline.JobStore (Act JobRedis performAll resultsKey)

set_option autoImplicit false

/-! ## The taxonomy -/

def validCategories : List String := ["hardware_issue", "software_issue", "model_quality", "billing", "other"]

def validPriorities : List String := ["low", "medium", "high", "critical"]

structure InTaxonomy (entry : Dict) : Prop where
  category : ∃ category ∈ validCategories, Dict.get? entry "category" = some (.string category)
  priority : ∃ priority ∈ validPriorities, Dict.get? entry "priority" = some (.string priority)

/-- Other fields do not matter. -/
theorem inTaxonomy_congr {entry other : Dict} (category : Dict.get? entry "category" = Dict.get? other "category")
    (priority : Dict.get? entry "priority" = Dict.get? other "priority") :
    InTaxonomy entry ↔ InTaxonomy other := by
  constructor
  · intro valid
    exact ⟨category ▸ valid.category, priority ▸ valid.priority⟩
  · intro valid
    exact ⟨category ▸ valid.category, priority ▸ valid.priority⟩

theorem inTaxonomy_set {entry : Dict} {key : String} (category : "category" ≠ key)
    (priority : "priority" ≠ key) (value : Json) :
    InTaxonomy (Dict.set entry key value) ↔ InTaxonomy entry :=
  inTaxonomy_congr (Dict.get?_set_of_ne _ category value) (Dict.get?_set_of_ne _ priority value)

theorem inTaxonomy_drop {entry : Dict} {key : String} (category : "category" ≠ key)
    (priority : "priority" ≠ key) : InTaxonomy (Dict.drop entry key) ↔ InTaxonomy entry :=
  inTaxonomy_congr (Dict.get?_drop_of_ne _ category) (Dict.get?_drop_of_ne _ priority)

theorem inTaxonomy_mock : InTaxonomy mockClassification :=
  ⟨⟨"other", by decide, rfl⟩, ⟨"low", by decide, rfl⟩⟩

/-! ## One ticket -/

section Ticket

variable {settings : Settings} {host : Host} {ticket : String} {trace : TicketTrace}
  {result : Except Exn Dict}

/-- Every object that was read is in the taxonomy, or is marked as an error. -/
def Sound (host : Host) (trace : TicketTrace) : Prop :=
  ∀ fields tokens, (.object fields, tokens) ∈ answers host trace →
    InTaxonomy fields ∨ Dict.truthy fields "error" = true

/-- The trace hands the record to the cache. -/
def Stores (trace : TicketTrace) (value : Dict) : Prop :=
  ∃ key stored, (⟨.cacheSet key value, stored⟩ : Asked TicketOp TicketAnswer) ∈ trace

/-- What is stored is in the taxonomy, and what is returned is, unless as a failure. -/
structure Enforced (trace : TicketTrace) (result : Except Exn Dict) : Prop where
  stored : ∀ value, Stores trace value → InTaxonomy value
  returned : ∀ record, result = .ok record → Dict.truthy record "error" = false → InTaxonomy record

theorem sound_of_no_object (none_ : (answers host trace).filter isObject = []) : Sound host trace := by
  intro fields tokens member
  have there : (.object fields, tokens) ∈ (answers host trace).filter isObject :=
    List.mem_filter.mpr ⟨member, rfl⟩
  rw [none_] at there
  cases there

/-- **A call of the upstream** returns a classification of the taxonomy or an error
exactly if it has read no other object. -/
theorem origin_taxonomy {record : Dict} (origin : Origin host ticket trace (.ok record)) :
    (Dict.truthy record "error" = false → InTaxonomy record) ↔ Sound host trace := by
  generalize outcome : Except.ok record = result at origin
  cases origin with
  | read fields tokens objects =>
      cases outcome
      rw [Dict.truthy_set_of_ne _ (by decide), inTaxonomy_set (by decide) (by decide)]
      constructor
      · intro valid fields' tokens' member
        have there : (.object fields', tokens') ∈ (answers host trace).filter isObject :=
          List.mem_filter.mpr ⟨member, rfl⟩
        rw [objects] at there
        cases List.mem_singleton.mp there
        cases error : Dict.truthy fields "error" with
        | true => exact .inr rfl
        | false => exact .inl (valid error)
      · intro sound clean
        have there : (.object fields, tokens) ∈ (answers host trace).filter isObject := by
          rw [objects]
          exact List.mem_singleton.mpr rfl
        rcases sound fields tokens (List.mem_filter.mp there).1 with valid | error
        · exact valid
        · cases clean.symm.trans error
  | mocked none_ =>
      cases outcome
      apply iff_of_true _ (sound_of_no_object none_)
      intro _
      exact (inTaxonomy_set (by decide) (by decide) _).mpr inTaxonomy_mock
  | failed error named none_ =>
      cases outcome
      apply iff_of_true _ (sound_of_no_object none_)
      intro clean
      have truthy : Dict.truthy (failureResult ticket error) "error" = true :=
        (truthy_failureResult ticket error).trans (decide_eq_true named)
      cases clean.symm.trans truthy
  | raised e none_ => cases outcome

/-- Nothing else is stored than what follows the upstream call. -/
theorem stores_missed {upstream last : TicketTrace} {ended : Except Exn Dict} {value : Dict}
    (called : Runs (callWithRetry settings host ticket) upstream ended) :
    Stores (missed host ticket ++ (upstream ++ last)) value ↔ Stores last value := by
  constructor
  · rintro ⟨key, stored, member⟩
    rcases List.mem_append.mp member with before | member
    · simp [missed] at before
    · rcases List.mem_append.mp member with inCall | after
      · exact (callWithRetry_upstream called _ inCall).elim
      · exact ⟨key, stored, after⟩
  · rintro ⟨key, stored, after⟩
    exact ⟨key, stored, List.mem_append_right _ (List.mem_append_right _ after)⟩

/-- What a ticket does, as far as the taxonomy goes: it is served from the cache, or
its upstream call decides. -/
inductive TaxonomyRun (host : Host) (trace : TicketTrace) (result : Except Exn Dict) : Prop
  | served (cached : Dict) {key : String} (found : ⟨.cacheGet key, .ok (some cached)⟩ ∈ trace)
      (returned : result = .ok (Dict.set cached "cache_hit" (.bool true)))
      (sound : Sound host trace) (nothing : ∀ value, ¬ Stores trace value)
  | raised (e : Exn) (returned : result = .error e) (sound : Sound host trace)
      (nothing : ∀ value, ¬ Stores trace value)
  | failed (record : Dict) (returned : result = .ok (Dict.set record "cache_hit" (.bool false)))
      (decided : (Dict.truthy record "error" = false → InTaxonomy record) ↔ Sound host trace)
      (nothing : ∀ value, ¬ Stores trace value)
  | classified (record : Dict) (stored : Except Exn Unit)
      (returned : result = stored.map fun _ => Dict.set record "cache_hit" (.bool false))
      (decided : InTaxonomy record ↔ Sound host trace)
      (only : ∀ value, Stores trace value ↔ value = Dict.drop record "cache_hit")

theorem taxonomyRun (ran : Runs (processTicket settings host ticket) trace result) :
    TaxonomyRun host trace result := by
  have unstored : ∀ value, ¬ Stores [⟨.release, ()⟩] value := by
    rintro value ⟨key, stored, member⟩
    cases List.mem_singleton.mp member
  cases processTicket_runs_iff.mp ran with
  | lookupRaised e =>
      refine .raised e rfl (sound_of_no_object rfl) ?_
      rintro value ⟨key, stored, member⟩
      cases List.mem_singleton.mp member
  | hit cached =>
      refine .served cached List.mem_cons_self rfl (sound_of_no_object rfl) ?_
      rintro value ⟨key, stored, member⟩
      cases List.mem_singleton.mp member
  | raised upstream e called =>
      refine .raised e rfl (sound_of_no_object ?_) fun value => ?_
      · rw [answers_missed rfl]
        exact (callWithRetry_origin called).no_object
      · rw [stores_missed called]
        exact unstored value
  | failed upstream record called error =>
      refine .failed record rfl ?_ fun value => ?_
      · unfold Sound
        rw [answers_missed rfl]
        exact origin_taxonomy (callWithRetry_origin called)
      · rw [stores_missed called]
        exact unstored value
  | classified upstream record stored called noError =>
      refine .classified record stored rfl ?_ fun value => ?_
      · unfold Sound
        rw [answers_missed rfl]
        have decided := origin_taxonomy (callWithRetry_origin called)
        rw [Dict.not_truthy_of_isNone noError] at decided
        constructor
        · intro valid
          exact decided.mp fun _ => valid
        · intro sound
          exact decided.mpr sound rfl
      · rw [stores_missed called]
        constructor
        · rintro ⟨key, stored', member⟩
          rcases List.mem_cons.mp member with impossible | member
          · cases impossible
          · cases List.mem_singleton.mp member
            rfl
        · rintro rfl
          exact ⟨_, _, List.mem_cons_of_mem _ List.mem_cons_self⟩

/-- What a sound ticket stores is in the taxonomy. -/
theorem TaxonomyRun.stored (run : TaxonomyRun host trace result) (sound : Sound host trace) {value : Dict}
    (stores : Stores trace value) : InTaxonomy value := by
  cases run with
  | served cached found returned _ nothing => exact absurd stores (nothing value)
  | raised e returned _ nothing => exact absurd stores (nothing value)
  | failed record returned decided nothing => exact absurd stores (nothing value)
  | classified record stored returned decided only =>
      rw [(only value).mp stores, inTaxonomy_drop (by decide) (by decide)]
      exact decided.mpr sound

/-- **A ticket is enforced** exactly if it is sound, over a cache in the taxonomy. -/
theorem TaxonomyRun.enforced_iff (run : TaxonomyRun host trace result)
    (cache : ∀ key cached, ⟨.cacheGet key, .ok (some cached)⟩ ∈ trace → InTaxonomy cached) :
    Enforced trace result ↔ Sound host trace := by
  cases run with
  | served cached found returned sound nothing =>
      apply iff_of_true _ sound
      refine ⟨fun value stores => absurd stores (nothing value), fun record same _ => ?_⟩
      cases returned.symm.trans same
      exact (inTaxonomy_set (by decide) (by decide) _).mpr (cache _ cached found)
  | raised e returned sound nothing =>
      apply iff_of_true _ sound
      refine ⟨fun value stores => absurd stores (nothing value), fun record same _ => ?_⟩
      cases returned.symm.trans same
  | failed record returned decided nothing =>
      rw [← decided]
      constructor
      · intro enforced clean
        have valid := enforced.returned _ returned ((Dict.truthy_set_of_ne _ (by decide) _).trans clean)
        exact (inTaxonomy_set (by decide) (by decide) _).mp valid
      · intro valid
        refine ⟨fun value stores => absurd stores (nothing value), fun record' same clean => ?_⟩
        cases returned.symm.trans same
        rw [Dict.truthy_set_of_ne _ (by decide)] at clean
        exact (inTaxonomy_set (by decide) (by decide) _).mpr (valid clean)
  | classified record stored returned decided only =>
      rw [← decided]
      constructor
      · intro enforced
        have valid := enforced.stored _ ((only _).mpr rfl)
        exact (inTaxonomy_drop (by decide) (by decide)).mp valid
      · intro valid
        refine ⟨fun value stores => ?_, fun record' same _ => ?_⟩
        · rw [(only value).mp stores]
          exact (inTaxonomy_drop (by decide) (by decide)).mpr valid
        · cases stored with
          | error e => cases returned.symm.trans same
          | ok _ =>
              cases returned.symm.trans same
              exact (inTaxonomy_set (by decide) (by decide) _).mpr valid

end Ticket

/-! ## All tickets, and what is reported -/

/-- The coroutine of a ticket, which has ended. -/
structure EndedTicket (settings : Settings) (host : Host) where
  ticket : String
  trace : TicketTrace
  result : Except Exn Dict
  ran : Runs (processTicket settings host ticket) trace result

section System

variable {settings : Settings} {host : Host} {runs : List (EndedTicket settings host)}

/-- A ticket has stored the record. -/
def InCache (runs : List (EndedTicket settings host)) (value : Dict) : Prop :=
  ∃ run ∈ runs, Stores run.trace value

/-- The cache was built by the tickets themselves. -/
def Built (runs : List (EndedTicket settings host)) : Prop :=
  ∀ run ∈ runs, ∀ key cached, ⟨.cacheGet key, .ok (some cached)⟩ ∈ run.trace → InCache runs cached

/-- A response of `GET /results` for a request, with its two reads at any moments: what was found
in the cache and the tickets of its job are among the runs. -/
inductive Answered (runs : List (EndedTicket settings host)) : ResultsResponse → Prop
  | read {Q : TicketQueue} {body : ProcessRequest settings} (sub : Submission Q settings host body)
      {timed before between after : List (ℚ × Act)} {now later : ℚ} {s : JobRedis} {r : ResultsResponse}
      (cache : Known (fun _ cached => InCache runs cached) sub.postTrace)
      (tickets : Held (Settled fun entry ended =>
        ∃ run ∈ runs, run.ticket = entry.1 ∧ run.result = ended) sub.jobTrace)
      (called : timed.map Prod.snd = sub.calls) (split : timed = before ++ between ++ after)
      (fresh : s.keys (resultsKey sub.response.jobId) = none)
      (reported : Api.getResults sub.response.jobId now (performAll settings sub.response.jobId s before)
        later (performAll settings sub.response.jobId s (before ++ between)) = .ok (some r)) : Answered runs r

/-- What is in the cache of sound tickets is in the taxonomy. -/
theorem InCache.inTaxonomy {value : Dict} (stored : InCache runs value)
    (sound : ∀ run ∈ runs, Sound host run.trace) : InTaxonomy value := by
  obtain ⟨run, member, stores⟩ := stored
  exact (taxonomyRun run.ran).stored (sound run member) stores

/-- What is reported comes from the cache, or was returned by a ticket. -/
theorem Answered.inTaxonomy {r : ResultsResponse} (answered : Answered runs r)
    (cached : ∀ value, InCache runs value → InTaxonomy value)
    (enforced : ∀ run ∈ runs, Enforced run.trace run.result) :
    ∀ entry ∈ r.results.getD [], InTaxonomy entry := by
  intro entry member
  cases answered with
  | read sub cache tickets called split fresh reported =>
      rcases reported_cases reported with ⟨_, stored, _, _, read, _, results, _⟩ | ⟨_, nothing⟩
      · obtain ⟨found, rounds, totals, settled, dedup, ledger, same⟩ :=
          done_results called split fresh read cache tickets
        rw [results, same] at member
        obtain ⟨there, unfailed⟩ := List.mem_filter.mp member
        have clean : Dict.truthy entry "error" = false := by simpa using unfailed
        rcases List.mem_append.mp there with hit | processed
        · obtain ⟨ticket, value, stored, rfl⟩ := dedup.cached entry hit
          rw [preCachedEntry, inTaxonomy_set (by decide) (by decide), inTaxonomy_set (by decide) (by decide)]
          exact cached value stored
        · obtain ⟨s, settled_here, rfl⟩ := List.mem_map.mp processed
          obtain ⟨run, among, _, ended⟩ := ledger.known s settled_here
          rw [record, inTaxonomy_set (by decide) (by decide)]
          rw [record_error] at clean
          rw [← ended] at clean ⊢
          cases result : run.result with
          | error e =>
              rw [result] at clean
              cases clean
          | ok value =>
              rw [result] at clean
              exact (enforced run among).returned value result clean
      · rw [nothing] at member
        cases member

/-- **The taxonomy is enforced** by the tickets exactly if each is sound. Then every
entry under the results of a response is in the taxonomy. -/
theorem taxonomy_enforced_iff (built : Built runs) :
    ((∀ run ∈ runs, Enforced run.trace run.result) ↔ ∀ run ∈ runs, Sound host run.trace) ∧
      ((∀ run ∈ runs, Sound host run.trace) →
        ∀ r, Answered runs r → ∀ entry ∈ r.results.getD [], InTaxonomy entry) := by
  have enforce : (∀ run ∈ runs, Sound host run.trace) → ∀ run ∈ runs, Enforced run.trace run.result := by
    intro sound run member
    refine ((taxonomyRun run.ran).enforced_iff fun key cached found => ?_).mpr (sound run member)
    exact (built run member key cached found).inTaxonomy sound
  refine ⟨⟨fun enforced run member => ?_, enforce⟩, fun sound r answered => ?_⟩
  · have cache : ∀ key cached, ⟨.cacheGet key, .ok (some cached)⟩ ∈ run.trace → InTaxonomy cached := by
      intro key cached found
      obtain ⟨writer, wrote, stores⟩ := built run member key cached found
      exact (enforced writer wrote).stored cached stores
    exact ((taxonomyRun run.ran).enforced_iff cache).mp (enforced run member)
  · apply answered.inTaxonomy
    · intro value stored
      exact stored.inTaxonomy sound
    · exact enforce sound

end System

/-! ## Poles -/

section Poles

def classification : Dict := [("category", .string "billing"), ("priority", .string "low")]

/-- A host that knows the document of `classification`. -/
def classifyingHost : Host where
  lower := id
  repr := id
  sha256 := id
  loads text :=
    if text = "\x7b\"category\":\"billing\",\"priority\":\"low\"\x7d" then .ok (.object classification)
    else .error { kind := .jsonDecode, message := "Expecting value" }

/-- Upstream answers with it. -/
def classifyingWorld : TicketWorld where
  cached := none
  admits _ := true
  response _ := .ok {
    statusCode := 200
    retryAfter := none
    json := .ok (.object [("choices", .array [.object [("message", .object [("content",
      .string "</think>\x7b\"category\":\"billing\",\"priority\":\"low\"\x7d")])]]),
      ("usage", .object [("total_tokens", .number (.finite 7))])]) }
  jitter _ := 0
  nanSleep := .ok ()

def classifiedEnded : Except Exn Dict :=
  .ok (Dict.set (Dict.set classification "tokens" (.number (.finite 7))) "cache_hit" (.bool false))

theorem classified_ended :
    (runWith (fun _ => classifyingWorld.answer) (processTicket .defaults classifyingHost "help") 0).2 =
      some classifiedEnded := rfl

def classifiedTicket : EndedTicket .defaults classifyingHost where
  ticket := "help"
  trace := (runWith (fun _ => classifyingWorld.answer) (processTicket .defaults classifyingHost "help") 0).1
  result := classifiedEnded
  ran := (runWith_runs classified_ended).1

/-- Satisfiable pole: the model's output has a category and a priority. -/
theorem taxonomy_enforced_iff_classified : Enforced classifiedTicket.trace classifiedTicket.result := by
  have built : Built [classifiedTicket] := by
    intro run member key cached found
    obtain rfl := List.mem_singleton.mp member
    exact absurd found (hit_notMem rfl)
  refine (taxonomy_enforced_iff built).1.mpr ?_ classifiedTicket (List.mem_singleton.mpr rfl)
  intro run member
  obtain rfl := List.mem_singleton.mp member
  have read : answers classifyingHost classifiedTicket.trace =
      [(.object classification, .number (.finite 7))] := rfl
  intro fields tokens there
  rw [read] at there
  cases List.mem_singleton.mp there
  exact .inl ⟨⟨"billing", by decide, rfl⟩, ⟨"low", by decide, rfl⟩⟩

/-- The ticket whose classification has no priority. -/
def unclassifiedTicket : EndedTicket .defaults plainHost where
  ticket := "help"
  trace := helpTraces ("help", 0)
  result := helpEnded
  ran := helpTraces_runs 0

/-- **Refuting pole.** A classification without a priority is stored, and reported to
the client who asks for the same ticket. -/
theorem missing_priority_reported :
    Built [unclassifiedTicket] ∧ InCache [unclassifiedTicket] foundRecord ∧ ¬ InTaxonomy foundRecord ∧
      ∃ r, Answered [unclassifiedTicket] r ∧ ∃ entry ∈ r.results.getD [], ¬ InTaxonomy entry := by
  have built : Built [unclassifiedTicket] := by
    intro run member key cached found
    obtain rfl := List.mem_singleton.mp member
    exact absurd found (hit_notMem rfl)
  have stored : InCache [unclassifiedTicket] foundRecord := by
    refine ⟨unclassifiedTicket, List.mem_singleton.mpr rfl, ticketKey plainHost "help", .ok (), ?_⟩
    exact List.mem_of_getElem? (i := 6) rfl
  have incomplete : ∀ {entry : Dict}, Dict.get? entry "priority" = none → ¬ InTaxonomy entry := by
    intro entry missing valid
    obtain ⟨priority, _, found⟩ := valid.priority
    cases missing.symm.trans found
  obtain ⟨r, reported, done, results, _⟩ := getResults_served 1 1 foundJob.preCachedResults foundStats
  have called : (served 1 1 foundJob.preCachedResults foundStats).map Prod.snd =
      foundSubmission.calls := rfl
  have split : served 1 1 foundJob.preCachedResults foundStats =
      served 1 1 foundJob.preCachedResults foundStats ++ [] ++ [] := rfl
  have answered : Answered [unclassifiedTicket] r :=
    .read foundSubmission (foundSubmission_known fun _ => stored) (foundSubmission_batches _) called
      split rfl reported
  refine ⟨built, stored, incomplete rfl, r, answered, preCachedEntry "help" foundRecord, ?_, incomplete rfl⟩
  rw [results]
  exact List.mem_cons_self

end Poles

end InferenceForge.Api
