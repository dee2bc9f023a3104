/-
# InferenceForge.Pipeline.CacheReplay — a cached result is the original

Calls of `process_ticket` that follow one another share the cache (`History`): a `GET`
returns what is stored, a `SET NX` keeps what is stored, nothing expires, and an
operation of Redis may raise, with or without its effect. The upstream answers as it
likes.

What is stored under a key stays (`History.kept`), and a ticket that returns a result
without an `error` has left that result in the cache, less its `cache_hit`
(`left_in_cache`). So every later call of the same normalised form asks nothing but the
cache, and returns that result (`cached_replay`).
-/
import InferenceForge.Pipeline.DedupRace
import InferenceForge.Pipeline.TicketWorld

namespace InferenceForge.Pipeline

open InferenceForge.Python InferenceForge.Library
open InferenceForge.Pipeline.DedupRace (Cache setNx setNx_of_some setNx_of_none)

set_option autoImplicit false

/-- A call of `process_ticket`: what it did, and how it ended. -/
structure Call where
  ticket : String
  trace : TicketTrace
  result : Except Exn Dict

/-! ## The cache behind the calls -/

/-- The cache answers the operations of a trace. -/
inductive ServedBy : Cache → TicketTrace → Cache → Prop
  | done (cache : Cache) : ServedBy cache [] cache
  | got {cache after : Cache} {key : String} {rest : TicketTrace} (more : ServedBy cache rest after) :
      ServedBy cache (⟨.cacheGet key, .ok (cache key)⟩ :: rest) after
  | unread {cache after : Cache} {key : String} {e : Exn} {rest : TicketTrace}
      (more : ServedBy cache rest after) : ServedBy cache (⟨.cacheGet key, .error e⟩ :: rest) after
  | set {cache after : Cache} {key : String} {value : Dict} {rest : TicketTrace}
      (more : ServedBy (setNx cache key value) rest after) :
      ServedBy cache (⟨.cacheSet key value, .ok ()⟩ :: rest) after
  /-- A `SET` that raises may have taken effect. -/
  | unset {cache next after : Cache} {key : String} {value : Dict} {e : Exn} {rest : TicketTrace}
      (effect : next = cache ∨ next = setNx cache key value) (more : ServedBy next rest after) :
      ServedBy cache (⟨.cacheSet key value, .error e⟩ :: rest) after
  | other {cache after : Cache} {op : TicketOp} {answer : TicketAnswer op} {rest : TicketTrace}
      (upstream : Upstream op) (more : ServedBy cache rest after) :
      ServedBy cache (⟨op, answer⟩ :: rest) after

section Served

variable {cache after : Cache} {trace : TicketTrace} {key : String} {value : Dict}

/-- What is stored stays. -/
theorem ServedBy.kept (served : ServedBy cache trace after) (present : cache key = some value) :
    after key = some value := by
  induction served with
  | done cache => exact present
  | got more ih => exact ih present
  | unread more ih => exact ih present
  | set more ih => exact ih (setNx_of_some present)
  | unset effect more ih =>
      rcases effect with rfl | rfl
      · exact ih present
      · exact ih (setNx_of_some present)
  | other upstream more ih => exact ih present

/-- Operations that leave the cache alone. -/
theorem ServedBy.skip {before rest : TicketTrace} (served : ServedBy cache (before ++ rest) after)
    (quiet : ∀ asked ∈ before, Upstream asked.1) : ServedBy cache rest after := by
  induction before with
  | nil => exact served
  | cons asked before ih =>
      have first := quiet asked List.mem_cons_self
      apply ih _ fun later member => quiet later (List.mem_cons_of_mem _ member)
      cases served with
      | other upstream more => exact more
      | got more | unread more | set more | unset effect more => exact first.elim

theorem ServedBy.prepend {before rest : TicketTrace} (served : ServedBy cache rest after)
    (quiet : ∀ asked ∈ before, Upstream asked.1) : ServedBy cache (before ++ rest) after := by
  induction before with
  | nil => exact served
  | cons asked before ih =>
      exact .other (quiet asked List.mem_cons_self)
        (ih fun later member => quiet later (List.mem_cons_of_mem _ member))

theorem ServedBy.found {found : Option Dict} {rest : TicketTrace}
    (served : ServedBy cache (⟨.cacheGet key, .ok found⟩ :: rest) after) :
    found = cache key ∧ ServedBy cache rest after := by
  cases served with
  | got more => exact ⟨rfl, more⟩
  | other upstream more => exact upstream.elim

theorem ServedBy.stored {rest : TicketTrace}
    (served : ServedBy cache (⟨.cacheSet key value, .ok ()⟩ :: rest) after) :
    ServedBy (setNx cache key value) rest after := by
  cases served with
  | set more => exact more
  | other upstream more => exact upstream.elim

end Served

/-! ## One call -/

section Ticket

variable {settings : Settings} {host : Host} {ticket : String} {trace : TicketTrace} {cache after : Cache}
  {r stored : Dict}

/-- The key of a ticket is that of its normalised form. -/
theorem ticketKey_congr {other : String} (same : normalize host ticket = normalize host other) :
    ticketKey host ticket = ticketKey host other := by
  rw [ticketKey, same, ticketKey]

/-- Two records agree, but for `cache_hit`. -/
def SameButHit (record other : Dict) : Prop :=
  ∀ key, key ≠ "cache_hit" → Dict.get? record key = Dict.get? other key

theorem sameButHit_set (record : Dict) (value : Json) : SameButHit (Dict.set record "cache_hit" value) record :=
  fun _ other => Dict.get?_set_of_ne record other value

theorem sameButHit_drop (record : Dict) : SameButHit (Dict.drop record "cache_hit") record :=
  fun _ other => Dict.get?_drop_of_ne record other

theorem SameButHit.symm {record other : Dict} (same : SameButHit record other) : SameButHit other record :=
  fun key differ => (same key differ).symm

theorem SameButHit.trans {first second third : Dict} (same : SameButHit first second)
    (next : SameButHit second third) : SameButHit first third :=
  fun key differ => (same key differ).trans (next key differ)

/-- **A result without an `error` is in the cache** once the call has ended. -/
theorem left_in_cache (ran : Runs (processTicket settings host ticket) trace (.ok r))
    (served : ServedBy cache trace after) (clean : Dict.get? r "error" = none) :
    ∃ stored, after (ticketKey host ticket) = some stored ∧ SameButHit stored r := by
  have run := processTicket_runs_iff.mp ran
  generalize outcome : Except.ok r = result at run
  cases run with
  | lookupRaised e => cases outcome
  | raised upstream e called => cases outcome
  | hit cached =>
      cases outcome
      obtain ⟨present, rest⟩ := served.found
      exact ⟨cached, rest.kept present.symm, (sameButHit_set cached _).symm⟩
  | failed upstream record called error =>
      cases outcome
      rw [Dict.get?_set_of_ne _ (by decide)] at clean
      rw [Dict.isNone, clean] at error
      cases error
  | classified upstream record ended called noError =>
      cases ended with
      | error e => cases outcome
      | ok _ =>
          cases outcome
          obtain ⟨absent, served⟩ := served.found
          have quiet : ∀ asked ∈ (⟨.acquire, ()⟩ :: (upstream ++ [⟨.release, ()⟩]) : TicketTrace),
              Upstream asked.1 := by
            intro asked member
            rcases List.mem_cons.mp member with rfl | member
            · trivial
            · rcases List.mem_append.mp member with member | member
              · exact callWithRetry_upstream called asked member
              · rw [List.mem_singleton.mp member]
                trivial
          -- nothing was written since the look-up, so the entry is the call's own
          have rest : ServedBy cache (⟨.acquire, ()⟩ :: (upstream ++ [⟨.release, ()⟩]) ++
              [⟨.cacheSet (ticketKey host ticket) (Dict.drop record "cache_hit"), .ok ()⟩]) after := by
            simpa using served
          have stores := rest.skip quiet
          refine ⟨Dict.drop record "cache_hit", stores.stored.kept (setNx_of_none absent.symm), ?_⟩
          exact (sameButHit_drop record).trans (sameButHit_set record _).symm

/-- What a call does and returns that was served from the cache. -/
structure Replayed (host : Host) (stored : Dict) (call : Call) : Prop where
  /-- It asks nothing but the cache. -/
  asked : ∃ found, call.trace = [⟨.cacheGet (ticketKey host call.ticket), found⟩]
  returned : (∀ e, ⟨.cacheGet (ticketKey host call.ticket), .error e⟩ ∉ call.trace) →
    ∃ record, call.result = .ok record ∧ Dict.get? record "cache_hit" = some (.bool true) ∧
      SameButHit record stored

theorem replayed_of_present {call : Call} (ran : Runs (processTicket settings host call.ticket) call.trace call.result)
    (served : ServedBy cache call.trace after) (present : cache (ticketKey host call.ticket) = some stored) :
    Replayed host stored call := by
  obtain ⟨ticket, trace, result⟩ := call
  have missed_none : ∀ {rest : TicketTrace}, ¬ ServedBy cache (missed host ticket ++ rest) after := by
    intro rest served
    have absent := (ServedBy.found served).1
    cases absent.trans present
  have run : TicketRun settings host ticket trace result := processTicket_runs_iff.mp ran
  cases run with
  | lookupRaised e =>
      refine ⟨⟨_, rfl⟩, fun answered => ?_⟩
      exact absurd List.mem_cons_self (answered e)
  | hit cached =>
      obtain ⟨same, _⟩ := served.found
      obtain rfl : cached = stored := Option.some.inj (same.trans present)
      exact ⟨⟨_, rfl⟩, fun _ => ⟨_, rfl, Dict.get?_set_self _ _ _, sameButHit_set cached _⟩⟩
  | raised upstream e called => exact (missed_none served).elim
  | failed upstream record called error => exact (missed_none served).elim
  | classified upstream record ended called noError => exact (missed_none served).elim

end Ticket

/-! ## Calls that follow one another -/

section History

variable (settings : Settings) (host : Host)

inductive History : Cache → List Call → Cache → Prop
  | nil (cache : Cache) : History cache [] cache
  | cons {cache next final : Cache} {call : Call} {calls : List Call}
      (ran : Runs (processTicket settings host call.ticket) call.trace call.result)
      (served : ServedBy cache call.trace next) (more : History next calls final) :
      History cache (call :: calls) final

variable {settings host} {cache final : Cache} {calls before between after : List Call} {first later : Call}

theorem History.kept (history : History settings host cache calls final) {key : String} {value : Dict}
    (present : cache key = some value) : final key = some value := by
  induction history with
  | nil cache => exact present
  | cons ran served more ih => exact ih (served.kept present)

theorem History.split (history : History settings host cache (before ++ after) final) :
    ∃ middle, History settings host cache before middle ∧ History settings host middle after final := by
  induction before generalizing cache with
  | nil => exact ⟨cache, .nil cache, history⟩
  | cons call before ih =>
      cases history with
      | cons ran served more =>
          obtain ⟨middle, earlier, rest⟩ := ih more
          exact ⟨middle, .cons ran served earlier, rest⟩

/-- **A cached result is the original.** If a call has returned a result without an
`error`, every later call of a ticket with the same `strip().lower()` asks nothing but the
cache and returns the same, as a cache hit. -/
theorem cached_replay {r : Dict}
    (history : History settings host cache (before ++ first :: (between ++ later :: after)) final)
    (returned : first.result = .ok r) (clean : Dict.get? r "error" = none)
    (same : host.lower (String.ofList (strip later.ticket.toList)) =
      host.lower (String.ofList (strip first.ticket.toList))) : Replayed host r later := by
  obtain ⟨_, _, history⟩ := history.split
  cases history with
  | cons ran served history =>
      rw [returned] at ran
      obtain ⟨stored, present, original⟩ := left_in_cache ran served clean
      obtain ⟨_, between_kept, history⟩ := history.split
      have still := between_kept.kept present
      have same_form : normalize host later.ticket = normalize host first.ticket := same
      rw [← ticketKey_congr same_form] at still
      cases history with
      | cons ran served more =>
          obtain ⟨asked, replay⟩ := replayed_of_present ran served still
          refine ⟨asked, fun answered => ?_⟩
          obtain ⟨record, result, hit, stored_same⟩ := replay answered
          exact ⟨record, result, hit, stored_same.trans original⟩

end History

/-! ## Poles -/

section Poles

/-- A host that is asked for the lower case of a ticket, and knows one document. -/
def loweringHost : Host where
  lower text := String.ofList (text.toList.map Char.toLower)
  repr := id
  sha256 := id
  loads text :=
    if text = "\x7b\"category\":\"billing\"\x7d" then .ok (.object [("category", .string "billing")])
    else .error { kind := .jsonDecode, message := "Expecting value" }

/-- The model's answer. -/
def billing : Response where
  statusCode := 200
  retryAfter := none
  json := .ok (.object [("choices", .array [.object [("message", .object [("content",
    .string "</think>\x7b\"category\":\"billing\"\x7d")])]]), ("usage", .object [("total_tokens", .number (.finite 7))])])

/-- Upstream answers the first attempt with 503 and the second with a classification. -/
def busyWorld : TicketWorld where
  cached := none
  admits _ := true
  response attempt := if attempt = 1 then .ok { billing with statusCode := 503 } else .ok billing
  jitter _ := 0
  nanSleep := .ok ()

/-- Upstream refuses every request. -/
def refusingWorld : TicketWorld := { busyWorld with response := fun _ => .ok { billing with statusCode := 401 } }

def billingRecord : Dict := [("category", .string "billing"), ("tokens", .number (.finite 7))]

/-- What is asked of the upstream for a ticket that is classified. -/
def classifiedTrace (ticket : String) : TicketTrace :=
  [⟨.admission 1, true⟩, ⟨.post ticket 1, .ok { billing with statusCode := 503 }⟩,
    ⟨.count "503" (.finite 0), ()⟩, ⟨.uniform 1, (0 : ℚ)⟩,
    ⟨.sleep (.finite (backoffForAttempt .defaults 1 * (1 + 0))), .ok ()⟩,
    ⟨.admission 2, true⟩, ⟨.post ticket 2, .ok billing⟩, ⟨.count "success" (.finite 7), ()⟩]

theorem classifiedTrace_runs :
    Runs (callWithRetry .defaults loweringHost " Help") (classifiedTrace " Help") (.ok billingRecord) := by
  have ended : (runWith (fun _ => busyWorld.answer) (callWithRetry .defaults loweringHost " Help") 0).2 =
      some (.ok billingRecord) := rfl
  exact (runWith_runs ended).1

/-- And for one that is refused. -/
def refusedTrace (ticket : String) : TicketTrace :=
  [⟨.admission 1, true⟩, ⟨.post ticket 1, .ok { billing with statusCode := 401 }⟩, ⟨.count "401" (.finite 0), ()⟩]

theorem refusedTrace_runs :
    Runs (callWithRetry .defaults loweringHost "other") (refusedTrace "other") (.ok (failureResult "other" "http_401")) := by
  have ended : (runWith (fun _ => refusingWorld.answer) (callWithRetry .defaults loweringHost "other") 0).2 =
      some (.ok (failureResult "other" "http_401")) := rfl
  exact (runWith_runs ended).1

/-- The first call, which misses. -/
def firstCall : Call where
  ticket := " Help"
  trace := missed loweringHost " Help" ++ (classifiedTrace " Help" ++ [⟨.release, ()⟩,
    ⟨.cacheSet (ticketKey loweringHost " Help") (Dict.drop billingRecord "cache_hit"), .ok ()⟩])
  result := .ok (Dict.set billingRecord "cache_hit" (.bool false))

/-- A call of another ticket, which fails. -/
def otherCall : Call where
  ticket := "other"
  trace := missed loweringHost "other" ++ (refusedTrace "other" ++ [⟨.release, ()⟩])
  result := .ok (Dict.set (failureResult "other" "http_401") "cache_hit" (.bool false))

/-- A call of the first ticket in another spelling. -/
def lastCall : Call where
  ticket := "help "
  trace := [⟨.cacheGet (ticketKey loweringHost "help "), .ok (some billingRecord)⟩]
  result := .ok (Dict.set billingRecord "cache_hit" (.bool true))

/-- What is stored after the first. -/
def filled : Cache := setNx (fun _ => none) (ticketKey loweringHost " Help") billingRecord

theorem spellings_same : normalize loweringHost "help " = normalize loweringHost " Help" := by decide

theorem filled_found : filled (ticketKey loweringHost "help ") = some billingRecord := by
  have key : ticketKey loweringHost "help " = ticketKey loweringHost " Help" := ticketKey_congr spellings_same
  rw [key]
  exact setNx_of_none rfl

theorem filled_other : filled (ticketKey loweringHost "other") = none := by
  have apart : ticketKey loweringHost "other" ≠ ticketKey loweringHost " Help" := by decide
  simp [filled, setNx, apart]

theorem three_calls : History .defaults loweringHost (fun _ => none) [firstCall, otherCall, lastCall] filled := by
  have stored : ServedBy (fun _ => none) [⟨.release, ()⟩,
      ⟨.cacheSet (ticketKey loweringHost " Help") (Dict.drop billingRecord "cache_hit"), .ok ()⟩] filled :=
    .other trivial (.set (.done _))
  have classified : ServedBy (fun _ => none) (classifiedTrace " Help" ++ _) filled :=
    stored.prepend (callWithRetry_upstream classifiedTrace_runs)
  have stores : ServedBy (fun _ => none) firstCall.trace filled := .got (.other trivial classified)
  have released : ServedBy filled [⟨.release, ()⟩] filled := .other trivial (.done _)
  have refused : ServedBy filled (refusedTrace "other" ++ _) filled :=
    released.prepend (callWithRetry_upstream refusedTrace_runs)
  have misses : ServedBy filled otherCall.trace filled := by
    rw [otherCall, missed, ← filled_other]
    exact .got (.other trivial refused)
  have hits : ServedBy filled lastCall.trace filled := by
    rw [lastCall, ← filled_found]
    exact .got (.done _)
  exact .cons (processTicket_runs_iff.mpr (.classified _ billingRecord (.ok ()) classifiedTrace_runs rfl)) stores
    (.cons (processTicket_runs_iff.mpr (.failed _ _ refusedTrace_runs rfl)) misses
      (.cons (processTicket_runs_iff.mpr (.hit billingRecord)) hits (.nil _)))

/-- Satisfiable pole: the last call is served what the first one returned. -/
theorem cached_replay_spelled :
    Replayed loweringHost (Dict.set billingRecord "cache_hit" (.bool false)) lastCall :=
  @cached_replay .defaults loweringHost _ _ [] [otherCall] [] firstCall lastCall _ three_calls rfl rfl spellings_same

end Poles

end InferenceForge.Pipeline
