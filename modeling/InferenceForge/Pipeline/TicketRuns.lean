/-
# InferenceForge.Pipeline.TicketRuns — what one ticket can do

`TicketRun` lists the ways a run of `processTicket` can go, with the operations
it performs and how it ends; `processTicket_runs_iff` says that there are no
others. What the cache is given follows: a result without an error, without a
`cache_hit` and with a number of tokens (`Stored`).
-/
import InferenceForge.Pipeline.Caller

namespace InferenceForge.Pipeline

open InferenceForge.Python InferenceForge.Library

set_option autoImplicit false

section Runs

variable (settings : Settings) (host : Host) (ticket : String)

abbrev TicketTrace := List (Asked TicketOp TicketAnswer)

/-- The look-up of a ticket that finds nothing, and the semaphore slot after it. -/
def missed : TicketTrace :=
  [⟨.cacheGet (ticketKey host ticket), .ok none⟩, ⟨.acquire, ()⟩]

/-- The runs of `process_ticket`: the look-up raises or hits, the call raises,
returns an error, or returns a classification which is then stored. -/
inductive TicketRun : TicketTrace → Except Exn Dict → Prop
  | lookupRaised (e : Exn) :
      TicketRun [⟨.cacheGet (ticketKey host ticket), .error e⟩] (.error e)
  | hit (cached : Dict) :
      TicketRun [⟨.cacheGet (ticketKey host ticket), .ok (some cached)⟩]
        (.ok (Dict.set cached "cache_hit" (.bool true)))
  | raised (upstream : TicketTrace) (e : Exn)
      (called : Runs (callWithRetry settings host ticket) upstream (.error e)) :
      TicketRun (missed host ticket ++ (upstream ++ [⟨.release, ()⟩])) (.error e)
  | failed (upstream : TicketTrace) (result : Dict)
      (called : Runs (callWithRetry settings host ticket) upstream (.ok result))
      (error : Dict.isNone result "error" = false) :
      TicketRun (missed host ticket ++ (upstream ++ [⟨.release, ()⟩]))
        (.ok (Dict.set result "cache_hit" (.bool false)))
  | classified (upstream : TicketTrace) (result : Dict) (stored : Except Exn Unit)
      (called : Runs (callWithRetry settings host ticket) upstream (.ok result))
      (noError : Dict.isNone result "error" = true) :
      TicketRun
        (missed host ticket ++ (upstream ++ [⟨.release, ()⟩,
          ⟨.cacheSet (ticketKey host ticket) (Dict.drop result "cache_hit"), stored⟩]))
        (stored.map fun _ => Dict.set result "cache_hit" (.bool false))

variable {settings host ticket} {trace : TicketTrace} {result : Except Exn Dict}

theorem release_runs_iff {after : TicketTrace} {ended : Except Exn Unit} :
    Runs (await .release) after ended ↔ after = [⟨.release, ()⟩] ∧ ended = .ok () := by
  rw [await, runs_perform_iff]
  constructor
  · rintro ⟨⟨⟩, rfl, rfl⟩
    exact ⟨rfl, rfl⟩
  · rintro ⟨rfl, rfl⟩
    exact ⟨(), rfl, rfl⟩

/-- The end of a ticket whose call returned `called`. -/
theorem store_runs_iff {called : Dict} :
    Runs (do
        (cacheSet host ticket (Dict.drop called "cache_hit")).when (Dict.isNone called "error")
        return Dict.set called "cache_hit" (.bool false)) trace result ↔
      (Dict.isNone called "error" = false ∧ trace = [] ∧
        result = .ok (Dict.set called "cache_hit" (.bool false))) ∨
      ∃ stored, Dict.isNone called "error" = true ∧
        trace = [⟨.cacheSet (ticketKey host ticket) (Dict.drop called "cache_hit"), stored⟩] ∧
        result = stored.map fun _ => Dict.set called "cache_hit" (.bool false) := by
  cases none : Dict.isNone called "error" with
  | false => simp [Program.when, runs_bind_iff]
  | true =>
      simp only [Program.when, if_true, cacheSet, runs_call_bind_iff, runs_pure_iff, id_eq]
      constructor
      · rintro (⟨_, e, rfl, rfl, rfl⟩ | ⟨_, ⟨⟩, _, rfl, rfl, rfl, rfl⟩)
        · exact .inr ⟨.error e, trivial, rfl, rfl⟩
        · exact .inr ⟨.ok (), trivial, rfl, rfl⟩
      · rintro (⟨impossible, _⟩ | ⟨stored, _, rfl, rfl⟩)
        · cases impossible
        · cases stored with
          | error e => exact .inl ⟨_, e, rfl, rfl, rfl⟩
          | ok _ => exact .inr ⟨_, (), [], rfl, rfl, rfl, rfl⟩

/-- **The runs of a ticket** are those `TicketRun` lists. -/
theorem processTicket_runs_iff :
    Runs (processTicket settings host ticket) trace result ↔
      TicketRun settings host ticket trace result := by
  have quiet : ∀ (e : Exn) (after : TicketTrace), ¬ Runs (await .release) after (.error e) := by
    intro e after ran
    cases (release_runs_iff.mp ran).2
  unfold processTicket
  rw [cacheGet, runs_call_bind_iff]
  constructor
  · rintro (⟨answer, e, rfl, rfl, rfl⟩ | ⟨answer, found, rest, rfl, rfl, ran⟩)
    · exact .lookupRaised e
    · cases found with
      | some cached =>
          obtain ⟨rfl, rfl⟩ := runs_pure_iff.mp ran
          exact .hit cached
      | none =>
          obtain ⟨⟨⟩, rest, rfl, rest_ran⟩ := runs_perform_bind_iff.mp ran
          rcases runs_bind_iff.mp rest_ran with
            ⟨e, raised, rfl⟩ | ⟨called, before, after, rfl, completed, ended⟩
          · obtain ⟨upstream, _, rfl, called, released⟩ := (runs_tryFinally_iff quiet).mp raised
            obtain ⟨rfl, _⟩ := release_runs_iff.mp released
            exact .raised upstream e called
          · obtain ⟨upstream, _, rfl, returned, released⟩ := (runs_tryFinally_iff quiet).mp completed
            obtain ⟨rfl, _⟩ := release_runs_iff.mp released
            rcases store_runs_iff.mp ended with ⟨error, rfl, rfl⟩ | ⟨stored, noError, rfl, rfl⟩
            · rw [List.append_nil]
              exact .failed upstream called returned error
            · rw [List.append_assoc]
              exact .classified upstream called stored returned noError
  · intro run
    cases run with
    | lookupRaised e => exact .inl ⟨_, e, rfl, rfl, rfl⟩
    | hit cached => exact .inr ⟨_, some cached, [], rfl, rfl, runs_pure_iff.mpr ⟨rfl, rfl⟩⟩
    | raised upstream e called =>
        refine .inr ⟨_, none, _, rfl, rfl, runs_perform_bind_iff.mpr ⟨(), _, rfl, ?_⟩⟩
        refine runs_bind_iff.mpr (.inl ⟨e, (runs_tryFinally_iff quiet).mpr ?_, rfl⟩)
        exact ⟨upstream, _, rfl, called, release_runs_iff.mpr ⟨rfl, rfl⟩⟩
    | failed upstream result called error =>
        refine .inr ⟨_, none, _, rfl, rfl, runs_perform_bind_iff.mpr ⟨(), _, rfl, ?_⟩⟩
        refine runs_bind_iff.mpr (.inr ⟨result, _, [], (List.append_nil _).symm,
          (runs_tryFinally_iff quiet).mpr ?_, store_runs_iff.mpr (.inl ⟨error, rfl, rfl⟩)⟩)
        exact ⟨upstream, _, rfl, called, release_runs_iff.mpr ⟨rfl, rfl⟩⟩
    | classified upstream result stored called noError =>
        refine .inr ⟨_, none, _, rfl, rfl, runs_perform_bind_iff.mpr ⟨(), _, rfl, ?_⟩⟩
        refine runs_bind_iff.mpr (.inr ⟨result, upstream ++ [⟨.release, ()⟩], [_], by simp,
          (runs_tryFinally_iff quiet).mpr ?_, store_runs_iff.mpr (.inr ⟨stored, noError, rfl, rfl⟩)⟩)
        exact ⟨upstream, _, rfl, called, release_runs_iff.mpr ⟨rfl, rfl⟩⟩

end Runs

/-! ## What the upstream call leaves alone and what it returns -/

section Upstream

variable (settings : Settings) (host : Host) (ticket : String)

/-- The operations of the upstream call: all but the cache's. -/
def Upstream : TicketOp → Prop
  | .cacheGet _ | .cacheSet _ _ => False
  | _ => True

/-- The operations of `_call_with_retry`. -/
def InCall : TicketOp → Prop
  | .cacheGet _ | .cacheSet _ _ | .acquire | .release => False
  | _ => True

theorem InCall.upstream : ∀ op, InCall op → Upstream op
  | .admission _, _ | .throttle _, _ | .post _ _, _ | .count _ _, _ | .countStatus _, _ | .uniform _, _
  | .sleep _, _ => trivial

/-- The token counter takes numbers that are not negative, if a `float` can hold them. -/
theorem incrementTokens_ok_iff {tokenCount : Json} {tokens : Number} :
    incrementTokens tokenCount = .ok tokens ↔
      tokenCount.toNumber? = some tokens ∧ tokens.isNegative = false ∧ tokens.overflows = false := by
  unfold incrementTokens
  cases tokenCount.toNumber? with
  | none => simp
  | some found =>
      dsimp only
      constructor
      · intro taken
        split at taken
        · cases taken
        · next positive =>
            split at taken
            · cases taken
            · next small =>
                cases taken
                exact ⟨rfl, eq_false_of_ne_true positive, eq_false_of_ne_true small⟩
      · rintro ⟨⟨⟩, positive, small⟩
        rw [if_neg (ne_true_of_eq_false positive), if_neg (ne_true_of_eq_false small)]

/-- What is asked to record a call. -/
theorem asks_recordApiCall {P : TicketOp → Prop} {status : String} {tokenCount : Json}
    (counts : ∀ tokens, incrementTokens tokenCount = .ok tokens → P (.count status tokens))
    (refused : P (.countStatus status)) : (recordApiCall status tokenCount).Asks P := by
  unfold recordApiCall
  split
  · next tokens taken => exact asks_perform (counts tokens taken)
  · exact asks_bind (asks_perform refused) fun _ => trivial

theorem recordApiCall_asks (status : String) (tokenCount : Json) :
    (recordApiCall status tokenCount).Asks InCall := asks_recordApiCall (fun _ _ => trivial) trivial

theorem incrementTokens_zero : incrementTokens (.number (.finite 0)) = .ok (.finite 0) :=
  incrementTokens_ok_iff.mpr ⟨rfl, rfl, decide_eq_false (not_le.mpr overflow_pos)⟩

/-- The operations of a wait. -/
def Waiting : TicketOp → Prop
  | .uniform _ | .sleep _ => True
  | _ => False

theorem Waiting.inCall : ∀ op, Waiting op → InCall op
  | .uniform _, _ | .sleep _, _ => trivial

theorem sleep_waits (duration : Number) : (sleep duration).Asks Waiting := asks_call trivial

theorem backoff_waits (attempt : ℕ) : (backoff settings attempt).Asks Waiting :=
  asks_bind (asks_perform trivial) fun _ => sleep_waits _

theorem rateLimitWait_waits (attempt : ℕ) (retryAfter : Option String) :
    (rateLimitWait settings host attempt retryAfter).Asks Waiting := by
  unfold rateLimitWait
  split
  · split
    · split
      · exact sleep_waits _
      · trivial
    · exact backoff_waits settings attempt
  · exact backoff_waits settings attempt

theorem readResponse_asks (response : Response) : (readResponse host response).Asks InCall := by
  unfold readResponse
  split
  · trivial
  · refine asks_bind (asks_ofResult _) fun data => asks_bind (asks_ofResult _) fun found => ?_
    exact asks_bind (asks_ofResult _) fun _ => asks_bind (recordApiCall_asks _ _) fun _ => trivial

theorem singleApiCall_asks (attempt : ℕ) :
    (singleApiCall settings host ticket attempt).Asks InCall := by
  unfold singleApiCall
  split
  · exact asks_bind (asks_when ((sleep_waits _).mono Waiting.inCall)) fun _ => trivial
  · refine asks_bind (asks_when (asks_perform trivial)) fun _ => ?_
    exact asks_bind (asks_call trivial) (readResponse_asks host)

theorem tryAttempt_asks (attempt : ℕ) :
    (tryAttempt settings host ticket attempt).Asks InCall := by
  have called := singleApiCall_asks settings host ticket attempt
  refine asks_bind ?_ fun answer => ?_
  · unfold guarded
    split
    · refine asks_bind (asks_perform trivial) fun admitted => ?_
      split
      · exact called
      · trivial
    · exact called
  · split <;> trivial

/-- What the handler does once the status is counted. -/
theorem statusHandler_waits (attempt statusCode : ℕ) (retryAfter : Option String) :
    (if statusCode ∈ fatalStatusCodes then
        return some (failureResult ticket s!"http_{statusCode}")
      else if statusCode = 429 ∧ attempt < settings.maxRetries then do
        rateLimitWait settings host attempt retryAfter
        return none
      else if statusCode ∈ retryableStatusCodes ∧ attempt < settings.maxRetries then do
        backoff settings attempt
        return none
      else return none : Coroutine (Option Dict)).Asks Waiting := by
  split
  · trivial
  · split
    · exact asks_bind (rateLimitWait_waits settings host attempt _) fun _ => trivial
    · split
      · exact asks_bind (backoff_waits settings attempt) fun _ => trivial
      · trivial

theorem retry_waits (attempt : ℕ) :
    (do
      (backoff settings attempt).when (attempt < settings.maxRetries)
      return none : Coroutine (Option Dict)).Asks Waiting :=
  asks_bind (asks_when (backoff_waits settings attempt)) fun _ => trivial

theorem onError_asks (attempt : ℕ) (e : Exn) :
    (onError settings host ticket attempt e).Asks InCall := by
  unfold onError
  split
  · trivial
  · refine asks_bind (recordApiCall_asks _ _) fun _ => ?_
    exact (statusHandler_waits settings host ticket attempt _ _).mono Waiting.inCall
  · exact (retry_waits settings attempt).mono Waiting.inCall
  · exact (retry_waits settings attempt).mono Waiting.inCall
  · trivial

theorem attempts_asks (remaining : List ℕ) :
    (attempts settings host ticket remaining).Asks InCall := by
  induction remaining with
  | nil => trivial
  | cons attempt rest ih =>
      refine asks_bind (asks_rescue (tryAttempt_asks settings host ticket attempt)
        (onError_asks settings host ticket attempt)) fun ended => ?_
      cases ended with
      | none => exact ih
      | some result => trivial

theorem callWithRetry_asks : (callWithRetry settings host ticket).Asks InCall :=
  attempts_asks settings host ticket _

/-- The tokens of a record, where it has any, are a number that the token counter takes: the
program writes no others. -/
def NumericTokens (record : Dict) : Prop :=
  ∀ tokens, Dict.get? record "tokens" = some tokens → ∃ number, incrementTokens tokens = .ok number

theorem numericTokens_failureResult (error : String) : NumericTokens (failureResult ticket error) := by
  intro tokens found
  cases found
  exact ⟨_, incrementTokens_zero⟩

theorem NumericTokens.set {record : Dict} (numeric : NumericTokens record) {key : String}
    (ne : key ≠ "tokens") (value : Json) : NumericTokens (Dict.set record key value) := by
  intro tokens found
  rw [Dict.get?_set_of_ne record ne.symm] at found
  exact numeric tokens found

theorem NumericTokens.drop {record : Dict} (numeric : NumericTokens record) {key : String}
    (ne : key ≠ "tokens") : NumericTokens (Dict.drop record key) := by
  intro tokens found
  rw [Dict.get?_drop_of_ne record ne.symm] at found
  exact numeric tokens found

theorem recordApiCall_runs {status : String} {tokenCount : Json} {trace : TicketTrace}
    (ran : Runs (recordApiCall status tokenCount) trace (.ok ())) :
    ∃ tokens, incrementTokens tokenCount = .ok tokens := by
  unfold recordApiCall at ran
  split at ran
  · next tokens taken => exact ⟨tokens, taken⟩
  · obtain ⟨_, rest, _, raised⟩ := runs_perform_bind_iff.mp ran
    cases (runs_raise_iff.mp raised).2

theorem readResponse_tokens (response : Response) :
    (readResponse host response).Returns fun answer => ∃ tokens, incrementTokens answer.2 = .ok tokens := by
  unfold readResponse
  split
  · exact returns_raise
  · refine returns_bind fun data => returns_bind fun found => returns_bind fun result => ?_
    exact returns_bind_of (P := fun _ => ∃ tokens, incrementTokens found.2 = .ok tokens)
      (fun _ _ ran => recordApiCall_runs ran) fun _ numeric => returns_pure numeric

theorem singleApiCall_tokens (attempt : ℕ) :
    (singleApiCall settings host ticket attempt).Returns fun answer =>
      ∃ tokens, incrementTokens answer.2 = .ok tokens := by
  unfold singleApiCall
  split
  · exact returns_bind fun _ => returns_pure ⟨_, incrementTokens_zero⟩
  · exact returns_bind fun _ => returns_bind (readResponse_tokens host)

theorem tryAttempt_numeric (attempt : ℕ) :
    (tryAttempt settings host ticket attempt).Returns fun ended =>
      ∀ result ∈ ended, NumericTokens result := by
  refine returns_bind_of (P := fun answer => ∃ tokens, incrementTokens answer.2 = .ok tokens) ?_
    fun answer numeric => ?_
  · unfold guarded
    split
    · refine returns_bind fun admitted => ?_
      split
      · exact singleApiCall_tokens settings host ticket attempt
      · exact returns_raise
    · exact singleApiCall_tokens settings host ticket attempt
  · split
    · refine returns_pure ?_
      rintro result ⟨⟩ tokens found
      rw [Dict.get?_set_self] at found
      cases found
      exact numeric
    · exact returns_raise

theorem onError_numeric (attempt : ℕ) (e : Exn) :
    (onError settings host ticket attempt e).Returns fun ended =>
      ∀ result ∈ ended, NumericTokens result := by
  have record : ∀ error, ∀ result ∈ some (failureResult ticket error), NumericTokens result := by
    rintro error result ⟨⟩
    exact numericTokens_failureResult ticket error
  have silent : ∀ result ∈ (none : Option Dict), NumericTokens result := by simp
  unfold onError
  split
  · exact returns_pure (record _)
  · refine returns_bind fun _ => ?_
    split
    · exact returns_pure (record _)
    · split
      · exact returns_bind fun _ => returns_pure silent
      · split
        · exact returns_bind fun _ => returns_pure silent
        · exact returns_pure silent
  · exact returns_bind fun _ => returns_pure silent
  · exact returns_bind fun _ => returns_pure silent
  · exact returns_raise

theorem attempts_numeric (remaining : List ℕ) :
    (attempts settings host ticket remaining).Returns NumericTokens := by
  induction remaining with
  | nil => exact returns_pure (numericTokens_failureResult ticket _)
  | cons attempt rest ih =>
      refine returns_bind_of (returns_rescue (tryAttempt_numeric settings host ticket attempt)
        (onError_numeric settings host ticket attempt)) fun ended numeric => ?_
      cases ended with
      | none => exact ih
      | some result => exact returns_pure (numeric result rfl)

theorem callWithRetry_numeric : (callWithRetry settings host ticket).Returns NumericTokens :=
  attempts_numeric settings host ticket _

end Upstream

/-! ## What a ticket does with the cache -/

section CacheUse

variable {settings : Settings} {host : Host} {ticket : String} {trace : TicketTrace}
  {result : Except Exn Dict}

instance : ∀ op, Nonempty (TicketAnswer op)
  | .cacheGet _ => ⟨.ok none⟩
  | .cacheSet _ _ | .sleep _ => ⟨.ok ()⟩
  | .acquire | .release | .throttle _ | .count _ _ | .countStatus _ => ⟨()⟩
  | .admission _ => ⟨true⟩
  | .post _ _ => ⟨.error (.typeError "")⟩
  | .uniform _ => ⟨0⟩

theorem callWithRetry_upstream (called : Runs (callWithRetry settings host ticket) trace result) :
    ∀ asked ∈ trace, Upstream asked.1 :=
  ((callWithRetry_asks settings host ticket).mono InCall.upstream).of_runs called

/-- What a look-up found. -/
def foundOf : Asked TicketOp TicketAnswer → Option Dict
  | ⟨.cacheGet _, .ok found⟩ => found
  | _ => none

/-- A trace whose look-ups found nothing. -/
theorem hit_notMem {trace : TicketTrace} (nothing : trace.filterMap foundOf = []) {key : String} {cached : Dict} :
    ⟨.cacheGet key, .ok (some cached)⟩ ∉ trace := by
  intro member
  have there : cached ∈ trace.filterMap foundOf := List.mem_filterMap.mpr ⟨_, member, rfl⟩
  rw [nothing] at there
  cases there

/-- What is read off the operations on the cache does not see the upstream call. -/
theorem filterMap_missed {β : Type} {read : Asked TicketOp TicketAnswer → Option β} {upstream last : TicketTrace}
    (ignores : ∀ asked, Upstream asked.1 → read asked = none)
    (called : Runs (callWithRetry settings host ticket) upstream result) :
    (missed host ticket ++ (upstream ++ last)).filterMap read =
      (missed host ticket).filterMap read ++ last.filterMap read := by
  have quiet : upstream.filterMap read = [] := by
    apply List.filterMap_eq_nil_iff.mpr
    intro asked member
    exact ignores asked (callWithRetry_upstream called asked member)
  rw [List.filterMap_append, List.filterMap_append, quiet, List.nil_append]

/-- A run is a look-up, then operations that leave the cache alone, and at most
one store, of a classification that was obtained after a miss. -/
theorem TicketRun.shape (run : TicketRun settings host ticket trace result) :
    ∃ found middle last, trace = ⟨.cacheGet (ticketKey host ticket), found⟩ :: (middle ++ last) ∧
      (∀ asked ∈ middle, Upstream asked.1) ∧
      (last = [] ∨ ∃ upstream record stored, found = .ok none ∧
        middle = ⟨.acquire, ()⟩ :: (upstream ++ [⟨.release, ()⟩]) ∧
        Runs (callWithRetry settings host ticket) upstream (.ok record) ∧
        Dict.isNone record "error" = true ∧
        last = [⟨.cacheSet (ticketKey host ticket) (Dict.drop record "cache_hit"), stored⟩]) := by
  have upstream_middle : ∀ {upstream : TicketTrace} {ended : Except Exn Dict},
      Runs (callWithRetry settings host ticket) upstream ended →
      ∀ asked ∈ (⟨.acquire, ()⟩ :: (upstream ++ [⟨.release, ()⟩]) : TicketTrace),
        Upstream asked.1 := by
    intro upstream ended called asked member
    rcases List.mem_cons.mp member with rfl | member
    · trivial
    · rcases List.mem_append.mp member with member | member
      · exact callWithRetry_upstream called asked member
      · rw [List.mem_singleton.mp member]
        trivial
  cases run with
  | lookupRaised e => exact ⟨_, [], [], rfl, by simp, .inl rfl⟩
  | hit cached => exact ⟨_, [], [], rfl, by simp, .inl rfl⟩
  | raised upstream e called =>
      exact ⟨.ok none, _, [], by simp [missed], upstream_middle called, .inl rfl⟩
  | failed upstream record called error =>
      exact ⟨.ok none, _, [], by simp [missed], upstream_middle called, .inl rfl⟩
  | classified upstream record stored called noError =>
      exact ⟨_, _, _, by simp [missed], upstream_middle called,
        .inr ⟨upstream, record, stored, rfl, rfl, called, noError, rfl⟩⟩

/-- The only look-up of a ticket is its first operation. -/
theorem TicketRun.lookup (run : TicketRun settings host ticket trace result) {key : String}
    {found : Except Exn (Option Dict)} {before after : TicketTrace}
    (split : trace = before ++ ⟨.cacheGet key, found⟩ :: after) :
    before = [] ∧ key = ticketKey host ticket := by
  obtain ⟨found', middle, last, rfl, quiet, ending⟩ := run.shape
  cases before with
  | nil =>
      have first := congrArg Sigma.fst (List.cons.inj split).1
      injection first with same
      exact ⟨rfl, same.symm⟩
  | cons head tail =>
      have member : (⟨.cacheGet key, found⟩ : Asked TicketOp TicketAnswer) ∈ middle ++ last := by
        rw [(List.cons.inj split).2]
        exact List.mem_append_right _ List.mem_cons_self
      rcases List.mem_append.mp member with member | member
      · exact (quiet _ member).elim
      · rcases ending with rfl | ⟨_, _, _, _, _, _, _, rfl⟩
        · cases member
        · cases List.mem_singleton.mp member

/-- The only store of a ticket is its last operation; the classification it
stores was obtained after a miss. -/
theorem TicketRun.store (run : TicketRun settings host ticket trace result) {key : String}
    {value : Dict} {stored : Except Exn Unit} {before after : TicketTrace}
    (split : trace = before ++ ⟨.cacheSet key value, stored⟩ :: after) :
    key = ticketKey host ticket ∧ ∃ upstream record,
      before = missed host ticket ++ (upstream ++ [⟨.release, ()⟩]) ∧
      Runs (callWithRetry settings host ticket) upstream (.ok record) ∧
      Dict.isNone record "error" = true ∧ value = Dict.drop record "cache_hit" := by
  obtain ⟨found, middle, last, rfl, quiet, ending⟩ := run.shape
  cases before with
  | nil => cases congrArg Sigma.fst (List.cons.inj split).1
  | cons head tail =>
      obtain ⟨rfl, rest_split⟩ := List.cons.inj split
      have outside : (⟨.cacheSet key value, stored⟩ : Asked TicketOp TicketAnswer) ∉ middle :=
        fun member => quiet _ member
      rcases ending with rfl | ⟨upstream, record, stored', rfl, rfl, called, noError, rfl⟩
      · rw [List.append_nil] at rest_split
        subst rest_split
        simp at outside
      · rcases List.append_eq_append_iff.mp rest_split with ⟨more, rfl, eq⟩ | ⟨more, within, eq⟩
        · cases more with
          | nil =>
              cases eq
              exact ⟨rfl, upstream, record, by simp [missed], called, noError, rfl⟩
          | cons first more =>
              have lengths := congrArg List.length eq
              simp at lengths
        · cases more with
          | nil =>
              cases eq
              refine ⟨rfl, upstream, record, ?_, called, noError, rfl⟩
              rw [List.append_nil] at within
              simp [missed, ← within]
          | cons first more =>
              cases (List.cons.inj eq).1
              rw [within] at outside
              simp at outside

/-- What an earlier ticket may have put into the cache. -/
def Written (settings : Settings) (host : Host) (value : Dict) : Prop :=
  ∃ ticket trace result key stored, Runs (processTicket settings host ticket) trace result ∧
    ⟨.cacheSet key value, stored⟩ ∈ trace

theorem Written.obtained {value : Dict} (written : Written settings host value) :
    ∃ ticket upstream record, Runs (callWithRetry settings host ticket) upstream (.ok record) ∧
      Dict.isNone record "error" = true ∧ value = Dict.drop record "cache_hit" := by
  obtain ⟨ticket, trace, result, key, stored, ran, member⟩ := written
  obtain ⟨before, after, split⟩ := List.append_of_mem member
  obtain ⟨_, upstream, record, _, called, noError, same⟩ :=
    (processTicket_runs_iff.mp ran).store split
  exact ⟨ticket, upstream, record, called, noError, same⟩

/-- The cache holds no failures. -/
theorem Written.noError {value : Dict} (written : Written settings host value) :
    Dict.truthy value "error" = false := by
  obtain ⟨_, _, record, _, noError, rfl⟩ := written.obtained
  rw [Dict.truthy, Dict.get?_drop_of_ne record (by decide)]
  exact Dict.not_truthy_of_isNone noError

theorem Written.numericTokens {value : Dict} (written : Written settings host value) :
    NumericTokens value := by
  obtain ⟨ticket, upstream, record, called, _, rfl⟩ := written.obtained
  exact (callWithRetry_numeric settings host ticket upstream record called).drop (by decide)

/-- What a ticket returns has a number of tokens, if what it finds in the cache does. -/
theorem processTicket_numeric {ticket : String} {trace : TicketTrace} {result : Dict}
    (ran : Runs (processTicket settings host ticket) trace (.ok result))
    (cache : ∀ key cached, ⟨.cacheGet key, .ok (some cached)⟩ ∈ trace → NumericTokens cached) :
    NumericTokens result := by
  have found := processTicket_runs_iff.mp ran
  generalize outcome : Except.ok result = ended at found
  cases found with
  | lookupRaised e => cases outcome
  | raised upstream e called => cases outcome
  | hit cached =>
      cases outcome
      exact (cache _ cached List.mem_cons_self).set (by decide) _
  | failed upstream record called error =>
      cases outcome
      exact (callWithRetry_numeric settings host ticket upstream _ called).set (by decide) _
  | classified upstream record stored called noError =>
      cases stored with
      | error e => cases outcome
      | ok _ =>
          cases outcome
          exact (callWithRetry_numeric settings host ticket upstream _ called).set (by decide) _

end CacheUse

end InferenceForge.Pipeline
