/-
# InferenceForge.Api.Rejection — what a request that fails leaves behind

`process_tickets` launches the task of a job last, so a request that raises has
launched none. But `create` is two exchanges, and the handler undoes neither of them
when a later operation raises: a hash is left that nobody will ever finish, and that
never expires if the error came between the two (`failed_expire_leaves_hash`).

The store is as it was before exactly if the hash was not written, or has expired when
the handler raises and was not written again (`leaves_nothing_iff`).
-/
import InferenceForge.Api.JobExpiry

namespace InferenceForge.Api

open InferenceForge.Python InferenceForge.Library InferenceForge.Pipeline
open InferenceForge.Pipeline.JobStore

set_option autoImplicit false

section Rejected

variable {settings : Settings} {host : Host} {body : ProcessRequest settings} {jobId : String}
  {timed : List (ℚ × Act)} {s : JobRedis} {created now : ℚ} {total : ℕ} {reply : Reply}

/-- At `now` there is no task, and every key and channel is as it was before. -/
structure LeavesNothing (settings : Settings) (jobId : String) (s : JobRedis) (timed : List (ℚ × Act))
    (now : ℚ) (trace : RouteTrace) : Prop where
  tasks : launched trace = []
  keys : ∀ key, (performAll settings jobId s timed).live now key = s.live now key
  published : (performAll settings jobId s timed).published = s.published

/-- The lifetime given at `created` is over. -/
def Expired (settings : Settings) (created now : ℚ) : Prop :=
  settings.jobTtlSeconds ≤ 0 ∨ created + settings.jobTtlSeconds < now

/-- `create` did not take effect, or it has set an expiry that is over by `now`; what
took effect after it found the hash alive. -/
def Gone (settings : Settings) (now : ℚ) : List (ℚ × Act) → Prop
  | [] => True
  | (created, _, reply) :: rest =>
      (reply.tookEffect = true → reply.expires = true ∧ Expired settings created now) ∧
        ∀ act ∈ rest, act.2.2.tookEffect = true → ¬ Expired settings created act.1

/-! ## The hash -/

/-- Whether the hash of an answered `create` is gone. -/
theorem create_gone_iff (absent : s.keys (jobKey jobId) = none) :
    (perform settings jobId s (created, .create total, reply)).live now (jobKey jobId) = none ↔
      (reply.tookEffect = true → reply.expires = true ∧ Expired settings created now) := by
  have unused : s.live created (jobKey jobId) = none := live_of_absent absent
  have keys := perform_create settings total reply unused
  by_cases expires : reply.expires = true
  · have took : reply.tookEffect = true := by
      cases reply with
      | ok => rfl
      | raised e applied =>
          simp only [Reply.expires, decide_eq_true_eq] at expires
          simp only [Reply.tookEffect_raised, decide_eq_true_eq]
          omega
    rw [if_pos expires] at keys
    by_cases lives : 0 < settings.jobTtlSeconds
    · rw [if_pos lives] at keys
      simp [live_eq_none_iff keys, expires, took, Expired, not_le.mpr lives]
    · rw [if_neg lives] at keys
      simp [live_of_absent keys, expires, Expired, not_lt.mp lives]
  · rw [if_neg expires] at keys
    by_cases took : reply.tookEffect = true
    · rw [if_pos took] at keys
      simp [live_of_no_expiry keys, took, expires]
    · rw [if_neg took, absent] at keys
      simp [live_of_absent keys, took]

/-- Whether it is gone after the cached tickets were counted. -/
theorem count_gone_iff {counted : ℚ} {cached : ℕ} (some_ : cached ≠ 0) (absent : s.keys (jobKey jobId) = none) :
    (perform settings jobId (perform settings jobId s (created, .create total, .ok))
        (counted, .incrementProgress cached 0 cached, reply)).live now (jobKey jobId) = none ↔
      Expired settings created now ∧ (reply.tookEffect = true → ¬ Expired settings created counted) := by
  have unused : s.live created (jobKey jobId) = none := live_of_absent absent
  have keys := perform_create settings total .ok unused
  have others : ∀ total', StoreCall.incrementProgress cached 0 cached ≠ .create total' := by simp
  generalize perform settings jobId s (created, .create total, .ok) = s' at keys ⊢
  rw [if_pos (show Reply.ok.expires = true from rfl)] at keys
  by_cases took : reply.tookEffect = true
  · have writes : Writes (.incrementProgress cached 0 cached, reply) := by
      refine ⟨took, ?_⟩
      simpa [StoreCall.writesHash] using some_
    by_cases lives : 0 < settings.jobTtlSeconds
    · rw [if_pos lives] at keys
      have alive_iff : Expired settings created counted ↔ created + settings.jobTtlSeconds < counted := by
        simp [Expired, not_le.mpr lives]
      by_cases late : created + settings.jobTtlSeconds < counted
      · obtain ⟨value, stored⟩ := @write_of_gone jobId s' settings
          (counted, .incrementProgress cached 0 cached, reply) others writes ((live_eq_none_iff keys).mpr late)
        exact iff_of_false (live_of_no_expiry stored) fun both => both.2 took (alive_iff.mpr late)
      · have here := hashAt_of_keys keys (by simpa using not_lt.mp late)
        have after := (perform_hash settings (.incrementProgress cached 0 cached) reply others here).trans
          (if_pos writes)
        rw [live_eq_none_iff after, alive_iff]
        simp [Expired, not_le.mpr lives, late]
    · rw [if_neg lives] at keys
      obtain ⟨value, stored⟩ := @write_of_gone jobId s' settings
        (counted, .incrementProgress cached 0 cached, reply) others writes (live_of_absent keys)
      exact iff_of_false (live_of_no_expiry stored) fun both => both.2 took (.inl (not_lt.mp lives))
  · rw [perform_of_ne_create others, if_neg took]
    by_cases lives : 0 < settings.jobTtlSeconds
    · rw [if_pos lives] at keys
      simp [live_eq_none_iff keys, Expired, not_le.mpr lives, took]
    · rw [if_neg lives] at keys
      simp [live_of_absent keys, Expired, not_lt.mp lives, took]

/-! ## Everything else -/

/-- The calls a request makes before it launches its task. -/
def Preparing : StoreCall → Prop
  | .create _ | .incrementProgress .. => True
  | _ => False

theorem preparing_elsewhere (settings : Settings) (now : ℚ) {call : StoreCall} (preparing : Preparing call)
    {key : String} (other : key ≠ jobKey jobId) :
    ∀ commands ∈ roundTrips settings jobId now call, ∀ command ∈ commands, command.key? ≠ some key := by
  cases call with
  | create total => simp [roundTrips, create, Redis.Command.key?, other.symm]
  | incrementProgress completed failed cacheHits =>
      intro commands one command member
      obtain ⟨field, amount, rfl⟩ := mem_incrementProgress one member
      simpa [Redis.Command.key?] using other.symm
  | start | finish | fail | publishProgress | publishDone => exact preparing.elim

/-- They leave everything but the job's hash alone. -/
theorem preparing_frame {act : ℚ × Act} (preparing : Preparing act.2.1) :
    (∀ key, key ≠ jobKey jobId → (perform settings jobId s act).keys key = s.keys key) ∧
      (perform settings jobId s act).published = s.published := by
  obtain ⟨instant, call, reply⟩ := act
  constructor
  · intro key other
    have elsewhere := preparing_elsewhere settings instant preparing other
    cases reply with
    | ok => exact exchanges_keys elsewhere s
    | raised e applied =>
        exact exchanges_keys (fun commands member => elsewhere commands (List.mem_of_mem_take member)) s
  · have silent : message jobId call = [] := by
      cases call with
      | create | incrementProgress => rfl
      | start | finish | fail | publishProgress | publishDone => exact preparing.elim
    rw [perform_published, sent, silent]
    simp

theorem preparing_all_frame (preparing : ∀ act ∈ timed, Preparing act.2.1) :
    (∀ key, key ≠ jobKey jobId → (performAll settings jobId s timed).keys key = s.keys key) ∧
      (performAll settings jobId s timed).published = s.published := by
  induction timed generalizing s with
  | nil => exact ⟨fun _ _ => rfl, rfl⟩
  | cons act rest ih =>
      obtain ⟨keys, published⟩ := @preparing_frame settings jobId s act
        (preparing act List.mem_cons_self)
      obtain ⟨keys', published'⟩ := ih (s := perform settings jobId s act)
        fun act member => preparing act (List.mem_cons_of_mem _ member)
      exact ⟨fun key other => (keys' key other).trans (keys key other), published'.trans published⟩

/-- **A rejected request leaves nothing behind** exactly if the hash of its job was not
written, or is gone. -/
theorem leaves_nothing_iff {rest : RouteTrace} {e : Exn}
    (posted : Runs (processTickets settings host body) (⟨.uuid, jobId⟩ :: rest) (.error e))
    (called : timed.map Prod.snd = acts rest) (fresh : s.keys (jobKey jobId) = none) (now : ℚ) :
    LeavesNothing settings jobId s timed now (⟨.uuid, jobId⟩ :: rest) ↔ Gone settings now timed := by
  obtain ⟨_, _, same, run⟩ := processTickets_runs posted (known_any _)
  cases same
  have run : PostRun host (fun _ _ => True) body.tickets jobId (timed.map Prod.snd)
      (launched (⟨.uuid, jobId⟩ :: rest)) (.error e) := by
    rw [called]
    exact run
  -- only the hash of the job is in question
  have only_hash : launched (⟨.uuid, jobId⟩ :: rest) = [] → (∀ act ∈ timed, Preparing act.2.1) →
      (LeavesNothing settings jobId s timed now (⟨.uuid, jobId⟩ :: rest) ↔
        (performAll settings jobId s timed).live now (jobKey jobId) = none) := by
    intro idle preparing
    obtain ⟨keys, published⟩ := @preparing_all_frame settings jobId timed s preparing
    constructor
    · intro nothing
      rw [nothing.keys, live_of_absent fresh]
    · intro gone
      refine ⟨idle, fun key => ?_, published⟩
      by_cases hash : key = jobKey jobId
      · rw [hash, gone, live_of_absent fresh]
      · rw [Redis.Server.live, keys key hash, Redis.Server.live]
  generalize launched (⟨.uuid, jobId⟩ :: rest) = jobs at run only_hash
  generalize split : timed.map Prod.snd = calls at run
  cases run with
  | lookup e =>
      obtain rfl := List.map_eq_nil_iff.mp split
      rw [only_hash rfl (by simp)]
      exact iff_of_true (live_of_absent fresh) trivial
  | create e applied =>
      obtain ⟨⟨created, _⟩, rfl, rfl⟩ := List.map_eq_singleton_iff.mp split
      rw [only_hash rfl (by simp [Preparing])]
      show (perform settings jobId s (created, .create _, .raised e applied)).live now (jobKey jobId) = none ↔ _
      rw [create_gone_iff fresh]
      simp [Gone]
  | count dedup some_ e applied =>
      obtain ⟨⟨created, _⟩, _, rfl, rfl, rest_split⟩ := List.map_eq_cons_iff.mp split
      obtain ⟨⟨counted, _⟩, rfl, rfl⟩ := List.map_eq_singleton_iff.mp rest_split
      rw [only_hash rfl (by simp [Preparing])]
      show (perform settings jobId (perform settings jobId s (created, .create _, .ok))
        (counted, .incrementProgress _ 0 _, .raised e applied)).live now (jobKey jobId) = none ↔ _
      rw [count_gone_iff some_ fresh]
      simp [Gone, Reply.expires]

end Rejected

/-! ## Poles -/

section Poles

/-- The ticket is not cached, and `raised` is what `create` answers. -/
def refusedTrace (e : Exn) (applied : ℕ) : RouteTrace :=
  [⟨.uuid, "j"⟩, ⟨.cacheGet (ticketKey plainHost "help"), .ok none⟩, ⟨.etaInitial 1 (breakdown ["help"]), 0⟩,
    ⟨.store (.create 1), .raised e applied⟩]

theorem refusedTrace_runs (e : Exn) (applied : ℕ) :
    Runs (processTickets .defaults plainHost single) (refusedTrace e applied) (.error e) := by
  have dedup : Runs (deduplicate plainHost single.tickets {})
      [⟨.cacheGet (ticketKey plainHost "help"), .ok none⟩]
      (.ok { seen := [("help", "help")], uniqueTickets := ["help"] }) :=
    deduplicate_of_miss (by decide) (runs_pure_iff.mpr ⟨rfl, rfl⟩)
  refine runs_perform_bind_iff.mpr ⟨"j", _, rfl, ?_⟩
  refine runs_bind_iff.mpr (.inr ⟨_, _, _, rfl, dedup, ?_⟩)
  refine runs_perform_bind_iff.mpr ⟨(0 : ℚ), _, rfl, ?_⟩
  exact runs_call_bind_iff.mpr (.inl ⟨.raised e applied, e, rfl, rfl, rfl⟩)

/-- **Refuting pole.** EXPIRE raises: the hash stays, pending, and without an expiry. -/
theorem failed_expire_leaves_hash :
    let lost : Exn := { kind := .other "ConnectionError", message := "closed" }
    let calls : List (ℚ × Act) := [(0, .create 1, .raised lost 1)]
    Runs (processTickets .defaults plainHost single) (refusedTrace lost 1) (.error lost) ∧
      calls.map Prod.snd = acts (refusedTrace lost 1).tail ∧
      (∀ now, ¬ LeavesNothing .defaults "j" empty calls now (refusedTrace lost 1)) ∧
      ∀ now, ∃ fields, (performAll .defaults "j" empty calls).live now (jobKey "j") = some ⟨.hash fields, none⟩ ∧
        fields "status" = some (.text "pending") := by
  intro lost calls
  have posted := refusedTrace_runs lost 1
  have called : calls.map Prod.snd = acts (refusedTrace lost 1).tail := rfl
  have fresh : empty.keys (jobKey "j") = none := rfl
  refine ⟨posted, called, fun now nothing => ?_, fun now => ?_⟩
  · have gone := (leaves_nothing_iff posted called fresh now).mp nothing
    have expires := (gone.1 rfl).1
    cases expires
  · have stored := perform_create .defaults 1 (.raised lost 1) (show empty.live 0 (jobKey "j") = none from rfl)
    exact ⟨_, live_eq_some.mpr ⟨stored, rfl⟩, rfl⟩

/-- Satisfiable pole: the look-up raises, and nothing was written. -/
theorem leaves_nothing_iff_lookup :
    let lost : Exn := { kind := .other "ConnectionError", message := "closed" }
    let trace : RouteTrace := [⟨.cacheGet (ticketKey plainHost "help"), .error lost⟩]
    ∀ now, LeavesNothing .defaults "j" empty [] now (⟨.uuid, "j"⟩ :: trace) := by
  intro lost trace now
  have posted : Runs (processTickets .defaults plainHost single) (⟨.uuid, "j"⟩ :: trace) (.error lost) := by
    refine runs_perform_bind_iff.mpr ⟨"j", _, rfl, ?_⟩
    refine runs_bind_iff.mpr (.inl ⟨lost, ?_, rfl⟩)
    unfold deduplicate
    exact runs_call_bind_iff.mpr (.inl ⟨_, lost, rfl, rfl, rfl⟩)
  exact (leaves_nothing_iff posted rfl rfl now).mpr trivial

end Poles

end InferenceForge.Api
