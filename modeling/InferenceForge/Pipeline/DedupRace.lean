/-
# InferenceForge.Pipeline.DedupRace — concurrent calls and the shared cache

Any number of `process_ticket` calls share one Redis (`Pool`); a schedule names
the call that goes on. The look-up reads the cache as it is at that moment, the
store is `SET NX`, nothing expires, and either may raise, the store with its
effect or without (`Treatment`). What else a call waits for (semaphore, breaker,
upstream) is an input of the call: `oracle i`.

Between a look-up that misses and the store lies the whole upstream call, and
nothing keeps a second call of the same ticket from missing meanwhile: then both
are classified and the second returns its own result while the first one's is
stored (`two_classifications`). `race_free_iff_alone` says when this does not
happen: no call that is going to be classified misses while another such call of
the same key has missed and its store has not returned (`Alone`, a condition on
each step).
-/
import InferenceForge.Library.Pool
import InferenceForge.Pipeline.TicketRuns

namespace InferenceForge.Pipeline.DedupRace

open InferenceForge.Python InferenceForge.Library

set_option autoImplicit false

/-- The cache in Redis: its entries by key. -/
abbrev Cache := String → Option Dict

/-- Redis `SET key value NX`. -/
def setNx (cache : Cache) (key : String) (value : Dict) : Cache :=
  match cache key with
  | none => Function.update cache key (some value)
  | some _ => cache

/-- What becomes of an operation on the cache. -/
inductive Treatment
  | served
  | raised (e : Exn) (applied : Bool)

abbrev Oracle := (op : TicketOp) → Option (TicketAnswer op)

/-- A store: how it ends, and the cache after it. -/
def attempt (treatment : Treatment) (cache : Cache) (key : String) (value : Dict) : Except Exn Unit × Cache :=
  match treatment with
  | .served => (.ok (), setNx cache key value)
  | .raised e true => (.error e, setNx cache key value)
  | .raised e false => (.error e, cache)

def serve (treated : ℕ → TicketTrace → TicketOp → Treatment) (oracle : ℕ → Oracle) :
    Serve TicketOp TicketAnswer ℕ Cache :=
  fun i trace cache op =>
    match op with
    | .cacheGet key =>
        match treated i trace (.cacheGet key) with
        | .served => some (.ok (cache key), cache)
        | .raised e _ => some (.error e, cache)
    | .cacheSet key value => some (attempt (treated i trace (.cacheSet key value)) cache key value)
    | op => (oracle i op).map (·, cache)

abbrev Calls := Pool TicketOp TicketAnswer Exn Dict ℕ Cache

section System

variable (settings : Settings) (host : Host) (tickets : ℕ → String)
  (treated : ℕ → TicketTrace → TicketOp → Treatment) (oracle : ℕ → Oracle)

/-- Call `i` is `process_ticket(tickets i)`. -/
def start (i : ℕ) : Coroutine Dict := processTicket settings host (tickets i)

/-- The cache key of call `i`. -/
def keyOf (i : ℕ) : String := ticketKey host (tickets i)

/-- The upstream call of `i` is answered with a classification. -/
def Succeeds (i : ℕ) : Prop :=
  ∃ record, (callWithRetry settings host (tickets i)).outcome (oracle i) = some (.ok record) ∧
    Dict.isNone record "error" = true

/-- Call `i` made a successful upstream classification. -/
def Classified (w : Calls) (i : ℕ) : Prop :=
  ∃ upstream record rest, w.traces i = missed host (tickets i) ++ (upstream ++ rest) ∧
    Runs (callWithRetry settings host (tickets i)) upstream (.ok record) ∧
    Dict.isNone record "error" = true

/-- What a classification says. -/
def classificationFields : List String := ["category", "priority", "summary"]

/-- In each class of tickets with one normalised form at most one call is
classified upstream, and every successful result agrees with the stored entry. -/
structure RaceFree (w : Calls) : Prop where
  once : ∀ i j, normalize host (tickets i) = normalize host (tickets j) →
    Classified settings host tickets w i → Classified settings host tickets w j → i = j
  agrees : ∀ i result, w.threads i = .done result → Dict.isNone result "error" = true →
    ∃ stored, w.shared (keyOf host tickets i) = some stored ∧
      ∀ field ∈ classificationFields, Dict.get? result field = Dict.get? stored field

/-- Call `i` has missed, and no store of it has returned. -/
def InFlight (w : Calls) (i : ℕ) : Prop :=
  ⟨.cacheGet (keyOf host tickets i), .ok none⟩ ∈ w.traces i ∧
    ∀ value, ⟨.cacheSet (keyOf host tickets i) value, .ok ()⟩ ∉ w.traces i

/-- Unless the step is a look-up, by a call that will be classified, that misses
while another call of the same key that will be classified is in flight. -/
def Alone (w : Calls) (i : ℕ) : Prop :=
  ∀ key next, w.threads i = .ask (.cacheGet key) next →
    treated i (w.traces i) (.cacheGet key) = .served → w.shared key = none →
    Succeeds settings host tickets oracle i →
    ∀ j, j ≠ i → keyOf host tickets j = key → Succeeds settings host tickets oracle j →
      ¬ InFlight host tickets w j

/-! ## The invariant -/

/-- Call `i` has missed and will be classified. -/
def Winner (w : Calls) (i : ℕ) : Prop :=
  ⟨.cacheGet (keyOf host tickets i), .ok none⟩ ∈ w.traces i ∧
    Succeeds settings host tickets oracle i

/-- Every key has at most one winner. -/
def Single (w : Calls) : Prop :=
  ∀ i j, keyOf host tickets i = keyOf host tickets j →
    Winner settings host tickets oracle w i → Winner settings host tickets oracle w j → i = j

structure Inv (w : Calls) : Prop where
  faithful : Pool.Faithful (start settings host tickets) w
  answered : ∀ i, ∀ asked ∈ w.traces i, Upstream asked.1 → oracle i asked.1 = some asked.2
  hit : ∀ i key entry, ⟨.cacheGet key, .ok (some entry)⟩ ∈ w.traces i → w.shared key = some entry
  lookup : ∀ i key found, ⟨.cacheGet key, found⟩ ∈ w.traces i → key = keyOf host tickets i
  filled : ∀ i key, ⟨.cacheGet key, .ok none⟩ ∈ w.traces i → w.shared key ≠ none →
    ∃ j value stored, keyOf host tickets j = key ∧ ⟨.cacheSet key value, stored⟩ ∈ w.traces j
  wrote : ∀ i key value stored, ⟨.cacheSet key value, stored⟩ ∈ w.traces i →
    key = keyOf host tickets i ∧ Winner settings host tickets oracle w i
  stored : ∀ i key value, ⟨.cacheSet key value, .ok ()⟩ ∈ w.traces i → w.shared key ≠ none
  kept : Single settings host tickets oracle w →
    ∀ i key value, ⟨.cacheSet key value, .ok ()⟩ ∈ w.traces i → w.shared key = some value

end System

section Steps

variable {settings : Settings} {host : Host} {tickets : ℕ → String}
  {treated : ℕ → TicketTrace → TicketOp → Treatment} {oracle : ℕ → Oracle} {w w' : Calls} {i : ℕ}

theorem inv_init (cache : Cache) :
    Inv settings host tickets oracle (Pool.init cache (start settings host tickets)) where
  faithful := Pool.faithful_init _ _
  answered := by simp [Pool.init]
  hit := by simp [Pool.init]
  lookup := by simp [Pool.init]
  filled := by simp [Pool.init]
  wrote := by simp [Pool.init]
  stored := by simp [Pool.init]
  kept := by simp [Pool.init]

theorem setNx_of_some {cache : Cache} {key other : String} {value entry : Dict}
    (present : cache other = some entry) : setNx cache key value other = some entry := by
  cases given : cache key with
  | none =>
      have differ : other ≠ key := by
        rintro rfl
        rw [given] at present
        cases present
      simp only [setNx, given]
      rwa [Function.update_of_ne differ]
  | some stored => simpa only [setNx, given] using present

theorem setNx_of_none {cache : Cache} {key : String} {value : Dict} (absent : cache key = none) :
    setNx cache key value key = some value := by
  simp only [setNx, absent, Function.update_self]

theorem setNx_ne_none (cache : Cache) (key : String) (value : Dict) :
    setNx cache key value key ≠ none := by
  cases given : cache key with
  | none => simp [setNx_of_none given]
  | some stored => simp [setNx_of_some given]

theorem setNx_of_ne {cache : Cache} {key other : String} {value : Dict} (ne : other ≠ key) :
    setNx cache key value other = cache other := by
  cases given : cache key with
  | none => simp only [setNx, given, Function.update_of_ne ne]
  | some stored => simp only [setNx, given]

/-- What a store leaves behind: entries stay, other keys are left alone, and one that
returns has stored unless there was an entry. -/
structure Attempted (cache : Cache) (key : String) (value : Dict) (reply : Except Exn Unit) (after : Cache) :
    Prop where
  stays : ∀ other entry, cache other = some entry → after other = some entry
  frame : ∀ other, other ≠ key → after other = cache other
  returned : reply = .ok () → after = setNx cache key value

theorem attempt_attempted (treatment : Treatment) (cache : Cache) (key : String) (value : Dict) :
    Attempted cache key value (attempt treatment cache key value).1 (attempt treatment cache key value).2 := by
  match treatment with
  | .served => exact ⟨fun _ _ => setNx_of_some, fun _ => setNx_of_ne, fun _ => rfl⟩
  | .raised e true => exact ⟨fun _ _ => setNx_of_some, fun _ => setNx_of_ne, fun _ => rfl⟩
  | .raised e false => exact ⟨fun _ _ => id, fun _ _ => rfl, fun impossible => nomatch impossible⟩

/-- A step looks up, raises in a look-up, stores, or asks the upstream. -/
theorem step_cases (stepped : Pool.step (serve treated oracle) w i = some w') :
    (∃ key next, w.threads i = .ask (.cacheGet key) next ∧
      treated i (w.traces i) (.cacheGet key) = .served ∧
      w' = w.served i (.cacheGet key) (.ok (w.shared key)) (next (.ok (w.shared key)))
        w.shared) ∨
    (∃ key next e, w.threads i = .ask (.cacheGet key) next ∧
      treated i (w.traces i) (.cacheGet key) ≠ .served ∧
      w' = w.served i (.cacheGet key) (.error e) (next (.error e)) w.shared) ∨
    (∃ key value next reply cache, w.threads i = .ask (.cacheSet key value) next ∧
      Attempted w.shared key value reply cache ∧
      w' = w.served i (.cacheSet key value) reply (next reply) cache) ∨
    ∃ op next answer, w.threads i = .ask op next ∧ Upstream op ∧ oracle i op = some answer ∧
      w' = w.served i op answer (next answer) w.shared := by
  obtain ⟨op, next, answer, shared, pending, given, rfl⟩ := Pool.step_cases stepped
  cases op with
  | cacheGet key =>
      simp only [serve] at given
      split at given
      next treatment =>
        cases given
        exact .inl ⟨key, next, pending, treatment, rfl⟩
      next e applied treatment =>
        cases given
        exact .inr (.inl ⟨key, next, e, pending, by simp [treatment], rfl⟩)
  | cacheSet key value =>
      have attempted := attempt_attempted (treated i (w.traces i) (.cacheSet key value)) w.shared key value
      have ended : attempt (treated i (w.traces i) (.cacheSet key value)) w.shared key value = (answer, shared) :=
        Option.some.inj given
      rw [ended] at attempted
      exact .inr (.inr (.inl ⟨key, value, next, answer, shared, pending, attempted, rfl⟩))
  | _ =>
      obtain ⟨answer', given', eq⟩ := Option.map_eq_some_iff.mp given
      cases eq
      exact .inr (.inr (.inr ⟨_, next, answer, pending, trivial, given', rfl⟩))

/-- A pending look-up is the first operation of its call. -/
theorem Inv.pending_lookup (inv : Inv settings host tickets oracle w) {key : String}
    {next : Except Exn (Option Dict) → Coroutine Dict}
    (pending : w.threads i = .ask (.cacheGet key) next) :
    w.traces i = [] ∧ key = keyOf host tickets i := by
  have leads := inv.faithful i
  rw [pending] at leads
  obtain ⟨rest, result, _, ran⟩ := (leads.concat (.ok none)).extend
  rw [List.append_assoc] at ran
  exact (processTicket_runs_iff.mp ran).lookup rfl

/-- A pending store follows a successful classification. -/
theorem Inv.pending_store (inv : Inv settings host tickets oracle w) {key : String} {value : Dict}
    {next : Except Exn Unit → Coroutine Dict}
    (pending : w.threads i = .ask (.cacheSet key value) next) :
    key = keyOf host tickets i ∧ Winner settings host tickets oracle w i ∧
      ∀ key' value' stored, ⟨.cacheSet key' value', stored⟩ ∉ w.traces i := by
  have leads := inv.faithful i
  rw [pending] at leads
  obtain ⟨rest, result, _, ran⟩ := (leads.concat (.ok ())).extend
  rw [List.append_assoc] at ran
  obtain ⟨same, upstream, record, before, called, noError, -⟩ :=
    (processTicket_runs_iff.mp ran).store rfl
  have quiet := callWithRetry_upstream called
  have answered : ∀ asked ∈ upstream, oracle i asked.1 = some asked.2 := by
    intro asked member
    refine inv.answered i asked ?_ (quiet asked member)
    rw [before]
    exact List.mem_append_right _ (List.mem_append_left _ member)
  refine ⟨same, ⟨?_, record, outcome_of_runs called answered, noError⟩, ?_⟩
  · rw [before]
    exact List.mem_cons_self
  · intro key' value' stored member
    rw [before] at member
    simp only [missed, List.mem_append, List.mem_cons, List.not_mem_nil, or_false] at member
    rcases member with (impossible | impossible) | member | impossible
    · cases impossible
    · cases impossible
    · exact quiet _ member
    · cases impossible

theorem winner_of_served {op : TicketOp} {answer : TicketAnswer op} {next : Coroutine Dict}
    {shared : Cache} {j : ℕ} (won : Winner settings host tickets oracle w j) :
    Winner settings host tickets oracle (w.served i op answer next shared) j :=
  ⟨Pool.mem_served won.1, won.2⟩

/-- A winner after a step was one before, unless the step is its missing look-up. -/
theorem winner_of_other {op : TicketOp} {answer : TicketAnswer op} {next : Coroutine Dict}
    {shared : Cache} {j : ℕ}
    (other : ∀ key, (⟨.cacheGet key, .ok none⟩ : Asked TicketOp TicketAnswer) ≠ ⟨op, answer⟩)
    (won : Winner settings host tickets oracle (w.served i op answer next shared) j) :
    Winner settings host tickets oracle w j := by
  refine ⟨?_, won.2⟩
  rcases Pool.mem_served_cases won.1 with before | ⟨_, now⟩
  · exact before
  · exact absurd now (other _)

theorem Single.of_served {op : TicketOp} {answer : TicketAnswer op} {next : Coroutine Dict}
    {shared : Cache} (single : Single settings host tickets oracle (w.served i op answer next shared)) :
    Single settings host tickets oracle w :=
  fun j k same left right => single j k same (winner_of_served left) (winner_of_served right)

variable (settings host tickets oracle) in
/-- What an operation of call `i` with its answer adds to what the invariant says, and the cache
after it. -/
structure Adds (w : Calls) (i : ℕ) (asked : Asked TicketOp TicketAnswer) (cache : Cache) : Prop where
  answered : Upstream asked.1 → oracle i asked.1 = some asked.2
  stays : ∀ key entry, w.shared key = some entry → cache key = some entry
  lookup : ∀ key found, asked = ⟨.cacheGet key, found⟩ → key = keyOf host tickets i
  found : ∀ key found, asked = ⟨.cacheGet key, .ok found⟩ → cache key = found
  fills : ∀ key, w.shared key = none → cache key ≠ none →
    ∃ value stored, keyOf host tickets i = key ∧ asked = ⟨.cacheSet key value, stored⟩
  wrote : ∀ key value stored, asked = ⟨.cacheSet key value, stored⟩ →
    key = keyOf host tickets i ∧ Winner settings host tickets oracle w i
  kept : ∀ key value, asked = ⟨.cacheSet key value, .ok ()⟩ →
    cache key ≠ none ∧ (Single settings host tickets oracle w → cache key = some value)

theorem Inv.served (inv : Inv settings host tickets oracle w) {op : TicketOp} {answer : TicketAnswer op}
    {next : Coroutine Dict} {cache : Cache} (adds : Adds settings host tickets oracle w i ⟨op, answer⟩ cache)
    (faithful : Pool.Faithful (start settings host tickets) (w.served i op answer next cache)) :
    Inv settings host tickets oracle (w.served i op answer next cache) := by
  refine ⟨faithful, ?_, ?_, ?_, ?_, ?_, ?_, ?_⟩
  · intro j asked member upstream
    rcases Pool.mem_served_cases member with before | ⟨rfl, rfl⟩
    · exact inv.answered j asked before upstream
    · exact adds.answered upstream
  · intro j key entry member
    rcases Pool.mem_served_cases member with before | ⟨rfl, now⟩
    · exact adds.stays _ _ (inv.hit j key entry before)
    · exact adds.found _ _ now.symm
  · intro j key found member
    rcases Pool.mem_served_cases member with before | ⟨rfl, now⟩
    · exact inv.lookup j key found before
    · exact adds.lookup _ _ now.symm
  · intro j key member present
    rcases Pool.mem_served_cases member with before | ⟨rfl, now⟩
    · by_cases absent : w.shared key = none
      · obtain ⟨value, stored, same, now⟩ := adds.fills key absent present
        refine ⟨i, value, stored, same, ?_⟩
        rw [Pool.served_traces_self, now]
        exact List.mem_append_right _ List.mem_cons_self
      · obtain ⟨k, value, stored, same, wrote⟩ := inv.filled j key before absent
        exact ⟨k, value, stored, same, Pool.mem_served wrote⟩
    · exact absurd (adds.found _ _ now.symm) present
  · intro j key value stored member
    rcases Pool.mem_served_cases member with before | ⟨rfl, now⟩
    · obtain ⟨same, won⟩ := inv.wrote j key value stored before
      exact ⟨same, winner_of_served won⟩
    · obtain ⟨same, won⟩ := adds.wrote _ _ _ now.symm
      exact ⟨same, winner_of_served won⟩
  · intro j key value member
    rcases Pool.mem_served_cases member with before | ⟨rfl, now⟩
    · obtain ⟨entry, present⟩ := Option.ne_none_iff_exists'.mp (inv.stored j key value before)
      rw [Pool.served_shared, adds.stays _ _ present]
      exact Option.some_ne_none entry
    · exact (adds.kept _ _ now.symm).1
  · intro single j key value member
    rcases Pool.mem_served_cases member with before | ⟨rfl, now⟩
    · exact adds.stays _ _ (inv.kept single.of_served j key value before)
    · exact (adds.kept _ _ now.symm).2 single.of_served

/-- An operation that is no store leaves the cache alone, and what it reads is what the cache holds. -/
theorem adds_of_read {op : TicketOp} {answer : TicketAnswer op} (noted : Upstream op → oracle i op = some answer)
    (looked : ∀ key found, (⟨op, answer⟩ : Asked TicketOp TicketAnswer) = ⟨.cacheGet key, found⟩ →
      key = keyOf host tickets i ∧ ∀ entry, found = .ok entry → w.shared key = entry)
    (reads : ∀ key value stored, (⟨op, answer⟩ : Asked TicketOp TicketAnswer) ≠ ⟨.cacheSet key value, stored⟩) :
    Adds settings host tickets oracle w i ⟨op, answer⟩ w.shared where
  answered := noted
  stays _ _ present := present
  lookup key found now := (looked key found now).1
  found key found now := (looked key _ now).2 found rfl
  fills _ absent present := absurd absent present
  wrote key value stored now := absurd now (reads key value stored)
  kept key value now := absurd now (reads key value _)

/-- A store that returns is kept if it is that of the only winner of its key. -/
theorem Inv.adds_of_store (inv : Inv settings host tickets oracle w) {key : String} {value : Dict}
    {next : Except Exn Unit → Coroutine Dict} {reply : Except Exn Unit} {cache : Cache}
    (pending : w.threads i = .ask (.cacheSet key value) next)
    (attempted : Attempted w.shared key value reply cache) :
    Adds settings host tickets oracle w i ⟨.cacheSet key value, reply⟩ cache := by
  obtain ⟨named, won, unwritten⟩ := inv.pending_store pending
  refine ⟨fun impossible => impossible.elim, attempted.stays, fun _ _ now => (by cases now), fun _ _ now => (by cases now),
    ?_, ?_, ?_⟩
  · intro other absent present
    by_cases same : other = key
    · subst same
      exact ⟨value, reply, named.symm, rfl⟩
    · rw [attempted.frame _ same] at present
      exact absurd absent present
  · intro other value' stored now
    cases now
    exact ⟨named, won⟩
  · intro other value' now
    cases now
    rw [attempted.returned rfl]
    refine ⟨setNx_ne_none _ _ _, fun single => setNx_of_none ?_⟩
    -- somebody else's entry under the key would make two winners
    by_contra present
    have missed_here : ⟨.cacheGet key, .ok none⟩ ∈ w.traces i := by
      rw [named]
      exact won.1
    obtain ⟨k, value', stored', same, wrote⟩ := inv.filled i key missed_here present
    have other := (inv.wrote k key value' stored' wrote).2
    have : k = i := single k i (same.trans named) other won
    subst this
    exact unwritten key value' stored' wrote

/-- **The step lemma.** -/
theorem Inv.step (inv : Inv settings host tickets oracle w)
    (stepped : Pool.step (serve treated oracle) w i = some w') :
    Inv settings host tickets oracle w' := by
  have faithful := inv.faithful.step stepped
  rcases step_cases stepped with ⟨key, next, pending, -, rfl⟩ | ⟨key, next, e, pending, -, rfl⟩ |
    ⟨key, value, next, reply, cache, pending, attempted, rfl⟩ |
    ⟨op, next, answer, pending, upstream, given, rfl⟩
  · refine inv.served (adds_of_read (fun impossible => impossible.elim) ?_ (by simp)) faithful
    intro key' found now
    cases now
    exact ⟨(inv.pending_lookup pending).2, fun entry same => Except.ok.inj same⟩
  · refine inv.served (adds_of_read (fun impossible => impossible.elim) ?_ (by simp)) faithful
    intro key' found now
    cases now
    exact ⟨(inv.pending_lookup pending).2, fun entry impossible => nomatch impossible⟩
  · exact inv.served (inv.adds_of_store pending attempted) faithful
  · refine inv.served (adds_of_read (fun _ => given) ?_ ?_) faithful
    · intro key found now
      cases now
      exact upstream.elim
    · intro key value stored now
      cases now
      exact upstream

/-- A missing look-up leaves one winner per key exactly when it is taken alone. -/
theorem single_lookup (inv : Inv settings host tickets oracle w) {key : String}
    {next : Except Exn (Option Dict) → Coroutine Dict}
    (pending : w.threads i = .ask (.cacheGet key) next)
    (read : treated i (w.traces i) (.cacheGet key) = .served) :
    Single settings host tickets oracle
        (w.served i (.cacheGet key) (.ok (w.shared key)) (next (.ok (w.shared key))) w.shared) ↔
      Single settings host tickets oracle w ∧ Alone settings host tickets treated oracle w i := by
  obtain ⟨first, named⟩ := inv.pending_lookup pending
  constructor
  · intro single
    refine ⟨single.of_served, ?_⟩
    intro key' next' pending' _ absent succeeds j ne same succeeds' flying
    obtain ⟨rfl, _⟩ : key = key' ∧ HEq next next' := by
      rw [pending] at pending'
      simpa using pending'
    refine ne (single j i (same.trans named) (winner_of_served ⟨flying.1, succeeds'⟩) ⟨?_, succeeds⟩)
    rw [Pool.served_traces_self, first, absent, named]
    exact List.mem_cons_self
  · rintro ⟨single, alone⟩
    -- whoever was a winner before is a second one only if the look-up makes `i` one
    have clash : ∀ j, Winner settings host tickets oracle w j →
        keyOf host tickets j = keyOf host tickets i →
        Winner settings host tickets oracle
          (w.served i (.cacheGet key) (.ok (w.shared key)) (next (.ok (w.shared key)))
            w.shared) i → j = i := by
      intro j won same mine
      by_contra ne
      have absent : w.shared key = none := by
        rcases Pool.mem_served_cases mine.1 with before | ⟨_, now⟩
        · rw [first] at before
          cases before
        · exact ((by simpa using now : keyOf host tickets i = key ∧ none = w.shared key).2).symm
      refine alone key next pending read absent mine.2 j ne (same.trans named.symm) won.2 ⟨won.1, ?_⟩
      intro value wrote
      refine inv.stored j _ value wrote ?_
      rw [same, ← named]
      exact absent
    have before : ∀ j, j ≠ i → Winner settings host tickets oracle
        (w.served i (.cacheGet key) (.ok (w.shared key)) (next (.ok (w.shared key)))
          w.shared) j → Winner settings host tickets oracle w j := by
      intro j ne won
      refine ⟨?_, won.2⟩
      have member := won.1
      rwa [Pool.served_traces_of_ne ne] at member
    intro j k same left right
    by_cases atJ : j = i
    · by_cases atK : k = i
      · rw [atJ, atK]
      · subst atJ
        exact (clash k (before k atK right) same.symm left).symm
    · by_cases atK : k = i
      · subst atK
        exact clash j (before j atJ left) same right
      · exact single j k same (before j atJ left) (before k atK right)

/-- What misses no key makes no winner. -/
theorem single_other {op : TicketOp} {resume : TicketAnswer op → Coroutine Dict}
    {answer : TicketAnswer op} {next : Coroutine Dict} {shared : Cache}
    (pending : w.threads i = .ask op resume)
    (unread : ∀ key, op = .cacheGet key → treated i (w.traces i) op ≠ .served)
    (other : ∀ key, (⟨.cacheGet key, .ok none⟩ : Asked TicketOp TicketAnswer) ≠ ⟨op, answer⟩) :
    Single settings host tickets oracle (w.served i op answer next shared) ↔
      Single settings host tickets oracle w ∧ Alone settings host tickets treated oracle w i := by
  constructor
  · intro single
    refine ⟨single.of_served, fun key next' pending' read => ?_⟩
    rw [pending] at pending'
    cases pending'
    exact absurd read (unread key rfl)
  · rintro ⟨single, _⟩ j k same left right
    exact single j k same (winner_of_other other left) (winner_of_other other right)

/-- A step leaves one winner per key exactly when it is taken alone. -/
theorem single_step (inv : Inv settings host tickets oracle w)
    (stepped : Pool.step (serve treated oracle) w i = some w') :
    Single settings host tickets oracle w' ↔
      Single settings host tickets oracle w ∧ Alone settings host tickets treated oracle w i := by
  rcases step_cases stepped with ⟨key, next, pending, read, rfl⟩ | ⟨key, next, e, pending, unread, rfl⟩ |
    ⟨key, value, next, reply, cache, pending, -, rfl⟩ | ⟨op, next, answer, pending, upstream, given, rfl⟩
  · exact single_lookup inv pending read
  · exact single_other pending (fun _ _ => unread) (by simp)
  · exact single_other pending (by simp) (by simp)
  · refine single_other pending ?_ ?_
    · rintro key rfl
      exact upstream.elim
    · rintro key now
      cases now
      exact upstream

theorem Classified.winner (inv : Inv settings host tickets oracle w)
    (classified : Classified settings host tickets w i) :
    Winner settings host tickets oracle w i := by
  obtain ⟨upstream, record, rest, same, called, noError⟩ := classified
  refine ⟨?_, record, outcome_of_runs called ?_, noError⟩
  · rw [same]
    exact List.mem_cons_self
  · intro asked member
    refine inv.answered i asked ?_ (callWithRetry_upstream called asked member)
    rw [same]
    exact List.mem_append_right _ (List.mem_append_left _ member)

/-- A successful result agrees with the entry its call found or stored. -/
theorem agrees_of_single (inv : Inv settings host tickets oracle w)
    (single : Single settings host tickets oracle w) {result : Dict}
    (returned : w.threads i = .done result) (success : Dict.isNone result "error" = true) :
    ∃ stored, w.shared (keyOf host tickets i) = some stored ∧
      ∀ field ∈ classificationFields, Dict.get? result field = Dict.get? stored field := by
  have leads := inv.faithful i
  rw [returned] at leads
  have run := processTicket_runs_iff.mp leads.runs_done
  have other : ∀ field ∈ classificationFields, field ≠ "cache_hit" := by decide
  have hit := inv.hit i
  have kept := inv.kept single i
  generalize w.traces i = trace at run hit kept
  generalize ended : Except.ok result = outcome at run
  cases run with
  | lookupRaised e | raised upstream e called => cases ended
  | hit cached =>
      cases ended
      refine ⟨cached, hit _ cached List.mem_cons_self, fun field member => ?_⟩
      exact Dict.get?_set_of_ne cached (other field member) _
  | failed upstream record called error =>
      cases ended
      have same : Dict.isNone (Dict.set record "cache_hit" (.bool false)) "error" =
          Dict.isNone record "error" := by
        rw [Dict.isNone, Dict.isNone, Dict.get?_set_of_ne record (by decide)]
      rw [same, error] at success
      cases success
  | classified upstream record stored called noError =>
      cases stored with
      | error e => cases ended
      | ok _ =>
          cases ended
          refine ⟨_, kept _ (Dict.drop record "cache_hit") (by simp [keyOf]),
            fun field member => ?_⟩
          rw [Dict.get?_set_of_ne record (other field member),
            Dict.get?_drop_of_ne record (other field member)]

theorem raceFree_of_single (inv : Inv settings host tickets oracle w)
    (single : Single settings host tickets oracle w) : RaceFree settings host tickets w where
  once i j same left right :=
    single i j (by rw [keyOf, keyOf, ticketKey, ticketKey, same]) (left.winner inv) (right.winner inv)
  agrees _ _ returned success := agrees_of_single inv single returned success

/-- Every call that has begun has ended. -/
def Ended (w : Calls) : Prop :=
  ∀ i, w.traces i ≠ [] → (∃ result, w.threads i = .done result) ∨ ∃ e, w.threads i = .raise e

/-- A winner that has ended was classified. -/
theorem Winner.classified (inv : Inv settings host tickets oracle w) (ended : Ended w)
    (won : Winner settings host tickets oracle w i) : Classified settings host tickets w i := by
  obtain ⟨record, outcome, noError⟩ := won.2
  obtain ⟨result, ran⟩ : ∃ result, Runs (start settings host tickets i) (w.traces i) result := by
    have leads := inv.faithful i
    rcases ended i (List.ne_nil_of_mem won.1) with ⟨result, returned⟩ | ⟨e, raised⟩
    · rw [returned] at leads
      exact ⟨_, leads.runs_done⟩
    · rw [raised] at leads
      exact ⟨_, leads.runs_raise⟩
  have run := processTicket_runs_iff.mp ran
  have missed_first := won.1
  have answered := inv.answered i
  -- the answers of the oracle fix how the upstream call ended
  have settled : ∀ {upstream : TicketTrace} {rest : TicketTrace} {ended : Except Exn Dict},
      w.traces i = missed host (tickets i) ++ (upstream ++ rest) →
      Runs (callWithRetry settings host (tickets i)) upstream ended → ended = .ok record := by
    intro upstream rest ended same called
    have fixed := outcome_of_runs called fun asked member =>
      answered asked (by rw [same]; simp [member]) (callWithRetry_upstream called asked member)
    rw [fixed] at outcome
    exact Option.some.inj outcome
  generalize traced : w.traces i = trace at run missed_first
  cases run with
  | lookupRaised e => simp at missed_first
  | hit cached => simp at missed_first
  | raised upstream e called => cases settled traced called
  | failed upstream result called error =>
      cases settled traced called
      rw [error] at noError
      cases noError
  | classified upstream result stored called noError =>
      exact ⟨upstream, result, _, traced, called, noError⟩

/-- The digests of the calls' tickets do not collide. -/
def NoCollision (host : Host) (tickets : ℕ → String) : Prop :=
  ∀ i j, keyOf host tickets i = keyOf host tickets j →
    normalize host (tickets i) = normalize host (tickets j)

/-- **When deduplication is free of races.** If every look-up that misses is made
alone, every state the run reaches is race free; and where all calls have ended
(and no digests collide), only then. -/
theorem race_free_iff_alone {cache : Cache} {schedule : List ℕ}
    (ran : exec (Pool.step (serve treated oracle)) (Pool.init cache (start settings host tickets))
      schedule = some w) :
    (Along (Pool.step (serve treated oracle)) (Alone settings host tickets treated oracle)
        (Pool.init cache (start settings host tickets)) schedule →
      RaceFree settings host tickets w) ∧
    (NoCollision host tickets → Ended w → RaceFree settings host tickets w →
      Along (Pool.step (serve treated oracle)) (Alone settings host tickets treated oracle)
        (Pool.init cache (start settings host tickets)) schedule) := by
  have inv := exec_invariant (fun _ _ _ inv stepped => Inv.step inv stepped) schedule _ w
    (inv_init cache) ran
  have start_single : Single settings host tickets oracle
      (Pool.init cache (start settings host tickets)) := by
    intro i j _ left
    cases left.1
  have single_iff := exec_iff_along (fun _ _ _ inv stepped => Inv.step inv stepped)
    (fun _ _ _ inv stepped => single_step inv stepped) schedule _ w (inv_init cache) ran
  constructor
  · intro along
    exact raceFree_of_single inv (single_iff.mpr ⟨start_single, along⟩)
  · intro collisionFree ended raceFree
    refine (single_iff.mp fun i j same left right => ?_).2
    exact raceFree.once i j (collisionFree i j same) (left.classified inv ended)
      (right.classified inv ended)

end Steps

/-! ## The two poles -/

section Poles

def classificationText : ℕ → String
  | 0 => "\x7b\"category\":\"billing\"\x7d"
  | _ => "\x7b\"category\":\"other\"\x7d"

def classification : ℕ → Dict
  | 0 => [("category", .string "billing")]
  | _ => [("category", .string "other")]

/-- A host whose `json.loads` knows the two answers. -/
def pole : Host where
  lower := id
  repr := id
  sha256 := id
  loads text :=
    if text = classificationText 0 then .ok (.object (classification 0))
    else if text = classificationText 1 then .ok (.object (classification 1))
    else .error noJsonObject

/-- Upstream answers call `i` at once with its own classification. -/
def answersAtOnce (i : ℕ) : Oracle
  | .cacheGet _ => some (.ok none)
  | .cacheSet _ _ | .sleep _ => some (.ok ())
  | .acquire | .release | .throttle _ | .count _ _ | .countStatus _ => some ()
  | .admission _ => some true
  | .post _ _ => some (.ok {
      statusCode := 200
      retryAfter := none
      json := .ok (.object [("choices", .array [.object [("message",
        .object [("content", .string ("</think>" ++ classificationText i))])]])]) })
  | .uniform _ => some 0

/-- Redis serves everything. -/
def healthy : ℕ → TicketTrace → TicketOp → Treatment := fun _ _ _ => .served

/-- Two calls for one ticket, from an empty cache. -/
def twoCalls : Calls := Pool.init (fun _ => none) (start .defaults pole fun _ => "help")

/-- Both calls look up before either stores. -/
def overlapping : List ℕ := [0, 1, 0, 0, 0, 0, 0, 0, 1, 1, 1, 1, 1, 1]

/-- **Refuting pole.** Two calls of one ticket overlap: call 1 returns its own
classification while the cache holds that of call 0. -/
theorem two_classifications :
    ∃ w, exec (Pool.step (serve healthy answersAtOnce)) twoCalls overlapping = some w ∧
      ¬ RaceFree .defaults pole (fun _ => "help") w := by
  refine ⟨_, rfl, fun raceFree => ?_⟩
  obtain ⟨stored, found, agree⟩ := raceFree.agrees 1 _ rfl rfl
  have first : stored = Dict.set (classification 0) "tokens" (.number (.finite 0)) :=
    (Option.some.inj found).symm
  subst first
  have differ : some (Json.string "other") = some (Json.string "billing") :=
    agree "category" (by decide)
  simp at differ

/-- One call after the other. -/
def sequential : List ℕ := [0, 0, 0, 0, 0, 0, 0, 1]

/-- A store takes effect, and its reply does not come. -/
def lateReply : ℕ → TicketTrace → TicketOp → Treatment
  | _, _, .cacheSet _ _ => .raised { kind := .other "TimeoutError", message := "Timeout reading from redis:6379" } true
  | _, _, _ => .served

/-- The key a program is about to look up. -/
def lookupKey : Coroutine Dict → Option String
  | .ask (.cacheGet key) _ => some key
  | _ => none

theorem alone_of_lookupKey {w : Calls} {i : ℕ}
    (alone : ∀ key ∈ lookupKey (w.threads i), w.shared key ≠ none ∨ ∀ j, j ≠ i → w.traces j = []) :
    Alone .defaults pole (fun _ => "help") lateReply answersAtOnce w i := by
  intro key next pending _ absent _ j ne _ _ flying
  rcases alone key (by rw [pending]; rfl) with present | idle
  · exact present absent
  · have member := flying.1
    rw [idle j ne] at member
    cases member

/-- Satisfiable pole: the first call raises in its store, and the second call of the ticket is
served what was stored. -/
theorem race_free_iff_alone_sequential :
    ∃ w, exec (Pool.step (serve lateReply answersAtOnce)) twoCalls sequential = some w ∧
      RaceFree .defaults pole (fun _ => "help") w := by
  have ran : exec (Pool.step (serve lateReply answersAtOnce)) twoCalls sequential = some _ := rfl
  refine ⟨_, ran, (race_free_iff_alone ran).1 ?_⟩
  refine .cons rfl (alone_of_lookupKey fun key _ => .inr fun _ _ => rfl) ?_
  refine .cons rfl (alone_of_lookupKey fun key none => by cases none) ?_
  refine .cons rfl (alone_of_lookupKey fun key none => by cases none) ?_
  refine .cons rfl (alone_of_lookupKey fun key none => by cases none) ?_
  refine .cons rfl (alone_of_lookupKey fun key none => by cases none) ?_
  refine .cons rfl (alone_of_lookupKey fun key none => by cases none) ?_
  refine .cons rfl (alone_of_lookupKey fun key none => by cases none) ?_
  refine .cons rfl (alone_of_lookupKey fun key found => .inl ?_) trivial
  cases found
  exact Option.some_ne_none _

end Poles

end InferenceForge.Pipeline.DedupRace
