/-
# InferenceForge.Pipeline.CacheExpiry — the cache in time

`DeduplicationCache.set` stores a result with `SET NX EX dedup_ttl_seconds`. Any number
of `process_ticket` calls share one Redis whose clock goes on from step to step, and an
operation on the cache may raise, with its effect or without. What was found and what
was stored is logged with its instant, and the log of every run is explained
(`Library.Lease`).

So a call that is served from the cache is served what a call of the same key was
classified as, not longer ago than the lifetime of an entry (`hits_fresh`). The upstream
is asked only where nothing was stored for that long (`requests_justified`), and however
many calls there are, few results are stored for one key in any time (`stores_spaced`).
-/
import InferenceForge.Library.Lease
import InferenceForge.Pipeline.DedupRace

namespace InferenceForge.Pipeline.CacheExpiry

open InferenceForge.Python InferenceForge.Library
open InferenceForge.Library.Lease (Event Explained Holds)
open DedupRace (Treatment)

set_option autoImplicit false

structure Shared where
  /-- The steps so far; `clock` says what time it is then. -/
  ticks : ℕ
  redis : Redis.Server Dict Empty
  log : List (Event ℕ String Dict ℚ)

namespace Shared

def tick (s : Shared) : Shared := { s with ticks := s.ticks + 1 }

/-- A `GET` of call `i` that found `found`. -/
def looked (s : Shared) (i : ℕ) (now : ℚ) (key : String) (found : Option Dict) : Shared :=
  { s.tick with log := .looked i key now found :: s.log }

/-- A `SET NX EX` of call `i` that reached Redis. -/
def stored (dedupTtlSeconds : ℤ) (s : Shared) (i : ℕ) (now : ℚ) (key : String) (value : Dict) : Shared :=
  { s.tick with
    redis := Lease.setNxEx dedupTtlSeconds now s.redis key value
    log := Lease.written dedupTtlSeconds now s.log i key value }

end Shared

/-- What Redis answers to a lifetime that is not positive. -/
def invalidExpireTime : Exn :=
  { kind := .other "ResponseError", message := "invalid expire time in 'set' command" }

section System

variable (dedupTtlSeconds : ℤ) (clock : ℕ → ℚ) (treated : ℕ → TicketTrace → TicketOp → Treatment)
  (elsewhere : ℕ → TicketTrace → (op : TicketOp) → Option (TicketAnswer op))

def serve : Serve TicketOp TicketAnswer ℕ Shared := fun i trace s op =>
  match op with
  | .cacheGet key =>
      match treated i trace (.cacheGet key) with
      | .served =>
          let found := Redis.get (clock s.ticks) s.redis key
          some (.ok found, s.looked i (clock s.ticks) key found)
      | .raised e _ => some (.error e, s.tick)
  | .cacheSet key value =>
      if 0 < dedupTtlSeconds then
        match treated i trace (.cacheSet key value) with
        | .served => some (.ok (), s.stored dedupTtlSeconds i (clock s.ticks) key value)
        | .raised e true => some (.error e, s.stored dedupTtlSeconds i (clock s.ticks) key value)
        | .raised e false => some (.error e, s.tick)
      else some (.error invalidExpireTime, s.tick)
  | op => (elsewhere i trace op).map (·, s.tick)

abbrev Calls := Pool TicketOp TicketAnswer Exn Dict ℕ Shared

/-- An empty cache, before all calls. -/
def start (settings : Settings) (host : Host) (tickets : ℕ → String) : Calls :=
  Pool.init { ticks := 0, redis := { keys := fun _ => none, published := [] }, log := [] }
    (DedupRace.start settings host tickets)

end System

/-! ## The invariant -/

section Steps

variable {settings : Settings} {host : Host} {tickets : ℕ → String} {dedupTtlSeconds : ℤ} {clock : ℕ → ℚ}
  {treated : ℕ → TicketTrace → TicketOp → Treatment}
  {elsewhere : ℕ → TicketTrace → (op : TicketOp) → Option (TicketAnswer op)} {w w' : Calls} {i : ℕ}

/-- What a step does to the cache and its log. -/
inductive Effect (dedupTtlSeconds : ℤ) (now : ℚ) (i : ℕ) (s : Shared) : Asked TicketOp TicketAnswer → Shared → Prop
  | looked (key : String) : Effect dedupTtlSeconds now i s
      ⟨.cacheGet key, .ok (Redis.get now s.redis key)⟩ (s.looked i now key (Redis.get now s.redis key))
  | stored (key : String) (value : Dict) (reply : Except Exn Unit) : Effect dedupTtlSeconds now i s
      ⟨.cacheSet key value, reply⟩ (s.stored dedupTtlSeconds i now key value)
  | nothing (asked : Asked TicketOp TicketAnswer)
      (unread : ∀ key found, asked ≠ ⟨.cacheGet key, .ok found⟩) : Effect dedupTtlSeconds now i s asked s.tick

theorem effect_of_served {op : TicketOp} {answer : TicketAnswer op} {trace : TicketTrace} {s s' : Shared}
    (served : serve dedupTtlSeconds clock treated elsewhere i trace s op = some (answer, s')) :
    Effect dedupTtlSeconds (clock s.ticks) i s ⟨op, answer⟩ s' := by
  cases op with
  | cacheGet key =>
      simp only [serve] at served
      split at served
      · cases served
        exact .looked key
      · cases served
        exact .nothing _ (by simp)
  | cacheSet key value =>
      simp only [serve] at served
      split at served
      · split at served
        · cases served
          exact .stored key value _
        · cases served
          exact .stored key value _
        · cases served
          exact .nothing _ (by simp)
      · cases served
        exact .nothing _ (by simp)
  | _ =>
      obtain ⟨answer', _, eq⟩ := Option.map_eq_some_iff.mp served
      cases eq
      exact .nothing _ (by simp)

structure Inv (settings : Settings) (host : Host) (tickets : ℕ → String) (dedupTtlSeconds : ℤ) (clock : ℕ → ℚ)
    (w : Calls) : Prop where
  faithful : Pool.Faithful (DedupRace.start settings host tickets) w
  holds : Holds dedupTtlSeconds w.shared.redis w.shared.log
  explained : Explained (dedupTtlSeconds : ℚ) w.shared.log
  past : ∀ e ∈ w.shared.log, e.instant ≤ clock w.shared.ticks
  /-- What a call was answered is in the log, and nothing else. -/
  looked : ∀ i key found, ⟨.cacheGet key, .ok found⟩ ∈ w.traces i ↔ ∃ now, .looked i key now found ∈ w.shared.log
  wrote : ∀ i key value now, .wrote i key value now ∈ w.shared.log →
    ∃ reply, ⟨.cacheSet key value, reply⟩ ∈ w.traces i

/-- The record was stored at `t`, and a call of its key was classified as it. -/
def StoredAs (settings : Settings) (host : Host) (tickets : ℕ → String) (w : Calls) (key : String) (record : Dict)
    (t : ℚ) : Prop :=
  ∃ (j : ℕ) (upstream rest : TicketTrace) (result : Dict),
    .wrote j key record t ∈ w.shared.log ∧ key = ticketKey host (tickets j) ∧
    w.traces j = missed host (tickets j) ++ (upstream ++ rest) ∧
    Runs (callWithRetry settings host (tickets j)) upstream (.ok result) ∧
    Dict.isNone result "error" = true ∧ record = Dict.drop result "cache_hit"

theorem inv_start : Inv settings host tickets dedupTtlSeconds clock (start settings host tickets) where
  faithful := Pool.faithful_init _ _
  holds _ := rfl
  explained := .nil
  past := by simp [start, Pool.init]
  looked := by simp [start, Pool.init]
  wrote := by simp [start, Pool.init]

/-- What the log says of an instant holds of later ones. -/
theorem Inv.past_tick (inv : Inv settings host tickets dedupTtlSeconds clock w) (monotone : Monotone clock) :
    ∀ e ∈ w.shared.log, e.instant ≤ clock (w.shared.ticks + 1) :=
  fun e member => (inv.past e member).trans (monotone (Nat.le_succ _))

theorem mem_written {now : ℚ} {log : List (Event ℕ String Dict ℚ)} {key : String} {value : Dict}
    {e : Event ℕ String Dict ℚ} (member : e ∈ Lease.written dedupTtlSeconds now log i key value) :
    e ∈ log ∨ e = .wrote i key value now := by
  unfold Lease.written at member
  split at member
  · exact .inl member
  · exact (List.mem_cons.mp member).symm

theorem mem_written_of_mem {now : ℚ} {log : List (Event ℕ String Dict ℚ)} {key : String} {value : Dict}
    {e : Event ℕ String Dict ℚ} (member : e ∈ log) : e ∈ Lease.written dedupTtlSeconds now log i key value := by
  unfold Lease.written
  split
  · exact member
  · exact List.mem_cons_of_mem _ member

/-- **Every step keeps the invariant.** -/
theorem Inv.step (inv : Inv settings host tickets dedupTtlSeconds clock w) (monotone : Monotone clock)
    (stepped : Pool.step (serve dedupTtlSeconds clock treated elsewhere) w i = some w') :
    Inv settings host tickets dedupTtlSeconds clock w' := by
  have faithful := inv.faithful.step stepped
  have later := inv.past_tick monotone
  obtain ⟨op, next, answer, shared, _, served, rfl⟩ := Pool.step_cases stepped
  have effect := effect_of_served served
  generalize asked_eq : (⟨op, answer⟩ : Asked TicketOp TicketAnswer) = asked at effect
  have wrote : ∀ j key value now, .wrote j key value now ∈ w.shared.log →
      ∃ reply, ⟨.cacheSet key value, reply⟩ ∈ (w.served i op answer (next answer) shared).traces j := by
    intro j key value now member
    obtain ⟨reply, asked⟩ := inv.wrote j key value now member
    exact ⟨reply, Pool.mem_served asked⟩
  cases effect with
  | looked key =>
      refine ⟨faithful, inv.holds.looked, ?_, ?_, ?_, ?_⟩
      · exact .looked inv.explained inv.past (inv.holds.get _ _)
      · intro e member
        rcases List.mem_cons.mp member with rfl | member
        · exact monotone (Nat.le_succ _)
        · exact later e member
      · intro j key' found
        constructor
        · intro asked
          rcases Pool.mem_served_cases asked with before | ⟨rfl, now⟩
          · obtain ⟨t, member⟩ := (inv.looked j key' found).mp before
            exact ⟨t, List.mem_cons_of_mem _ member⟩
          · rw [asked_eq] at now
            cases now
            exact ⟨_, List.mem_cons_self⟩
        · rintro ⟨t, member⟩
          rcases List.mem_cons.mp member with now | member
          · cases now
            rw [Pool.served_traces_self, asked_eq]
            exact List.mem_append_right _ List.mem_cons_self
          · exact Pool.mem_served ((inv.looked j key' found).mpr ⟨t, member⟩)
      · intro j key' value now member
        exact wrote j key' value now ((List.mem_cons.mp member).resolve_left (by simp))
  | stored key value reply =>
      refine ⟨faithful, inv.holds.setNxEx i, ?_, ?_, ?_, ?_⟩
      · exact Lease.written_explained inv.explained inv.past
      · intro e member
        rcases mem_written member with member | rfl
        · exact later e member
        · exact monotone (Nat.le_succ _)
      · intro j key' found
        constructor
        · intro asked
          rcases Pool.mem_served_cases asked with before | ⟨rfl, now⟩
          · obtain ⟨t, member⟩ := (inv.looked j key' found).mp before
            exact ⟨t, mem_written_of_mem member⟩
          · rw [asked_eq] at now
            cases now
        · rintro ⟨t, member⟩
          rcases mem_written member with member | impossible
          · exact Pool.mem_served ((inv.looked j key' found).mpr ⟨t, member⟩)
          · cases impossible
      · intro j key' value' now member
        rcases mem_written member with member | new
        · exact wrote j key' value' now member
        · cases new
          refine ⟨reply, ?_⟩
          rw [Pool.served_traces_self, asked_eq]
          exact List.mem_append_right _ List.mem_cons_self
  | nothing _ unread =>
      refine ⟨faithful, inv.holds, inv.explained, later, ?_, wrote⟩
      intro j key' found
      constructor
      · intro asked
        rcases Pool.mem_served_cases asked with before | ⟨rfl, now⟩
        · exact (inv.looked j key' found).mp before
        · rw [asked_eq] at now
          exact absurd now.symm (unread key' found)
      · exact fun member => Pool.mem_served ((inv.looked j key' found).mpr member)

theorem inv_of_run (monotone : Monotone clock) {schedule : List ℕ}
    (ran : exec (Pool.step (serve dedupTtlSeconds clock treated elsewhere)) (start settings host tickets) schedule =
      some w) : Inv settings host tickets dedupTtlSeconds clock w :=
  exec_invariant (fun _ _ _ inv stepped => Inv.step inv monotone stepped) schedule _ _ inv_start ran

/-- What a call has done is the beginning of a run. -/
theorem Inv.run (inv : Inv settings host tickets dedupTtlSeconds clock w) (i : ℕ) :
    ∃ rest result, TicketRun settings host (tickets i) (w.traces i ++ rest) result := by
  obtain ⟨rest, result, _, ran⟩ := (inv.faithful i).extend
  exact ⟨rest, result, processTicket_runs_iff.mp ran⟩

/-- A look-up is for the key of its call. -/
theorem Inv.lookup_key (inv : Inv settings host tickets dedupTtlSeconds clock w) {key : String}
    {found : Except Exn (Option Dict)} (asked : ⟨.cacheGet key, found⟩ ∈ w.traces i) :
    key = ticketKey host (tickets i) := by
  obtain ⟨rest, result, run⟩ := inv.run i
  obtain ⟨before, after, split⟩ := List.append_of_mem asked
  rw [split, List.append_assoc, List.cons_append] at run
  exact (run.lookup rfl).2

/-- What a call stores is what it was classified as. -/
theorem Inv.stored (inv : Inv settings host tickets dedupTtlSeconds clock w) {key : String} {value : Dict} {t : ℚ}
    (wrote : .wrote i key value t ∈ w.shared.log) : StoredAs settings host tickets w key value t := by
  obtain ⟨reply, asked⟩ := inv.wrote i key value t wrote
  obtain ⟨rest, result, run⟩ := inv.run i
  obtain ⟨before, after, split⟩ := List.append_of_mem asked
  rw [split, List.append_assoc, List.cons_append] at run
  obtain ⟨named, upstream, record, shape, called, noError, same⟩ := run.store rfl
  refine ⟨i, upstream, [⟨.release, ()⟩, ⟨.cacheSet key value, reply⟩] ++ after, record, wrote, named, ?_, called,
    noError, same⟩
  rw [split, shape]
  simp

theorem missed_of_post {ticket : String} {trace : TicketTrace} {result : Except Exn Dict}
    (run : TicketRun settings host ticket trace result) {sent : String} {attempt : ℕ}
    {response : Except Exn Response} (posted : ⟨.post sent attempt, response⟩ ∈ trace) :
    trace.head? = some ⟨.cacheGet (ticketKey host ticket), .ok none⟩ := by
  cases run with
  | lookupRaised e => simp at posted
  | hit cached => simp at posted
  | raised | failed | classified => rfl

/-- Who asks the upstream has looked and found nothing. -/
theorem Inv.missed (inv : Inv settings host tickets dedupTtlSeconds clock w) {sent : String} {attempt : ℕ}
    {response : Except Exn Response} (posted : ⟨.post sent attempt, response⟩ ∈ w.traces i) :
    ⟨.cacheGet (ticketKey host (tickets i)), .ok none⟩ ∈ w.traces i := by
  obtain ⟨rest, result, run⟩ := inv.run i
  have first := missed_of_post run (List.mem_append_left rest posted)
  have some_op : w.traces i ≠ [] := List.ne_nil_of_mem posted
  rw [List.head?_append_of_ne_nil _ some_op] at first
  exact List.mem_of_head? first

/-! ## The results -/

/-- **A hit is fresh, and it is a classification**: what a call is served, or whoever looks
from now on, is what a call of the same key was classified as, at most the lifetime of an
entry before. -/
theorem hits_fresh (monotone : Monotone clock) {schedule : List ℕ}
    (ran : exec (Pool.step (serve dedupTtlSeconds clock treated elsewhere)) (start settings host tickets) schedule =
      some w) :
    (∀ i key record, ⟨.cacheGet key, .ok (some record)⟩ ∈ w.traces i → key = ticketKey host (tickets i) ∧
      ∃ now t, .looked i key now (some record) ∈ w.shared.log ∧ StoredAs settings host tickets w key record t ∧
        t ≤ now ∧ now ≤ t + dedupTtlSeconds) ∧
    ∀ now, clock w.shared.ticks ≤ now → ∀ key record, Redis.get now w.shared.redis key = some record →
      ∃ t, StoredAs settings host tickets w key record t ∧ t ≤ now ∧ now ≤ t + dedupTtlSeconds := by
  have inv := inv_of_run monotone ran
  refine ⟨fun i key record hit => ?_, fun now later key record found => ?_⟩
  · obtain ⟨now, looked⟩ := (inv.looked i key _).mp hit
    obtain ⟨j, t, wrote, order, alive⟩ := inv.explained.fresh looked
    exact ⟨inv.lookup_key hit, now, t, looked, inv.stored wrote, order, alive⟩
  · rw [inv.holds.get] at found
    obtain ⟨t, latest, alive⟩ := Lease.current_eq_some.mp found
    obtain ⟨j, wrote⟩ := Lease.mem_of_latest latest
    exact ⟨t, inv.stored wrote, (inv.past _ wrote).trans later, alive⟩

/-- **The upstream is asked for a reason**: a call that posts has looked when nothing had been
stored for its key for the lifetime of an entry. -/
theorem requests_justified (monotone : Monotone clock) {schedule : List ℕ}
    (ran : exec (Pool.step (serve dedupTtlSeconds clock treated elsewhere)) (start settings host tickets) schedule =
      some w) {sent : String} {attempt : ℕ} {response : Except Exn Response}
    (posted : ⟨.post sent attempt, response⟩ ∈ w.traces i) :
    ∃ now : ℚ, .looked i (ticketKey host (tickets i)) now none ∈ w.shared.log ∧
      ∀ (j : ℕ) (record : Dict) (t : ℚ), .wrote j (ticketKey host (tickets i)) record t ∈ w.shared.log →
        now ≤ t ∨ t + dedupTtlSeconds < now := by
  have inv := inv_of_run monotone ran
  obtain ⟨now, looked⟩ := (inv.looked i _ _).mp (inv.missed posted)
  exact ⟨now, looked, fun j record t wrote => inv.explained.missed looked wrote⟩

/-- **Few results are stored for one key**, however many calls there are. -/
theorem stores_spaced (monotone : Monotone clock) (positive : 0 < dedupTtlSeconds) {schedule : List ℕ}
    (ran : exec (Pool.step (serve dedupTtlSeconds clock treated elsewhere)) (start settings host tickets) schedule =
      some w) (key : String) {a b : ℚ} (le : a ≤ b) :
    (((Lease.writtenAt key w.shared.log).filter fun t => a ≤ t ∧ t ≤ b).length : ℚ) * dedupTtlSeconds ≤
      b - a + dedupTtlSeconds := by
  have inv := inv_of_run monotone ran
  have nonneg : (0 : ℚ) ≤ dedupTtlSeconds := by exact_mod_cast positive.le
  exact (inv.explained.apart key).length_mul_le le nonneg

end Steps

/-! ## Poles -/

section Poles

/-- A second goes by with each step. -/
def seconds (k : ℕ) : ℚ := k

theorem seconds_monotone : Monotone seconds := fun _ _ le => by
  rw [seconds, seconds]
  exact_mod_cast le

/-- Two calls of one ticket. -/
abbrev twoCalls : Calls := start .defaults DedupRace.pole fun _ => "help"

abbrev goOn : Calls → ℕ → Option Calls :=
  Pool.step (serve 86400 seconds DedupRace.healthy fun i _ => DedupRace.answersAtOnce i)

/-- What the first call is classified as. -/
def firstRecord : Dict := Dict.drop (Dict.set (DedupRace.classification 0) "tokens" (.number (.finite 0))) "cache_hit"

theorem get_stored (key : String) (value : Dict) :
    Redis.get (seconds 7) (Lease.setNxEx 86400 (seconds 6)
      ({ keys := fun _ => none, published := [] } : Redis.Server Dict Empty) key value) key = some value := by
  have alive : seconds 7 ≤ seconds 6 + 86400 := by norm_num [seconds]
  simp [Redis.get, Lease.setNxEx, Redis.present, Redis.Server.live, Redis.Server.put, Option.filter, alive]

/-- Satisfiable pole: the second call is served what the first one was classified as, a second
after it was stored. -/
theorem hits_fresh_served : ∃ w, exec goOn twoCalls DedupRace.sequential = some w ∧
    ∃ now t, .looked 1 (ticketKey DedupRace.pole "help") now (some firstRecord) ∈ w.shared.log ∧
      StoredAs .defaults DedupRace.pole (fun _ => "help") w (ticketKey DedupRace.pole "help") firstRecord t ∧
      t ≤ now ∧ now ≤ t + (86400 : ℤ) := by
  have ran : exec goOn twoCalls DedupRace.sequential = some _ := rfl
  refine ⟨_, ran, ((hits_fresh seconds_monotone ran).1 1 _ _ ?_).2⟩
  rw [← get_stored (ticketKey DedupRace.pole "help") firstRecord]
  exact List.mem_singleton.mpr rfl

/-- Satisfiable pole: the first call posts. -/
theorem requests_justified_first : ∃ w, exec goOn twoCalls DedupRace.sequential = some w ∧
    ∃ now : ℚ, .looked 0 (ticketKey DedupRace.pole "help") now none ∈ w.shared.log := by
  have ran : exec goOn twoCalls DedupRace.sequential = some _ := rfl
  refine ⟨_, ran, ?_⟩
  obtain ⟨now, looked, _⟩ := requests_justified (i := 0) seconds_monotone ran
    (.tail _ (.tail _ (.tail _ List.mem_cons_self)))
  exact ⟨now, looked⟩

/-- Satisfiable pole: the two calls store once in a day. -/
theorem stores_spaced_served : ∃ w, exec goOn twoCalls DedupRace.sequential = some w ∧
    (((Lease.writtenAt (ticketKey DedupRace.pole "help") w.shared.log).filter fun t => 0 ≤ t ∧ t ≤ 86399).length : ℚ) *
      (86400 : ℤ) ≤ 86399 - 0 + (86400 : ℤ) :=
  have ran : exec goOn twoCalls DedupRace.sequential = some _ := rfl
  ⟨_, ran, stores_spaced seconds_monotone (by norm_num) ran _ (by norm_num)⟩

end Poles

end InferenceForge.Pipeline.CacheExpiry
