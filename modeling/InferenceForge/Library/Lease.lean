/-
# InferenceForge.Library.Lease — values that are written once and expire

A store keeps a value under a key for a time `ttl` and takes no other value for the key
meanwhile (Redis `SET key value NX EX ttl`). What it is for is said by a log of what was
written and what was found, the newest first: `Explained` accepts a log in which a look
finds the last value written, unless that has expired, and a value is written only where
a look would find nothing.

An explained log is all a user needs. What is found is not older than `ttl`
(`Explained.fresh`), nothing is found only where nothing was written for that long
(`Explained.missed`), and what is written under one key is more than `ttl` apart
(`Explained.apart`). `Holds` connects the store of a Redis server with its log.
-/
import InferenceForge.Library.Redis
import InferenceForge.Library.Spacing

namespace InferenceForge.Library.Lease

set_option autoImplicit false

/-- Something a client did with the store. -/
inductive Event (ι K V T : Type)
  | looked (who : ι) (key : K) (now : T) (found : Option V)
  | wrote (who : ι) (key : K) (value : V) (now : T)

section Log

variable {ι K V T : Type}

def Event.instant : Event ι K V T → T
  | .looked _ _ now _ => now
  | .wrote _ _ _ now => now

section Store

variable [DecidableEq K]

/-- The last value written under a key, and when. -/
def latest (key : K) : List (Event ι K V T) → Option (V × T)
  | [] => none
  | .looked .. :: earlier => latest key earlier
  | .wrote _ written value now :: earlier => if written = key then some (value, now) else latest key earlier

/-- When something was written under a key. -/
def writtenAt (key : K) : List (Event ι K V T) → List T
  | [] => []
  | .looked .. :: earlier => writtenAt key earlier
  | .wrote _ written _ now :: earlier => if written = key then now :: writtenAt key earlier else writtenAt key earlier

variable [Add T] [LinearOrder T]

/-- The value a look finds: the last one, unless it has expired. -/
def current (ttl : T) (log : List (Event ι K V T)) (now : T) (key : K) : Option V :=
  ((latest key log).filter fun written => now ≤ written.2 + ttl).map Prod.fst

/-- The log of a store that keeps what it is given for `ttl`. -/
inductive Explained (ttl : T) : List (Event ι K V T) → Prop
  | nil : Explained ttl []
  | looked {who : ι} {key : K} {now : T} {found : Option V} {log : List (Event ι K V T)}
      (before : Explained ttl log) (last : ∀ e ∈ log, e.instant ≤ now) (finds : found = current ttl log now key) :
      Explained ttl (.looked who key now found :: log)
  | wrote {who : ι} {key : K} {value : V} {now : T} {log : List (Event ι K V T)}
      (before : Explained ttl log) (last : ∀ e ∈ log, e.instant ≤ now) (free : current ttl log now key = none) :
      Explained ttl (.wrote who key value now :: log)

end Store

variable {now t : T} {key : K} {value : V} {who : ι} {log : List (Event ι K V T)}

section Latest

variable [DecidableEq K]

theorem mem_of_latest (last : latest key log = some (value, t)) : ∃ who, .wrote who key value t ∈ log := by
  induction log with
  | nil => cases last
  | cons e earlier ih =>
      cases e with
      | looked who written now found =>
          obtain ⟨who', member⟩ := ih last
          exact ⟨who', List.mem_cons_of_mem _ member⟩
      | wrote who written value' now =>
          rw [latest] at last
          split at last
          · next same =>
              cases last
              exact ⟨who, same ▸ List.mem_cons_self⟩
          · obtain ⟨who', member⟩ := ih last
            exact ⟨who', List.mem_cons_of_mem _ member⟩

theorem mem_writtenAt : t ∈ writtenAt key log ↔ ∃ who value, .wrote who key value t ∈ log := by
  induction log with
  | nil => simp [writtenAt]
  | cons e earlier ih =>
      cases e with
      | looked who written now found => simp [writtenAt, ih]
      | wrote who written value now =>
          by_cases same : written = key
          · simp only [writtenAt, if_pos same, List.mem_cons, ih, Event.wrote.injEq]
            constructor
            · rintro (rfl | ⟨who', value', member⟩)
              · exact ⟨who, value, .inl ⟨rfl, same.symm, rfl, rfl⟩⟩
              · exact ⟨who', value', .inr member⟩
            · rintro ⟨who', value', ⟨-, -, -, rfl⟩ | member⟩
              · exact .inl rfl
              · exact .inr ⟨who', value', member⟩
          · have other : key ≠ written := fun eq => same eq.symm
            simp [writtenAt, if_neg same, ih, other]

section Current

variable [Add T] [LinearOrder T] {ttl : T}

theorem current_eq_some :
    current ttl log now key = some value ↔ ∃ t, latest key log = some (value, t) ∧ now ≤ t + ttl := by
  simp [current, Option.filter_eq_some_iff]

theorem current_eq_none :
    current ttl log now key = none ↔ ∀ value t, latest key log = some (value, t) → t + ttl < now := by
  simp [current, Option.filter_eq_none_iff]

/-- **Nothing found is older than `ttl`.** -/
theorem Explained.fresh (explained : Explained ttl log) (looked : .looked who key now (some value) ∈ log) :
    ∃ writer t, .wrote writer key value t ∈ log ∧ t ≤ now ∧ now ≤ t + ttl := by
  induction explained with
  | nil => cases looked
  | looked before last finds ih =>
      rcases List.mem_cons.mp looked with here | earlier
      · cases here
        obtain ⟨t, latest, alive⟩ := current_eq_some.mp finds.symm
        obtain ⟨writer, member⟩ := mem_of_latest latest
        exact ⟨writer, t, List.mem_cons_of_mem _ member, last _ member, alive⟩
      · obtain ⟨writer, t, member, order⟩ := ih earlier
        exact ⟨writer, t, List.mem_cons_of_mem _ member, order⟩
  | wrote before last free ih =>
      obtain ⟨writer, t, member, order⟩ := ih ((List.mem_cons.mp looked).resolve_left (by simp))
      exact ⟨writer, t, List.mem_cons_of_mem _ member, order⟩

/-- The last value was written last. -/
theorem Explained.le_latest (explained : Explained ttl log) (member : t ∈ writtenAt key log) :
    ∃ value last, latest key log = some (value, last) ∧ t ≤ last := by
  induction explained with
  | nil => cases member
  | looked before last finds ih => exact ih member
  | @wrote who written value now log before last free ih =>
      rw [writtenAt] at member
      split at member
      · next same =>
          refine ⟨value, now, if_pos same, ?_⟩
          rcases List.mem_cons.mp member with rfl | earlier
          · exact le_rfl
          · obtain ⟨who', value', wrote⟩ := mem_writtenAt.mp earlier
            exact last _ wrote
      · next other =>
          rw [latest, if_neg other]
          exact ih member

end Current

end Latest

section Spaced

variable [DecidableEq K] [CommRing T] [LinearOrder T] [IsStrictOrderedRing T] {ttl : T}

/-- Where nothing is found, everything written has expired. -/
theorem Explained.expired (explained : Explained ttl log) (free : current ttl log now key = none)
    (member : t ∈ writtenAt key log) : t + ttl < now := by
  obtain ⟨value, last, latest, le⟩ := explained.le_latest member
  have passed := current_eq_none.mp free value last latest
  linarith

/-- **Nothing is found only where nothing was written for `ttl`.** -/
theorem Explained.missed (explained : Explained ttl log) {writer : ι} (looked : .looked who key now none ∈ log)
    (wrote : .wrote writer key value t ∈ log) : now ≤ t ∨ t + ttl < now := by
  induction explained with
  | nil => cases looked
  | looked before last finds ih =>
      have written := (List.mem_cons.mp wrote).resolve_left (by simp)
      rcases List.mem_cons.mp looked with here | earlier
      · cases here
        exact .inr (before.expired finds.symm (mem_writtenAt.mpr ⟨_, _, written⟩))
      · exact ih earlier written
  | wrote before last free ih =>
      have seen := (List.mem_cons.mp looked).resolve_left (by simp)
      rcases List.mem_cons.mp wrote with here | earlier
      · cases here
        exact .inl (last _ seen)
      · exact ih seen earlier

/-- **What is written under one key is more than `ttl` apart.** -/
theorem Explained.spaced (explained : Explained ttl log) (key : K) :
    (writtenAt key log).Pairwise fun later earlier => earlier + ttl < later := by
  induction explained with
  | nil => exact .nil
  | looked before last finds ih => exact ih
  | wrote before last free ih =>
      rw [writtenAt]
      split
      · next same =>
          subst same
          exact .cons (fun earlier member => before.expired free member) ih
      · exact ih

theorem Explained.apart (explained : Explained ttl log) (key : K) : Apart ttl (writtenAt key log) :=
  (explained.spaced key).imp le_of_lt

end Spaced

end Log

/-! ## A Redis server -/

section Server

variable {ι D M : Type} {now : ℚ} {ttl : ℤ} {s : Redis.Server D M} {key : String} {document : D}
  {log : List (Event ι String D ℚ)}

/-- `SET key document NX EX ttl`, for a `ttl` that Redis accepts. -/
def setNxEx (ttl : ℤ) (now : ℚ) (s : Redis.Server D M) (key : String) (document : D) : Redis.Server D M :=
  if Redis.present now s key then s else s.put key (some ⟨.document document, some (now + ttl)⟩)

/-- The server holds what was written last, with its expiry. -/
def Holds (ttl : ℤ) (s : Redis.Server D M) (log : List (Event ι String D ℚ)) : Prop :=
  ∀ key, s.keys key = (latest key log).map fun written => ⟨.document written.1, some (written.2 + ttl)⟩

/-- The log after `SET key document NX EX ttl`. -/
def written (ttl : ℤ) (now : ℚ) (log : List (Event ι String D ℚ)) (who : ι) (key : String) (document : D) :
    List (Event ι String D ℚ) :=
  if (current (ttl : ℚ) log now key).isSome then log else .wrote who key document now :: log

theorem Holds.get (holds : Holds ttl s log) (now : ℚ) (key : String) :
    Redis.get now s key = current (ttl : ℚ) log now key := by
  rw [Redis.get, Redis.Server.live, holds key, current]
  cases latest key log with
  | none => rfl
  | some entry =>
      by_cases alive : now ≤ entry.2 + ttl <;> simp [Option.filter, alive]

theorem Holds.present (holds : Holds ttl s log) (now : ℚ) (key : String) :
    Redis.present now s key = (current (ttl : ℚ) log now key).isSome := by
  rw [Redis.present, Redis.Server.live, holds key, current]
  cases latest key log with
  | none => rfl
  | some entry =>
      by_cases alive : now ≤ entry.2 + ttl <;> simp [Option.filter, alive]

theorem Holds.looked (holds : Holds ttl s log) {who : ι} {found : Option D} :
    Holds ttl s (.looked who key now found :: log) := holds

theorem Holds.setNxEx (holds : Holds ttl s log) (who : ι) :
    Holds ttl (Lease.setNxEx ttl now s key document) (written ttl now log who key document) := by
  intro other
  rw [Lease.setNxEx, holds.present, written]
  split
  · exact holds other
  · by_cases same : other = key
    · subst same
      simp [Redis.Server.put, latest]
    · have differ : key ≠ other := fun eq => same eq.symm
      simp only [Redis.Server.put, Function.update_of_ne same, latest, if_neg differ]
      exact holds other

theorem written_explained {who : ι} (explained : Explained (ttl : ℚ) log) (last : ∀ e ∈ log, e.instant ≤ now) :
    Explained (ttl : ℚ) (written ttl now log who key document) := by
  rw [written]
  split
  · exact explained
  · next free => exact .wrote explained last (by simpa using free)

end Server

end InferenceForge.Library.Lease
