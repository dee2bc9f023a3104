/-
# InferenceForge.Library.Redis — the commands of a Redis server

Keys with an optional expiry, hashes whose fields are counters or texts, stored
documents, and channels. A command runs at an instant `now`; a key whose expiry
has passed is absent for it. `HSET` and `HINCRBY` on an absent key create it
without an expiry, and on a present one leave its expiry as it is.

A message is published to a channel for whoever is subscribed at that moment:
`published` is the order in which messages were published, and a subscriber has
seen what came after the position at which it subscribed.

What is relied on of the documentation of the commands is `Documented`. `run` is
the only function of which it holds (`Documented.eq_run`).
-/
import Mathlib.Data.Rat.Defs
import Mathlib.Algebra.Order.Ring.Rat
import Mathlib.Logic.Function.Basic

namespace InferenceForge.Library

set_option autoImplicit false

/-- What a field of a hash holds. -/
inductive Field
  | text (value : String)
  | int (value : ℤ)
  | real (value : ℚ)
  deriving DecidableEq

abbrev Hash := String → Option Field

namespace Redis

variable {D M : Type}

inductive Value (D : Type)
  | hash (fields : Hash)
  | document (value : D)

structure Entry (D : Type) where
  value : Value D
  expireAt : Option ℚ

inductive Command (D M : Type)
  | hset (key : String) (mapping : List (String × Field))
  | hincrby (key field : String) (amount : ℤ)
  | set (key : String) (document : D)
  | expire (key : String) (seconds : ℤ)
  | publish (channel : String) (message : M)

structure Server (D M : Type) where
  keys : String → Option (Entry D)
  published : List (String × M)

namespace Server

variable (now : ℚ) (s : Server D M)

/-- The entry of a key, unless it has expired. -/
def live (key : String) : Option (Entry D) :=
  (s.keys key).filter fun entry => entry.expireAt.all fun limit => now ≤ limit

def put (key : String) (entry : Option (Entry D)) : Server D M :=
  { s with keys := Function.update s.keys key entry }

/-- The hash under a key and its expiry; an absent key is an empty hash without one. -/
def hashAt (key : String) : Option (Hash × Option ℚ) :=
  match s.live now key with
  | none => some (fun _ => none, none)
  | some { value := .hash fields, expireAt } => some (fields, expireAt)
  | some { value := .document _, .. } => none

end Server

/-- The fields after `HSET`. -/
def assign (fields : Hash) (mapping : List (String × Field)) : Hash :=
  mapping.foldl (fun fields entry => Function.update fields entry.1 (some entry.2)) fields

/-- The fields after `HINCRBY`; a field that is not an integer is refused. -/
def increment (fields : Hash) (field : String) (amount : ℤ) : Hash :=
  match fields field with
  | none => Function.update fields field (some (.int amount))
  | some (.int value) => Function.update fields field (some (.int (value + amount)))
  | some _ => fields

/-- Run one command. A command for the other type of key is refused. -/
def run (now : ℚ) (s : Server D M) : Command D M → Server D M
  | .hset key mapping =>
      match s.hashAt now key with
      | some (fields, expireAt) => s.put key (some ⟨.hash (assign fields mapping), expireAt⟩)
      | none => s
  | .hincrby key field amount =>
      match s.hashAt now key with
      | some (fields, expireAt) => s.put key (some ⟨.hash (increment fields field amount), expireAt⟩)
      | none => s
  | .set key document => s.put key (some ⟨.document document, none⟩)
  | .expire key seconds =>
      match s.live now key with
      | some entry =>
          s.put key (if 0 < seconds then some { entry with expireAt := some (now + seconds) } else none)
      | none => s
  | .publish channel message => { s with published := s.published ++ [(channel, message)] }

/-- `MULTI` … `EXEC`: the commands run together. -/
def transaction (now : ℚ) (s : Server D M) (commands : List (Command D M)) : Server D M :=
  commands.foldl (run now) s

/-! ## The documentation -/

/-- What each command does to a key that it finds, or finds absent. -/
structure Documented (run : ℚ → Server D M → Command D M → Server D M) : Prop where
  hset {now : ℚ} {s : Server D M} {key : String} {fields : Hash} {limit : Option ℚ}
    (mapping : List (String × Field)) (here : s.hashAt now key = some (fields, limit)) :
    run now s (.hset key mapping) = s.put key (some ⟨.hash (assign fields mapping), limit⟩)
  hset_refused {now : ℚ} {s : Server D M} {key : String} (mapping : List (String × Field))
    (other : s.hashAt now key = none) : run now s (.hset key mapping) = s
  hincrby {now : ℚ} {s : Server D M} {key : String} {fields : Hash} {limit : Option ℚ} (field : String) (amount : ℤ)
    (here : s.hashAt now key = some (fields, limit)) :
    run now s (.hincrby key field amount) = s.put key (some ⟨.hash (increment fields field amount), limit⟩)
  hincrby_refused {now : ℚ} {s : Server D M} {key : String} (field : String) (amount : ℤ)
    (other : s.hashAt now key = none) : run now s (.hincrby key field amount) = s
  set (now : ℚ) (s : Server D M) (key : String) (document : D) :
    run now s (.set key document) = s.put key (some ⟨.document document, none⟩)
  expire {now : ℚ} {s : Server D M} {key : String} {entry : Entry D} (seconds : ℤ) (here : s.live now key = some entry) :
    run now s (.expire key seconds) =
      s.put key (if 0 < seconds then some { entry with expireAt := some (now + seconds) } else none)
  expire_absent {now : ℚ} {s : Server D M} {key : String} (seconds : ℤ) (absent : s.live now key = none) :
    run now s (.expire key seconds) = s
  publish (now : ℚ) (s : Server D M) (channel : String) (message : M) :
    run now s (.publish channel message) = { s with published := s.published ++ [(channel, message)] }

theorem documented : Documented (@run D M) where
  hset _ here := by simp only [run, here]
  hset_refused _ other := by simp only [run, other]
  hincrby _ _ here := by simp only [run, here]
  hincrby_refused _ _ other := by simp only [run, other]
  set _ _ _ _ := rfl
  expire _ here := by simp only [run, here]
  expire_absent _ absent := by simp only [run, absent]
  publish _ _ _ _ := rfl

/-- The documentation leaves nothing open. -/
theorem Documented.eq_run {other : ℚ → Server D M → Command D M → Server D M} (laws : Documented other) :
    other = run := by
  funext now s command
  cases command with
  | hset key mapping =>
      cases here : s.hashAt now key with
      | none => rw [laws.hset_refused _ here, documented.hset_refused _ here]
      | some found => rw [laws.hset _ here, documented.hset _ here]
  | hincrby key field amount =>
      cases here : s.hashAt now key with
      | none => rw [laws.hincrby_refused _ _ here, documented.hincrby_refused _ _ here]
      | some found => rw [laws.hincrby _ _ here, documented.hincrby _ _ here]
  | set key document => exact laws.set now s key document
  | expire key seconds =>
      cases here : s.live now key with
      | none => rw [laws.expire_absent _ here, documented.expire_absent _ here]
      | some entry => rw [laws.expire _ here, documented.expire _ here]
  | publish channel message => exact laws.publish now s channel message

section Reads

variable (now : ℚ) (s : Server D M) (key : String)

/-- `HGETALL`; `none` for an absent key. -/
def hgetall : Option Hash :=
  match s.live now key with
  | some { value := .hash fields, .. } => some fields
  | _ => none

/-- `GET`. -/
def get : Option D :=
  match s.live now key with
  | some { value := .document value, .. } => some value
  | _ => none

/-- `EXISTS`. -/
def present : Bool := (s.live now key).isSome

end Reads

/-! ## Frame -/

/-- `HSET` leaves the fields it does not name. -/
theorem assign_of_ne {field : String} {mapping : List (String × Field)}
    (apart : ∀ entry ∈ mapping, field ≠ entry.1) (fields : Hash) :
    assign fields mapping field = fields field := by
  induction mapping generalizing fields with
  | nil => rfl
  | cons entry rest ih =>
      have later := ih (fun other member => apart other (List.mem_cons_of_mem _ member))
        (Function.update fields entry.1 (some entry.2))
      exact later.trans (Function.update_of_ne (apart entry List.mem_cons_self) ..)

section Frame

variable {now : ℚ} {s : Server D M}

def Command.key? : Command D M → Option String
  | .hset key _ | .hincrby key _ _ | .set key _ | .expire key _ => some key
  | .publish _ _ => none

/-- A command touches its own key only. -/
theorem run_keys_of_ne {command : Command D M} {key : String} (other : command.key? ≠ some key) :
    (run now s command).keys key = s.keys key := by
  cases command with
  | publish channel message => rfl
  | set name document =>
      have ne : key ≠ name := fun same => other (by rw [same]; rfl)
      exact Function.update_of_ne ne ..
  | hset name _ | hincrby name _ _ | expire name _ =>
      have ne : key ≠ name := fun same => other (by rw [same]; rfl)
      simp only [run]
      split
      · exact Function.update_of_ne ne ..
      · rfl

/-- Only `PUBLISH` publishes. -/
theorem run_published {command : Command D M} (quiet : ∀ channel message, command ≠ .publish channel message) :
    (run now s command).published = s.published := by
  cases command with
  | publish channel message => exact absurd rfl (quiet channel message)
  | set name document => rfl
  | hset name _ | hincrby name _ _ | expire name _ =>
      simp only [run]
      split <;> rfl

end Frame

end Redis

end InferenceForge.Library
