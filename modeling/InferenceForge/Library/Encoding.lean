/-
# InferenceForge.Library.Encoding — a server that holds encodings

Two Redis servers that differ in how documents and messages are written: `Server.map`
writes each document and each message of a server, and every command does to the written
server what it does to the other (`run_map`). Keys, expiries and hashes are the same, so
a read of a document returns what was written for it (`get_map`).

`Server.All` says what kind of documents and messages a server has; commands that bring in
none of another kind keep it.
-/
import InferenceForge.Library.Redis

namespace InferenceForge.Library.Redis

set_option autoImplicit false

variable {D D' M M' : Type}

def Value.map (document : D → D') : Value D → Value D'
  | .hash fields => .hash fields
  | .document value => .document (document value)

def Entry.map (document : D → D') (entry : Entry D) : Entry D' := ⟨entry.value.map document, entry.expireAt⟩

def Command.map (document : D → D') (message : M → M') : Command D M → Command D' M'
  | .hset key mapping => .hset key mapping
  | .hincrby key field amount => .hincrby key field amount
  | .set key value => .set key (document value)
  | .expire key seconds => .expire key seconds
  | .publish channel payload => .publish channel (message payload)

def Server.map (document : D → D') (message : M → M') (s : Server D M) : Server D' M' where
  keys key := (s.keys key).map (Entry.map document)
  published := s.published.map fun sent => (sent.1, message sent.2)

section Map

variable {document : D → D'} {message : M → M'} {now : ℚ} {s : Server D M} {key : String}

theorem live_map : (s.map document message).live now key = (s.live now key).map (Entry.map document) := by
  rw [Server.live, Server.live]
  show ((s.keys key).map _).filter _ = _
  cases s.keys key with
  | none => rfl
  | some entry =>
      by_cases alive : entry.expireAt.all fun limit => now ≤ limit
      · simp [Option.filter, Entry.map, alive]
      · simp [Option.filter, Entry.map, alive]

theorem hashAt_map : (s.map document message).hashAt now key = s.hashAt now key := by
  rw [Server.hashAt, Server.hashAt, live_map]
  cases s.live now key with
  | none => rfl
  | some entry =>
      obtain ⟨value, expireAt⟩ := entry
      cases value <;> rfl

theorem put_map (entry : Option (Entry D)) :
    (s.map document message).put key (entry.map (Entry.map document)) = (s.put key entry).map document message := by
  simp only [Server.put, Server.map, Server.mk.injEq, and_true]
  funext other
  by_cases same : other = key
  · subst same
    rw [Function.update_self, Function.update_self]
  · rw [Function.update_of_ne same, Function.update_of_ne same]

/-- **A command does the same to what is written.** -/
theorem run_map (command : Command D M) :
    run now (s.map document message) (command.map document message) = (run now s command).map document message := by
  cases command with
  | hset key mapping =>
      simp only [Command.map, run, hashAt_map]
      cases s.hashAt now key with
      | none => rfl
      | some found => exact put_map (some ⟨.hash (assign found.1 mapping), found.2⟩)
  | hincrby key field amount =>
      simp only [Command.map, run, hashAt_map]
      cases s.hashAt now key with
      | none => rfl
      | some found => exact put_map (some ⟨.hash (increment found.1 field amount), found.2⟩)
  | set key value => exact put_map (some ⟨.document value, none⟩)
  | expire key seconds =>
      simp only [Command.map, run, live_map]
      cases s.live now key with
      | none => rfl
      | some entry =>
          by_cases positive : 0 < seconds
          · have kept : (s.map document message).put key _ = _ :=
              put_map (some { entry with expireAt := some (now + seconds) })
            simpa [positive, Entry.map] using kept
          · have dropped : (s.map document message).put key _ = _ := put_map none
            simpa [positive] using dropped
  | publish channel payload =>
      simp [run, Command.map, Server.map]

theorem transaction_map (commands : List (Command D M)) :
    transaction now (s.map document message) (commands.map (Command.map document message)) =
      (transaction now s commands).map document message := by
  induction commands generalizing s with
  | nil => rfl
  | cons command rest ih =>
      show transaction now (run now (s.map document message) (command.map document message)) _ = _
      rw [run_map, ih]
      rfl

theorem exchanges_map (exchanges : List (List (Command D M))) :
    (exchanges.map (List.map (Command.map document message))).foldl (transaction now) (s.map document message) =
      (exchanges.foldl (transaction now) s).map document message := by
  induction exchanges generalizing s with
  | nil => rfl
  | cons commands rest ih => rw [List.map_cons, List.foldl_cons, transaction_map, ih, List.foldl_cons]

theorem hgetall_map : hgetall now (s.map document message) key = hgetall now s key := by
  rw [hgetall, hgetall, live_map]
  cases s.live now key with
  | none => rfl
  | some entry =>
      obtain ⟨value, expireAt⟩ := entry
      cases value <;> rfl

theorem get_map : get now (s.map document message) key = (get now s key).map document := by
  rw [get, get, live_map]
  cases s.live now key with
  | none => rfl
  | some entry =>
      obtain ⟨value, expireAt⟩ := entry
      cases value <;> rfl

theorem present_map : present now (s.map document message) key = present now s key := by
  rw [present, present, live_map, Option.isSome_map]

end Map

/-! ## The kinds of documents and messages -/

/-- What a command brings in. -/
def Command.All (P : D → Prop) (Q : M → Prop) : Command D M → Prop
  | .set _ value => P value
  | .publish _ payload => Q payload
  | .hset _ _ | .hincrby _ _ _ | .expire _ _ => True

/-- What a server has. -/
structure Server.All (P : D → Prop) (Q : M → Prop) (s : Server D M) : Prop where
  documents : ∀ key value expireAt, s.keys key = some ⟨.document value, expireAt⟩ → P value
  messages : ∀ sent ∈ s.published, Q sent.2

section All

variable {P : D → Prop} {Q : M → Prop} {now : ℚ} {s : Server D M}

theorem Server.All.put (all : s.All P Q) {key : String} {entry : Option (Entry D)}
    (kind : ∀ value expireAt, entry = some ⟨.document value, expireAt⟩ → P value) : (s.put key entry).All P Q where
  documents other value expireAt found := by
    simp only [Server.put] at found
    by_cases same : other = key
    · subst same
      rw [Function.update_self] at found
      exact kind value expireAt found
    · rw [Function.update_of_ne same] at found
      exact all.documents other value expireAt found
  messages := all.messages

theorem Server.All.live (all : s.All P Q) {key : String} {value : D} {expireAt : Option ℚ}
    (found : s.live now key = some ⟨.document value, expireAt⟩) : P value :=
  all.documents key value expireAt (Option.filter_eq_some_iff.mp found).1

theorem Server.All.run (all : s.All P Q) {command : Command D M} (kind : command.All P Q) :
    (Redis.run now s command).All P Q := by
  cases command with
  | hset key mapping | hincrby key field amount =>
      simp only [Redis.run]
      split
      · exact all.put (by simp)
      · exact all
  | set key value =>
      refine all.put fun value' expireAt same => ?_
      cases same
      exact kind
  | expire key seconds =>
      simp only [Redis.run]
      split
      · next entry found =>
          refine all.put fun value expireAt same => ?_
          split at same
          · obtain ⟨held, _⟩ := entry
            cases same
            exact all.live found
          · cases same
      · exact all
  | publish channel payload =>
      refine ⟨all.documents, fun sent member => ?_⟩
      rcases List.mem_append.mp member with before | new
      · exact all.messages sent before
      · rw [List.mem_singleton.mp new]
        exact kind

theorem Server.All.exchanges (all : s.All P Q) {exchanges : List (List (Command D M))}
    (kind : ∀ commands ∈ exchanges, ∀ command ∈ commands, command.All P Q) :
    (exchanges.foldl (transaction now) s).All P Q := by
  have one : ∀ (commands : List (Command D M)) (s : Server D M), s.All P Q →
      (∀ command ∈ commands, command.All P Q) → (transaction now s commands).All P Q := by
    intro commands
    induction commands with
    | nil => exact fun _ all _ => all
    | cons command rest ih =>
        intro s all kind
        exact ih _ (all.run (kind command List.mem_cons_self)) fun c member => kind c (List.mem_cons_of_mem _ member)
  induction exchanges generalizing s with
  | nil => exact all
  | cons commands rest ih =>
      exact ih (one commands s all (kind commands List.mem_cons_self))
        fun c member => kind c (List.mem_cons_of_mem _ member)

end All

end InferenceForge.Library.Redis
