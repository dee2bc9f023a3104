/-
# InferenceForge.Library.Footprint — parts of a Redis server

A part of a server is a set of keys and a set of channels. Two servers agree on a part
when they hold the same under its keys and have published the same to its channels. A
command covered by the part does the same to both (`Agree.run`), and one that is not
leaves the part alone (`run_frame`), so what the others do to the rest of the server
does not matter. What a read returns is a matter of its key alone (`Agree.live`).
-/
import InferenceForge.Library.Redis

namespace InferenceForge.Library.Redis

set_option autoImplicit false

structure Part where
  keys : String → Bool
  channels : String → Bool

variable {D M : Type} {part : Part} {now : ℚ} {s t u : Server D M}

/-- Whether a command is about the part. -/
def Part.covers (part : Part) : Command D M → Bool
  | .hset key _ | .hincrby key _ _ | .set key _ | .expire key _ => part.keys key
  | .publish channel _ => part.channels channel

/-- What was published to the part, in order. -/
def Part.messages (part : Part) (s : Server D M) : List (String × M) :=
  s.published.filter fun message => part.channels message.1

/-- The same under the keys, and the same published to the channels. -/
structure Agree (part : Part) (s t : Server D M) : Prop where
  keys : ∀ key, part.keys key = true → s.keys key = t.keys key
  messages : part.messages s = part.messages t

theorem Agree.refl (part : Part) (s : Server D M) : Agree part s s := ⟨fun _ _ => rfl, rfl⟩

theorem Agree.symm (agree : Agree part s t) : Agree part t s :=
  ⟨fun key covered => (agree.keys key covered).symm, agree.messages.symm⟩

theorem Agree.trans (first : Agree part s t) (second : Agree part t u) : Agree part s u :=
  ⟨fun key covered => (first.keys key covered).trans (second.keys key covered),
    first.messages.trans second.messages⟩

theorem Agree.live (agree : Agree part s t) (now : ℚ) {key : String} (covered : part.keys key = true) :
    s.live now key = t.live now key := by
  rw [Server.live, Server.live, agree.keys key covered]

theorem Agree.hashAt (agree : Agree part s t) (now : ℚ) {key : String} (covered : part.keys key = true) :
    s.hashAt now key = t.hashAt now key := by
  rw [Server.hashAt, Server.hashAt, agree.live now covered]

theorem Agree.put (agree : Agree part s t) (key : String) (entry : Option (Entry D)) :
    Agree part (s.put key entry) (t.put key entry) where
  keys other covered := by
    simp only [Server.put]
    by_cases same : other = key
    · subst same
      rw [Function.update_self, Function.update_self]
    · rw [Function.update_of_ne same, Function.update_of_ne same]
      exact agree.keys other covered
  messages := agree.messages

/-- A command about other keys and channels leaves the part alone. -/
theorem run_frame {command : Command D M} (uncovered : part.covers command = false) :
    Agree part (run now s command) s where
  keys key covered := by
    refine run_keys_of_ne fun same => ?_
    cases command with
    | publish channel message => cases same
    | hset | hincrby | set | expire =>
        cases same
        cases covered.symm.trans uncovered
  messages := by
    cases command with
    | publish channel message =>
        change part.channels channel = false at uncovered
        simp [Part.messages, run, uncovered]
    | hset | hincrby | set | expire => exact congrArg (List.filter _) (run_published (by simp))

/-- A command does the same to servers that agree. -/
theorem Agree.run (agree : Agree part s t) (command : Command D M) :
    Agree part (run now s command) (run now t command) := by
  cases covered : part.covers command with
  | false => exact (run_frame covered).trans (agree.trans (run_frame covered).symm)
  | true =>
      cases command with
      | publish channel message =>
          refine ⟨agree.keys, ?_⟩
          simp only [Part.messages, Redis.run, List.filter_append]
          exact congrArg (· ++ _) agree.messages
      | set key document => exact agree.put key _
      | hset key mapping =>
          simp only [Redis.run, agree.hashAt now covered]
          split
          · exact agree.put key _
          · exact agree
      | hincrby key field amount =>
          simp only [Redis.run, agree.hashAt now covered]
          split
          · exact agree.put key _
          · exact agree
      | expire key seconds =>
          simp only [Redis.run, agree.live now covered]
          split
          · exact agree.put key _
          · exact agree

theorem Agree.exchanges (agree : Agree part s t) (exchanges : List (List (Command D M))) :
    Agree part (exchanges.foldl (transaction now) s) (exchanges.foldl (transaction now) t) := by
  have together : ∀ (commands : List (Command D M)) (s t : Server D M), Agree part s t →
      Agree part (transaction now s commands) (transaction now t commands) := by
    intro commands
    induction commands with
    | nil => exact fun _ _ agree => agree
    | cons command rest ih => exact fun s t agree => ih _ _ (agree.run command)
  induction exchanges generalizing s t with
  | nil => exact agree
  | cons commands rest ih => exact ih (together commands s t agree)

theorem exchanges_frame {exchanges : List (List (Command D M))}
    (uncovered : ∀ commands ∈ exchanges, ∀ command ∈ commands, part.covers command = false) :
    Agree part (exchanges.foldl (transaction now) s) s := by
  have together : ∀ (commands : List (Command D M)) (s : Server D M),
      (∀ command ∈ commands, part.covers command = false) → Agree part (transaction now s commands) s := by
    intro commands
    induction commands with
    | nil => exact fun s _ => .refl part s
    | cons command rest ih =>
        intro s outside
        obtain ⟨here, later⟩ := List.forall_mem_cons.mp outside
        exact (ih _ later).trans (run_frame here)
  induction exchanges generalizing s with
  | nil => exact .refl part s
  | cons commands rest ih =>
      obtain ⟨here, later⟩ := List.forall_mem_cons.mp uncovered
      exact (ih later).trans (together commands s here)

end InferenceForge.Library.Redis
