/-
# InferenceForge.Api.WireFormat — the texts in Redis and on the stream

`finish` stores `json.dumps(results, ensure_ascii=False)`, `publish_progress` and
`publish_done` send `json.dumps(payload)`, `get_results` gives back `json.loads` of what
is stored, and `_sse_generator` writes each message it receives into a frame and stops
when `json.loads` of it has the status `done`. Here the server holds those texts. The
model of the other modules, whose server holds the values themselves, is refined by it:

* `results_read_back`: whatever calls were made, `get_results` reads from the text what
  the list of the last `finish` was, and the other reads are the same;
* `stream_decodes`: a run of a task and its client goes the same way on texts, and an
  event source that reads the body of the response is given the events, in order, each a
  text that `json.loads` takes back to the event.

The values have to be what `json.dumps` can write (`Json.Clean`).
-/
import InferenceForge.Api.Stream
import InferenceForge.Library.Encoding
import InferenceForge.Library.EventSource
import InferenceForge.Pipeline.RetryOutcomes
import InferenceForge.Python.JsonLoads

namespace InferenceForge.Api.Wire

open InferenceForge.Python InferenceForge.Library InferenceForge.Pipeline
open InferenceForge.Pipeline.JobStore
open InferenceForge.Api.Stream (System Client Event)

set_option autoImplicit false

abbrev TextRedis := Redis.Server (List Char) (List Char)

section Texts

variable (numeral : Number → List Char)

/-- `json.dumps(results, ensure_ascii=False)`. -/
def resultsText (results : List Dict) : List Char := dumps false numeral (.array (results.map .object))

/-- `json.dumps(payload)`. -/
def eventText (payload : Dict) : List Char := dumps true numeral (.object payload)

/-! ## The store -/

/-- A command with its texts. -/
def writeText (command : JobCommand) : Redis.Command (List Char) (List Char) :=
  command.map (resultsText numeral) (eventText numeral)

/-- The server after a call at instant `now`. -/
def performText (settings : Settings) (jobId : String) (s : TextRedis) (act : ℚ × Act) : TextRedis :=
  ((applied settings jobId act.1 act.2).map (List.map (writeText numeral))).foldl (Redis.transaction act.1) s

def performAllText (settings : Settings) (jobId : String) (s : TextRedis) (acts : List (ℚ × Act)) : TextRedis :=
  acts.foldl (performText numeral settings jobId) s

/-- A server of values, written. -/
def written (s : JobRedis) : TextRedis := s.map (resultsText numeral) (eventText numeral)

/-- What a call writes can be written. -/
def Writable : StoreCall → Prop
  | .finish results => (Json.array (results.map .object)).Clean numeral
  | .publishProgress completed total cacheHits failed eta =>
      (Json.object (progressEvent completed total cacheHits failed eta)).Clean numeral
  | .publishDone results stats => (Json.object (doneEvent results stats)).Clean numeral
  | .create _ | .start | .incrementProgress _ _ _ | .fail _ => True

/-- A server all of whose values can be written. -/
abbrev Clean (s : JobRedis) : Prop :=
  s.All (fun results => (Json.array (results.map .object)).Clean numeral)
    fun payload => (Json.object payload).Clean numeral

end Texts

def fieldsOf : Json → Option Dict
  | .object fields => some fields
  | _ => none

/-- The items of a list of objects. -/
def recordsOf : Json → Option (List Dict)
  | .array items => items.mapM fieldsOf
  | _ => none

/-- `get_results`: nothing for an absent key, else `json.loads` of the text; `none` where that is
not a list of objects. -/
def getResultsText (jobId : String) (now : ℚ) (s : TextRedis) : Option (Option (List Dict)) :=
  (Redis.get now s (resultsKey jobId)).map fun raw => (JsonDecoder.loads raw).bind recordsOf

section Store

variable {numeral : Number → List Char} {settings : Settings} {jobId : String} {s : JobRedis}

theorem performText_written (act : ℚ × Act) :
    performText numeral settings jobId (written numeral s) act = written numeral (perform settings jobId s act) :=
  Redis.exchanges_map _

theorem performAllText_written (calls : List (ℚ × Act)) :
    performAllText numeral settings jobId (written numeral s) calls =
      written numeral (performAll settings jobId s calls) := by
  induction calls generalizing s with
  | nil => rfl
  | cons act rest ih =>
      show performAllText numeral settings jobId (performText numeral settings jobId (written numeral s) act) rest = _
      rw [performText_written, ih]
      rfl

theorem mapM_fieldsOf (results : List Dict) : (results.map Json.object).mapM fieldsOf = some results := by
  induction results with
  | nil => rfl
  | cons fields rest ih =>
      rw [List.map_cons, List.mapM_cons, ih]
      rfl

theorem commands_clean {now : ℚ} {call : StoreCall} (writable : Writable numeral call) :
    ∀ commands ∈ roundTrips settings jobId now call, ∀ command ∈ commands,
      command.All (fun results => (Json.array (results.map .object)).Clean numeral)
        fun payload => (Json.object payload).Clean numeral := by
  intro commands one command member
  cases call with
  | incrementProgress completed failed cacheHits =>
      obtain ⟨field, amount, rfl⟩ := mem_incrementProgress one member
      trivial
  | create total =>
      simp only [roundTrips, create, List.mem_cons, List.not_mem_nil, or_false] at one
      rcases one with rfl | rfl <;> (rw [List.mem_singleton.mp member]; trivial)
  | start | fail reason =>
      rw [List.mem_singleton.mp one] at member
      rw [List.mem_singleton.mp member]
      trivial
  | finish results =>
      rw [List.mem_singleton.mp one] at member
      simp only [List.mem_cons, List.not_mem_nil, or_false] at member
      rcases member with rfl | rfl | rfl
      · trivial
      · exact writable
      · trivial
  | publishProgress | publishDone =>
      rw [List.mem_singleton.mp one] at member
      rw [List.mem_singleton.mp member]
      exact writable

theorem perform_clean (clean : Clean numeral s) {act : ℚ × Act} (writable : Writable numeral act.2.1) :
    Clean numeral (perform settings jobId s act) := by
  obtain ⟨now, call, reply⟩ := act
  refine clean.exchanges fun commands one => ?_
  have whole : commands ∈ roundTrips settings jobId now call := by
    cases reply with
    | ok => exact one
    | raised e n => exact List.mem_of_mem_take one
  exact commands_clean writable commands whole

theorem performAll_clean (clean : Clean numeral s) {calls : List (ℚ × Act)}
    (writable : ∀ act ∈ calls, Writable numeral act.2.1) : Clean numeral (performAll settings jobId s calls) := by
  induction calls generalizing s with
  | nil => exact clean
  | cons act rest ih =>
      exact ih (perform_clean clean (writable act List.mem_cons_self))
        fun other member => writable other (List.mem_cons_of_mem act member)

/-- What is read of a clean server. -/
theorem getResultsText_written (clean : Clean numeral s) (now : ℚ) :
    getResultsText jobId now (written numeral s) = (JobStore.getResults jobId now s).map some := by
  rw [getResultsText, written, Redis.get_map, JobStore.getResults, Option.map_map]
  cases found : Redis.get now s (resultsKey jobId) with
  | none => rfl
  | some results =>
      have held : ∃ expireAt, s.live now (resultsKey jobId) = some ⟨.document results, expireAt⟩ := by
        rw [Redis.get] at found
        split at found
        · next value expireAt live =>
            cases found
            exact ⟨expireAt, live⟩
        · cases found
      obtain ⟨expireAt, live⟩ := held
      have loaded := JsonDecoder.loads_dumps false (clean.live live)
      show some ((JsonDecoder.loads (resultsText numeral results)).bind recordsOf) = some (some results)
      rw [resultsText, loaded]
      exact congrArg some (mapM_fieldsOf results)

/-- **What `finish` stores, `get_results` reads back**, whatever calls were made of the store, when,
and how they ended; and the state and the existence of the job are read as they are. -/
theorem results_read_back (clean : Clean numeral s) {calls : List (ℚ × Act)}
    (writable : ∀ act ∈ calls, Writable numeral act.2.1) (now : ℚ) :
    getResultsText jobId now (performAllText numeral settings jobId (written numeral s) calls) =
        (JobStore.getResults jobId now (performAll settings jobId s calls)).map some ∧
      Redis.hgetall now (performAllText numeral settings jobId (written numeral s) calls) (jobKey jobId) =
        getState jobId now (performAll settings jobId s calls) ∧
      Redis.present now (performAllText numeral settings jobId (written numeral s) calls) (jobKey jobId) =
        jobExists jobId now (performAll settings jobId s calls) := by
  rw [performAllText_written]
  exact ⟨getResultsText_written (performAll_clean clean writable) now, Redis.hgetall_map, Redis.present_map⟩

end Store

/-! ## The stream -/

/-- `_sse_generator` and the body of its response so far. -/
inductive TextClient
  | idle
  | notFound
  | found
  | listening (since cursor : ℕ) (body : List Char)
  | ended (since : ℕ) (body : List Char)
  /-- `parsed.get` raised: the text was not that of an object. -/
  | raised (since : ℕ) (body : List Char)

/-- What the generator does with the next message. -/
def TextClient.receive (jobId : String) (published : List (String × List Char)) : TextClient → Option TextClient
  | .listening since cursor body =>
      published[cursor]?.map fun (channel, data) =>
        if channel = eventChannel jobId then
          match JsonDecoder.loads data with
          -- a `JSONDecodeError` is passed over
          | none => .listening since (cursor + 1) (body ++ EventSource.frame data)
          | some (.object parsed) =>
              if Stream.stops parsed then .ended since (body ++ EventSource.frame data)
              else .listening since (cursor + 1) (body ++ EventSource.frame data)
          | some _ => .raised since (body ++ EventSource.frame data)
        else .listening since (cursor + 1) body
  | _ => none

structure TextSystem where
  task : Handler Unit
  trace : RouteTrace
  redis : TextRedis
  client : TextClient

section Stream

variable (numeral : Number → List Char)

/-- Redis after an operation of the task. -/
def serveText (settings : Settings) (jobId : String) (now : ℚ) (s : TextRedis) : Asked RouteOp RouteAnswer → TextRedis
  | ⟨.store call, reply⟩ => performText numeral settings jobId s (now, call, reply)
  | _ => s

def stepText (settings : Settings) (jobId : String) (w : TextSystem) : Event → Option TextSystem
  | .task now answer =>
      match w.task with
      | .ask op next => some { w with
          task := next (answer op)
          trace := w.trace ++ [⟨op, answer op⟩]
          redis := serveText numeral settings jobId now w.redis ⟨op, answer op⟩ }
      | _ => none
  | .lookUp now =>
      match w.client with
      | .idle => some { w with client := if Redis.present now w.redis (jobKey jobId) then .found else .notFound }
      | _ => none
  | .subscribe =>
      match w.client with
      | .found => some { w with client := .listening w.redis.published.length w.redis.published.length [] }
      | _ => none
  | .receive => (w.client.receive jobId w.redis.published).map fun client => { w with client := client }

/-- The body that carries the events. -/
def bodyOf (events : List Dict) : List Char := (events.map (eventText numeral)).flatMap EventSource.frame

def clientText : Client → TextClient
  | .idle => .idle
  | .notFound => .notFound
  | .found => .found
  | .listening since cursor yielded => .listening since cursor (bodyOf numeral yielded)
  | .ended since yielded => .ended since (bodyOf numeral yielded)

/-- The system with its texts. -/
def systemText (w : System) : TextSystem where
  task := w.task
  trace := w.trace
  redis := written numeral w.redis
  client := clientText numeral w.client

/-- The messages that have been published can be written. -/
def Speakable (w : System) : Prop := ∀ sent ∈ w.redis.published, (Json.object sent.2).Clean numeral

end Stream

section Steps

variable {numeral : Number → List Char} {settings : Settings} {jobId : String}

theorem bodyOf_concat (events : List Dict) (event : Dict) :
    bodyOf numeral (events ++ [event]) = bodyOf numeral events ++ EventSource.frame (eventText numeral event) := by
  simp [bodyOf]

theorem serveText_written (now : ℚ) (s : JobRedis) (asked : Asked RouteOp RouteAnswer) :
    serveText numeral settings jobId now (written numeral s) asked =
      written numeral (Stream.serve settings jobId now s asked) := by
  obtain ⟨op, answer⟩ := asked
  cases op with
  | store call => exact performText_written _
  | _ => rfl

/-- The client does the same on texts. -/
theorem receive_text {published : List (String × Dict)} (clean : ∀ sent ∈ published, (Json.object sent.2).Clean numeral)
    (client : Client) :
    (clientText numeral client).receive jobId (published.map fun sent => (sent.1, eventText numeral sent.2)) =
      (client.receive jobId published).map (clientText numeral) := by
  cases client with
  | idle | notFound | found | ended => rfl
  | listening since cursor yielded =>
      simp only [clientText, TextClient.receive, Client.receive, List.getElem?_map]
      cases read : published[cursor]? with
      | none => rfl
      | some sent =>
          obtain ⟨channel, event⟩ := sent
          have loaded : JsonDecoder.loads (eventText numeral event) = some (.object event) :=
            JsonDecoder.loads_dumps true (clean _ (List.mem_of_getElem? read))
          simp only [Option.map_some, loaded]
          split_ifs with own stop
          · rw [clientText, bodyOf_concat]
          · rw [clientText, bodyOf_concat]
          · rfl

/-- **A step on texts is the step.** -/
theorem stepText_systemText (w : System) (e : Event) (clean : Speakable numeral w) :
    stepText numeral settings jobId (systemText numeral w) e =
      (Stream.step settings jobId w e).map (systemText numeral) := by
  obtain ⟨task, trace, redis, client⟩ := w
  cases e with
  | task now answer =>
      cases task with
      | done value | raise error => rfl
      | ask op next =>
          simp only [stepText, Stream.step, systemText, serveText_written, Option.map_some]
  | lookUp now =>
      cases client with
      | idle =>
          have seen : Redis.present now (written numeral redis) (jobKey jobId) = jobExists jobId now redis :=
            Redis.present_map
          simp only [stepText, Stream.step, systemText, clientText, seen, Option.map_some]
          cases jobExists jobId now redis <;> rfl
      | notFound | found | listening | ended => rfl
  | subscribe =>
      cases client with
      | found => simp [stepText, Stream.step, systemText, clientText, written, Redis.Server.map, bodyOf]
      | idle | notFound | listening | ended => rfl
  | receive =>
      have received : (clientText numeral client).receive jobId (written numeral redis).published =
        (client.receive jobId redis.published).map (clientText numeral) := receive_text clean client
      simp only [stepText, Stream.step, systemText, received, Option.map_map]
      rfl

/-- What is published stays published. -/
theorem published_grows {job : Job} {w t : System} {e : Event}
    (stepped : Stream.step settings job.jobId w e = some t) : ∃ more, t.redis.published = w.redis.published ++ more := by
  obtain ⟨now, answer, op, next, rfl, pending, rfl⟩ | ⟨now, rfl, idle, rfl⟩ | ⟨rfl, found, rfl⟩ |
    ⟨client, rfl, received, rfl⟩ := Stream.step_cases stepped
  · exact ⟨_, Stream.serve_published settings job.jobId now w.redis ⟨op, answer op⟩⟩
  all_goals exact ⟨[], (List.append_nil _).symm⟩

theorem speakable_before {job : Job} {w t : System} {e : Event}
    (stepped : Stream.step settings job.jobId w e = some t) (speakable : Speakable numeral t) :
    Speakable numeral w := by
  obtain ⟨more, grown⟩ := published_grows stepped
  intro sent member
  refine speakable sent ?_
  rw [grown]
  exact List.mem_append_left more member

/-- **A run on texts is the run.** -/
theorem exec_systemText {job : Job} {w : System} {events : List Event} {v : System}
    (ran : exec (Stream.step settings job.jobId) w events = some v) (speakable : Speakable numeral v) :
    exec (stepText numeral settings job.jobId) (systemText numeral w) events = some (systemText numeral v) := by
  obtain ⟨-, along⟩ := along_of_end (fun _ _ _ => speakable_before) events w v ran speakable
  rw [exec_map (fun u e clean => stepText_systemText u e clean) events w along, ran, Option.map_some]

end Steps

/-! ### What the client is given -/

/-- The events published for a job from `since` on, before `cursor`. -/
def heard (jobId : String) (published : List (String × Dict)) (since cursor : ℕ) : List Dict :=
  (((published.take cursor).drop since).filter fun sent => sent.1 = eventChannel jobId).map Prod.snd

/-- A client has yielded what was published for its job since it subscribed, and has ended on the
first event that stops it. -/
inductive Delivered (jobId : String) (published : List (String × Dict)) : Client → Prop
  | idle : Delivered jobId published .idle
  | notFound : Delivered jobId published .notFound
  | found : Delivered jobId published .found
  | listening {since cursor : ℕ} (le : since ≤ cursor) (bounded : cursor ≤ published.length)
      (quiet : ∀ event ∈ heard jobId published since cursor, Stream.stops event = false) :
      Delivered jobId published (.listening since cursor (heard jobId published since cursor))
  | ended {since cursor : ℕ} {event : Dict} (le : since ≤ cursor)
      (read : published[cursor]? = some (eventChannel jobId, event)) (stop : Stream.stops event = true)
      (quiet : ∀ earlier ∈ heard jobId published since cursor, Stream.stops earlier = false) :
      Delivered jobId published (.ended since (heard jobId published since (cursor + 1)))

section Delivery

variable {settings : Settings} {jobId : String} {published : List (String × Dict)} {since cursor : ℕ}

theorem mem_heard {event : Dict} (member : event ∈ heard jobId published since cursor) :
    (eventChannel jobId, event) ∈ published := by
  obtain ⟨⟨channel, sent⟩, within, rfl⟩ := List.mem_map.mp member
  obtain ⟨taken, own⟩ := List.mem_filter.mp within
  rw [← of_decide_eq_true own]
  exact List.mem_of_mem_take (List.mem_of_mem_drop taken)

theorem heard_append (bounded : cursor ≤ published.length) (more : List (String × Dict)) :
    heard jobId (published ++ more) since cursor = heard jobId published since cursor := by
  rw [heard, List.take_append_of_le_length bounded, heard]

theorem heard_self (jobId : String) (published : List (String × Dict)) (since : ℕ) :
    heard jobId published since since = [] := by
  rw [heard, List.drop_eq_nil_of_le (List.length_take_le _ _)]
  rfl

theorem heard_succ (le : since ≤ cursor) {sent : String × Dict} (read : published[cursor]? = some sent) :
    heard jobId published since (cursor + 1) =
      heard jobId published since cursor ++ if sent.1 = eventChannel jobId then [sent.2] else [] := by
  have bounded : cursor < published.length := (List.getElem?_eq_some_iff.mp read).1
  have within : since ≤ (published.take cursor).length := by
    rw [List.length_take]
    omega
  rw [heard, heard, List.take_add_one, read, Option.toList_some, List.drop_append_of_le_length within,
    List.filter_append, List.map_append]
  split_ifs with own
  · simp [own]
  · simp [own]

theorem Delivered.append {client : Client} (delivered : Delivered jobId published client)
    (more : List (String × Dict)) : Delivered jobId (published ++ more) client := by
  cases delivered with
  | idle => exact .idle
  | notFound => exact .notFound
  | found => exact .found
  | listening le bounded quiet =>
      rw [← heard_append bounded more] at quiet ⊢
      exact .listening le (by rw [List.length_append]; omega) quiet
  | ended le read stop quiet =>
      have bounded := (List.getElem?_eq_some_iff.mp read).1
      rw [← heard_append (Nat.succ_le_of_lt bounded) more]
      rw [← heard_append bounded.le more] at quiet
      refine .ended le ?_ stop quiet
      rw [List.getElem?_append_left bounded]
      exact read

theorem Delivered.receive {client client' : Client} (delivered : Delivered jobId published client)
    (received : client.receive jobId published = some client') : Delivered jobId published client' := by
  cases delivered with
  | idle | notFound | found | ended => cases received
  | @listening since cursor le bounded quiet =>
      obtain ⟨⟨channel, event⟩, read, moved⟩ := Option.map_eq_some_iff.mp received
      have grown : heard jobId published since (cursor + 1) = _ := heard_succ le read
      have inside : cursor < published.length := (List.getElem?_eq_some_iff.mp read).1
      dsimp only at moved grown
      split at moved
      · next own =>
          rw [if_pos own] at grown
          rw [← grown] at moved
          split at moved
          · next stop =>
              subst own moved
              exact .ended le read stop quiet
          · next goes =>
              subst moved
              refine .listening (by omega) inside fun earlier member => ?_
              rw [grown] at member
              rcases List.mem_append.mp member with before | last
              · exact quiet earlier before
              · rw [List.mem_singleton.mp last]
                simpa using goes
      · next other =>
          rw [if_neg other, List.append_nil] at grown
          rw [← grown] at moved quiet
          subst moved
          exact .listening (by omega) inside quiet

theorem Delivered.step {job : Job} {w t : System} {e : Event}
    (delivered : Delivered job.jobId w.redis.published w.client)
    (stepped : Stream.step settings job.jobId w e = some t) : Delivered job.jobId t.redis.published t.client := by
  obtain ⟨now, answer, op, next, rfl, pending, rfl⟩ | ⟨now, rfl, idle, rfl⟩ | ⟨rfl, found, rfl⟩ |
    ⟨client, rfl, received, rfl⟩ := Stream.step_cases stepped
  · show Delivered _ (Stream.serve settings job.jobId now w.redis _).published _
    rw [Stream.serve_published]
    exact delivered.append _
  · show Delivered _ _ (if _ then _ else _)
    split
    · exact .found
    · exact .notFound
  · have nothing := heard_self job.jobId w.redis.published w.redis.published.length
    have subscribed : Delivered job.jobId w.redis.published (.listening w.redis.published.length
        w.redis.published.length (heard job.jobId w.redis.published w.redis.published.length _)) :=
      .listening le_rfl le_rfl (by simp [nothing])
    rw [nothing] at subscribed
    exact subscribed
  · exact delivered.receive received

theorem delivered_of_ran {Q : TicketQueue} {job : Job} {keys : String → Option (Redis.Entry (List Dict))}
    {events : List Event} {w : System}
    (ran : exec (Stream.step settings job.jobId) (Stream.start Q settings job keys .idle) events = some w) :
    Delivered job.jobId w.redis.published w.client := by
  have keeps : ∀ (v : System) (e : Event) (t : System), Delivered job.jobId v.redis.published v.client →
      Stream.step settings job.jobId v e = some t → Delivered job.jobId t.redis.published t.client :=
    fun _ _ _ delivered stepped => delivered.step stepped
  exact exec_invariant keeps events _ w .idle ran

/-- An event source is given the events by the body. -/
def Reads (body : List Char) (events : List Dict) : Prop :=
  (EventSource.events body).map JsonDecoder.loads = events.map fun event => some (.object event)

theorem oneLine_of_printable {text : List Char} (printable : Printable true text) : EventSource.OneLine text := by
  intro c member
  have shown := (printable c member).1
  constructor
  · rintro rfl
    exact absurd shown (by decide)
  · rintro rfl
    exact absurd shown (by decide)

theorem reads_bodyOf {numeral : Number → List Char} {events : List Dict}
    (clean : ∀ event ∈ events, (Json.object event).Clean numeral) : Reads (bodyOf numeral events) events := by
  have oneLine : ∀ text ∈ events.map (eventText numeral), EventSource.OneLine text := by
    intro text member
    obtain ⟨event, one, rfl⟩ := List.mem_map.mp member
    have printable : Printable true (eventText numeral event) := dumps_printable (clean event one)
    exact oneLine_of_printable printable
  rw [Reads, bodyOf, EventSource.events_frames oneLine, List.map_map]
  exact List.map_congr_left fun event one => JsonDecoder.loads_dumps true (clean event one)

end Delivery

/-- The response of a client: when it subscribed, and the body so far. -/
def TextClient.response? : TextClient → Option (ℕ × List Char)
  | .listening since _ body | .ended since body | .raised since body => some (since, body)
  | .idle | .notFound | .found => none

/-- **What is published, the client of the stream is given.** On texts, the task and its client run
as they do on values. An event source that reads the body of the response is given, each as an object,
the events published for the job since the client subscribed, and the response ends on the first of
them that stops it. -/
theorem stream_decodes {numeral : Number → List Char} {Q : TicketQueue} {settings : Settings} {job : Job}
    {keys : String → Option (Redis.Entry (List Dict))} {events : List Event} {w : System}
    (ran : exec (Stream.step settings job.jobId) (Stream.start Q settings job keys .idle) events = some w)
    (speakable : Speakable numeral w) :
    exec (stepText numeral settings job.jobId) (systemText numeral (Stream.start Q settings job keys .idle)) events =
        some (systemText numeral w) ∧
      Delivered job.jobId w.redis.published w.client ∧
      ∀ since body, (systemText numeral w).client.response? = some (since, body) →
        ∃ cursor, Reads body (heard job.jobId w.redis.published since cursor) ∧
          (w.client = .listening since cursor (heard job.jobId w.redis.published since cursor) ∨
            w.client = .ended since (heard job.jobId w.redis.published since cursor)) := by
  refine ⟨exec_systemText ran speakable, delivered_of_ran ran, fun since body response => ?_⟩
  have delivered := delivered_of_ran ran
  have clean : ∀ cursor, ∀ event ∈ heard job.jobId w.redis.published since cursor, (Json.object event).Clean numeral :=
    fun cursor event member => speakable _ (mem_heard member)
  change (clientText numeral w.client).response? = _ at response
  generalize w.client = client at delivered response ⊢
  cases delivered with
  | idle | notFound | found => cases response
  | @listening start cursor le bounded quiet =>
      cases response
      exact ⟨cursor, reads_bodyOf (clean cursor), .inl rfl⟩
  | @ended start cursor event le read stop quiet =>
      cases response
      exact ⟨cursor + 1, reads_bodyOf (clean (cursor + 1)), .inr rfl⟩

/-! ## Poles -/

section Poles

/-- How the numbers of the completion of `foundJob` are spelled. -/
def spelled (x : Number) : List Char :=
  if x = .finite 7 then ['7']
  else if x = .finite 1 then ['1', '.', '0']
  else if x = .finite 0 then ['0', '.', '0']
  else ['1', 'e', '-', '0', '6']

theorem float_small {q : ℚ} (small : q ≤ 2) : (if overflow ≤ q then Number.inf else .finite q) = .finite q :=
  if_neg (not_le.mpr (small.trans_lt two_lt_overflow))

theorem float_zero : float ['0', '.', '0'] = some (.finite 0) := by
  have read : float ['0', '.', '0'] = some (if overflow ≤ ((0 : ℕ) : ℚ) * 10 ^ (0 - ((1 : ℕ) : ℤ)) then .inf
      else .finite (((0 : ℕ) : ℚ) * 10 ^ (0 - ((1 : ℕ) : ℤ)))) := rfl
  have value : ((0 : ℕ) : ℚ) * 10 ^ (0 - ((1 : ℕ) : ℤ)) = 0 := by norm_num
  rw [read, value, float_small (by norm_num)]

theorem float_one : float ['1', '.', '0'] = some (.finite 1) := by
  have read : float ['1', '.', '0'] = some (if overflow ≤ ((10 : ℕ) : ℚ) * 10 ^ (0 - ((1 : ℕ) : ℤ)) then .inf
      else .finite (((10 : ℕ) : ℚ) * 10 ^ (0 - ((1 : ℕ) : ℤ)))) := rfl
  have value : ((10 : ℕ) : ℚ) * 10 ^ (0 - ((1 : ℕ) : ℤ)) = 1 := by norm_num
  rw [read, value, float_small (by norm_num)]

theorem float_millionth : float ['1', 'e', '-', '0', '6'] = some (.finite (1 / 1000000)) := by
  have read : float ['1', 'e', '-', '0', '6'] =
      some (if overflow ≤ ((1 : ℕ) : ℚ) * 10 ^ ((-6 : ℤ) - ((0 : ℕ) : ℤ)) then .inf
        else .finite (((1 : ℕ) : ℚ) * 10 ^ ((-6 : ℤ) - ((0 : ℕ) : ℤ)))) := rfl
  have value : ((1 : ℕ) : ℚ) * 10 ^ ((-6 : ℤ) - ((0 : ℕ) : ℤ)) = 1 / 1000000 := by norm_num
  rw [read, value, float_small (by norm_num)]

theorem wholeText_digit {c : Char} (digit : '0' ≤ c ∧ c ≤ '9') : WholeText [] [c] where
  sign := .inl rfl
  digits := ⟨by simp, fun d member => by rwa [List.mem_singleton.mp member]⟩
  leading := by simp

theorem digits_two {c d : Char} (first : '0' ≤ c ∧ c ≤ '9') (second : '0' ≤ d ∧ d ≤ '9') : Digits [c, d] := by
  refine ⟨by simp, fun e member => ?_⟩
  rcases List.mem_cons.mp member with rfl | last
  · exact first
  · rwa [List.mem_singleton.mp last]

theorem numeral_seven : Numeral (.finite 7) (spelled (.finite 7)) := by
  have integer : WholeText [] ['7'] := wholeText_digit (by decide)
  exact .int integer

theorem numeral_zero : Numeral (.finite 0) (spelled (.finite 0)) :=
  .float (wholeText_digit (by decide)) (.inr ⟨['0'], (wholeText_digit (by decide)).digits, rfl⟩) (.inl rfl)
    (.inl (by simp)) float_zero

theorem numeral_one : Numeral (.finite 1) (spelled (.finite 1)) :=
  .float (wholeText_digit (by decide)) (.inr ⟨['0'], (wholeText_digit (by decide)).digits, rfl⟩) (.inl rfl)
    (.inl (by simp)) float_one

theorem numeral_millionth : Numeral (.finite (1 / 1000000)) (spelled (.finite (1 / 1000000))) := by
  have text : spelled (.finite (1 / 1000000)) = ['1', 'e', '-', '0', '6'] := by decide +kernel
  rw [text]
  exact .float (wholeText_digit (by decide)) (.inl rfl)
    (.inr ⟨'e', ['-'], ['0', '6'], .inl rfl, .inr (.inl rfl), digits_two (by decide) (by decide), rfl⟩)
    (.inr (by simp)) float_millionth

theorem foundResults_clean : (Json.array (foundJob.preCachedResults.map .object)).Clean spelled := by
  simp [foundJob, preCachedEntry, Dict.set, Json.Clean, CleanItems, CleanFields, numeral_seven]

theorem foundStats_eq : foundStats =
    [("total_tokens", .number (.finite 7)), ("cost_usd", .number (.finite (1 / 1000000))),
      ("p50_ms", .number (.finite 0)), ("p95_ms", .number (.finite 0)), ("p99_ms", .number (.finite 0)),
      ("cache_hit_rate", .number (.finite 1)), ("failure_rate", .number (.finite 0)),
      ("duration_seconds", .number (.finite 0))] := by
  have cost : (((Number.finite 7).scale (1 / 1000)).scale Settings.defaults.costPer1kTokens).round 6 =
    .finite (1 / 1000000) := by decide +kernel
  have hits : round 4 (rate (initialTotals foundJob).cacheHits foundJob.totalTickets) = 1 := by decide +kernel
  have failures : round 4 (rate (initialTotals foundJob).failedCount foundJob.totalTickets) = 0 := by decide +kernel
  have duration : round 2 (0 - 0) = 0 := by decide +kernel
  rw [foundStats, finalStats, cost, hits, failures, duration]

theorem foundDone_clean : (Json.object Stream.foundDone).Clean spelled := by
  have stats : (Json.object foundStats).Clean spelled := by
    rw [foundStats_eq]
    refine ⟨by decide, numeral_seven, numeral_millionth, numeral_zero, numeral_zero, numeral_zero, numeral_one,
      numeral_zero, numeral_zero, trivial⟩
  have keys : ["status", "results", "stats"].Nodup := by decide
  exact ⟨keys, trivial, foundResults_clean, stats, trivial⟩

abbrev nothing : JobRedis := { keys := fun _ => none, published := [] }

theorem nothing_clean (numeral : Number → List Char) : Clean numeral nothing where
  documents key value expireAt held := by cases held
  messages sent member := by cases member

/-- Satisfiable pole: the results of `foundJob` are stored, and read back. -/
theorem results_read_back_found :
    getResultsText "j" 1 (performAllText spelled .defaults "j" (written spelled nothing)
      [(0, .finish foundJob.preCachedResults, .ok)]) = some (some foundJob.preCachedResults) := by
  have writable : ∀ act ∈ [((0 : ℚ), StoreCall.finish foundJob.preCachedResults, Reply.ok)],
      Writable spelled act.2.1 := by
    intro act member
    rw [List.mem_singleton.mp member]
    exact foundResults_clean
  have stored : (performAll .defaults "j" nothing [(0, .finish foundJob.preCachedResults, .ok)]).keys (resultsKey "j") =
      some ⟨.document foundJob.preCachedResults, some (0 + (3600 : ℤ))⟩ := perform_results_finish rfl
  have read : Redis.Server.live 1 _ (resultsKey "j") = some _ := live_eq_some.mpr ⟨stored, by norm_num⟩
  rw [(results_read_back (nothing_clean spelled) writable 1).1, JobStore.getResults, Redis.get, read]
  rfl

/-- The client subscribes before the task of `foundJob` starts, and receives the completion. -/
theorem early_ran :
    exec (Stream.step .defaults foundJob.jobId) (Stream.start (.sorted _) .defaults foundJob requested.keys .idle)
      (.lookUp 0 :: .subscribe ::
        (List.replicate foundTrace.length (.task 0 (Stream.answers Stream.calm)) ++ [.receive])) =
      some (Stream.after foundTrace (.ended 0 [Stream.foundDone])) := by
  have given : ∀ asked ∈ foundTrace, Stream.answers Stream.calm asked.1 = asked.2 :=
    Stream.cachedTrace_given rfl (by simp [Stream.answers, Stream.calm])
  rw [exec_cons, Stream.lookUp_requested, Option.bind_some, exec_cons, Stream.subscribe_start, Option.bind_some,
    exec_append, Stream.exec_job _ Stream.foundTrace_leads given, Option.bind_some]
  exact Stream.receive_after rfl

/-- Satisfiable pole: a client that subscribes before the task starts. -/
theorem stream_decodes_found :
    ∃ w, exec (Stream.step .defaults foundJob.jobId) (Stream.start (.sorted _) .defaults foundJob requested.keys .idle)
        (.lookUp 0 :: .subscribe ::
          (List.replicate foundTrace.length (.task 0 (Stream.answers Stream.calm)) ++ [.receive])) = some w ∧
      ∃ body cursor, (systemText spelled w).client = .ended 0 body ∧
        Reads body (heard foundJob.jobId w.redis.published 0 cursor) := by
  have speakable : Speakable spelled (Stream.after foundTrace (.ended 0 [Stream.foundDone])) := by
    intro sent member
    rw [Stream.after_published] at member
    rw [List.mem_singleton.mp member]
    exact foundDone_clean
  have decoded := (stream_decodes early_ran speakable).2.2
  obtain ⟨cursor, reads, _⟩ := decoded _ _ rfl
  exact ⟨_, early_ran, _, cursor, rfl, reads⟩

end Poles
end InferenceForge.Api.Wire
