/-
# InferenceForge.Pipeline.SuccessRecords — what is recorded as a success

The breaker and the metrics record a success when `_single_api_call` returns. The
loop then merges the value as a mapping, which raises unless it is an object.

`parse_object_iff` says for which contents the parsing ends with an object or a
`JSONDecodeError`: `json.loads` may return any other value (`ObjectsOnly`). A
recorded success is the last attempt, and its object the result, exactly if no
response has such a content (`success_is_last_iff`). With the content `null` the
attempt is recorded and then retried (`bare_value_recorded`).
-/
import InferenceForge.Pipeline.BlockSearch
import InferenceForge.Pipeline.RetryRuns

namespace InferenceForge.Pipeline

open InferenceForge.Python InferenceForge.Library

set_option autoImplicit false

/-! ## The parsing of a content -/

section Parsing

variable {loads : String → Except Exn Json} {content : List Char}

/-- A block that is tried starts with a brace and ends where its braces balance. -/
theorem block_of_candidates : ∀ text : List Char, ∀ block ∈ candidates text, Block block := by
  intro text
  induction length : text.length using Nat.strong_induction_on generalizing text with
  | _ n ih =>
      subst length
      intro block member
      cases found : takeBlock 0 (text.dropWhile (· ≠ '{')) with
      | none => simp [candidates_none found] at member
      | some cut =>
          obtain ⟨first, rest⟩ := cut
          rw [candidates_some found] at member
          rcases List.mem_cons.mp member with rfl | later
          · rcases dropWhile_opens text with none_ | ⟨later, opens⟩
            · rw [none_] at found
              cases found
            · rw [opens] at found
              exact (takeBlock_iff.mp found).2
          · exact ih rest.length (takeBlock_rest_lt found) rest rfl block later

/-- What is read of a block is an object. -/
theorem Block.reads_object {block : List Char} (balanced : Block block) (reads : ReadsJson loads)
    {value : Json} (read : loads (String.ofList block) = .ok value) : ∃ d, value = .object d := by
  cases block with
  | nil => cases balanced.opens
  | cons c rest =>
      obtain rfl : c = '{' := by simpa using balanced.opens
      exact Python.reads_object reads read

/-- The texts the parsing tries while none is JSON. -/
def tried (content : List Char) : List (List Char) :=
  stripThinkTags content :: candidates (searchText content)

theorem parseContent_tried (loads : String → Except Exn Json) (content : List Char) :
    parseContent loads content = firstJson loads (tried content) := by
  rw [parseContent, extractJsonObject_eq]
  cases read : loads (String.ofList (stripThinkTags content)) <;> simp only [tried, firstJson, read]

/-- The search ends with what the first text does that is not refused. -/
theorem firstJson_append {before after : List (List Char)} {text : List Char}
    (refused : ∀ earlier ∈ before, NotJson loads earlier) (here : ¬ NotJson loads text) :
    firstJson loads (before ++ text :: after) = loads (String.ofList text) := by
  induction before with
  | nil =>
      rw [List.nil_append, firstJson]
      cases read : loads (String.ofList text) with
      | ok value => rfl
      | error e => exact if_neg fun kind => here ⟨e, read, kind⟩
  | cons earlier before ih =>
      obtain ⟨e, failed, kind⟩ := refused earlier List.mem_cons_self
      rw [List.cons_append, firstJson, failed]
      simp only [if_pos kind]
      exact ih fun text member => refused text (List.mem_cons_of_mem earlier member)

/-- Either every text is refused, or one is the first that is not. -/
theorem first_unrefused (loads : String → Except Exn Json) (texts : List (List Char)) :
    (∀ text ∈ texts, NotJson loads text) ∨
      ∃ before text after, texts = before ++ text :: after ∧
        (∀ earlier ∈ before, NotJson loads earlier) ∧ ¬ NotJson loads text := by
  induction texts with
  | nil => exact .inl (by simp)
  | cons text texts ih =>
      by_cases here : NotJson loads text
      · rcases ih with all | ⟨before, found, after, rfl, refused, unrefused⟩
        · exact .inl (List.forall_mem_cons.mpr ⟨here, all⟩)
        · exact .inr ⟨text :: before, found, after, rfl, List.forall_mem_cons.mpr ⟨here, refused⟩, unrefused⟩
      · exact .inr ⟨[], text, texts, rfl, by simp, here⟩

def ObjectOrDecode (parsed : Except Exn Json) : Prop :=
  (∃ d, parsed = .ok (.object d)) ∨ RaisesDecode parsed

/-- The content is not JSON for another value, and `json.loads` raises nothing but a
`JSONDecodeError` on the texts that are tried. -/
structure ObjectsOnly (loads : String → Except Exn Json) (content : List Char) : Prop where
  value : ∀ value, loads (String.ofList (stripThinkTags content)) = .ok value → ∃ d, value = .object d
  quiet : ∀ before text after e, tried content = before ++ text :: after →
    (∀ earlier ∈ before, NotJson loads earlier) → loads (String.ofList text) = .error e →
    e.kind = .jsonDecode

/-- **The parsing ends with an object or a `JSONDecodeError`** if and only if the
content is not JSON for anything else. -/
theorem parse_object_iff (reads : ReadsJson loads) (content : List Char) :
    ObjectOrDecode (parseContent loads content) ↔ ObjectsOnly loads content := by
  rw [parseContent_tried]
  constructor
  · intro ends
    constructor
    · intro value read
      have found := firstJson_of_ok (candidates (searchText content)) read
      rw [tried, found] at ends
      rcases ends with ⟨d, same⟩ | ⟨e, failed, _⟩
      · exact ⟨d, Except.ok.inj same⟩
      · cases failed
    · intro before text after e split refused failed
      by_contra kind
      have here : ¬ NotJson loads text := by
        rintro ⟨e', failed', kind'⟩
        cases failed.symm.trans failed'
        exact kind kind'
      rw [split, firstJson_append refused here, failed] at ends
      rcases ends with ⟨d, same⟩ | ⟨e', same, kind'⟩
      · cases same
      · cases same
        exact kind kind'
  · intro only
    rcases first_unrefused loads (tried content) with all | ⟨before, text, after, split, refused, here⟩
    · exact .inr ((firstJson_decode _).mpr all)
    · rw [split, firstJson_append refused here]
      cases read : loads (String.ofList text) with
      | error e => exact absurd ⟨e, read, only.quiet before text after e split refused read⟩ here
      | ok value =>
          left
          have object : ∃ d, value = .object d := by
            cases before with
            | nil =>
                obtain ⟨rfl, _⟩ := List.cons.inj split
                exact only.value value read
            | cons first before =>
                obtain ⟨_, within⟩ := List.cons.inj split
                have block := block_of_candidates (searchText content) text (by rw [within]; simp)
                exact block.reads_object reads read
          obtain ⟨d, rfl⟩ := object
          exact ⟨d, rfl⟩

end Parsing

/-! ## A response whose content is another value -/

section Bare

variable {host : Host} {response : Response}

/-- A successful response with a number of tokens, whose content is JSON but no object. -/
structure Bare (host : Host) (response : Response) : Prop where
  success : ¬ (response.statusCode < 200 ∨ 300 ≤ response.statusCode)
  content : ∃ data content tokens value, response.json = .ok data ∧
    readCompletion data = .ok (.string content, tokens) ∧ recorded tokens = .ok () ∧
    host.loads (String.ofList (stripThinkTags content.toList)) = .ok value ∧ ∀ d, value ≠ .object d

/-- Such a response is read to its value, and no other to anything but an object. -/
theorem bare_iff (reads : ReadsJson host.loads) :
    Bare host response ↔ ∃ value tokens, response.read host = .ok (value, tokens) ∧ ∀ d, value ≠ .object d := by
  constructor
  · rintro ⟨success, data, content, tokens, value, json, completed, numeric, read, bare⟩
    refine ⟨value, tokens, ?_, bare⟩
    rw [read_ok_iff]
    refine ⟨success, data, content, json, completed, numeric, ?_⟩
    rw [parseContent_tried]
    exact firstJson_of_ok _ read
  · rintro ⟨value, tokens, found, bare⟩
    obtain ⟨success, data, content, json, completed, numeric, parsed⟩ := read_ok_iff.mp found
    refine ⟨success, data, content, tokens, value, json, completed, numeric, ?_, bare⟩
    -- a value read from a block would be an object
    rw [parseContent_tried, tried, firstJson_cons] at parsed
    rcases parsed with read | ⟨_, later⟩
    · exact read
    · obtain ⟨block, member, read⟩ := firstJson_ok later
      obtain ⟨d, same⟩ := (block_of_candidates _ block member).reads_object reads read
      exact absurd same (bare d)

end Bare

/-! ## What the loop makes of it -/

section Loop

variable {settings : Settings} {host : Host} {ticket : String} {numbers : List ℕ} {rounds : List Round}
  {result : Except Exn Dict}

/-- The status counter has counted a success: `record_api_call` increments it first. -/
def CountsSuccess : TicketOp → Prop
  | .count status _ | .countStatus status => status = "success"
  | _ => False

/-- The breaker has recorded a success of the round, and the metrics have. -/
structure Round.Recorded (settings : Settings) (round : Round) : Prop where
  /-- The call that the breaker ran returned: `_on_success`. -/
  breaker : settings.cbEnabled = true ∧ ∃ answer, round.answer = .ok answer
  metrics : ∃ asked ∈ round.trace, CountsSuccess asked.1

/-- A round that is recorded as a success is the last one, and its object is returned. -/
def SuccessIsLast (settings : Settings) (rounds : List Round) (result : Except Exn Dict) : Prop :=
  ∀ before round after, rounds = before ++ round :: after → round.Recorded settings →
    after = [] ∧ ∃ fields tokens, round.answer = .ok (.object fields, tokens) ∧
      result = .ok (Dict.set fields "tokens" tokens)

/-- What was parsed is counted as a success, whether or not the token counter takes its tokens. -/
theorem successCount_counts (answer : Json × Json) :
    ∃ asked ∈ successCount (.ok answer), CountsSuccess asked.1 := by
  show ∃ asked ∈ countOf "success" answer.2, CountsSuccess asked.1
  unfold countOf
  split
  · exact ⟨_, List.mem_singleton_self _, rfl⟩
  · exact ⟨_, List.mem_singleton_self _, rfl⟩

/-- The trace received the response. -/
def Received (trace : TicketTrace) (response : Response) : Prop :=
  ∃ ticket attempt, (⟨.post ticket attempt, .ok response⟩ : Asked TicketOp TicketAnswer) ∈ trace

/-- **A recorded success is the last attempt** and its object the result, if and only if the
breaker is off or no response has a content that is JSON but no object. -/
theorem success_is_last_iff (reads : ReadsJson host.loads)
    (run : LoopRun settings host ticket numbers rounds result) :
    SuccessIsLast settings rounds result ↔
      (settings.cbEnabled = true →
        ∀ response, Received (rounds.flatMap Round.trace) response → ¬ Bare host response) := by
  constructor
  · rintro last enabled response ⟨_, attempt, member⟩ bare
    obtain ⟨value, tokens, read, other⟩ := (bare_iff reads).mp bare
    obtain ⟨round, inside, member⟩ := List.mem_flatMap.mp member
    obtain ⟨called, handled⟩ := run.round round inside
    obtain ⟨_, _, answered, shape⟩ := (received_round called handled).mp member
    have success : Except.bind (.ok response) (Response.read host) = .ok (value, tokens) := read
    have parsed : Except.bind (.ok response) (Response.parsed host) = .ok (value, tokens) :=
      (read_ok_iff_parsed.mp read).1
    rw [success] at answered
    rw [parsed] at shape
    obtain ⟨before, after, split⟩ := List.append_of_mem inside
    have recorded : round.Recorded settings := by
      obtain ⟨asked, counted, success⟩ := successCount_counts (value, tokens)
      refine ⟨⟨enabled, _, answered⟩, asked, List.mem_append_left _ ?_, success⟩
      have exchanged : asked ∈ exchanges round.called := by
        rw [shape]
        exact List.mem_cons_of_mem _ counted
      exact List.mem_of_mem_filter exchanged
    obtain ⟨_, fields, tokens', same, _⟩ := last before round after split recorded
    cases answered.symm.trans same
    exact other fields rfl
  · intro objects before round after split recorded
    obtain ⟨called, handled⟩ := run.round round (by rw [split]; simp)
    obtain ⟨enabled, ⟨value, tokens⟩, answered⟩ := recorded.breaker
    have object : ∃ fields, value = .object fields := by
      rcases called.exchanged with ⟨_, mock⟩ | ⟨response, read, shape⟩
      · exact ⟨mockClassification, congrArg Prod.fst (mock _ answered)⟩
      · cases response with
        | error e => cases answered.symm.trans read
        | ok response =>
            by_contra other
            refine objects enabled response ⟨ticket, round.number, ?_⟩ ((bare_iff reads).mpr ⟨value, tokens, ?_, ?_⟩)
            · apply List.mem_flatMap.mpr
              exact ⟨round, by rw [split]; simp, (received_round called handled).mpr ⟨rfl, rfl, read, shape⟩⟩
            · exact read.symm.trans answered
            · exact fun d same => other ⟨d, same⟩
    obtain ⟨fields, rfl⟩ := object
    have merged : round.answer.bind withTokens = .ok (Dict.set fields "tokens" tokens) := by
      rw [answered]
      rfl
    obtain ⟨nothing, returned⟩ := run.merged split merged
    exact ⟨nothing, fields, tokens, answered, returned⟩

/-- **The parse result is an object** or a `JSONDecodeError` exactly for the contents
that are not JSON for anything else. In a run of the call an attempt that the breaker and
the metrics have recorded as a success is the last one, and its object the result, exactly
if the breaker is off or no such content was received. -/
theorem parse_result_iff (reads : ReadsJson host.loads) :
    (∀ content, ObjectOrDecode (parseContent host.loads content) ↔ ObjectsOnly host.loads content) ∧
      ∀ settings ticket trace result, Runs (callWithRetry settings host ticket) trace result →
        (∃ rounds, RoundsOf settings host ticket trace result rounds) ∧
        ∀ rounds, RoundsOf settings host ticket trace result rounds →
          (SuccessIsLast settings rounds result ↔
            (settings.cbEnabled = true → ∀ response, Received trace response → ¬ Bare host response)) := by
  refine ⟨parse_object_iff reads, fun settings ticket trace result ran => ?_⟩
  refine ⟨callWithRetry_runs_iff.mp ran, fun rounds made => ?_⟩
  rw [made.made]
  exact success_is_last_iff reads made.run

end Loop

/-! ## Poles -/

section Poles

/-- A completion with its number of tokens. -/
def completion (content : String) (tokens : ℚ) : Response where
  statusCode := 200
  retryAfter := none
  json := .ok (.object [("choices", .array [.object [("message", .object [("content", .string content)])]]),
    ("usage", .object [("total_tokens", .number (.finite tokens))])])

theorem readCompletion_completion (content : String) (tokens : ℚ) :
    ∃ data, (completion content tokens).json = .ok data ∧
      readCompletion data = .ok (.string content, .number (.finite tokens)) := ⟨_, rfl, rfl⟩

/-- A completion is read as its content parses. -/
theorem completion_read {host : Host} {content : String} {tokens : ℚ} {value : Json} (nonneg : 0 ≤ tokens)
    (small : tokens < overflow) (parsed : parseContent host.loads content.toList = .ok value) :
    Except.bind (.ok (completion content tokens)) (Response.read host) =
      .ok (value, .number (.finite tokens)) := by
  obtain ⟨data, json, completed⟩ := readCompletion_completion content tokens
  apply read_ok_iff.mpr
  exact ⟨by simp [completion], data, content, json, completed, recorded_finite nonneg small, parsed⟩

/-- An object that was asked for is read. -/
theorem okText_objectsOnly : ObjectsOnly okLoads okText := by
  constructor
  · intro value read
    unfold okLoads knows at read
    split at read
    · cases read
      exact ⟨_, rfl⟩
    · cases read
  · intro before text after e _ _ failed
    unfold okLoads knows at failed
    split at failed
    · cases failed
    · cases failed
      rfl

def hostWith (loads : String → Except Exn Json) : Host where
  lower := id
  repr := id
  sha256 := id
  loads := loads

/-- Satisfiable pole: an object. -/
theorem parse_result_iff_object : ObjectOrDecode (parseContent okLoads okText) :=
  ((@parse_result_iff (hostWith okLoads) okLoads_reads).1 okText).mpr okText_objectsOnly

/-- `json.loads`, for the text `null`. -/
def nullLoads (asked : String) : Except Exn Json :=
  if asked = "null" then .ok .null
  else .error { kind := .jsonDecode, message := "Expecting value: line 1 column 1 (char 0)" }

theorem nullLoads_reads : ReadsJson nullLoads := by
  intro text value read
  unfold nullLoads at read
  split at read
  · next same =>
      cases read
      have blank : Blank [] := by simp [Blank]
      have document := DocumentText.around blank .null blank
      have letters := congrArg String.toList same
      rw [String.toList_ofList] at letters
      subst letters
      exact ⟨_, document, rfl⟩
  · cases read

theorem parse_null : parseContent nullLoads "null".toList = .ok .null := by
  have stripped : stripThinkTags "null".toList = "null".toList :=
    stripThinkTags_plain (by decide) (by decide)
  rw [parseContent_tried, tried, stripped]
  exact firstJson_of_ok _ rfl

/-- The first attempt is answered with the content `null`; the second is rejected. -/
def nullRounds : List Round :=
  [{ number := 1
     called := [⟨.admission 1, true⟩, ⟨.post "help" 1, .ok (completion "null" 5)⟩,
       ⟨.count "success" (.finite 5), ()⟩]
     answer := .ok (.null, .number (.finite 5))
     handled := [⟨.uniform 1, (0 : ℚ)⟩, ⟨.sleep (.finite (backoffForAttempt .defaults 1 * (1 + 0))), .ok ()⟩] },
   { number := 2
     called := [⟨.admission 2, false⟩]
     answer := .error { kind := .circuitBreakerOpen, message := "Circuit breaker is OPEN." }
     handled := [] }]

theorem nullRounds_run : LoopRun .defaults (hostWith nullLoads) "help" (List.range' 1 3) nullRounds
    (.ok (failureResult "help" "circuit_breaker_open")) := by
  have answered := @completion_read (hostWith nullLoads) "null" 5 .null (by norm_num) (lt_overflow (n := 5) (by decide)) parse_null
  have counted : successCount (.ok (.null, .number (.finite 5))) =
      [⟨.count "success" (.finite 5), ()⟩] := rfl
  have called := CallRun.ran (@SingleRun.requested .defaults (hostWith nullLoads) "help" 1 rfl
    (.ok (completion "null" 5)))
  have parsed : Except.bind (.ok (completion "null" 5)) (Response.parsed (hostWith nullLoads)) = _ :=
    (read_ok_iff_parsed.mp answered).1
  rw [answered, parsed, counted] at called
  have rejected := @CallRun.rejected .defaults (hostWith nullLoads) "help" 2 rfl
  refine LoopRun.again (guarded_runs_iff.mpr called) rfl (.ask (.ask (.done none))) ?_
  exact LoopRun.failed (guarded_runs_iff.mpr rejected) rfl (.done _)

/-- **Refuting pole.** The content `null` is returned as it is. The attempt is recorded
as a success, and is followed by another. -/
theorem bare_value_recorded :
    ReadsJson nullLoads ∧ ¬ ObjectOrDecode (parseContent nullLoads "null".toList) ∧
      Runs (callWithRetry .defaults (hostWith nullLoads) "help") (nullRounds.flatMap Round.trace)
        (.ok (failureResult "help" "circuit_breaker_open")) ∧
      LoopRun .defaults (hostWith nullLoads) "help" (List.range' 1 3) nullRounds
        (.ok (failureResult "help" "circuit_breaker_open")) ∧
      ¬ SuccessIsLast .defaults nullRounds (.ok (failureResult "help" "circuit_breaker_open")) := by
  refine ⟨nullLoads_reads, ?_, callWithRetry_runs_iff.mpr ⟨_, nullRounds_run, rfl⟩, nullRounds_run,
    fun last => ?_⟩
  · rw [parse_null]
    rintro (⟨d, same⟩ | ⟨e, failed, _⟩)
    · cases same
    · cases failed
  · obtain ⟨nothing, _⟩ := last [] _ _ rfl ⟨⟨rfl, _, rfl⟩, _, .tail _ (.tail _ (.head _)), rfl⟩
    cases nothing

end Poles

end InferenceForge.Pipeline
