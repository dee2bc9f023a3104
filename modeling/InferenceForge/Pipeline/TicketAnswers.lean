/-
# InferenceForge.Pipeline.TicketAnswers — what becomes of the upstream's answers

`answers` are the responses a ticket's coroutine has read, each with its
classification and its tokens: the successful upstream calls. A call of the
upstream returns the object of one of them or a failure record (`LoopRun.origin`).

The tokens of a ticket's result are those of the record it was served from the
cache, and those of the answers whose object it returns (`TicketRun.tokens`). The
tokens of the other answers are lost: an answer is no object, or the coroutine
raises when it stores the object.
-/
import InferenceForge.Pipeline.RetryRuns

namespace InferenceForge.Pipeline

open InferenceForge.Python InferenceForge.Library

set_option autoImplicit false

/-! ## The answers -/

section Answers

variable (host : Host)

/-- The classification and the tokens of a response that was read. -/
def answerOf : Asked TicketOp TicketAnswer → Option (Json × Json)
  | ⟨.post _ _, .ok response⟩ => (response.read host).toOption
  | _ => none

/-- The successful upstream calls. -/
def answers (trace : TicketTrace) : List (Json × Json) := trace.filterMap (answerOf host)

def isObject : Json × Json → Bool
  | (.object _, _) => true
  | _ => false

def tokenNumber (answer : Json × Json) : Number := answer.2.toNumber?.getD 0

/-- The sum of the tokens of answers. -/
def tokensIn (list : List (Json × Json)) : Number := (list.map tokenNumber).sum

/-- The tokens of a record, as they are summed up. -/
def tokensOf (record : Dict) : Number := ((Dict.get? record "tokens").getD (.number 0)).toNumber?.getD 0

variable {host} {trace : TicketTrace}

theorem answers_append (before after : TicketTrace) :
    answers host (before ++ after) = answers host before ++ answers host after := List.filterMap_append

theorem answerOf_of_silent {asked : Asked TicketOp TicketAnswer} (silent : isExchange asked.1 = false) :
    answerOf host asked = none := by
  unfold answerOf
  split
  · cases silent
  · rfl

theorem answers_exchanges : answers host (exchanges trace) = answers host trace := by
  unfold answers exchanges
  rw [List.filterMap_filter]
  apply List.filterMap_congr
  intro asked _
  cases exchange : isExchange asked.1 with
  | true => rfl
  | false => exact (answerOf_of_silent exchange).symm

/-- A request is answered by what its response is read to. -/
theorem answers_post (ticket : String) (attempt : ℕ) (response : Except Exn Response) :
    answers host (⟨.post ticket attempt, response⟩ :: trace) =
      (response.bind (Response.read host)).toOption.toList ++ answers host trace := by
  have split : answers host (⟨.post ticket attempt, response⟩ :: trace) =
      (answerOf host ⟨.post ticket attempt, response⟩).toList ++ answers host trace := by
    rw [answers, List.filterMap_cons]
    cases answerOf host ⟨.post ticket attempt, response⟩ <;> rfl
  rw [split]
  cases response <;> rfl

theorem answers_countOf (status : String) (tokenCount : Json) :
    answers host (countOf status tokenCount) = [] := by
  unfold countOf
  split <;> rfl

theorem answers_successCount (read : Except Exn (Json × Json)) : answers host (successCount read) = [] := by
  cases read with
  | error e => rfl
  | ok answer => exact answers_countOf "success" answer.2

theorem answers_handledCount (answer : Except Exn (Json × Json)) : answers host (handledCount answer) = [] := by
  unfold handledCount
  split
  · rfl
  · unfold statusCount
    split <;> rfl

/-- Answers are objects or not. -/
theorem tokensIn_split (list : List (Json × Json)) :
    tokensIn (list.filter isObject) + tokensIn (list.filter fun answer => !isObject answer) =
      tokensIn list := by
  unfold tokensIn
  induction list with
  | nil => exact add_zero 0
  | cons answer rest ih =>
      rw [List.map_cons, List.sum_cons, ← ih]
      cases object : isObject answer with
      | true => simp [object, add_assoc]
      | false => simp [object, add_left_comm]

end Answers

/-! ## The rounds of a call -/

section Loop

variable {settings : Settings} {host : Host} {ticket : String} {numbers : List ℕ} {rounds : List Round}
  {result : Except Exn Dict}

/-- What a round reads: its answer, unless the mock gave it. -/
theorem Round.reads {round : Round}
    (called : CallRun settings host ticket round.number round.called round.answer)
    (handled : round.Handled) :
    answers host round.trace = round.answer.toOption.toList ∨
      (answers host round.trace = [] ∧
        ∀ value, round.answer = .ok value → value = (.object mockClassification, .number (.finite 0))) := by
  rw [Round.trace, ← answers_exchanges, exchanges_append, handled.exchanges, answers_append,
    answers_handledCount, List.append_nil]
  rcases called.exchanged with ⟨quiet, mock⟩ | ⟨response, answered, shape⟩
  · rw [quiet]
    exact .inr ⟨rfl, mock⟩
  · left
    rw [shape, answers_post, answers_successCount, List.append_nil, answered]

/-- The object of an answer is what its round returns, with its tokens. -/
theorem withTokens_ok_iff {answer : Except Exn (Json × Json)} {record : Dict} :
    answer.bind withTokens = .ok record ↔
      ∃ fields tokens, answer = .ok (.object fields, tokens) ∧ record = Dict.set fields "tokens" tokens := by
  constructor
  · intro merged
    cases answer with
    | error e => cases merged
    | ok answer =>
        obtain ⟨value, tokens⟩ := answer
        cases value with
        | object fields =>
            cases merged
            exact ⟨fields, tokens, rfl, rfl⟩
        | null | bool | number | string | array => cases merged
  · rintro ⟨fields, tokens, rfl, rfl⟩
    rfl

theorem isObject_of_caught {answer : Json × Json} {e : Exn}
    (caught : Except.bind (.ok answer) withTokens = .error e) : isObject answer = false := by
  obtain ⟨value, tokens⟩ := answer
  cases value with
  | object fields => cases caught
  | null | bool | number | string | array => rfl

/-- A round whose `except` clause ran has read no object. -/
theorem Round.reads_no_object {round : Round} {e : Exn}
    (called : CallRun settings host ticket round.number round.called round.answer)
    (handled : round.Handled) (caught : round.answer.bind withTokens = .error e) :
    (answers host round.trace).filter isObject = [] := by
  rcases Round.reads called handled with read | ⟨none_, _⟩
  · rw [read]
    cases answered : round.answer with
    | error e => rfl
    | ok answer =>
        rw [answered] at caught
        have bare := isObject_of_caught caught
        simp [Except.toOption, bare]
  · rw [none_]
    rfl

/-- What a call of the upstream comes to. -/
inductive Origin (host : Host) (ticket : String) (trace : TicketTrace) : Except Exn Dict → Prop
  /-- It returns the object of an answer. -/
  | read (fields : Dict) (tokens : Json)
      (objects : (answers host trace).filter isObject = [(.object fields, tokens)]) :
      Origin host ticket trace (.ok (Dict.set fields "tokens" tokens))
  | mocked (none_ : (answers host trace).filter isObject = []) :
      Origin host ticket trace (.ok (Dict.set mockClassification "tokens" (.number 0)))
  | failed (error : String) (named : error ≠ "") (none_ : (answers host trace).filter isObject = []) :
      Origin host ticket trace (.ok (failureResult ticket error))
  | raised (e : Exn) (none_ : (answers host trace).filter isObject = []) :
      Origin host ticket trace (.error e)

/-- Rounds without objects may precede. -/
theorem Origin.cons {before after : TicketTrace} (quiet : (answers host before).filter isObject = [])
    (origin : Origin host ticket after result) : Origin host ticket (before ++ after) result := by
  have same : (answers host (before ++ after)).filter isObject = (answers host after).filter isObject := by
    rw [answers_append, List.filter_append, quiet, List.nil_append]
  cases origin with
  | read fields tokens objects => exact .read fields tokens (same.trans objects)
  | mocked none_ => exact .mocked (same.trans none_)
  | failed error named none_ => exact .failed error named (same.trans none_)
  | raised e none_ => exact .raised e (same.trans none_)

/-- **The result of a call** is the only object it has read, or there is none. -/
theorem LoopRun.origin (run : LoopRun settings host ticket numbers rounds result) :
    Origin host ticket (rounds.flatMap Round.trace) result := by
  induction run with
  | exhausted => exact .failed _ (by decide) rfl
  | @returned n rest called answer record ran merged =>
      obtain ⟨call, handled⟩ := (@LoopRun.returned _ _ _ _ rest _ _ _ ran merged).round _ List.mem_cons_self
      obtain ⟨fields, tokens, rfl, rfl⟩ := withTokens_ok_iff.mp merged
      rw [List.flatMap_singleton]
      rcases Round.reads call handled with read | ⟨none_, mock⟩
      · apply Origin.read fields tokens
        rw [read]
        rfl
      · cases mock _ rfl
        apply Origin.mocked
        rw [none_]
        rfl
  | @failed n rest called handled answer e record ran caught ended =>
      obtain ⟨call, handling⟩ := (@LoopRun.failed _ _ _ _ rest _ _ _ _ _ ran caught ended).round _ List.mem_cons_self
      obtain ⟨error, named, rfl⟩ := onError_returns settings host ticket n e _ _ ended _ rfl
      rw [List.flatMap_singleton]
      exact .failed error named (Round.reads_no_object call handling caught)
  | @raised n rest called handled answer e e' ran caught ended =>
      obtain ⟨call, handling⟩ := (@LoopRun.raised _ _ _ _ rest _ _ _ _ _ ran caught ended).round _ List.mem_cons_self
      rw [List.flatMap_singleton]
      exact .raised e' (Round.reads_no_object call handling caught)
  | @again n rest called handled answer e rounds result ran caught ended later ih =>
      obtain ⟨call, handling⟩ := (LoopRun.again ran caught ended later).round _ List.mem_cons_self
      rw [List.flatMap_cons]
      exact ih.cons (Round.reads_no_object call handling caught)

theorem callWithRetry_origin {trace : TicketTrace} (ran : Runs (callWithRetry settings host ticket) trace result) :
    Origin host ticket trace result := by
  obtain ⟨rounds, run, rfl⟩ := callWithRetry_runs_iff.mp ran
  exact run.origin

end Loop

/-! ## The tokens of a ticket -/

section Ticket

/-- The tokens of the record a ticket was served from the cache. -/
def servedTokens (trace : TicketTrace) : Number := ((trace.filterMap foundOf).map tokensOf).sum

def isStoreFault : Asked TicketOp TicketAnswer → Bool
  | ⟨.cacheSet _ _, .error _⟩ => true
  | _ => false

/-- Storing the classification raised. -/
def storeFaulted (trace : TicketTrace) : Bool := trace.any isStoreFault

/-- The tokens of the successful calls whose object the ticket returns. -/
def keptTokens (host : Host) (trace : TicketTrace) : Number :=
  if storeFaulted trace then 0 else tokensIn ((answers host trace).filter isObject)

/-- The tokens of the other successful calls. -/
def lostTokens (host : Host) (trace : TicketTrace) : Number :=
  tokensIn ((answers host trace).filter fun answer => !isObject answer) +
    if storeFaulted trace then tokensIn ((answers host trace).filter isObject) else 0

variable {settings : Settings} {host : Host} {ticket : String} {trace : TicketTrace}
  {result : Except Exn Dict}

theorem keptTokens_add_lostTokens :
    keptTokens host trace + lostTokens host trace = tokensIn (answers host trace) := by
  rw [← tokensIn_split (answers host trace), keptTokens, lostTokens]
  cases storeFaulted trace with
  | true => simp [add_comm]
  | false => simp

theorem foundOf_upstream (asked : Asked TicketOp TicketAnswer) (quiet : Upstream asked.1) :
    foundOf asked = none := by
  unfold foundOf
  split
  · exact quiet.elim
  · rfl

theorem isStoreFault_upstream (asked : Asked TicketOp TicketAnswer) (quiet : Upstream asked.1) :
    isStoreFault asked = false := by
  unfold isStoreFault
  split
  · exact quiet.elim
  · rfl

theorem tokensOf_set {record : Dict} {key : String} (ne : key ≠ "tokens") (value : Json) :
    tokensOf (Dict.set record key value) = tokensOf record := by
  rw [tokensOf, Dict.get?_set_of_ne record ne.symm, tokensOf]

theorem Origin.tokens {record : Dict} (origin : Origin host ticket trace (.ok record)) :
    tokensOf record = tokensIn ((answers host trace).filter isObject) := by
  generalize outcome : Except.ok record = result at origin
  cases origin with
  | read fields tokens objects =>
      cases outcome
      rw [objects, tokensOf, Dict.get?_set_self]
      exact (add_zero _).symm
  | mocked none_ =>
      cases outcome
      rw [none_]
      rfl
  | failed error named none_ =>
      cases outcome
      rw [none_]
      rfl
  | raised e none_ => cases outcome

theorem Origin.no_object {e : Exn} (origin : Origin host ticket trace (.error e)) :
    (answers host trace).filter isObject = [] := by
  generalize outcome : Except.error e = result at origin
  cases origin with
  | raised e' none_ => exact none_
  | read | mocked | failed => cases outcome

/-- The answers of a ticket that was not found are those of its upstream call. -/
theorem answers_missed {upstream last : TicketTrace} (silent : answers host last = []) :
    answers host (missed host ticket ++ (upstream ++ last)) = answers host upstream := by
  have looked : answers host (missed host ticket) = [] := rfl
  rw [answers_append, answers_append, looked, silent, List.nil_append, List.append_nil]

/-- It is served nothing, and a store that raises comes after its upstream call. -/
theorem missed_unserved {upstream last : TicketTrace}
    (called : Runs (callWithRetry settings host ticket) upstream result) (unfound : last.filterMap foundOf = []) :
    servedTokens (missed host ticket ++ (upstream ++ last)) = 0 ∧
      storeFaulted (missed host ticket ++ (upstream ++ last)) = storeFaulted last := by
  constructor
  · rw [servedTokens, filterMap_missed foundOf_upstream called, unfound]
    rfl
  · have looked : storeFaulted (missed host ticket) = false := rfl
    have stored : storeFaulted upstream = false := by
      apply List.any_eq_false.mpr
      intro asked member fault
      cases fault.symm.trans (isStoreFault_upstream asked (callWithRetry_upstream called asked member))
    unfold storeFaulted at looked stored ⊢
    rw [List.any_append, List.any_append, looked, stored, Bool.false_or, Bool.false_or]

/-- **The tokens of a ticket's result**: those it was served, and those of the calls
it keeps. -/
theorem TicketRun.tokens (run : TicketRun settings host ticket trace result) :
    tokensOf (settle ticket result) = servedTokens trace + keptTokens host trace := by
  cases run with
  | lookupRaised e => exact (add_zero 0).symm
  | hit cached =>
      have served : servedTokens [⟨.cacheGet (ticketKey host ticket), .ok (some cached)⟩] = tokensOf cached :=
        add_zero _
      have kept : keptTokens host [⟨.cacheGet (ticketKey host ticket), .ok (some cached)⟩] = 0 := rfl
      rw [served, kept, add_zero]
      exact tokensOf_set (by decide) _
  | raised upstream e called =>
      obtain ⟨served, faulted⟩ := @missed_unserved _ _ _ _ _ [⟨.release, ()⟩] called rfl
      rw [served, keptTokens, answers_missed rfl, faulted, zero_add, (callWithRetry_origin called).no_object]
      rfl
  | failed upstream record called error =>
      obtain ⟨served, faulted⟩ := @missed_unserved _ _ _ _ _ [⟨.release, ()⟩] called rfl
      have unfaulted : storeFaulted [(⟨.release, ()⟩ : Asked TicketOp TicketAnswer)] = false := rfl
      rw [served, keptTokens, answers_missed rfl, faulted, zero_add, unfaulted,
        ← (callWithRetry_origin called).tokens]
      exact tokensOf_set (by decide) _
  | classified upstream record stored called noError =>
      obtain ⟨served, faulted⟩ := @missed_unserved _ _ _ _ _ [⟨.release, ()⟩,
        ⟨.cacheSet (ticketKey host ticket) (Dict.drop record "cache_hit"), stored⟩] called rfl
      rw [served, keptTokens, answers_missed rfl, faulted, zero_add]
      cases stored with
      | error e => rfl
      | ok _ =>
          rw [← (callWithRetry_origin called).tokens]
          exact tokensOf_set (by decide) _

end Ticket

end InferenceForge.Pipeline
