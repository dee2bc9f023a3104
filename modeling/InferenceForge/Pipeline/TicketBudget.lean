/-
# InferenceForge.Pipeline.TicketBudget — what a ticket may cost

A ticket makes at most `max_retries` attempts, each of which sends at most one request
(`processTicket_posts`) and awaits a bounded number of operations (`processTicket_within`).
-/
import InferenceForge.Pipeline.GuardedCalls

namespace InferenceForge.Pipeline

open InferenceForge.Python InferenceForge.Library

set_option autoImplicit false

section Ticket

variable {settings : Settings} {host : Host} {ticket : String} {cost : TicketOp → ℕ}

/-- The loop, from what an attempt and the handlers of its exceptions cost. -/
theorem attempts_costs {a b : ℕ} (tried : ∀ k, (tryAttempt settings host ticket k).Costs cost a)
    (handled : ∀ k e, (onError settings host ticket k e).Costs cost b) (remaining : List ℕ) :
    (attempts settings host ticket remaining).Costs cost (remaining.length * (a + b)) := by
  induction remaining with
  | nil => trivial
  | cons attempt rest ih =>
      rw [List.length_cons, Nat.succ_mul, Nat.add_comm]
      refine costs_bind (costs_rescue (tried attempt) (handled attempt)) fun ended => ?_
      cases ended with
      | some result => trivial
      | none => exact ih

theorem callWithRetry_costs {a b : ℕ} (tried : ∀ k, (tryAttempt settings host ticket k).Costs cost a)
    (handled : ∀ k e, (onError settings host ticket k e).Costs cost b) :
    (callWithRetry settings host ticket).Costs cost (settings.maxRetries * (a + b)) := by
  have looped := attempts_costs tried handled (List.range' 1 settings.maxRetries)
  rwa [List.length_range'] at looped

/-- A ticket, from what its call costs, if no operation around the call costs more than `c`. -/
theorem processTicket_costs {n c : ℕ} (around : ∀ op, ¬ InCall op → cost op ≤ c)
    (called : (callWithRetry settings host ticket).Costs cost n) :
    (processTicket settings host ticket).Costs cost (n + 4 * c) := by
  have performed : ∀ op, ¬ InCall op → (await op).Costs cost c := fun op outside =>
    (costs_perform op).mono (around op outside)
  have looked : (cacheGet host ticket).Costs cost c := costs_call.mono (around _ id)
  have stored : ∀ value, (cacheSet host ticket value).Costs cost c := fun value => costs_call.mono (around _ id)
  have whole : (processTicket settings host ticket).Costs cost (c + (c + ((n + c) + (c + 0)))) := by
    refine costs_bind looked fun cached => ?_
    cases cached with
    | some cached => trivial
    | none =>
        refine costs_bind (performed .acquire id) fun _ => ?_
        refine costs_bind (costs_tryFinally called (performed .release id)) fun result => ?_
        exact costs_bind (costs_when (stored _)) fun _ => costs_pure
  exact whole.mono (by omega)

/-! ## Operations -/

theorem tryAttempt_within (attempt : ℕ) : (tryAttempt settings host ticket attempt).Within (4 + 0) := by
  have called : (singleApiCall settings host ticket attempt).Within 3 := Composed.singleApiCall_within attempt
  refine costs_bind (m := 0) ?_ fun answer => ?_
  · unfold guarded
    split
    · refine costs_bind (n := 1) (m := 3) (costs_perform _) fun admitted => ?_
      split
      · exact called
      · trivial
    · exact called.mono (by omega)
  · split <;> trivial

/-- **A ticket ends** after a bounded number of operations. -/
theorem processTicket_within : (processTicket settings host ticket).Within (settings.maxRetries * 7 + 4) :=
  processTicket_costs (c := 1) (fun _ _ => Nat.le_refl 1)
    (callWithRetry_costs (b := 3) tryAttempt_within Composed.onError_within)

/-! ## Requests -/

/-- The requests of an operation. -/
def posts : TicketOp → ℕ
  | .post _ _ => 1
  | _ => 0

theorem waiting_posts : ∀ op, Waiting op → posts op = 0
  | .uniform _, _ | .sleep _, _ => rfl

theorem recordApiCall_posts (status : String) (tokenCount : Json) {n : ℕ} :
    (recordApiCall status tokenCount).Costs posts n :=
  Composed.costs_recordApiCall (fun _ => Nat.zero_le n) (Nat.zero_le n)

theorem onError_posts (attempt : ℕ) (e : Exn) : (onError settings host ticket attempt e).Costs posts 0 := by
  have silent : ∀ {α : Type} {p : Coroutine α}, p.Asks Waiting → p.Costs posts 0 := fun waits =>
    costs_of_asks (waits.mono waiting_posts)
  unfold onError
  split
  · trivial
  · refine costs_bind (n := 0) (m := 0) (recordApiCall_posts _ _) fun _ => ?_
    exact silent (statusHandler_waits settings host ticket attempt _ _)
  · exact silent (retry_waits settings attempt)
  · exact silent (retry_waits settings attempt)
  · trivial

theorem singleApiCall_posts (attempt : ℕ) : (singleApiCall settings host ticket attempt).Costs posts 1 := by
  have read : ∀ response, (readResponse host response).Costs posts 0 := by
    intro response
    unfold readResponse
    split
    · trivial
    · refine costs_bind (n := 0) (m := 0) (costs_ofResult _) fun data => ?_
      refine costs_bind (n := 0) (m := 0) (costs_ofResult _) fun found => ?_
      refine costs_bind (n := 0) (m := 0) (costs_ofResult _) fun result => ?_
      exact costs_bind (n := 0) (m := 0) (recordApiCall_posts _ _) fun _ => costs_pure
  unfold singleApiCall
  split
  · refine costs_bind (n := 0) (m := 1) (costs_when ?_) fun _ => costs_pure
    exact costs_call
  · refine costs_bind (n := 0) (m := 1) (costs_when (costs_perform _)) fun _ => ?_
    exact costs_bind (n := 1) (m := 0) costs_call read

theorem tryAttempt_posts (attempt : ℕ) : (tryAttempt settings host ticket attempt).Costs posts 1 := by
  have called : (singleApiCall settings host ticket attempt).Costs posts 1 := singleApiCall_posts attempt
  refine costs_bind (n := 1) (m := 0) ?_ fun answer => ?_
  · unfold guarded
    split
    · refine costs_bind (n := 0) (m := 1) (costs_perform _) fun admitted => ?_
      split
      · exact called
      · trivial
    · exact called
  · split <;> trivial

/-- **A ticket sends** at most one request for each attempt. -/
theorem processTicket_posts : (processTicket settings host ticket).Costs posts settings.maxRetries := by
  have around : ∀ op, ¬ InCall op → posts op ≤ 0 := by
    intro op outside
    cases op with
    | post ticket attempt => exact absurd trivial outside
    | _ => exact Nat.le_refl 0
  have whole := processTicket_costs around (callWithRetry_costs (@tryAttempt_posts settings host ticket) onError_posts)
  simpa using whole

end Ticket

end InferenceForge.Pipeline
