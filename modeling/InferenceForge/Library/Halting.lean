/-
# InferenceForge.Library.Halting — how many operations a program performs

`p.Costs cost n`: no run of `p` costs more than `n`, where each operation has its cost. It is
composed by a rule for each way of composing a program. At a cost of one for each operation it
is `p.Within n`: no run performs more than `n` operations.

A pool of programs that are within `n` each stops after `n` steps of each, whatever the
schedule and the answers (`Pool.exec_length_le`): a run that is continued as long as something
can go on is finite.
-/
import InferenceForge.Library.Refinement
import Mathlib.Data.Fintype.Card
import Mathlib.Algebra.GroupWithZero.Nat
import Mathlib.Algebra.Order.BigOperators.Group.Finset

namespace InferenceForge.Library

set_option autoImplicit false

variable {Op Op' : Type} {Answer : Op → Type} {Answer' : Op' → Type} {ε α β : Type}

/-- No run costs more than `n`, where an operation costs `cost`. -/
def Program.Costs (cost : Op → ℕ) : Program Op Answer ε α → ℕ → Prop
  | .done _, _ => True
  | .raise _, _ => True
  | .ask op next, n => ∃ m, n = m + cost op ∧ ∀ answer, (next answer).Costs cost m

/-- No run performs more than `n` operations. -/
abbrev Program.Within (p : Program Op Answer ε α) (n : ℕ) : Prop := p.Costs (fun _ => 1) n

/-- What the operations of a trace cost. -/
def costOf (cost : Op → ℕ) (trace : List (Asked Op Answer)) : ℕ := (trace.map fun asked => cost asked.1).sum

@[simp] theorem costOf_nil (cost : Op → ℕ) : costOf cost ([] : List (Asked Op Answer)) = 0 := rfl

theorem costOf_cons (cost : Op → ℕ) (asked : Asked Op Answer) (trace : List (Asked Op Answer)) :
    costOf cost (asked :: trace) = cost asked.1 + costOf cost trace := List.sum_cons

theorem costOf_append (cost : Op → ℕ) (before after : List (Asked Op Answer)) :
    costOf cost (before ++ after) = costOf cost before + costOf cost after := by
  rw [costOf, List.map_append, List.sum_append, costOf, costOf]

theorem costOf_one (trace : List (Asked Op Answer)) : costOf (fun _ => 1) trace = trace.length := by
  simp [costOf]

section Rules

variable {p : Program Op Answer ε α} {m n : ℕ} {cost : Op → ℕ}

theorem Program.Costs.mono (costs : p.Costs cost n) (le : n ≤ m) : p.Costs cost m := by
  induction p generalizing n m with
  | done value => trivial
  | raise error => trivial
  | ask op next ih =>
      obtain ⟨k, rfl, rest⟩ := costs
      exact ⟨m - cost op, by omega, fun answer => ih answer (rest answer) (by omega)⟩

theorem costs_pure {value : α} : (pure value : Program Op Answer ε α).Costs cost n := trivial

theorem costs_raise {error : ε} : (.raise error : Program Op Answer ε α).Costs cost n := trivial

theorem costs_perform (op : Op) : (Program.perform op : Program Op Answer ε (Answer op)).Costs cost (cost op) :=
  ⟨0, (Nat.zero_add _).symm, fun _ => trivial⟩

theorem costs_call {op : Op} {read : Answer op → Except ε α} :
    (Program.call op read : Program Op Answer ε α).Costs cost (cost op) := by
  refine ⟨0, (Nat.zero_add _).symm, fun answer => ?_⟩
  dsimp only
  split <;> trivial

theorem costs_ofResult (result : Except ε α) : (Program.ofResult result : Program Op Answer ε α).Costs cost n := by
  cases result <;> trivial

/-- A sequence, where what the first part returns bounds the second. -/
theorem costs_bind_of {P : α → Prop} {f : α → Program Op Answer ε β} (first : p.Costs cost n)
    (returns : p.Returns P) (second : ∀ value, P value → (f value).Costs cost m) : (p >>= f).Costs cost (n + m) := by
  change (p.bind f).Costs cost (n + m)
  induction p generalizing n with
  | done value => exact (second value (returns [] value (.done value))).mono (Nat.le_add_left _ _)
  | raise error => trivial
  | ask op next ih =>
      obtain ⟨k, rfl, rest⟩ := first
      refine ⟨k + m, by omega, fun answer => ih answer (rest answer) fun trace value ran => ?_⟩
      exact returns _ value (.ask ran)

theorem costs_bind {f : α → Program Op Answer ε β} (first : p.Costs cost n)
    (second : ∀ value, (f value).Costs cost m) : (p >>= f).Costs cost (n + m) :=
  costs_bind_of (P := fun _ => True) first (fun _ _ _ => trivial) fun value _ => second value

theorem costs_when {condition : Prop} [Decidable condition] {p : Program Op Answer ε Unit} (body : p.Costs cost n) :
    (p.when condition).Costs cost n := by
  unfold Program.when
  split
  · exact body
  · trivial

theorem costs_rescue {handler : ε → Program Op Answer ε α} (body : p.Costs cost n)
    (handled : ∀ error, (handler error).Costs cost m) : (p.rescue handler).Costs cost (n + m) := by
  induction p generalizing n with
  | done value => trivial
  | raise error => exact (handled error).mono (Nat.le_add_left _ _)
  | ask op next ih =>
      obtain ⟨k, rfl, rest⟩ := body
      exact ⟨k + m, by omega, fun answer => ih answer (rest answer)⟩

theorem costs_attempt (body : p.Costs cost n) : (p.attempt : Program Op Answer ε (Except ε α)).Costs cost n := by
  induction p generalizing n with
  | done value => trivial
  | raise error => trivial
  | ask op next ih =>
      obtain ⟨k, rfl, rest⟩ := body
      exact ⟨k, rfl, fun answer => ih answer (rest answer)⟩

theorem costs_tryFinally {cleanup : Program Op Answer ε Unit} (body : p.Costs cost n) (cleaned : cleanup.Costs cost m) :
    (p.tryFinally cleanup).Costs cost (n + m) :=
  costs_bind (costs_attempt body) fun result => costs_bind cleaned fun _ => costs_ofResult (n := 0) result

/-- A program that asks only for what is free costs nothing. -/
theorem costs_of_asks (asks : p.Asks fun op => cost op = 0) : p.Costs cost n := by
  induction p generalizing n with
  | done value => trivial
  | raise error => trivial
  | ask op next ih => exact ⟨n, by rw [asks.1, Nat.add_zero], fun answer => ih answer (asks.2 answer)⟩

theorem within_embed {inject : Op' → Op} {read : (op : Op') → Answer (inject op) → Answer' op}
    {q : Program Op' Answer' ε α} (within : q.Within n) :
    (q.embed inject read : Program Op Answer ε α).Within n := by
  induction q generalizing n with
  | done value => trivial
  | raise error => trivial
  | ask op next ih =>
      obtain ⟨k, rfl, rest⟩ := within
      exact ⟨k, rfl, fun answer => ih _ (rest _)⟩

/-- What was performed so far, and what is performed next, is within the bound. -/
theorem Program.Costs.leads {q : Program Op Answer ε α} {trace : List (Asked Op Answer)} (costs : p.Costs cost n)
    (leads : Leads p trace q) : ∃ m, n = m + costOf cost trace ∧ q.Costs cost m := by
  induction leads generalizing n with
  | refl p => exact ⟨n, rfl, costs⟩
  | @ask op next answer trace q rest ih =>
      obtain ⟨k, rfl, later⟩ := costs
      obtain ⟨m, rfl, ends⟩ := ih (later _)
      refine ⟨m, ?_, ends⟩
      rw [costOf_cons, Nat.add_comm (cost op), Nat.add_assoc]

theorem Program.Within.leads {q : Program Op Answer ε α} {trace : List (Asked Op Answer)} (within : p.Within n)
    (leads : Leads p trace q) : trace.length ≤ n := by
  obtain ⟨m, rfl, _⟩ := Program.Costs.leads within leads
  rw [costOf_one]
  exact Nat.le_add_left _ _

end Rules

/-! ## Pools -/

namespace Pool

variable {ι σ : Type} [DecidableEq ι] [Fintype ι] {serve : Serve Op Answer ι σ} {w w' : Pool Op Answer ε α ι σ}

/-- Each event of a schedule is one more operation in a trace. -/
theorem exec_length {schedule : List ι} (ran : exec (step serve) w schedule = some w') :
    ∑ i, (w'.traces i).length = ∑ i, (w.traces i).length + schedule.length := by
  induction schedule generalizing w with
  | nil =>
      cases ran
      rfl
  | cons i schedule ih =>
      obtain ⟨v, stepped, rest⟩ := exec_cons_eq_some.mp ran
      obtain ⟨op, next, answer, shared, _, _, rfl⟩ := step_cases stepped
      rw [ih rest, sum_served fun trace _ => trace.length,
        ← Finset.add_sum_erase _ (fun j => (w.traces j).length) (Finset.mem_univ i)]
      simp only [List.length_append, List.length_cons, List.length_nil]
      omega

/-- **No schedule goes on for ever.** -/
theorem exec_length_le {start : ι → Program Op Answer ε α} {shared : σ} {schedule : List ι} {n : ℕ}
    (within : ∀ i, (start i).Within n) (ran : exec (step serve) (init shared start) schedule = some w) :
    schedule.length ≤ Fintype.card ι * n := by
  have keeps : ∀ (v : Pool Op Answer ε α ι σ) (i : ι) (v' : Pool Op Answer ε α ι σ), Faithful start v →
      step serve v i = some v' → Faithful start v' := fun _ _ _ faithful stepped => faithful.step stepped
  have faithful := exec_invariant keeps schedule _ _ (faithful_init shared start) ran
  have counted := exec_length ran
  simp only [init, List.length_nil, Finset.sum_const_zero, Nat.zero_add] at counted
  rw [← counted, ← Finset.card_univ]
  exact Finset.sum_le_card_nsmul _ _ _ fun i _ => (within i).leads (faithful i)

end Pool

end InferenceForge.Library
