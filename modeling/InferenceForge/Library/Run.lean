/-
# InferenceForge.Library.Run — guarded step functions and their runs

A system of interleaved parties is given by a guarded step function: `step s e`
is the state after event `e`, or `none` when `e` cannot happen in `s`. A run is
a list of events, executed from the left by `exec`. Every interleaving of the
parties is one such list, so "for any interleaving" is "for every run".

Two rules carry every run-level result:

* `exec_invariant`: what holds at the start and is kept by each step holds at
  the end of every run (and, since prefixes of runs are runs, at every moment);
* `exec_iff_along`: when each step extends a property exactly by a condition on
  that step, the property holds at the end of a run if and only if every step of
  the run met the condition.

`exec_halts` is for a program that runs alone: it halts where a measure decreases.

`Logged` is what is known of a log that records, again and again, the current value
of a quantity that only grows.
-/
import Mathlib.Data.List.Basic
import Mathlib.Order.Basic

namespace InferenceForge.Library

set_option autoImplicit false

variable {σ ι : Type}

/-- Execute a list of events from the left; `none` when one is not enabled. -/
def exec (step : σ → ι → Option σ) : σ → List ι → Option σ
  | s, [] => some s
  | s, e :: es => (step s e).bind fun t => exec step t es

/-- Every step of the run meets `C` at the state it is taken in. -/
def Along (step : σ → ι → Option σ) (C : σ → ι → Prop) : σ → List ι → Prop
  | _, [] => True
  | s, e :: es => C s e ∧ ∀ t, step s e = some t → Along step C t es

section Runs

variable {step : σ → ι → Option σ}

@[simp] theorem exec_nil (s : σ) : exec step s [] = some s := rfl

theorem exec_cons (s : σ) (e : ι) (es : List ι) :
    exec step s (e :: es) = (step s e).bind fun t => exec step t es := rfl

theorem exec_cons_eq_some {s u : σ} {e : ι} {es : List ι} :
    exec step s (e :: es) = some u ↔ ∃ t, step s e = some t ∧ exec step t es = some u := by
  rw [exec_cons, Option.bind_eq_some_iff]

theorem exec_append (step : σ → ι → Option σ) (s : σ) (es fs : List ι) :
    exec step s (es ++ fs) = (exec step s es).bind fun t => exec step t fs := by
  induction es generalizing s with
  | nil => rfl
  | cons e es ih =>
      rw [List.cons_append, exec_cons, exec_cons]
      cases step s e with
      | none => rfl
      | some t => exact ih t

/-- A run is taken along a condition step by step. -/
theorem Along.cons {C : σ → ι → Prop} {s t : σ} {e : ι} {es : List ι} (stepped : step s e = some t)
    (here : C s e) (rest : Along step C t es) : Along step C s (e :: es) := by
  refine ⟨here, fun t' stepped' => ?_⟩
  rw [stepped] at stepped'
  cases stepped'
  exact rest

/-- The invariant rule, for runs whose steps all meet a condition. -/
theorem exec_invariant_along {Inv : σ → Prop} {C : σ → ι → Prop}
    (keeps : ∀ s e t, Inv s → C s e → step s e = some t → Inv t) :
    ∀ (es : List ι) (s u : σ), Inv s → Along step C s es → exec step s es = some u → Inv u
  | [], s, u, inv, _, ran => by
      cases ran
      exact inv
  | e :: es, s, u, inv, along, ran => by
      obtain ⟨t, stepped, rest⟩ := exec_cons_eq_some.mp ran
      exact exec_invariant_along keeps es t u (keeps s e t inv along.1 stepped)
        (along.2 t stepped) rest

/-- A condition that looks at the event only holds along a run when it holds of
each of its events. -/
theorem along_of_forall {C : ι → Prop} :
    ∀ (es : List ι) (s : σ), (∀ e ∈ es, C e) → Along step (fun _ e => C e) s es
  | [], _, _ => trivial
  | e :: es, _, all =>
      ⟨all e List.mem_cons_self,
        fun t _ => along_of_forall es t fun f member => all f (List.mem_cons_of_mem e member)⟩

/-- The invariant rule. -/
theorem exec_invariant {Inv : σ → Prop}
    (keeps : ∀ s e t, Inv s → step s e = some t → Inv t)
    (es : List ι) (s u : σ) (inv : Inv s) (ran : exec step s es = some u) : Inv u :=
  exec_invariant_along (C := fun _ _ => True) (fun s e t inv _ => keeps s e t inv) es s u inv
    (along_of_forall es s fun _ _ => trivial) ran

/-- **Exactness over runs.** If every step from an invariant state extends `Good`
by exactly the condition `C` on that step, a run ends in `Good` if and only if
it started there and all its steps met `C`. -/
theorem exec_iff_along {Inv Good : σ → Prop} {C : σ → ι → Prop}
    (keeps : ∀ s e t, Inv s → step s e = some t → Inv t)
    (exact_step : ∀ s e t, Inv s → step s e = some t → (Good t ↔ Good s ∧ C s e)) :
    ∀ (es : List ι) (s u : σ), Inv s → exec step s es = some u →
      (Good u ↔ Good s ∧ Along step C s es)
  | [], s, u, _, ran => by
      cases ran
      simp [Along]
  | e :: es, s, u, inv, ran => by
      obtain ⟨t, stepped, rest⟩ := exec_cons_eq_some.mp ran
      rw [exec_iff_along keeps exact_step es t u (keeps s e t inv stepped) rest,
        exact_step s e t inv stepped]
      constructor
      · rintro ⟨⟨good, here⟩, along⟩
        exact ⟨good, along.cons stepped here⟩
      · rintro ⟨good, here, along⟩
        exact ⟨⟨good, here⟩, along t stepped⟩

/-- **Two levels.** Where a step commutes with an encoding of the states, so does a run whose
steps all meet the condition for it. -/
theorem exec_map {τ : Type} {step' : τ → ι → Option τ} {encode : σ → τ} {C : σ → ι → Prop}
    (commutes : ∀ s e, C s e → step' (encode s) e = (step s e).map encode) :
    ∀ (es : List ι) (s : σ), Along step C s es → exec step' (encode s) es = (exec step s es).map encode
  | [], _, _ => rfl
  | e :: es, s, along => by
      rw [exec_cons, exec_cons, commutes s e along.1]
      cases stepped : step s e with
      | none => rfl
      | some t => exact exec_map commutes es t (along.2 t stepped)

/-- What no step establishes has held all along if it holds at the end. -/
theorem along_of_end {C : σ → Prop} (before : ∀ s e t, step s e = some t → C t → C s) :
    ∀ (es : List ι) (s u : σ), exec step s es = some u → C u → C s ∧ Along step (fun t _ => C t) s es
  | [], s, u, ran, last => by
      cases ran
      exact ⟨last, trivial⟩
  | e :: es, s, u, ran, last => by
      obtain ⟨t, stepped, rest⟩ := exec_cons_eq_some.mp ran
      obtain ⟨next, along⟩ := along_of_end before es t u rest last
      have here := before s e t stepped next
      exact ⟨here, along.cons stepped here⟩

/-- **Termination.** A program, whose only event is its next step, halts where a
measure decreases with every step. -/
theorem exec_halts {next : σ → Unit → Option σ} (measure : σ → ℕ)
    (decreases : ∀ s t, next s () = some t → measure t < measure s) (s : σ) :
    ∃ steps t, steps.length ≤ measure s ∧ exec next s steps = some t ∧ next t () = none := by
  induction bound : measure s using Nat.strongRecOn generalizing s with
  | ind n ih =>
      subst bound
      cases stepped : next s () with
      | none => exact ⟨[], s, Nat.zero_le _, rfl, stepped⟩
      | some s' =>
          have less := decreases s s' stepped
          obtain ⟨steps, t, short, ran, halted⟩ := ih (measure s') less s' rfl
          refine ⟨() :: steps, t, ?_, exec_cons_eq_some.mpr ⟨s', stepped, ran⟩, halted⟩
          rw [List.length_cons]
          omega

end Runs

/-! ## Logs of a growing quantity -/

section Logs

variable {α : Type} [Preorder α]

/-- The values logged so far are in order, and the quantity is past them all. -/
structure Logged (log : List α) (now : α) : Prop where
  sorted : log.Pairwise (· ≤ ·)
  passed : ∀ value ∈ log, value ≤ now

theorem logged_nil (now : α) : Logged [] now := ⟨.nil, by simp⟩

theorem Logged.grow {log : List α} {now next : α} (logged : Logged log now) (le : now ≤ next) :
    Logged log next :=
  ⟨logged.sorted, fun value member => (logged.passed value member).trans le⟩

theorem Logged.record {log : List α} {now : α} (logged : Logged log now) :
    Logged (log ++ [now]) now := by
  constructor
  · refine List.pairwise_append.mpr ⟨logged.sorted, List.pairwise_singleton _ _, ?_⟩
    intro value member other last
    rw [List.mem_singleton.mp last]
    exact logged.passed value member
  · intro value member
    rcases List.mem_append.mp member with member | member
    · exact logged.passed value member
    · rw [List.mem_singleton.mp member]

end Logs

end InferenceForge.Library
