/-
# InferenceForge.Library.Retry — a policy of attempts and waits

`retry decision wait exhausted k n` makes the attempts `k`, `k + 1`, … until one
decides, at most `n` of them, and waits behind each but the last. Its report is known
from the first attempt that decides (`retry_of_decided`, `retry_of_undecided`).

`sum_map_le_of_doubling` bounds what a policy waits in all, if its waits at most double.
-/
import Mathlib.Algebra.Order.Ring.Defs
import Mathlib.Algebra.BigOperators.Group.List.Basic
import Mathlib.Tactic.Ring
import Mathlib.Tactic.Linarith

namespace InferenceForge.Library

set_option autoImplicit false

/-- What was done: the attempts, each with the waits behind it, and the result. -/
structure Report (ρ κ : Type) where
  log : List (ℕ × List κ)
  result : ρ

section Policy

variable {ρ κ : Type} (decision : ℕ → Option ρ) (wait : ℕ → κ) (exhausted : ρ)

def retry : ℕ → ℕ → Report ρ κ
  | _, 0 => ⟨[], exhausted⟩
  | k, n + 1 =>
      match decision k with
      | some result => ⟨[(k, [])], result⟩
      | none =>
          let later := retry (k + 1) n
          ⟨(k, if n = 0 then [] else [wait k]) :: later.log, later.result⟩

/-- The attempts from `k` to `k + m`, with one wait between two of them. -/
def spacedLog (k m : ℕ) : List (ℕ × List κ) :=
  (List.range' k m).map (fun i => (i, [wait i])) ++ [(k + m, [])]

variable {decision wait exhausted} {k m n : ℕ}

theorem spacedLog_zero (wait : ℕ → κ) (k : ℕ) : spacedLog wait k 0 = [(k, [])] := rfl

theorem spacedLog_succ (wait : ℕ → κ) (k m : ℕ) :
    spacedLog wait k (m + 1) = (k, [wait k]) :: spacedLog wait (k + 1) m := by
  rw [spacedLog, spacedLog, List.range'_succ, List.map_cons, List.cons_append, Nat.add_right_comm, Nat.add_assoc]

@[simp] theorem spacedLog_length (wait : ℕ → κ) (k m : ℕ) : (spacedLog wait k m).length = m + 1 := by
  simp [spacedLog]

theorem spacedLog_numbers (wait : ℕ → κ) (k m : ℕ) : (spacedLog wait k m).map Prod.fst = List.range' k (m + 1) := by
  simp [spacedLog, List.range'_1_concat, Function.comp_def]

theorem spacedLog_waits (wait : ℕ → κ) (k m : ℕ) :
    (spacedLog wait k m).flatMap Prod.snd = (List.range' k m).map wait := by
  simp only [spacedLog, List.flatMap_append, List.flatMap_map, List.flatMap_singleton, List.append_nil]
  exact List.flatMap_pure_eq_map wait _

theorem mem_spacedLog {i : ℕ} {waits : List κ} (member : (i, waits) ∈ spacedLog wait k m) :
    waits = if i < k + m then [wait i] else [] := by
  rcases List.mem_append.mp member with earlier | last
  · obtain ⟨j, inside, same⟩ := List.mem_map.mp earlier
    cases same
    rw [if_pos (List.mem_range'_1.mp inside).2]
  · cases List.mem_singleton.mp last
    rw [if_neg (lt_irrefl _)]

/-- **The report of a policy** whose attempt `k + m` is the first to decide. -/
theorem retry_of_decided {result : ρ} (before : ∀ j, k ≤ j → j < k + m → decision j = none)
    (decides : decision (k + m) = some result) (inside : m < n) :
    retry decision wait exhausted k n = ⟨spacedLog wait k m, result⟩ := by
  induction m generalizing k n with
  | zero =>
      obtain ⟨n, rfl⟩ : ∃ n', n = n' + 1 := ⟨n - 1, by omega⟩
      have first : decision k = some result := decides
      rw [retry, first, spacedLog_zero]
  | succ m ih =>
      obtain ⟨n, rfl⟩ : ∃ n', n = n' + 1 := ⟨n - 1, by omega⟩
      have later : retry decision wait exhausted (k + 1) n = ⟨spacedLog wait (k + 1) m, result⟩ := by
        apply ih
        · intro j le lt
          exact before j (by omega) (by omega)
        · rwa [Nat.add_right_comm, Nat.add_assoc]
        · omega
      rw [retry, before k le_rfl (by omega), spacedLog_succ]
      simp only [later, if_neg (show ¬ n = 0 by omega)]

/-- The report of a policy none of whose attempts decides. -/
theorem retry_of_undecided (open_ : ∀ j, k ≤ j → j < k + (n + 1) → decision j = none) :
    retry decision wait exhausted k (n + 1) = ⟨spacedLog wait k n, exhausted⟩ := by
  induction n generalizing k with
  | zero =>
      rw [retry, open_ k le_rfl (by omega)]
      rfl
  | succ n ih =>
      have later := ih (k := k + 1) fun j le lt => open_ j (by omega) (by omega)
      rw [retry, open_ k le_rfl (by omega), spacedLog_succ]
      simp only [later, if_neg (Nat.succ_ne_zero n)]

/-- The attempts are made in order, with one wait between two of them. -/
theorem retry_log (decision : ℕ → Option ρ) (wait : ℕ → κ) (exhausted : ρ) (k n : ℕ) :
    ∃ m ≤ n, (retry decision wait exhausted k (n + 1)).log = spacedLog wait k m := by
  by_cases decided : ∃ m, m < n + 1 ∧ (decision (k + m)).isSome
  · classical
    have first := Nat.find_spec decided
    obtain ⟨result, decides⟩ := Option.isSome_iff_exists.mp first.2
    refine ⟨Nat.find decided, by omega, ?_⟩
    rw [retry_of_decided (fun j le lt => ?_) decides first.1]
    -- an attempt before the first does not decide
    by_contra some_
    apply Nat.find_min decided (m := j - k) (by omega)
    rw [Nat.add_sub_cancel' le]
    exact ⟨by omega, Option.isSome_iff_ne_none.mpr some_⟩
  · refine ⟨n, le_rfl, ?_⟩
    rw [retry_of_undecided fun j le lt => ?_]
    by_contra some_
    apply decided
    refine ⟨j - k, by omega, ?_⟩
    rw [Nat.add_sub_cancel' le]
    exact Option.isSome_iff_ne_none.mpr some_

end Policy

/-! ## How long a policy waits -/

section Total

variable {K : Type} [CommRing K] [LinearOrder K] [IsStrictOrderedRing K]

/-- Waits that at most double add up to less than twice the last. -/
theorem sum_map_le_of_doubling {wait : ℕ → K} {c : K} {m : ℕ}
    (bounded : ∀ i, 1 ≤ i → i ≤ m → wait i ≤ c * 2 ^ (i - 1)) :
    ((List.range' 1 m).map wait).sum ≤ c * (2 ^ m - 1) := by
  induction m with
  | zero => simp
  | succ m ih =>
      have before := ih fun i le lt => bounded i le (by omega)
      have last := bounded (m + 1) (by omega) le_rfl
      rw [Nat.add_sub_cancel] at last
      rw [List.range'_1_concat, List.map_append, List.sum_append, List.map_singleton, List.sum_singleton,
        Nat.add_comm 1 m]
      calc ((List.range' 1 m).map wait).sum + wait (m + 1)
          ≤ c * (2 ^ m - 1) + c * 2 ^ m := add_le_add before last
        _ = c * (2 ^ (m + 1) - 1) := by ring

end Total

end InferenceForge.Library
