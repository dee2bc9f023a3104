/-
# InferenceForge.Library.MovingAverage — exponentially weighted averages

`movingAverage α first rest` starts at `first` and moves towards each further
observation by the share `α` of its distance. The weight of an observation so
shrinks by the factor `1 - α` with every later one (`movingAverage_eq_sum`). The
average stays between bounds of its observations, it grows with each of them, and
its distance from a constant shrinks by that factor when the constant is observed.
-/
import Mathlib.Algebra.Order.BigOperators.Group.Finset
import Mathlib.Algebra.BigOperators.Intervals
import Mathlib.Algebra.BigOperators.Ring.Finset
import Mathlib.Algebra.Order.Field.Basic
import Mathlib.Tactic.Ring
import Mathlib.Tactic.Linarith

namespace InferenceForge.Library

set_option autoImplicit false

variable {K : Type} [Field K]

def movingAverage (α first : K) (rest : List K) : K :=
  rest.foldl (fun average x => α * x + (1 - α) * average) first

section Equations

variable {α first : K}

@[simp] theorem movingAverage_nil : movingAverage α first [] = first := rfl

@[simp] theorem movingAverage_cons (x : K) (rest : List K) :
    movingAverage α first (x :: rest) = movingAverage α (α * x + (1 - α) * first) rest := rfl

@[simp] theorem movingAverage_append (before after : List K) :
    movingAverage α first (before ++ after) = movingAverage α (movingAverage α first before) after :=
  List.foldl_append

/-- **The closed form**, for the observations `x 1`, …, `x (m + 1)`. -/
theorem movingAverage_eq_sum (α : K) (x : ℕ → K) (m : ℕ) :
    movingAverage α (x 1) ((List.range' 2 m).map x) =
      (1 - α) ^ m * x 1 + ∑ i ∈ Finset.Icc 2 (m + 1), α * (1 - α) ^ (m + 1 - i) * x i := by
  induction m with
  | zero => simp
  | succ m ih =>
      -- every weight so far is multiplied by `1 - α`
      have shrink : ∀ i ∈ Finset.Icc 2 (m + 1),
          α * (1 - α) ^ (m + 2 - i) * x i = (1 - α) * (α * (1 - α) ^ (m + 1 - i) * x i) := by
        intro i member
        have le := (Finset.mem_Icc.mp member).2
        rw [show m + 2 - i = (m + 1 - i) + 1 by omega]
        ring
      have next : List.range' 2 (m + 1) = List.range' 2 m ++ [m + 2] := by
        rw [List.range'_concat, one_mul, Nat.add_comm]
      have last : ∑ i ∈ Finset.Icc 2 (m + 2), α * (1 - α) ^ (m + 2 - i) * x i =
          (1 - α) * ∑ i ∈ Finset.Icc 2 (m + 1), α * (1 - α) ^ (m + 1 - i) * x i + α * x (m + 2) := by
        rw [Finset.sum_Icc_succ_top (by omega), Finset.sum_congr rfl shrink, ← Finset.mul_sum,
          Nat.sub_self, pow_zero, mul_one]
      rw [next, List.map_append, movingAverage_append, ih, last]
      simp only [List.map_cons, List.map_nil, movingAverage_cons, movingAverage_nil]
      ring

/-- Constant observations pull the average to the constant. -/
theorem movingAverage_replicate (α first c : K) (k : ℕ) :
    movingAverage α first (List.replicate k c) - c = (1 - α) ^ k * (first - c) := by
  induction k generalizing first with
  | zero => simp
  | succ k ih =>
      rw [List.replicate_succ, movingAverage_cons, ih]
      ring

end Equations

section Order

variable [LinearOrder K] [IsStrictOrderedRing K] {α : K}

/-- A step stays below what bounds the average and the observation. -/
theorem move_le (nonneg : 0 ≤ α) (le_one : α ≤ 1) {x average bound : K} (observed : x ≤ bound)
    (before : average ≤ bound) : α * x + (1 - α) * average ≤ bound := by
  have left := mul_le_mul_of_nonneg_left observed nonneg
  have right := mul_le_mul_of_nonneg_left before (sub_nonneg.mpr le_one)
  linarith

theorem le_move (nonneg : 0 ≤ α) (le_one : α ≤ 1) {x average bound : K} (observed : bound ≤ x)
    (before : bound ≤ average) : bound ≤ α * x + (1 - α) * average := by
  have left := mul_le_mul_of_nonneg_left observed nonneg
  have right := mul_le_mul_of_nonneg_left before (sub_nonneg.mpr le_one)
  linarith

/-- The average stays between bounds of the observations. -/
theorem movingAverage_mem_bounds (nonneg : 0 ≤ α) (le_one : α ≤ 1) {lower upper first : K} {rest : List K}
    (begun : lower ≤ first ∧ first ≤ upper) (observed : ∀ x ∈ rest, lower ≤ x ∧ x ≤ upper) :
    lower ≤ movingAverage α first rest ∧ movingAverage α first rest ≤ upper := by
  induction rest generalizing first with
  | nil => exact begun
  | cons x rest ih =>
      obtain ⟨here, later⟩ := List.forall_mem_cons.mp observed
      rw [movingAverage_cons]
      apply ih _ later
      exact ⟨le_move nonneg le_one here.1 begun.1, move_le nonneg le_one here.2 begun.2⟩

/-- The average grows with its observations. -/
theorem movingAverage_mono (nonneg : 0 ≤ α) (le_one : α ≤ 1) {first first' : K} {rest rest' : List K}
    (begun : first ≤ first') (observed : List.Forall₂ (· ≤ ·) rest rest') :
    movingAverage α first rest ≤ movingAverage α first' rest' := by
  induction observed generalizing first first' with
  | nil => exact begun
  | cons here _ ih =>
      rw [movingAverage_cons, movingAverage_cons]
      apply ih
      have left := mul_le_mul_of_nonneg_left here nonneg
      have right := mul_le_mul_of_nonneg_left begun (sub_nonneg.mpr le_one)
      linarith

/-- The distance from a constant shrinks by the same factor. -/
theorem abs_movingAverage_replicate (le_one : α ≤ 1) (first c : K) (k : ℕ) :
    |movingAverage α first (List.replicate k c) - c| = (1 - α) ^ k * |first - c| := by
  rw [movingAverage_replicate, abs_mul, abs_of_nonneg (pow_nonneg (sub_nonneg.mpr le_one) k)]

end Order

end InferenceForge.Library
