/-
# InferenceForge.Library.Quantile — quantiles with linear interpolation

`nthLeast samples k` is the `k`-th smallest sample, counted from 0. The `q`-quantile lies at the place
`q * (n - 1)` of the sorted samples and is interpolated between the ranks around it.

It is between every two bounds of the samples, it grows with `q`, and it does not
depend on their order. It has the share `q` of the samples on its left: more than
`q * (n - 1)` of them are at it or below, and less than `q * (n - 1) + 1` are below.
-/
import Mathlib.Algebra.Order.Floor.Semiring
import Mathlib.Algebra.Order.Field.Basic
import Mathlib.Data.List.Sort
import Mathlib.Tactic.Linarith

namespace InferenceForge.Library

set_option autoImplicit false

/-! ## The samples in order -/

section Order

variable {K : Type} [LinearOrder K] [Zero K] {samples samples' : List K} {j k : ℕ}

/-- The `k`-th smallest sample, and the greatest from there on. -/
def nthLeast (samples : List K) (k : ℕ) : K :=
  (samples.insertionSort (· ≤ ·)).getD (min k (samples.length - 1)) 0

theorem nthLeast_perm (perm : samples.Perm samples') (k : ℕ) : nthLeast samples k = nthLeast samples' k := by
  have sorted : samples.insertionSort (· ≤ ·) = samples'.insertionSort (· ≤ ·) :=
    (((List.perm_insertionSort _ samples).trans perm).trans
      (List.perm_insertionSort _ samples').symm).eq_of_pairwise'
        (List.pairwise_insertionSort _ _) (List.pairwise_insertionSort _ _)
  rw [nthLeast, nthLeast, sorted, perm.length_eq]

theorem nthLeast_eq_getElem (inside : k < (samples.insertionSort (· ≤ ·)).length) :
    nthLeast samples k = (samples.insertionSort (· ≤ ·))[k] := by
  have last : min k (samples.length - 1) = k := by
    rw [List.length_insertionSort] at inside
    omega
  rw [nthLeast, last, List.getD_eq_getElem?_getD, List.getElem?_eq_getElem inside, Option.getD_some]

theorem nthLeast_min (samples : List K) (k : ℕ) : nthLeast samples (min k (samples.length - 1)) = nthLeast samples k := by
  simp [nthLeast]

theorem nthLeast_mem (some : samples ≠ []) (k : ℕ) : nthLeast samples k ∈ samples := by
  have positive := List.length_pos_iff.mpr some
  rw [← nthLeast_min, nthLeast_eq_getElem (by rw [List.length_insertionSort]; omega)]
  exact (List.mem_insertionSort _).mp (List.getElem_mem _)

theorem nthLeast_mono (le : j ≤ k) : nthLeast samples j ≤ nthLeast samples k := by
  rcases samples.eq_nil_or_concat' with rfl | ⟨_, _, rfl⟩
  · simp [nthLeast]
  · generalize some : _ ++ [_] = samples
    have positive : 0 < samples.length := by simp [← some]
    rw [← nthLeast_min samples j, ← nthLeast_min samples k]
    have inside : min k (samples.length - 1) < (samples.insertionSort (· ≤ ·)).length := by
      rw [List.length_insertionSort]
      omega
    have before : min j (samples.length - 1) ≤ min k (samples.length - 1) := by omega
    rw [nthLeast_eq_getElem (before.trans_lt inside), nthLeast_eq_getElem inside]
    rcases before.eq_or_lt with same | lt
    · simp only [same, le_refl]
    · exact List.pairwise_iff_getElem.mp (List.pairwise_insertionSort (· ≤ ·) samples) _ _ _ inside lt

/-- The first `k + 1` samples of the sorted list are at the rank `k` or below. -/
theorem lt_countP_le_nthLeast (inside : k < samples.length) : k < samples.countP (· ≤ nthLeast samples k) := by
  have sorted := List.perm_insertionSort (· ≤ ·) samples
  have long : k < (samples.insertionSort (· ≤ ·)).length := by rwa [List.length_insertionSort]
  have below : ∀ x ∈ (samples.insertionSort (· ≤ ·)).take (k + 1),
      decide (x ≤ nthLeast samples k) = true := by
    intro x member
    obtain ⟨i, bound, rfl⟩ := List.mem_iff_getElem.mp member
    rw [List.length_take] at bound
    rw [List.getElem_take, ← nthLeast_eq_getElem, decide_eq_true_eq]
    exact nthLeast_mono (by omega)
  calc k < ((samples.insertionSort (· ≤ ·)).take (k + 1)).length := by
        rw [List.length_take]
        omega
    _ = ((samples.insertionSort (· ≤ ·)).take (k + 1)).countP (· ≤ nthLeast samples k) :=
        (List.countP_eq_length.mpr below).symm
    _ ≤ (samples.insertionSort (· ≤ ·)).countP (· ≤ nthLeast samples k) :=
        (List.take_sublist _ _).countP_le
    _ = samples.countP (· ≤ nthLeast samples k) := sorted.countP_eq _

/-- From the rank `k` on no sample of the sorted list is below it. -/
theorem countP_lt_nthLeast_le (samples : List K) (k : ℕ) : samples.countP (· < nthLeast samples k) ≤ k := by
  have sorted := List.perm_insertionSort (· ≤ ·) samples
  have above : ∀ x ∈ (samples.insertionSort (· ≤ ·)).drop k, ¬ decide (x < nthLeast samples k) = true := by
    intro x member
    obtain ⟨i, bound, rfl⟩ := List.mem_iff_getElem.mp member
    rw [List.getElem_drop, ← nthLeast_eq_getElem, decide_eq_true_eq, not_lt]
    exact nthLeast_mono (by omega)
  calc samples.countP (· < nthLeast samples k)
      = (samples.insertionSort (· ≤ ·)).countP (· < nthLeast samples k) := (sorted.countP_eq _).symm
    _ = ((samples.insertionSort (· ≤ ·)).take k).countP (· < nthLeast samples k) +
          ((samples.insertionSort (· ≤ ·)).drop k).countP (· < nthLeast samples k) := by
        rw [← List.countP_append, List.take_append_drop]
    _ = ((samples.insertionSort (· ≤ ·)).take k).countP (· < nthLeast samples k) := by
        rw [List.countP_eq_zero.mpr above, Nat.add_zero]
    _ ≤ ((samples.insertionSort (· ≤ ·)).take k).length := List.countP_le_length
    _ ≤ k := List.length_take_le k _

end Order

/-! ## Quantiles -/

section Quantiles

variable {K : Type} [Field K] [LinearOrder K] [IsStrictOrderedRing K]

/-- Where the `q`-quantile lies among the sorted samples. -/
def place (q : K) (samples : List K) : K := q * ((samples.length - 1 : ℕ) : K)

variable [FloorSemiring K]

def quantile (q : K) (samples : List K) : K :=
  nthLeast samples ⌊place q samples⌋₊ +
    (nthLeast samples (⌊place q samples⌋₊ + 1) - nthLeast samples ⌊place q samples⌋₊) *
      (place q samples - ⌊place q samples⌋₊)

variable {q q' : K} {samples samples' : List K}

omit [IsStrictOrderedRing K] in
theorem quantile_perm (perm : samples.Perm samples') (q : K) : quantile q samples = quantile q samples' := by
  simp only [quantile, place, nthLeast_perm perm, perm.length_eq]

omit [FloorSemiring K] in
theorem place_nonneg (nonneg : 0 ≤ q) (samples : List K) : 0 ≤ place q samples :=
  mul_nonneg nonneg (Nat.cast_nonneg _)

omit [FloorSemiring K] in
theorem place_mono (le : q ≤ q') (samples : List K) : place q samples ≤ place q' samples :=
  mul_le_mul_of_nonneg_right le (Nat.cast_nonneg _)

theorem nthLeast_floor_le_quantile (nonneg : 0 ≤ q) (samples : List K) :
    nthLeast samples ⌊place q samples⌋₊ ≤ quantile q samples := by
  have step : nthLeast samples ⌊place q samples⌋₊ ≤ nthLeast samples (⌊place q samples⌋₊ + 1) :=
    nthLeast_mono (Nat.le_succ _)
  have past := Nat.floor_le (place_nonneg nonneg samples)
  have := mul_nonneg (sub_nonneg.mpr step) (sub_nonneg.mpr past)
  unfold quantile
  linarith

theorem quantile_le_nthLeast_succ (q : K) (samples : List K) :
    quantile q samples ≤ nthLeast samples (⌊place q samples⌋₊ + 1) := by
  have step : nthLeast samples ⌊place q samples⌋₊ ≤ nthLeast samples (⌊place q samples⌋₊ + 1) :=
    nthLeast_mono (Nat.le_succ _)
  have short : place q samples - ⌊place q samples⌋₊ ≤ 1 := by
    have := Nat.lt_floor_add_one (place q samples)
    linarith
  have := mul_le_of_le_one_right (sub_nonneg.mpr step) short
  unfold quantile
  linarith

/-- **It grows with `q`.** Within a gap of the ranks it does by the slope, which is not
negative; across the end of one it passes that rank. -/
theorem quantile_mono (nonneg : 0 ≤ q) (le : q ≤ q') (samples : List K) :
    quantile q samples ≤ quantile q' samples := by
  have further := place_mono le samples
  rcases (Nat.floor_mono further).eq_or_lt with same | lt
  · have step : nthLeast samples ⌊place q samples⌋₊ ≤ nthLeast samples (⌊place q samples⌋₊ + 1) :=
      nthLeast_mono (Nat.le_succ _)
    have := mul_le_mul_of_nonneg_left (sub_le_sub_right further (⌊place q samples⌋₊ : K)) (sub_nonneg.mpr step)
    unfold quantile
    rw [← same]
    linarith
  · calc quantile q samples ≤ nthLeast samples (⌊place q samples⌋₊ + 1) := quantile_le_nthLeast_succ q samples
      _ ≤ nthLeast samples ⌊place q' samples⌋₊ := nthLeast_mono lt
      _ ≤ quantile q' samples := nthLeast_floor_le_quantile (nonneg.trans le) samples

theorem le_quantile {least : K} (some : samples ≠ []) (nonneg : 0 ≤ q) (below : ∀ x ∈ samples, least ≤ x) :
    least ≤ quantile q samples :=
  (below _ (nthLeast_mem some _)).trans (nthLeast_floor_le_quantile nonneg samples)

theorem quantile_le {greatest : K} (some : samples ≠ []) (q : K) (above : ∀ x ∈ samples, x ≤ greatest) :
    quantile q samples ≤ greatest :=
  (quantile_le_nthLeast_succ q samples).trans (above _ (nthLeast_mem some _))

/-- More than `q * (n - 1)` samples are at the quantile or below. -/
theorem place_lt_countP_le (some : samples ≠ []) (nonneg : 0 ≤ q) (le_one : q ≤ 1) :
    place q samples < samples.countP (· ≤ quantile q samples) := by
  have positive := List.length_pos_iff.mpr some
  have inside : ⌊place q samples⌋₊ < samples.length := by
    have last : place q samples ≤ (samples.length - 1 : ℕ) := mul_le_of_le_one_left (Nat.cast_nonneg _) le_one
    have := Nat.floor_le_of_le last
    omega
  have counted : ⌊place q samples⌋₊ + 1 ≤ samples.countP (· ≤ quantile q samples) :=
    (lt_countP_le_nthLeast inside).trans_le <| List.countP_mono_left fun x _ below => by
      rw [decide_eq_true_eq] at below ⊢
      exact below.trans (nthLeast_floor_le_quantile nonneg samples)
  calc place q samples < ⌊place q samples⌋₊ + 1 := Nat.lt_floor_add_one _
    _ = ((⌊place q samples⌋₊ + 1 : ℕ) : K) := (Nat.cast_succ _).symm
    _ ≤ samples.countP (· ≤ quantile q samples) := Nat.cast_le.mpr counted

/-- Less than `q * (n - 1) + 1` samples are below the quantile. -/
theorem countP_lt_lt_place (nonneg : 0 ≤ q) (samples : List K) :
    (samples.countP (· < quantile q samples) : K) < place q samples + 1 := by
  have past := Nat.floor_le (place_nonneg nonneg samples)
  rcases past.eq_or_lt with exact_place | lt
  · -- it is the sample at its place
    have same : quantile q samples = nthLeast samples ⌊place q samples⌋₊ := by
      unfold quantile
      rw [exact_place, sub_self, mul_zero, add_zero]
    have few : (samples.countP (· < quantile q samples) : K) ≤ ⌊place q samples⌋₊ := by
      rw [same]
      exact_mod_cast countP_lt_nthLeast_le samples _
    linarith
  · have counted : samples.countP (· < quantile q samples) ≤ ⌊place q samples⌋₊ + 1 :=
      (List.countP_mono_left fun x _ below => by
        rw [decide_eq_true_eq] at below ⊢
        exact below.trans_le (quantile_le_nthLeast_succ q samples)).trans (countP_lt_nthLeast_le samples _)
    have few : (samples.countP (· < quantile q samples) : K) ≤ ⌊place q samples⌋₊ + 1 := by
      exact_mod_cast counted
    linarith

end Quantiles

end InferenceForge.Library
