/-
# InferenceForge.Pipeline.EtaEstimator — the latency the estimates rest on

`ETAEstimator` keeps an average of the batch latencies it has observed: the first
one replaces the value the field was initialised with, the later ones are weighted
with `alpha`. Arithmetic is exact, over any ordered field.

After at least one observation the average is the `movingAverage` of the
observations and of nothing else (`feed_init`): neither the initial value nor
`default_latency_s` has a share in it (`ewma_convex`).
-/
import InferenceForge.Library.MovingAverage
import InferenceForge.Pipeline.Estimator

namespace InferenceForge.Pipeline

open InferenceForge.Library

set_option autoImplicit false

structure ETAEstimator (K : Type) where
  alpha : K
  defaultLatencyS : K
  ewma : K
  hasData : Bool

namespace ETAEstimator

section Estimator

variable {K : Type} [Field K]

/-- `ETAEstimator(alpha, default_latency_s)`. -/
def init (alpha defaultLatencyS : K) : ETAEstimator K where
  alpha := alpha
  defaultLatencyS := defaultLatencyS
  ewma := 12 / 10
  hasData := false

def update (e : ETAEstimator K) (observedLatencyS : K) : ETAEstimator K :=
  if !e.hasData then { e with ewma := observedLatencyS, hasData := true }
  else { e with ewma := e.alpha * observedLatencyS + (1 - e.alpha) * e.ewma }

/-- The latency an estimate starts from. -/
def latency (e : ETAEstimator K) : K := if e.hasData then e.ewma else e.defaultLatencyS

/-- `estimate`. -/
def estimate [LinearOrder K] (e : ETAEstimator K) (remainingTickets : ℕ) (bucket : Option Complexity) : K :=
  let groupSize : ℕ := (bucket.map batchSize).getD 10
  max 1 ((remainingTickets : K) / groupSize) * e.latency

/-- `estimate_initial`. -/
def estimateInitial (e : ETAEstimator K) (breakdown : ComplexityBreakdown) : K :=
  ((breakdown.complex : K) / batchSize .complex + (breakdown.medium : K) / batchSize .medium +
    (breakdown.simple : K) / batchSize .simple) * e.latency

/-- An estimator after a sequence of observations. -/
def feed (e : ETAEstimator K) (observations : List K) : ETAEstimator K := observations.foldl update e

end Estimator

/-! ## The average -/

section Average

variable {K : Type} [Field K]

theorem feed_of_hasData {e : ETAEstimator K} (some : e.hasData = true) (observations : List K) :
    e.feed observations = { e with ewma := movingAverage e.alpha e.ewma observations } := by
  induction observations generalizing e with
  | nil => rfl
  | cons x rest ih =>
      have stepped : e.update x = { e with ewma := e.alpha * x + (1 - e.alpha) * e.ewma } := by
        rw [update, some]
        rfl
      rw [feed, List.foldl_cons, stepped, movingAverage_cons]
      exact ih some

/-- A new estimator averages what it has observed. -/
theorem feed_init (alpha defaultLatencyS first : K) (rest : List K) :
    ((init alpha defaultLatencyS).feed (first :: rest)).ewma = movingAverage alpha first rest := by
  have stepped : (init alpha defaultLatencyS).update first =
      { init alpha defaultLatencyS with ewma := first, hasData := true } := rfl
  rw [feed, List.foldl_cons, stepped]
  exact congrArg ewma (feed_of_hasData rfl rest)

end Average

/-! ## Any sequence of observations -/

section Observations

variable {K : Type}

/-- The observations `x 1`, …, `x n`. -/
def observations (x : ℕ → K) (n : ℕ) : List K := (List.range' 1 n).map x

theorem observations_succ (x : ℕ → K) (m : ℕ) :
    observations x (m + 1) = x 1 :: (List.range' 2 m).map x := rfl

theorem forall₂_observations [LE K] {x y : ℕ → K} {first length : ℕ}
    (le : ∀ i, first ≤ i → i < first + length → x i ≤ y i) :
    List.Forall₂ (· ≤ ·) ((List.range' first length).map x) ((List.range' first length).map y) := by
  rw [List.forall₂_map_left_iff, List.forall₂_map_right_iff, List.forall₂_same]
  intro i member
  obtain ⟨low, high⟩ := List.mem_range'_1.mp member
  exact le i low high

/-- One of the observations is the least, and one the greatest. -/
theorem exists_extremes [LinearOrder K] (x : ℕ → K) (m : ℕ) :
    ∃ least greatest, IsLeast {y | y ∈ observations x (m + 1)} least ∧
      IsGreatest {y | y ∈ observations x (m + 1)} greatest := by
  have some : (observations x (m + 1)).toFinset.Nonempty := ⟨x 1, by simp [observations_succ]⟩
  have least := Finset.isLeast_min' _ some
  have greatest := Finset.isGreatest_max' _ some
  rw [List.coe_toFinset] at least greatest
  exact ⟨_, _, least, greatest⟩

end Observations

section Convex

variable {K : Type} [Field K] [LinearOrder K] [IsStrictOrderedRing K]

/-- `_ewma` of a new estimator after observations. -/
def averaged (alpha defaultLatencyS : K) (observations : List K) : K :=
  ((init alpha defaultLatencyS).feed observations).ewma

/-- The average of `x 1`, …, `x n` is convex. -/
structure ConvexAverage (alpha defaultLatencyS : K) (x : ℕ → K) (n : ℕ) : Prop where
  closed : averaged alpha defaultLatencyS (observations x n) =
    (1 - alpha) ^ (n - 1) * x 1 + ∑ i ∈ Finset.Icc 2 n, alpha * (1 - alpha) ^ (n - i) * x i
  between : ∃ least greatest, IsLeast {y | y ∈ observations x n} least ∧
    IsGreatest {y | y ∈ observations x n} greatest ∧
      least ≤ averaged alpha defaultLatencyS (observations x n) ∧
        averaged alpha defaultLatencyS (observations x n) ≤ greatest
  monotone : ∀ y : ℕ → K, (∀ i, 1 ≤ i → i ≤ n → x i ≤ y i) →
    averaged alpha defaultLatencyS (observations x n) ≤ averaged alpha defaultLatencyS (observations y n)
  undefaulted : ∀ other, averaged alpha defaultLatencyS (observations x n) =
    averaged alpha other (observations x n)
  contracts : ∀ c k, 1 ≤ k →
    |averaged alpha defaultLatencyS (observations x n ++ List.replicate k c) - c| =
      (1 - alpha) ^ k * |averaged alpha defaultLatencyS (observations x n) - c|

/-- **The average is convex**: for every weight in `[0, 1]` and every non-empty
sequence of observations. -/
theorem ewma_convex (alpha defaultLatencyS : K) (nonneg : 0 ≤ alpha) (le_one : alpha ≤ 1)
    (x : ℕ → K) (n : ℕ) (observed : 1 ≤ n) : ConvexAverage alpha defaultLatencyS x n := by
  obtain ⟨m, rfl⟩ := Nat.exists_eq_add_of_le' observed
  have average : ∀ (z : ℕ → K) (default : K) (more : List K),
      averaged alpha default (observations z (m + 1) ++ more) =
        movingAverage alpha (movingAverage alpha (z 1) ((List.range' 2 m).map z)) more := by
    intro z default more
    rw [averaged, observations_succ, List.cons_append, feed_init, movingAverage_append]
  have alone : ∀ (z : ℕ → K) (default : K), averaged alpha default (observations z (m + 1)) =
      movingAverage alpha (z 1) ((List.range' 2 m).map z) := by
    intro z default
    simpa using average z default []
  constructor
  · rw [alone]
    exact movingAverage_eq_sum alpha x m
  · obtain ⟨least, greatest, lower, upper⟩ := exists_extremes x m
    have bounded : ∀ y ∈ observations x (m + 1), least ≤ y ∧ y ≤ greatest :=
      fun y member => ⟨lower.2 member, upper.2 member⟩
    rw [observations_succ] at bounded
    obtain ⟨first, rest⟩ := List.forall_mem_cons.mp bounded
    refine ⟨least, greatest, lower, upper, ?_⟩
    rw [alone]
    exact movingAverage_mem_bounds nonneg le_one first rest
  · intro y le
    rw [alone, alone]
    apply movingAverage_mono nonneg le_one (le 1 le_rfl (by omega))
    apply forall₂_observations
    intro i low high
    exact le i (by omega) (by omega)
  · intro other
    rw [alone, alone]
  · intro c k _
    rw [average, alone]
    exact abs_movingAverage_replicate le_one _ c k

/-- Satisfiable pole: two observations, the second with a weight of three tenths. -/
theorem ewma_convex_two : averaged (3 / 10 : ℚ) 1 (observations (fun i => if i = 1 then 1 else 4) 2) = 19 / 10 := by
  have convex := ewma_convex (3 / 10 : ℚ) 1 (by norm_num) (by norm_num) (fun i => if i = 1 then 1 else 4) 2
    (by decide)
  rw [convex.closed]
  simp
  norm_num

end Convex

end ETAEstimator

end InferenceForge.Pipeline
