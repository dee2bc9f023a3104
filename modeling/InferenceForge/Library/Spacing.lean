/-
# InferenceForge.Library.Spacing — instants that keep a distance

A log of instants, the newest first, is `Apart` by a gap when every instant is at least
the gap after all earlier ones. Then there are few of them in any interval
(`Apart.length_mul_le`), whatever else is known of the log.
-/
import Mathlib.Algebra.Order.Ring.Defs
import Mathlib.Tactic.Linarith

namespace InferenceForge.Library

set_option autoImplicit false

variable {K : Type} [CommRing K] [LinearOrder K] [IsStrictOrderedRing K] {gap a b : K} {log : List K}

/-- Each instant is at least `gap` after every earlier one. -/
def Apart (gap : K) (log : List K) : Prop := log.Pairwise fun later earlier => earlier + gap ≤ later

omit [IsStrictOrderedRing K] in
theorem Apart.filter (apart : Apart gap log) (P : K → Bool) : Apart gap (log.filter P) :=
  List.Pairwise.filter P apart

theorem Apart.length_mul_le_of_mem (apart : Apart gap log) (le : a ≤ b) (nonneg : 0 ≤ gap)
    (within : ∀ t ∈ log, a ≤ t ∧ t ≤ b) : (log.length : K) * gap ≤ b - a + gap := by
  induction log generalizing b with
  | nil =>
      rw [List.length_nil, Nat.cast_zero, zero_mul]
      linarith
  | cons t rest ih =>
      obtain ⟨after, apart⟩ := List.pairwise_cons.mp apart
      obtain ⟨here, others⟩ := List.forall_mem_cons.mp within
      rw [List.length_cons, Nat.cast_succ, add_mul, one_mul]
      cases rest with
      | nil =>
          rw [List.length_nil, Nat.cast_zero, zero_mul]
          linarith
      | cons t' rest =>
          -- the earlier instants lie in an interval that is shorter by the gap
          have first := after t' List.mem_cons_self
          have begins := (others t' List.mem_cons_self).1
          have shorter : ∀ earlier ∈ t' :: rest, a ≤ earlier ∧ earlier ≤ t - gap := by
            intro earlier member
            have gapped := after earlier member
            exact ⟨(others earlier member).1, by linarith⟩
          have counted := ih apart (b := t - gap) (by linarith) shorter
          linarith [here.2]

/-- **How many fit in an interval.** -/
theorem Apart.length_mul_le (apart : Apart gap log) (le : a ≤ b) (nonneg : 0 ≤ gap) :
    ((log.filter fun t => a ≤ t ∧ t ≤ b).length : K) * gap ≤ b - a + gap := by
  refine (apart.filter _).length_mul_le_of_mem le nonneg fun t member => ?_
  simpa using (List.mem_filter.mp member).2

end InferenceForge.Library
