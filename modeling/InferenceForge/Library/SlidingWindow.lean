/-
# InferenceForge.Library.SlidingWindow — a deque that forgets what is too old

Entries are appended at the back and, at times of the program's choosing, evicted
from the front while they lie below a cutoff that only grows. `Window cutoff all
kept` says that `kept` is what such evictions have left of the full history `all`.
In a sorted history the number of entries at the cutoff or above it is then the
length of the deque after one more eviction (`Window.length_evict`): when the
earlier evictions happened makes no difference.

A deque of bounded length keeps the `latest` entries of the history
(`pushBounded_latest`).
-/
import Mathlib.Data.List.TakeWhile
import Mathlib.Order.Lattice

namespace InferenceForge.Library

set_option autoImplicit false

variable {α : Type} [LinearOrder α] {cutoff cutoff' : α} {all kept : List α}

/-- What is missing from the deque lay below the cutoff. -/
def Window (cutoff : α) (all kept : List α) : Prop :=
  ∃ gone, all = gone ++ kept ∧ ∀ t ∈ gone, t < cutoff

theorem Window.refl (cutoff : α) (all : List α) : Window cutoff all all := ⟨[], rfl, by simp⟩

theorem Window.mono (window : Window cutoff all kept) (le : cutoff ≤ cutoff') :
    Window cutoff' all kept := by
  obtain ⟨gone, same, below⟩ := window
  exact ⟨gone, same, fun t member => (below t member).trans_le le⟩

/-- An append. -/
theorem Window.push (window : Window cutoff all kept) (t : α) :
    Window cutoff (all ++ [t]) (kept ++ [t]) := by
  obtain ⟨gone, same, below⟩ := window
  exact ⟨gone, by rw [same, List.append_assoc], below⟩

/-- An eviction. -/
theorem Window.evict (window : Window cutoff all kept) :
    Window cutoff all (kept.dropWhile (· < cutoff)) := by
  obtain ⟨gone, same, below⟩ := window
  refine ⟨gone ++ kept.takeWhile (· < cutoff), ?_, fun t member => ?_⟩
  · rw [same, List.append_assoc, List.takeWhile_append_dropWhile]
  · rcases List.mem_append.mp member with old | new
    · exact below t old
    · simpa using List.mem_takeWhile_imp new

/-- In a sorted list everything below a cutoff lies at the front. -/
theorem dropWhile_eq_filter (sorted : kept.Pairwise (· ≤ ·)) (cutoff : α) :
    kept.dropWhile (· < cutoff) = kept.filter (cutoff ≤ ·) := by
  induction kept with
  | nil => rfl
  | cons t rest ih =>
      obtain ⟨least, sorted⟩ := List.pairwise_cons.mp sorted
      by_cases old : t < cutoff
      · rw [List.dropWhile_cons_of_pos (by simpa using old), ih sorted,
          List.filter_cons_of_neg (by simpa using old)]
      · have all : ∀ t' ∈ t :: rest, cutoff ≤ t' := by
          intro t' member
          rcases List.mem_cons.mp member with rfl | later
          · exact not_lt.mp old
          · exact (not_lt.mp old).trans (least t' later)
        rw [List.dropWhile_cons_of_neg (by simpa using old),
          List.filter_eq_self.mpr fun t' member => by simpa using all t' member]

/-- **The window counts** the entries of the history that are not too old. -/
theorem Window.length_evict (window : Window cutoff all kept) (sorted : kept.Pairwise (· ≤ ·)) :
    (kept.dropWhile (· < cutoff)).length = all.countP (cutoff ≤ ·) := by
  obtain ⟨gone, rfl, below⟩ := window
  have old : gone.countP (cutoff ≤ ·) = 0 := by
    rw [List.countP_eq_zero]
    intro t member
    simpa using below t member
  rw [dropWhile_eq_filter sorted, ← List.countP_eq_length_filter, List.countP_append, old, Nat.zero_add]

theorem pairwise_push {t : α} (sorted : kept.Pairwise (· ≤ ·)) (last : ∀ t' ∈ kept, t' ≤ t) :
    (kept ++ [t]).Pairwise (· ≤ ·) :=
  List.pairwise_append.mpr ⟨sorted, List.pairwise_singleton _ t, fun t' member u same => by
    rw [List.mem_singleton.mp same]
    exact last t' member⟩

/-! ## A bound on the length -/

section Bounded

variable {β : Type} {entries : List β}

/-- `append` to a `deque(maxlen=size)`. -/
def pushBounded (size : ℕ) (kept : List β) (t : β) : List β := (kept ++ [t]).drop (kept.length + 1 - size)

/-- The last `size` entries. -/
def latest (size : ℕ) (entries : List β) : List β := entries.drop (entries.length - size)

theorem pushBounded_latest (size : ℕ) (entries : List β) (t : β) :
    pushBounded size (latest size entries) t = latest size (entries ++ [t]) := by
  have within : entries.length - size ≤ entries.length := Nat.sub_le _ _
  rw [pushBounded, latest, latest, ← List.drop_append_of_le_length within, List.drop_drop, List.length_drop,
    List.length_append, List.length_singleton]
  congr 1
  omega

theorem latest_of_le {size : ℕ} (short : entries.length ≤ size) : latest size entries = entries := by
  rw [latest, Nat.sub_eq_zero_of_le short, List.drop_zero]

theorem mem_of_mem_latest {size : ℕ} {t : β} (member : t ∈ latest size entries) : t ∈ entries :=
  List.mem_of_mem_drop member

end Bounded

end InferenceForge.Library
