/-
# InferenceForge.Library.MinQueue — priority queues by their laws

A priority queue hands out a least-ranked element and says nothing about the
order of equals. `MinQueue` is what a client may rely on: the multiset of queued
elements, and that `pop` removes a least one. A client that is verified for every
`MinQueue` is verified for a binary heap, whatever it does with equals.

`sorted` is the queue kept as a sorted list, an instance that evaluates.
-/
import Mathlib.Data.List.Sort
import Mathlib.Data.Multiset.AddSub

namespace InferenceForge.Library

set_option autoImplicit false

structure MinQueue (α : Type) (rank : α → ℕ) where
  Carrier : Type
  empty : Carrier
  push : Carrier → α → Carrier
  pop : Carrier → Option (α × Carrier)
  items : Carrier → Multiset α
  items_empty : items empty = 0
  items_push : ∀ q a, items (push q a) = a ::ₘ items q
  pop_none : ∀ q, pop q = none → items q = 0
  items_pop : ∀ q a rest, pop q = some (a, rest) → items q = a ::ₘ items rest
  pop_least : ∀ q a rest, pop q = some (a, rest) → ∀ b ∈ items q, rank a ≤ rank b

namespace MinQueue

variable {α : Type} {rank : α → ℕ}

attribute [simp] items_empty items_push

section Laws

variable (Q : MinQueue α rank)

/-- Queue the elements of a list one after the other. -/
def pushAll (q : Q.Carrier) (elements : List α) : Q.Carrier := elements.foldl Q.push q

@[simp] theorem items_pushAll (q : Q.Carrier) (elements : List α) :
    Q.items (Q.pushAll q elements) = (elements : Multiset α) + Q.items q := by
  induction elements generalizing q with
  | nil => simp [pushAll]
  | cons a rest ih =>
      show Q.items (Q.pushAll (Q.push q a) rest) = _
      rw [ih, Q.items_push, ← Multiset.cons_coe, Multiset.cons_add, Multiset.add_cons]

theorem pop_eq_none_iff (q : Q.Carrier) : Q.pop q = none ↔ Q.items q = 0 := by
  constructor
  · exact Q.pop_none q
  · intro nothing
    cases popped : Q.pop q with
    | none => rfl
    | some found =>
        have taken := Q.items_pop q found.1 found.2 popped
        rw [nothing] at taken
        exact absurd taken.symm (Multiset.cons_ne_zero)

end Laws

/-- The queue kept as a list sorted by rank. -/
def sorted (rank : α → ℕ) : MinQueue α rank where
  Carrier := { l : List α // l.Pairwise fun a b => rank a ≤ rank b }
  empty := ⟨[], .nil⟩
  push q a := ⟨q.1.orderedInsert (fun a b => rank a ≤ rank b) a,
    List.Pairwise.orderedInsert a q.1 q.2⟩
  pop
    | ⟨[], _⟩ => none
    | ⟨a :: rest, ordered⟩ => some (a, ⟨rest, ordered.of_cons⟩)
  items q := q.1
  items_empty := rfl
  items_push q a := Multiset.coe_eq_coe.mpr (List.perm_orderedInsert _ a q.1)
  pop_none
    | ⟨[], _⟩, _ => rfl
  items_pop
    | ⟨a :: rest, ordered⟩, _, _, popped => by
        cases popped
        rfl
  pop_least
    | ⟨a :: rest, ordered⟩, _, _, popped => by
        cases popped
        intro b member
        rcases List.mem_cons.mp (Multiset.mem_coe.mp member) with rfl | later
        · exact le_rfl
        · exact List.rel_of_pairwise_cons ordered later

end MinQueue

end InferenceForge.Library
