/-
# InferenceForge.Pipeline.BatcherRuns — a batcher over any sequence of operations

`enqueue_many` and `drain_batch` in any order on one `PriorityBatcher`. What was
enqueued is what the drained batches hold and what is still queued; and every
drained batch is `Greedy`: it holds tickets of the highest-ranked complexity in
the queue, and as many of them as there are or as fit (`session_conserved`).

The queue compares priorities only, so the invariant is that a queued item has
the priority and the complexity of its ticket (`Prioritized`).
-/
import InferenceForge.Pipeline.Batcher

namespace InferenceForge.Pipeline.PriorityBatcher

open InferenceForge.Library

set_option autoImplicit false

/-! ## Sessions -/

inductive BatcherOp
  | enqueueMany (tickets : List String) (startIndex : ℤ)
  | drainBatch

/-- What an operation enqueues. -/
def BatcherOp.added : BatcherOp → Multiset Entry
  | .enqueueMany tickets startIndex => enumerate tickets startIndex
  | .drainBatch => 0

/-- A `drain_batch`: what was queued and what it returned. -/
structure Drain where
  queued : Multiset Entry
  returned : Option Batch

/-- The tickets a `drain_batch` took. -/
def Drain.taken (drain : Drain) : Multiset Entry :=
  match drain.returned with
  | some batch => batch.entries
  | none => 0

structure Session (Q : TicketQueue) where
  queue : Q.Carrier
  drains : List Drain

section Sessions

variable (Q : TicketQueue)

def Session.perform (s : Session Q) : BatcherOp → Session Q
  | .enqueueMany tickets startIndex =>
      { s with queue := PriorityBatcher.enqueueMany Q s.queue tickets startIndex }
  | .drainBatch =>
      match PriorityBatcher.drainBatch Q s.queue with
      | none => { s with drains := s.drains ++ [⟨entries Q s.queue, none⟩] }
      | some (batch, rest) => ⟨rest, s.drains ++ [⟨entries Q s.queue, some batch⟩]⟩

/-- A `PriorityBatcher` after a sequence of operations. -/
def session (ops : List BatcherOp) : Session Q := ops.foldl (Session.perform Q) ⟨Q.empty, []⟩

end Sessions

/-- A batch of what was queued: its tickets, with their own indices, are of the
highest-ranked complexity there, and no more of them were queued or fit. -/
structure Greedy (queued : Multiset Entry) (batch : Batch) : Prop where
  members : (batch.entries : Multiset Entry) ≤ queued
  homogeneous : ∀ ticket ∈ batch.tickets, classify ticket = batch.complexity
  present : ∃ entry ∈ queued, classify entry.1 = batch.complexity
  ranked : ∀ entry ∈ queued,
    complexityPriority batch.complexity ≤ complexityPriority (classify entry.1)
  full : batch.tickets.length =
    min (batchSize batch.complexity) (queued.countP fun entry => classify entry.1 = batch.complexity)

/-! ## The invariant -/

theorem complexityPriority_injective : Function.Injective complexityPriority := by
  intro a b same
  cases a <;> cases b <;> first | rfl | cases same

/-- An item as `enqueue_many` puts it. -/
def Ranked (item : PrioritizedTicket) : Prop :=
  item.complexity = classify item.ticket ∧ item.priority = complexityPriority item.complexity

variable {Q : TicketQueue} {q rest : Q.Carrier}

def Prioritized (Q : TicketQueue) (q : Q.Carrier) : Prop := ∀ item ∈ Q.items q, Ranked item

theorem prioritized_empty : Prioritized Q Q.empty := by
  intro item member
  rw [Q.items_empty] at member
  exact absurd member (Multiset.notMem_zero item)

theorem Prioritized.enqueueMany (ordered : Prioritized Q q) (tickets : List String)
    (startIndex : ℤ) : Prioritized Q (enqueueMany Q q tickets startIndex) := by
  intro item member
  rw [PriorityBatcher.enqueueMany, MinQueue.items_pushAll] at member
  rcases Multiset.mem_add.mp member with new | old
  · obtain ⟨entry, _, rfl⟩ := List.mem_map.mp (Multiset.mem_coe.mp new)
    exact ⟨rfl, rfl⟩
  · exact ordered item old

theorem Prioritized.push (ordered : Prioritized Q q) {item : PrioritizedTicket}
    (ranked : Ranked item) : Prioritized Q (Q.push q item) := by
  intro other member
  rw [Q.items_push] at member
  rcases Multiset.mem_cons.mp member with rfl | old
  · exact ranked
  · exact ordered other old

theorem Prioritized.pop (ordered : Prioritized Q q) {item : PrioritizedTicket}
    (popped : Q.pop q = some (item, rest)) : Ranked item ∧ Prioritized Q rest := by
  have taken := Q.items_pop q item rest popped
  refine ⟨ordered item ?_, fun other member => ordered other ?_⟩
  · rw [taken]
    exact Multiset.mem_cons_self item _
  · rw [taken]
    exact Multiset.mem_cons_of_mem member

/-- How many queued tickets have a complexity. -/
def queuedOf (Q : TicketQueue) (complexity : Complexity) (q : Q.Carrier) : ℕ :=
  (Q.items q).countP fun item => item.complexity = complexity

/-- If a least item has another complexity, a complexity that nothing outranks is
not queued. -/
theorem queuedOf_eq_zero (ordered : Prioritized Q q) {complexity : Complexity}
    {item : PrioritizedTicket} (popped : Q.pop q = some (item, rest))
    (least : ∀ other ∈ Q.items q, complexityPriority complexity ≤ other.priority)
    (foreign : item.complexity ≠ complexity) : queuedOf Q complexity q = 0 := by
  rw [queuedOf, Multiset.countP_eq_zero]
  intro other member same
  have first : item ∈ Q.items q := by
    rw [Q.items_pop q item rest popped]
    exact Multiset.mem_cons_self item _
  have le := Q.pop_least q item rest popped other member
  have ge := least item first
  rw [(ordered other member).2, same] at le
  rw [(ordered item first).2] at le ge
  exact foreign (complexityPriority_injective (le_antisymm le ge))

/-- **The loop of `drain_batch`** takes all tickets of the complexity that fit. -/
theorem collect_length (complexity : Complexity) (slots : ℕ) (items : List PrioritizedTicket)
    (ordered : Prioritized Q q)
    (least : ∀ other ∈ Q.items q, complexityPriority complexity ≤ other.priority) :
    (collect Q complexity slots items q).1.length =
      items.length + min slots (queuedOf Q complexity q) := by
  induction slots generalizing items q with
  | zero => simp [collect]
  | succ slots ih =>
      cases popped : Q.pop q with
      | none =>
          have nothing : queuedOf Q complexity q = 0 := by
            rw [queuedOf, Q.pop_none q popped, Multiset.countP_zero]
          simp only [collect, popped, nothing]
          omega
      | some found =>
          obtain ⟨candidate, rest⟩ := found
          have taken := Q.items_pop q candidate rest popped
          by_cases same : candidate.complexity = complexity
          · have fewer : queuedOf Q complexity q = queuedOf Q complexity rest + 1 := by
              rw [queuedOf, taken, Multiset.countP_cons_of_pos _ (by simpa using same)]
              rfl
            have later := ih (items ++ [candidate]) (ordered.pop popped).2 fun other member =>
              least other (by rw [taken]; exact Multiset.mem_cons_of_mem member)
            simp only [collect, popped, same, if_true, later, fewer, List.length_append,
              List.length_singleton]
            omega
          · have nothing := queuedOf_eq_zero ordered popped least same
            simp only [collect, popped, same, if_false, nothing]
            omega

/-- The loop collects tickets of one complexity. -/
theorem collect_homogeneous {complexity : Complexity} (slots : ℕ) (items : List PrioritizedTicket)
    (ordered : Prioritized Q q)
    (all : ∀ item ∈ items, item.complexity = complexity ∧ Ranked item) :
    ∀ item ∈ (collect Q complexity slots items q).1, item.complexity = complexity ∧ Ranked item := by
  induction slots generalizing items q with
  | zero => exact all
  | succ slots ih =>
      unfold collect
      split
      · exact all
      · next candidate rest popped =>
          split
          · next same =>
              obtain ⟨ranked, left⟩ := ordered.pop popped
              refine ih (items ++ [candidate]) left fun item member => ?_
              rcases List.mem_append.mp member with old | new
              · exact all item old
              · obtain rfl := List.mem_singleton.mp new
                exact ⟨same, ranked⟩
          · exact all

/-- The loop leaves the queue in order. -/
theorem Prioritized.collect (ordered : Prioritized Q q) (complexity : Complexity) (slots : ℕ)
    (items : List PrioritizedTicket) :
    Prioritized Q (PriorityBatcher.collect Q complexity slots items q).2 := by
  induction slots generalizing items q with
  | zero => exact ordered
  | succ slots ih =>
      unfold PriorityBatcher.collect
      split
      · exact ordered
      · next candidate rest popped =>
          obtain ⟨ranked, left⟩ := ordered.pop popped
          split
          · exact ih left _
          · exact left.push ranked

/-- Queued entries of a complexity, counted as items or as entries. -/
theorem countP_entries (ordered : Prioritized Q q) (complexity : Complexity) :
    (entries Q q).countP (fun entry => classify entry.1 = complexity) = queuedOf Q complexity q := by
  rw [entries, Multiset.countP_map, ← Multiset.countP_eq_card_filter, queuedOf]
  refine Multiset.countP_congr rfl fun item member => ?_
  show (classify item.ticket = complexity) = (item.complexity = complexity)
  rw [(ordered item member).1]

/-- **A drained batch** is greedy, and leaves the queue in order. -/
theorem drainBatch_greedy {batch : Batch} (ordered : Prioritized Q q)
    (drained : drainBatch Q q = some (batch, rest)) :
    Greedy (entries Q q) batch ∧ Prioritized Q rest := by
  have conserved := drainBatch_entries drained
  unfold drainBatch at drained
  split at drained
  · cases drained
  · next first rest' popped =>
      cases drained
      obtain ⟨ranked, left⟩ := ordered.pop popped
      have taken := Q.items_pop q first rest' popped
      have least : ∀ other ∈ Q.items q, complexityPriority first.complexity ≤ other.priority := by
        intro other member
        rw [← ranked.2]
        exact Q.pop_least q first rest' popped other member
      refine ⟨⟨?_, ?_, ?_, ?_, ?_⟩, left.collect _ _ _⟩
      · rw [conserved]
        exact Multiset.le_add_right _ _
      · intro ticket member
        obtain ⟨item, there, rfl⟩ := List.mem_map.mp member
        have collected := collect_homogeneous (batchSize first.complexity - 1) [first] left
          (by simpa using ranked) item there
        exact collected.2.1.symm.trans collected.1
      · refine ⟨first.entry, ?_, ranked.1.symm⟩
        rw [entries, taken]
        exact Multiset.mem_map_of_mem _ (Multiset.mem_cons_self first _)
      · intro entry member
        obtain ⟨item, there, rfl⟩ := Multiset.mem_map.mp member
        have le := least item there
        rwa [(ordered item there).2, (ordered item there).1] at le
      · have length := collect_length first.complexity
          (batchSize first.complexity - 1) [first] left fun other member =>
            least other (by rw [taken]; exact Multiset.mem_cons_of_mem member)
        have one : queuedOf Q first.complexity q = queuedOf Q first.complexity rest' + 1 := by
          rw [queuedOf, taken, Multiset.countP_cons_of_pos _ (by simp)]
          rfl
        have room : 0 < batchSize first.complexity := by cases first.complexity <;> decide
        show ((collect Q first.complexity _ [first] rest').1.map _).length =
          min (batchSize first.complexity)
            ((entries Q q).countP fun entry => classify entry.1 = first.complexity)
        rw [countP_entries ordered, List.length_map, length, one, List.length_singleton]
        omega

/-! ## Every sequence of operations -/

/-- What holds of a batcher at any time. -/
structure SessionInv (s : Session Q) : Prop where
  ordered : Prioritized Q s.queue
  none_iff : ∀ drain ∈ s.drains, drain.returned = none ↔ drain.queued = 0
  greedy : ∀ drain ∈ s.drains, ∀ batch, drain.returned = some batch → Greedy drain.queued batch

theorem SessionInv.perform {s : Session Q} (inv : SessionInv s) (op : BatcherOp) :
    SessionInv (s.perform Q op) := by
  cases op with
  | enqueueMany tickets startIndex =>
      exact ⟨inv.ordered.enqueueMany tickets startIndex, inv.none_iff, inv.greedy⟩
  | drainBatch =>
      have empty := drainBatch_eq_none_iff s.queue
      cases drained : drainBatch Q s.queue with
      | none =>
          simp only [Session.perform, drained]
          refine ⟨inv.ordered, fun drain member => ?_, fun drain member => ?_⟩
          · rcases List.mem_append.mp member with old | new
            · exact inv.none_iff drain old
            · obtain rfl := List.mem_singleton.mp new
              exact iff_of_true rfl (empty.mp drained)
          · rcases List.mem_append.mp member with old | new
            · exact inv.greedy drain old
            · obtain rfl := List.mem_singleton.mp new
              intro batch returned
              cases returned
      | some found =>
          obtain ⟨batch, rest⟩ := found
          obtain ⟨greedy, ordered⟩ := drainBatch_greedy inv.ordered drained
          simp only [Session.perform, drained]
          refine ⟨ordered, fun drain member => ?_, fun drain member => ?_⟩
          · rcases List.mem_append.mp member with old | new
            · exact inv.none_iff drain old
            · obtain rfl := List.mem_singleton.mp new
              refine iff_of_false (by simp) fun nothing => ?_
              rw [empty.mpr nothing] at drained
              cases drained
          · rcases List.mem_append.mp member with old | new
            · exact inv.greedy drain old
            · obtain rfl := List.mem_singleton.mp new
              intro batch' returned
              cases returned
              exact greedy

theorem session_inv (ops : List BatcherOp) : SessionInv (session Q ops) := by
  refine List.foldlRecOn ops (Session.perform Q) ⟨prioritized_empty, ?_, ?_⟩ fun s inv op _ =>
    inv.perform op
  · simp
  · simp

/-- One operation loses and invents nothing. -/
theorem perform_conserved (s : Session Q) (op : BatcherOp) :
    op.added + ((s.drains.map Drain.taken).sum + entries Q s.queue) =
      ((s.perform Q op).drains.map Drain.taken).sum + entries Q (s.perform Q op).queue := by
  cases op with
  | enqueueMany tickets startIndex =>
      simp only [Session.perform, BatcherOp.added, entries_enqueueMany]
      exact add_left_comm _ _ _
  | drainBatch =>
      cases drained : drainBatch Q s.queue with
      | none => simp [Session.perform, BatcherOp.added, drained, Drain.taken]
      | some found =>
          obtain ⟨batch, rest⟩ := found
          have conserved := drainBatch_entries drained
          simp [Session.perform, BatcherOp.added, drained, Drain.taken, conserved, add_assoc]

theorem foldl_conserved (ops : List BatcherOp) (s : Session Q) :
    (ops.map BatcherOp.added).sum + ((s.drains.map Drain.taken).sum + entries Q s.queue) =
      ((ops.foldl (Session.perform Q) s).drains.map Drain.taken).sum +
        entries Q (ops.foldl (Session.perform Q) s).queue := by
  induction ops generalizing s with
  | nil => simp
  | cons op rest ih =>
      rw [List.map_cons, List.sum_cons, List.foldl_cons, ← ih, ← perform_conserved]
      exact (add_assoc _ _ _).trans (add_left_comm _ _ _)

/-- **Conservation and greedy maximality** over any sequence of operations. -/
theorem session_conserved (ops : List BatcherOp) :
    (ops.map BatcherOp.added).sum =
      ((session Q ops).drains.map Drain.taken).sum + entries Q (session Q ops).queue ∧
    ∀ drain ∈ (session Q ops).drains,
      (drain.returned = none ↔ drain.queued = 0) ∧
      ∀ batch, drain.returned = some batch → Greedy drain.queued batch := by
  refine ⟨?_, fun drain member => ?_⟩
  · have conserved := foldl_conserved ops (⟨Q.empty, []⟩ : Session Q)
    simpa [session, entries] using conserved
  · exact ⟨(session_inv ops).none_iff drain member, (session_inv ops).greedy drain member⟩

end InferenceForge.Pipeline.PriorityBatcher
