/-
# InferenceForge.Pipeline.Batcher — the priority queue and its batches

`PriorityBatcher` over any priority queue `Q`. `drainBatch` takes the first
ticket and then tickets of the same complexity until the batch is full, the
queue is empty, or a ticket of another complexity comes up, which is put back.

`drainBatch_entries` is the conservation law: what was queued is what is in the
batch and what is still queued.
-/
import InferenceForge.Library.MinQueue
import InferenceForge.Pipeline.Estimator

namespace InferenceForge.Pipeline

open InferenceForge.Library

set_option autoImplicit false

structure PrioritizedTicket where
  priority : ℕ
  ticket : String
  complexity : Complexity
  originalIndex : ℤ

/-- `asyncio.PriorityQueue`: `PrioritizedTicket` is compared by its priority alone. -/
abbrev TicketQueue := MinQueue PrioritizedTicket PrioritizedTicket.priority

structure Batch where
  tickets : List String
  complexity : Complexity
  indices : List ℤ
  paired : tickets.length = indices.length

/-- What identifies a queued ticket: its text and its position in the job. -/
abbrev Entry := String × ℤ

def PrioritizedTicket.entry (item : PrioritizedTicket) : Entry := (item.ticket, item.originalIndex)

/-- The tickets of a batch, each with its own index. -/
def Batch.entries (batch : Batch) : List Entry := batch.tickets.zip batch.indices

/-- `enumerate(tickets)`, with the positions counted from `startIndex`. -/
def enumerate (tickets : List String) (startIndex : ℤ := 0) : List Entry :=
  tickets.zipIdx.map fun (ticket, i) => (ticket, startIndex + i)

@[simp] theorem enumerate_nil (startIndex : ℤ) : enumerate [] startIndex = [] := rfl

theorem enumerate_tickets (tickets : List String) (startIndex : ℤ) :
    (enumerate tickets startIndex).map Prod.fst = tickets := by
  rw [enumerate, List.map_map]
  exact List.zipIdx_map_fst 0 tickets

@[simp] theorem length_enumerate (tickets : List String) (startIndex : ℤ) :
    (enumerate tickets startIndex).length = tickets.length := by
  rw [enumerate, List.length_map, List.length_zipIdx]

/-- No entry occurs twice. -/
theorem enumerate_nodup (tickets : List String) (startIndex : ℤ) : (enumerate tickets startIndex).Nodup := by
  apply List.Nodup.of_map Prod.snd
  have indices : (enumerate tickets startIndex).map Prod.snd =
      (List.range' 0 tickets.length).map fun i : ℕ => startIndex + (i : ℤ) := by
    rw [enumerate, List.map_map, ← List.zipIdx_map_snd 0 tickets, List.map_map]
    rfl
  rw [indices]
  have distinct : (List.range' 0 tickets.length).Nodup := List.nodup_range'
  refine distinct.map fun i j same => ?_
  have same : startIndex + (i : ℤ) = startIndex + j := same
  omega

theorem mem_enumerate {tickets : List String} {startIndex : ℤ} {entry : Entry} :
    entry ∈ enumerate tickets startIndex ↔
      ∃ i : ℕ, tickets[i]? = some entry.1 ∧ entry.2 = startIndex + i := by
  obtain ⟨ticket, index⟩ := entry
  rw [enumerate, List.mem_map]
  constructor
  · rintro ⟨⟨ticket', i⟩, member, same⟩
    cases same
    exact ⟨i, List.mem_zipIdx_iff_getElem?.mp member, rfl⟩
  · rintro ⟨i, there, rfl⟩
    exact ⟨(ticket, i), List.mem_zipIdx_iff_getElem?.mpr there, rfl⟩

def Batch.ofItems (complexity : Complexity) (items : List PrioritizedTicket) : Batch where
  tickets := items.map (·.ticket)
  complexity := complexity
  indices := items.map (·.originalIndex)
  paired := by simp

namespace PriorityBatcher

variable (Q : TicketQueue)

/-- The item `enqueue_many` puts for the ticket at position `index`. -/
def prioritize (index : ℤ) (ticket : String) : PrioritizedTicket where
  priority := complexityPriority (classify ticket)
  ticket := ticket
  complexity := classify ticket
  originalIndex := index

/-- `enqueue_many`. -/
def enqueueMany (q : Q.Carrier) (tickets : List String) (startIndex : ℤ := 0) : Q.Carrier :=
  Q.pushAll q ((enumerate tickets startIndex).map fun (ticket, index) => prioritize index ticket)

/-- The loop of `drain_batch`, with `slots` places left in the batch. -/
def collect (complexity : Complexity) :
    ℕ → List PrioritizedTicket → Q.Carrier → List PrioritizedTicket × Q.Carrier
  | 0, items, q => (items, q)
  | slots + 1, items, q =>
      match Q.pop q with
      | none => (items, q)
      | some (candidate, rest) =>
          if candidate.complexity = complexity then
            collect complexity slots (items ++ [candidate]) rest
          else (items, Q.push rest candidate)

/-- `drain_batch`. -/
def drainBatch (q : Q.Carrier) : Option (Batch × Q.Carrier) :=
  match Q.pop q with
  | none => none
  | some (first, rest) =>
      let complexity := first.complexity
      let (items, rest) := collect Q complexity (batchSize complexity - 1) [first] rest
      some (.ofItems complexity items, rest)

/-- The tickets still queued. -/
def entries (q : Q.Carrier) : Multiset Entry := (Q.items q).map PrioritizedTicket.entry

end PriorityBatcher

/-! ## Conservation -/

section Conservation

variable {Q : TicketQueue}

@[simp] theorem Batch.entries_ofItems (complexity : Complexity) (items : List PrioritizedTicket) :
    (Batch.ofItems complexity items).entries = items.map PrioritizedTicket.entry := by
  simp only [Batch.entries, Batch.ofItems, List.zip_map']
  rfl

theorem Batch.entries_tickets (batch : Batch) : batch.entries.map Prod.fst = batch.tickets :=
  List.map_fst_zip (le_of_eq batch.paired)

namespace PriorityBatcher

theorem collect_items (complexity : Complexity) (slots : ℕ) (items : List PrioritizedTicket)
    (q : Q.Carrier) :
    ((collect Q complexity slots items q).1 : Multiset PrioritizedTicket) +
        Q.items (collect Q complexity slots items q).2 =
      (items : Multiset PrioritizedTicket) + Q.items q := by
  induction slots generalizing items q with
  | zero => rfl
  | succ slots ih =>
      cases popped : Q.pop q with
      | none => simp only [collect, popped]
      | some found =>
          obtain ⟨candidate, rest⟩ := found
          have taken := Q.items_pop q candidate rest popped
          by_cases same : candidate.complexity = complexity
          · simp only [collect, popped, same, if_true]
            rw [ih, taken, ← Multiset.coe_add, add_assoc]
            rfl
          · simp only [collect, popped, same, if_false]
            rw [MinQueue.items_push, taken]

theorem collect_prefix (complexity : Complexity) (slots : ℕ) (items : List PrioritizedTicket)
    (q : Q.Carrier) : items <+: (collect Q complexity slots items q).1 := by
  induction slots generalizing items q with
  | zero => exact List.prefix_rfl
  | succ slots ih =>
      unfold collect
      split
      · exact List.prefix_rfl
      · split
        · exact (List.prefix_append items _).trans (ih _ _)
        · exact List.prefix_rfl

theorem drainBatch_eq_none_iff (q : Q.Carrier) : drainBatch Q q = none ↔ entries Q q = 0 := by
  rw [entries, Multiset.map_eq_zero, ← MinQueue.pop_eq_none_iff]
  unfold drainBatch
  split
  · next empty => simp [empty]
  · next found => simp [found]

/-- **Conservation.** A drained batch and what it leaves are what was queued. -/
theorem drainBatch_entries {q rest : Q.Carrier} {batch : Batch}
    (drained : drainBatch Q q = some (batch, rest)) :
    entries Q q = (batch.entries : Multiset Entry) + entries Q rest := by
  unfold drainBatch at drained
  split at drained
  · cases drained
  · next first rest' popped =>
      cases drained
      have kept := collect_items first.complexity (batchSize first.complexity - 1) [first] rest'
      rw [entries, entries, Q.items_pop q first rest' popped, Batch.entries_ofItems,
        ← Multiset.map_coe, ← Multiset.map_add, kept]
      rfl

theorem drainBatch_ne_nil {q rest : Q.Carrier} {batch : Batch}
    (drained : drainBatch Q q = some (batch, rest)) : batch.tickets ≠ [] := by
  unfold drainBatch at drained
  split at drained
  · cases drained
  · next first rest' popped =>
      cases drained
      obtain ⟨more, eq⟩ := collect_prefix first.complexity (batchSize first.complexity - 1) [first] rest'
      simp [Batch.ofItems, ← eq]

/-- Draining shortens the queue, which is why draining it ends. -/
theorem drainBatch_card_lt {q rest : Q.Carrier} {batch : Batch}
    (drained : drainBatch Q q = some (batch, rest)) :
    (entries Q rest).card < (entries Q q).card := by
  have filled : 0 < batch.entries.length := by
    rw [← List.length_map Prod.fst, Batch.entries_tickets]
    exact List.length_pos_iff.mpr (drainBatch_ne_nil drained)
  rw [drainBatch_entries drained, Multiset.card_add, Multiset.coe_card]
  omega

@[simp] theorem entries_enqueueMany (q : Q.Carrier) (tickets : List String) (startIndex : ℤ) :
    entries Q (enqueueMany Q q tickets startIndex) =
      (enumerate tickets startIndex : Multiset Entry) + entries Q q := by
  have same : (PrioritizedTicket.entry ∘ fun e : Entry => prioritize e.2 e.1) = id := rfl
  rw [entries, enqueueMany, MinQueue.items_pushAll, Multiset.map_add, Multiset.map_coe,
    List.map_map, same, List.map_id]
  rfl

end PriorityBatcher

end Conservation

end InferenceForge.Pipeline
