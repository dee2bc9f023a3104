/-
# InferenceForge.Pipeline.FullDrain — emptying the queue

`drain_all_batches` drains until nothing is queued. What it returns is a partition
of what was queued into as few batches as there can be: by complexity in the order
of their rank, and of each complexity all batches but the last are full.

Every drained batch is `Greedy`, and `Drained.cons` says that a greedy batch before
an optimal partition of the rest is an optimal partition. `full_drain` compares the
numbers with those of `breakdown` and `classify_many`.
-/
import InferenceForge.Pipeline.BatcherRuns
import Mathlib.Algebra.Order.Floor.Semiring
import Mathlib.Tactic.FieldSimp

namespace InferenceForge.Pipeline

open InferenceForge.Library

set_option autoImplicit false

/-! ## Counting by complexity -/

/-- `classify_many`. -/
def classifyMany (tickets : List String) : Complexity → List String :=
  tickets.foldl (fun groups t => Function.update groups (classify t) (groups (classify t) ++ [t]))
    fun _ => []

/-- The number of a complexity in a breakdown. -/
def ComplexityBreakdown.of (bd : ComplexityBreakdown) : Complexity → ℕ
  | .simple => bd.simple
  | .medium => bd.medium
  | .complex => bd.complex

theorem breakdown_of (tickets : List String) (c : Complexity) :
    (breakdown tickets).of c = tickets.countP fun t => classify t = c := by
  cases c <;> rfl

theorem classifyMany_eq (tickets : List String) (c : Complexity) :
    classifyMany tickets c = tickets.filter fun t => classify t = c := by
  have grouped : ∀ groups : Complexity → List String,
      tickets.foldl (fun groups t => Function.update groups (classify t) (groups (classify t) ++ [t])) groups c =
        groups c ++ tickets.filter fun t => classify t = c := by
    induction tickets with
    | nil => simp
    | cons t rest ih =>
        intro groups
        rw [List.foldl_cons, ih]
        by_cases same : classify t = c
        · subst same
          simp
        · rw [Function.update_of_ne (Ne.symm same), List.filter_cons_of_neg (by simpa using same)]
  exact grouped _

/-- The breakdown and the groups agree. -/
theorem length_classifyMany (tickets : List String) (c : Complexity) :
    (classifyMany tickets c).length = (breakdown tickets).of c := by
  rw [classifyMany_eq, breakdown_of, List.countP_eq_length_filter]

/-! ## Optimal partitions -/

/-- The batches of a complexity. -/
def batchesOf (c : Complexity) (batches : List Batch) : List Batch :=
  batches.filter fun batch => batch.complexity = c

/-- The queued tickets of a complexity. -/
def queuedCount (c : Complexity) (queued : Multiset Entry) : ℕ := queued.countP fun entry => classify entry.1 = c

/-- The batches are an ordered partition of what was queued into full batches, but for
the last of each complexity. -/
structure Drained (queued : Multiset Entry) (batches : List Batch) : Prop where
  conserved : ((batches.flatMap Batch.entries : List Entry) : Multiset Entry) = queued
  homogeneous : ∀ batch ∈ batches, ∀ ticket ∈ batch.tickets, classify ticket = batch.complexity
  nonempty : ∀ batch ∈ batches, batch.tickets ≠ []
  ordered : batches.Pairwise fun earlier later =>
    complexityPriority earlier.complexity ≤ complexityPriority later.complexity
  full : ∀ c, ∀ batch ∈ (batchesOf c batches).dropLast, batch.tickets.length = batchSize c
  number : ∀ c, (batchesOf c batches).length = ⌈(queuedCount c queued : ℚ) / batchSize c⌉₊

section Drained

variable {queued rest : Multiset Entry} {batch : Batch} {batches : List Batch} {c : Complexity}

theorem batchSize_pos (c : Complexity) : 0 < batchSize c := by
  cases c <;> decide

/-- One batch more. -/
theorem ceil_div_min {n s : ℕ} (some : 0 < n) (room : 0 < s) :
    ⌈(n : ℚ) / s⌉₊ = ⌈((n - min s n : ℕ) : ℚ) / s⌉₊ + 1 := by
  have positive : (0 : ℚ) < s := by exact_mod_cast room
  rcases le_total s n with le | le
  · have fewer : (n : ℚ) / s = ((n - s : ℕ) : ℚ) / s + 1 := by
      rw [Nat.cast_sub le]
      field_simp
      ring
    rw [min_eq_left le, fewer, Nat.ceil_add_one (by positivity)]
  · have last : ⌈(n : ℚ) / s⌉₊ = 1 := by
      rw [Nat.ceil_eq_iff one_ne_zero]
      have fits : (n : ℚ) ≤ s := by exact_mod_cast le
      have begun : (0 : ℚ) < n := by exact_mod_cast some
      refine ⟨?_, ?_⟩
      · rw [Nat.sub_self, Nat.cast_zero]
        positivity
      · rw [Nat.cast_one, div_le_one positive]
        exact fits
    rw [min_eq_right le, last, Nat.sub_self, Nat.cast_zero, zero_div, Nat.ceil_zero]

theorem classify_of_mem_entries (homogeneous : ∀ ticket ∈ batch.tickets, classify ticket = batch.complexity)
    {entry : Entry} (member : entry ∈ batch.entries) : classify entry.1 = batch.complexity := by
  apply homogeneous
  rw [← Batch.entries_tickets]
  exact List.mem_map_of_mem member

/-- The tickets of a batch are all of its complexity. -/
theorem queuedCount_entries (homogeneous : ∀ ticket ∈ batch.tickets, classify ticket = batch.complexity)
    (c : Complexity) :
    queuedCount c (batch.entries : Multiset Entry) = if batch.complexity = c then batch.tickets.length else 0 := by
  have length : batch.entries.length = batch.tickets.length := by
    rw [← Batch.entries_tickets, List.length_map]
  rw [queuedCount, Multiset.coe_countP]
  split
  · next same =>
      rw [← length, List.countP_eq_length]
      intro entry member
      simpa using (classify_of_mem_entries homogeneous member).trans same
  · next differ =>
      rw [List.countP_eq_zero]
      intro entry member
      simpa [classify_of_mem_entries homogeneous member] using differ

theorem queuedCount_add (c : Complexity) (first second : Multiset Entry) :
    queuedCount c (first + second) = queuedCount c first + queuedCount c second :=
  Multiset.countP_add _ first second

theorem Greedy.nonempty (greedy : PriorityBatcher.Greedy queued batch) : batch.tickets ≠ [] := by
  obtain ⟨entry, there, same⟩ := greedy.present
  have some : 0 < queued.countP fun entry => classify entry.1 = batch.complexity :=
    Multiset.countP_pos.mpr ⟨entry, there, same⟩
  have room := batchSize_pos batch.complexity
  apply List.ne_nil_of_length_pos
  rw [greedy.full]
  omega

theorem Greedy.length (greedy : PriorityBatcher.Greedy queued batch) :
    batch.tickets.length = min (batchSize batch.complexity) (queuedCount batch.complexity queued) := greedy.full

theorem drained_nil : Drained 0 [] where
  conserved := rfl
  homogeneous := by simp
  nonempty := by simp
  ordered := .nil
  full := by simp [batchesOf]
  number := by simp [batchesOf, queuedCount]

theorem queuedCount_split (greedy : PriorityBatcher.Greedy queued batch)
    (split : queued = (batch.entries : Multiset Entry) + rest) (c : Complexity) :
    queuedCount c queued = (if batch.complexity = c then batch.tickets.length else 0) + queuedCount c rest := by
  rw [split, queuedCount_add, queuedCount_entries greedy.homogeneous]

/-- A ticket of a later batch was queued when this one was drained. -/
theorem Drained.ranked (greedy : PriorityBatcher.Greedy queued batch)
    (split : queued = (batch.entries : Multiset Entry) + rest) (more : Drained rest batches)
    {later : Batch} (member : later ∈ batches) :
    complexityPriority batch.complexity ≤ complexityPriority later.complexity := by
  obtain ⟨ticket, inside⟩ := List.exists_mem_of_ne_nil _ (more.nonempty later member)
  rw [← Batch.entries_tickets] at inside
  obtain ⟨entry, there, rfl⟩ := List.mem_map.mp inside
  have queued_then : entry ∈ queued := by
    rw [split, ← more.conserved]
    exact Multiset.mem_add.mpr (.inr (List.mem_flatMap.mpr ⟨later, member, there⟩))
  have ranked := greedy.ranked entry queued_then
  rwa [classify_of_mem_entries (more.homogeneous later member) there] at ranked

/-- Before another batch of its complexity, a greedy batch is full. -/
theorem Drained.full_before (greedy : PriorityBatcher.Greedy queued batch)
    (split : queued = (batch.entries : Multiset Entry) + rest) (more : Drained rest batches)
    (others : batchesOf batch.complexity batches ≠ []) :
    batch.tickets.length = batchSize batch.complexity := by
  have counted := queuedCount_split greedy split batch.complexity
  rw [if_pos rfl] at counted
  have length := Greedy.length greedy
  rcases Nat.eq_zero_or_pos (queuedCount batch.complexity rest) with none_ | left
  · have number := more.number batch.complexity
    rw [none_, Nat.cast_zero, zero_div, Nat.ceil_zero] at number
    exact absurd (List.length_eq_zero_iff.mp number) others
  · omega

/-- A greedy batch is one of as few as there can be. -/
theorem Drained.number_before (greedy : PriorityBatcher.Greedy queued batch)
    (split : queued = (batch.entries : Multiset Entry) + rest) (more : Drained rest batches) :
    (batchesOf batch.complexity batches).length + 1 =
      ⌈(queuedCount batch.complexity queued : ℚ) / batchSize batch.complexity⌉₊ := by
  have counted := queuedCount_split greedy split batch.complexity
  rw [if_pos rfl] at counted
  have begun := List.length_pos_iff.mpr (Greedy.nonempty greedy)
  have length := Greedy.length greedy
  have left : queuedCount batch.complexity rest =
      queuedCount batch.complexity queued - batch.tickets.length := by omega
  rw [ceil_div_min (n := queuedCount batch.complexity queued) (by omega) (batchSize_pos _), ← length, ← left,
    ← more.number]

/-- **A greedy batch** before an optimal partition of the rest. -/
theorem Drained.cons (greedy : PriorityBatcher.Greedy queued batch)
    (split : queued = (batch.entries : Multiset Entry) + rest) (more : Drained rest batches) :
    Drained queued (batch :: batches) := by
  constructor
  · rw [List.flatMap_cons, ← Multiset.coe_add, more.conserved, split]
  · exact List.forall_mem_cons.mpr ⟨greedy.homogeneous, more.homogeneous⟩
  · exact List.forall_mem_cons.mpr ⟨Greedy.nonempty greedy, more.nonempty⟩
  · exact List.pairwise_cons.mpr ⟨fun later member => more.ranked greedy split member, more.ordered⟩
  · intro c
    by_cases same : batch.complexity = c
    · subst same
      rw [batchesOf, List.filter_cons_of_pos (by simp)]
      cases others : batches.filter fun batch' => batch'.complexity = batch.complexity with
      | nil => simp
      | cons next others' =>
          rw [List.dropLast_cons_of_ne_nil (List.cons_ne_nil _ _), ← others]
          refine List.forall_mem_cons.mpr ⟨more.full_before greedy split ?_, more.full _⟩
          rw [batchesOf, others]
          exact List.cons_ne_nil _ _
    · rw [batchesOf, List.filter_cons_of_neg (by simpa using same)]
      exact more.full c
  · intro c
    by_cases same : batch.complexity = c
    · subst same
      rw [batchesOf, List.filter_cons_of_pos (by simp), List.length_cons]
      exact more.number_before greedy split
    · have counted := queuedCount_split greedy split c
      rw [if_neg same, zero_add] at counted
      rw [batchesOf, List.filter_cons_of_neg (by simpa using same), counted]
      exact more.number c

end Drained

/-! ## The whole queue -/

namespace PriorityBatcher

variable (Q : TicketQueue)

/-- `drain_all_batches`. -/
def drainAllBatches (q : Q.Carrier) : List Batch :=
  match _drained : drainBatch Q q with
  | none => []
  | some (batch, rest) => batch :: drainAllBatches rest
termination_by (entries Q q).card
decreasing_by exact drainBatch_card_lt _drained

variable {Q}

theorem drainAllBatches_drained {q : Q.Carrier} (ordered : Prioritized Q q) :
    Drained (entries Q q) (drainAllBatches Q q) := by
  induction q using drainAllBatches.induct Q with
  | case1 q drained =>
      have nothing := (drainBatch_eq_none_iff q).mp drained
      rw [drainAllBatches]
      split
      · rw [nothing]
        exact drained_nil
      · next impossible => cases drained.symm.trans impossible
  | case2 q batch rest drained ih =>
      obtain ⟨greedy, left⟩ := drainBatch_greedy ordered drained
      rw [drainAllBatches]
      split
      · next impossible => cases drained.symm.trans impossible
      · next found =>
          cases drained.symm.trans found
          exact Drained.cons greedy (drainBatch_entries drained) (ih left)

end PriorityBatcher

theorem Batch.entries_indices (batch : Batch) : batch.entries.map Prod.snd = batch.indices :=
  List.map_snd_zip (ge_of_eq batch.paired)

theorem enumerate_indices (tickets : List String) (startIndex : ℤ) :
    (enumerate tickets startIndex).map Prod.snd = (List.range tickets.length).map fun i : ℕ => startIndex + i := by
  rw [List.range_eq_range', ← List.zipIdx_map_snd 0 tickets, enumerate, List.map_map, List.map_map]
  rfl

/-- The tickets of an enumeration, counted by complexity. -/
theorem queuedCount_enumerate (tickets : List String) (startIndex : ℤ) (c : Complexity) :
    queuedCount c (enumerate tickets startIndex : Multiset Entry) = (breakdown tickets).of c := by
  have counted := List.countP_map (p := fun t => decide (classify t = c)) (f := Prod.fst)
    (l := enumerate tickets startIndex)
  rw [enumerate_tickets] at counted
  rw [breakdown_of, counted, queuedCount, Multiset.coe_countP]
  rfl

/-- What a full drain of `tickets` returns. -/
structure FullDrain (tickets : List String) (startIndex : ℤ) (batches : List Batch) : Prop where
  ordered : batches.Pairwise fun earlier later =>
    complexityPriority earlier.complexity ≤ complexityPriority later.complexity
  agreed : ∀ c, (classifyMany tickets c).length = (breakdown tickets).of c
  number : ∀ c, (batchesOf c batches).length = ⌈((breakdown tickets).of c : ℚ) / batchSize c⌉₊
  full : ∀ c, ∀ batch ∈ (batchesOf c batches).dropLast, batch.tickets.length = batchSize c
  homogeneous : ∀ batch ∈ batches, ∀ ticket ∈ batch.tickets, classify ticket = batch.complexity
  indices : (batches.flatMap Batch.indices).Perm ((List.range tickets.length).map fun i : ℕ => startIndex + i)
  own : (batches.flatMap Batch.entries).Perm (enumerate tickets startIndex)

/-- **A full drain** is an ordered partition into as few batches as there can be. -/
theorem full_drain (Q : TicketQueue) (tickets : List String) (startIndex : ℤ) :
    FullDrain tickets startIndex (PriorityBatcher.drainAllBatches Q
      (PriorityBatcher.enqueueMany Q Q.empty tickets startIndex)) := by
  have drained := PriorityBatcher.drainAllBatches_drained
    ((PriorityBatcher.prioritized_empty (Q := Q)).enqueueMany tickets startIndex)
  rw [PriorityBatcher.entries_enqueueMany, PriorityBatcher.entries, Q.items_empty, Multiset.map_zero,
    add_zero] at drained
  have own := Multiset.coe_eq_coe.mp drained.conserved
  constructor
  · exact drained.ordered
  · exact length_classifyMany tickets
  · intro c
    rw [drained.number, queuedCount_enumerate]
  · exact drained.full
  · exact drained.homogeneous
  · rw [← enumerate_indices]
    have indices := own.map Prod.snd
    rw [List.map_flatMap] at indices
    simpa only [Batch.entries_indices] using indices
  · exact own

end InferenceForge.Pipeline
