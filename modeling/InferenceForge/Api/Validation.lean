/-
# InferenceForge.Api.Validation — which requests are accepted

The validation of `ProcessRequest`: the bounds of the field, which pydantic checks
(`ListField`), and then the loop of `validate_ticket_lengths`, which stops at the first
ticket that is too long or blank. `parse` builds the request that everything else is about,
so what it accepts carries its well-formedness.

It accepts exactly the tickets of a request, and otherwise names what is wrong: too few or
too many tickets before any ticket is looked at, and then the first bad one with its index
(`parse_decides`).
-/
import InferenceForge.Api.Routes

namespace InferenceForge.Api.Validation

open InferenceForge.Python InferenceForge.Pipeline

set_option autoImplicit false

/-- What is reported for the field `tickets`. -/
inductive Problem
  /-- `min_length` and `max_length`. -/
  | tooShort
  | tooLong (length : ℕ)
  /-- The text of the `ValueError`. -/
  | valueError (message : String)

/-- `Field(min_length, max_length)` of a list: what pydantic reports of its length. -/
structure ListField where
  check : ℕ → ℕ → List String → Option Problem
  tooShort : ∀ low high items, items.length < low → check low high items = some .tooShort
  tooLong : ∀ low high items, low ≤ items.length → high < items.length →
    check low high items = some (.tooLong items.length)
  within : ∀ low high items, low ≤ items.length → items.length ≤ high → check low high items = none

/-- A field that counts. -/
def ListField.counting : ListField where
  check low high items :=
    if items.length < low then some .tooShort
    else if high < items.length then some (.tooLong items.length)
    else none
  tooShort _ _ _ short := if_pos short
  tooLong _ _ _ enough long := by rw [if_neg (Nat.not_lt.mpr enough), if_pos long]
  within _ _ _ enough fits := by rw [if_neg (Nat.not_lt.mpr enough), if_neg (Nat.not_lt.mpr fits)]

section Loop

variable (settings : Settings)

/-- What the loop raises for one ticket. -/
def ticketProblem (i : ℕ) (t : String) : Option String :=
  if settings.maxTicketChars < t.length then
    some s!"Ticket at index {i} exceeds {settings.maxTicketChars} characters (got {t.length})"
  else if strip t.toList = [] then some s!"Ticket at index {i} is empty or whitespace-only"
  else none

/-- `validate_ticket_lengths`, from an index on. -/
def validateTicketLengths (i : ℕ) : List String → Option String
  | [] => none
  | t :: rest =>
      match ticketProblem settings i t with
      | some message => some message
      | none => validateTicketLengths (i + 1) rest

end Loop

section Loop

variable {settings : Settings} {i : ℕ} {t : String} {tickets : List String}

/-- A ticket that may be classified. -/
def Acceptable (settings : Settings) (t : String) : Prop :=
  t.length ≤ settings.maxTicketChars ∧ strip t.toList ≠ []

theorem ticketProblem_eq_none : ticketProblem settings i t = none ↔ Acceptable settings t := by
  unfold ticketProblem Acceptable
  split
  · next long => simp [long]
  · next short =>
      split
      · next blank => simp [blank]
      · next text => simp [Nat.le_of_not_lt short, text]

theorem validateTicketLengths_eq_none :
    validateTicketLengths settings i tickets = none ↔ ∀ t ∈ tickets, Acceptable settings t := by
  induction tickets generalizing i with
  | nil => simp [validateTicketLengths]
  | cons t rest ih =>
      rw [List.forall_mem_cons, ← @ticketProblem_eq_none settings i t, ← @ih (i + 1), validateTicketLengths]
      split
      · next found => simp [found]
      · next fine => simp [fine]

/-- The loop stops at the first bad ticket. -/
theorem validateTicketLengths_eq_some {message : String} :
    validateTicketLengths settings i tickets = some message ↔
      ∃ before t after, tickets = before ++ t :: after ∧ (∀ t' ∈ before, Acceptable settings t') ∧
        ticketProblem settings (i + before.length) t = some message := by
  induction tickets generalizing i with
  | nil => simp [validateTicketLengths]
  | cons t rest ih =>
      rw [validateTicketLengths]
      constructor
      · intro found
        split at found
        · next first =>
            cases found
            exact ⟨[], t, rest, rfl, by simp, first⟩
        · next fine =>
            obtain ⟨before, bad, after, rfl, good, problem⟩ := ih.mp found
            have fine : Acceptable settings t := ticketProblem_eq_none.mp fine
            refine ⟨t :: before, bad, after, rfl, List.forall_mem_cons.mpr ⟨fine, good⟩, ?_⟩
            rwa [List.length_cons, Nat.add_comm before.length, ← Nat.add_assoc]
      · rintro ⟨before, bad, after, split_, good, problem⟩
        cases before with
        | nil =>
            cases split_
            rw [List.length_nil, Nat.add_zero] at problem
            rw [problem]
        | cons t' before =>
            cases split_
            obtain ⟨fine, good⟩ := List.forall_mem_cons.mp good
            rw [ticketProblem_eq_none.mpr fine]
            refine ih.mpr ⟨before, bad, after, rfl, good, ?_⟩
            rwa [Nat.add_assoc, Nat.add_comm 1]

end Loop

section Parse

variable {settings : Settings} {pydantic : ListField}

/-- A list that is not reported is as long as it may be. -/
theorem ListField.within_of_none {low high : ℕ} {items : List String} (fine : pydantic.check low high items = none) :
    low ≤ items.length ∧ items.length ≤ high := by
  by_contra outside
  by_cases short : items.length < low
  · cases fine.symm.trans (pydantic.tooShort low high items short)
  · have long : high < items.length := by omega
    cases fine.symm.trans (pydantic.tooLong low high items (Nat.le_of_not_lt short) long)

/-- The validation of `ProcessRequest`. -/
def parse (pydantic : ListField) (settings : Settings) (tickets : List String) :
    Except Problem (ProcessRequest settings) :=
  match fits : pydantic.check 1 settings.maxTicketsPerRequest tickets with
  | some problem => .error problem
  | none =>
      match found : validateTicketLengths settings 0 tickets with
      | some message => .error (.valueError message)
      | none => .ok {
          tickets
          nonempty := List.ne_nil_of_length_pos (ListField.within_of_none fits).1
          bounded := (ListField.within_of_none fits).2
          short := fun t member => (validateTicketLengths_eq_none.mp found t member).1
          nonblank := fun t member => (validateTicketLengths_eq_none.mp found t member).2 }

/-- What is wrong with tickets that no request has. -/
inductive Rejected (settings : Settings) (tickets : List String) : Problem → Prop
  | tooShort (empty : tickets = []) : Rejected settings tickets .tooShort
  | tooLong (nonempty : tickets ≠ []) (long : settings.maxTicketsPerRequest < tickets.length) :
      Rejected settings tickets (.tooLong tickets.length)
  | ticket {before after : List String} {t : String} {message : String}
      (bounded : tickets.length ≤ settings.maxTicketsPerRequest) (split : tickets = before ++ t :: after)
      (first : ∀ t' ∈ before, Acceptable settings t')
      (problem : ticketProblem settings before.length t = some message) :
      Rejected settings tickets (.valueError message)

/-- The tickets of a request are accepted. -/
theorem parse_tickets (pydantic : ListField) (body : ProcessRequest settings) : parse pydantic settings body.tickets = .ok body := by
  have fits := pydantic.within 1 _ _ (List.length_pos_iff.mpr body.nonempty) body.bounded
  unfold parse
  split
  · next problem other => cases fits.symm.trans other
  · split
    · next message found =>
        have fine : validateTicketLengths settings 0 body.tickets = none :=
          validateTicketLengths_eq_none.mpr fun t member => ⟨body.short t member, body.nonblank t member⟩
        cases fine.symm.trans found
    · rfl

/-- What is rejected is reported. -/
theorem Rejected.parse (pydantic : ListField) {tickets : List String} {problem : Problem}
    (rejected : Rejected settings tickets problem) : parse pydantic settings tickets = .error problem := by
  have reported : ∀ problem, pydantic.check 1 settings.maxTicketsPerRequest tickets = some problem →
      Validation.parse pydantic settings tickets = .error problem := by
    intro problem outside
    unfold Validation.parse
    split
    · next other => cases outside.symm.trans other; rfl
    · next fine => cases outside.symm.trans fine
  cases rejected with
  | tooShort empty => exact reported _ (pydantic.tooShort _ _ _ (by simp [empty]))
  | tooLong nonempty long => exact reported _ (pydantic.tooLong _ _ _ (List.length_pos_iff.mpr nonempty) long)
  | @ticket before after t message bounded split_ first problem =>
      have found : validateTicketLengths settings 0 tickets = some message :=
        validateTicketLengths_eq_some.mpr ⟨before, t, after, split_, first, by rwa [Nat.zero_add]⟩
      have fits := pydantic.within 1 _ tickets (List.length_pos_iff.mpr (by simp [split_])) bounded
      unfold Validation.parse
      split
      · next other => cases fits.symm.trans other
      · split
        · next other => cases found.symm.trans other; rfl
        · next fine => cases found.symm.trans fine

theorem parse_cases (settings : Settings) (tickets : List String) :
    (∃ body : ProcessRequest settings, body.tickets = tickets) ∨
      ∃ problem, Rejected settings tickets problem := by
  by_cases empty : tickets = []
  · exact .inr ⟨_, .tooShort empty⟩
  by_cases long : settings.maxTicketsPerRequest < tickets.length
  · exact .inr ⟨_, .tooLong empty long⟩
  cases found : validateTicketLengths settings 0 tickets with
  | none =>
      have good := validateTicketLengths_eq_none.mp found
      exact .inl ⟨⟨tickets, empty, Nat.le_of_not_lt long, fun t member => (good t member).1,
        fun t member => (good t member).2⟩, rfl⟩
  | some message =>
      obtain ⟨before, t, after, split_, first, problem⟩ := validateTicketLengths_eq_some.mp found
      exact .inr ⟨_, .ticket (Nat.le_of_not_lt long) split_ first (by rwa [Nat.zero_add] at problem)⟩

/-- **The validation decides.** Tickets are accepted exactly if they are those of a request,
which is then built, and a problem is reported exactly if the tickets have it. -/
theorem parse_decides (pydantic : ListField) (settings : Settings) (tickets : List String) :
    (∀ body, parse pydantic settings tickets = .ok body ↔ body.tickets = tickets) ∧
      ∀ problem, parse pydantic settings tickets = .error problem ↔ Rejected settings tickets problem := by
  rcases parse_cases settings tickets with ⟨body, rfl⟩ | ⟨problem, rejected⟩
  · have accepted := parse_tickets pydantic body
    refine ⟨fun body' => ⟨fun parsed => ?_, fun same => same ▸ parse_tickets pydantic body'⟩,
      fun problem => ⟨fun parsed => ?_, Rejected.parse pydantic⟩⟩
    · cases accepted.symm.trans parsed
      rfl
    · cases accepted.symm.trans parsed
  · have reported := rejected.parse pydantic
    refine ⟨fun body => ⟨fun parsed => ?_, ?_⟩, fun problem' => ⟨fun parsed => ?_, Rejected.parse pydantic⟩⟩
    · cases reported.symm.trans parsed
    · rintro rfl
      exact parse_tickets pydantic body
    · cases reported.symm.trans parsed
      exact rejected

example : parse .counting .defaults ["help", " "] =
    .error (.valueError "Ticket at index 1 is empty or whitespace-only") := by
  rfl

end Parse

end InferenceForge.Api.Validation
