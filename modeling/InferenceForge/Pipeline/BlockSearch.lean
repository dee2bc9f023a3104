/-
# InferenceForge.Pipeline.BlockSearch — which blocks the extractor tries

A `Block` starts with a brace and ends where its braces first balance.
`takeBlock` cuts blocks (`takeBlock_iff`), and the search tries those before which
no brace is open (`Reached`, `firstJson_candidates_iff`): a block inside of a tried
one is skipped with it, and behind a brace that is never closed nothing is tried.

So the search does not try every balanced block. It returns the object of the
leftmost block that parses if and only if the first block it reaches that parses
holds that object (`extractor_leftmost_iff`); `nested_object_missed` and
`stray_brace_misses` are texts where it raises instead.
-/
import InferenceForge.Pipeline.ObjectParsing

namespace InferenceForge.Pipeline

open InferenceForge.Python

set_option autoImplicit false

/-! ## Blocks -/

/-- `block` brings the brace depth from `depth` to 0, at its end for the first time. -/
structure Closes (depth : ℕ) (block : List Char) : Prop where
  closed : block.count '}' = block.count '{' + depth
  first : ∀ before after, block = before ++ after → after ≠ [] →
    before.count '}' < before.count '{' + depth

/-- A text that starts with a brace and ends with the brace that balances it. -/
structure Block (text : List Char) : Prop where
  opens : text.head? = some '{'
  closed : text.count '}' = text.count '{'
  first : ∀ before after, text = before ++ after → before ≠ [] → after ≠ [] →
    before.count '}' < before.count '{'

section Blocks

variable {c : Char} {depth depth' : ℕ} {text more block rest : List Char}

/-- The first character of a block moves the depth. -/
theorem closes_cons (positive : 0 < depth)
    (moves : ∀ t : List Char, (c :: t).count '}' + (t.count '{' + depth') =
      t.count '}' + ((c :: t).count '{' + depth)) :
    Closes depth (c :: block) ↔ Closes depth' block := by
  constructor
  · intro closes
    constructor
    · have all := closes.closed
      have shift := moves block
      omega
    · intro before after split some
      have earlier := closes.first (c :: before) after (by rw [split, List.cons_append]) some
      have shift := moves before
      omega
  · intro closes
    constructor
    · have all := closes.closed
      have shift := moves block
      omega
    · intro before after split some
      cases before with
      | nil => simpa using positive
      | cons d before =>
          obtain ⟨rfl, tail⟩ := List.cons.inj split
          have earlier := closes.first before after tail some
          have shift := moves before
          omega

theorem closes_opening : Closes (depth + 1) ('{' :: block) ↔ Closes (depth + 2) block := by
  apply closes_cons (Nat.succ_pos depth)
  intro t
  simp
  omega

theorem closes_closing : Closes (depth + 2) ('}' :: block) ↔ Closes (depth + 1) block := by
  apply closes_cons (Nat.succ_pos _)
  intro t
  simp
  omega

theorem closes_other (opening : c ≠ '{') (closing : c ≠ '}') :
    Closes (depth + 1) (c :: block) ↔ Closes (depth + 1) block := by
  apply closes_cons (Nat.succ_pos depth)
  intro t
  rw [List.count_cons_of_ne opening, List.count_cons_of_ne closing]

theorem closes_last : Closes 1 ('}' :: block) ↔ block = [] := by
  constructor
  · intro closes
    by_contra some
    have early := closes.first ['}'] block rfl some
    simp at early
  · rintro rfl
    constructor
    · rfl
    · intro before after split some
      cases before with
      | nil => exact Nat.lt_succ_self 0
      | cons d before =>
          have lengths := congrArg List.length split
          have positive := List.length_pos_iff.mpr some
          simp only [List.length_append, List.length_cons, List.length_nil] at lengths
          omega

theorem not_closes_nil : ¬ Closes (depth + 1) [] := by
  intro closes
  have all := closes.closed
  simp at all

/-- `takeBlock` cuts a text where the depth is 0 for the first time. -/
theorem takeBlock_closes_iff :
    takeBlock (depth + 1) text = some (block, rest) ↔ text = block ++ rest ∧ Closes (depth + 1) block := by
  induction text generalizing depth block with
  | nil =>
      simp only [takeBlock, reduceCtorEq, false_iff, not_and]
      intro split
      obtain ⟨rfl, rfl⟩ := List.append_eq_nil_iff.mp split.symm
      exact not_closes_nil
  | cons c text ih =>
      -- the rest of the text is cut at the depth behind `c`
      have cut : ∀ deeper, (∀ inner, Closes (depth + 1) (c :: inner) ↔ Closes (deeper + 1) inner) →
          ((takeBlock (deeper + 1) text).map (fun found => (c :: found.1, found.2)) =
            some (block, rest) ↔ c :: text = block ++ rest ∧ Closes (depth + 1) block) := by
        intro deeper moves
        rw [Option.map_eq_some_iff]
        constructor
        · rintro ⟨⟨inner, rest'⟩, found, same⟩
          cases same
          obtain ⟨split, closes⟩ := ih.mp found
          exact ⟨by rw [split, List.cons_append], (moves inner).mpr closes⟩
        · rintro ⟨split, closes⟩
          cases block with
          | nil => exact absurd closes not_closes_nil
          | cons d inner =>
              obtain ⟨rfl, tail⟩ := List.cons.inj split
              exact ⟨(inner, rest), ih.mpr ⟨tail, (moves inner).mp closes⟩, rfl⟩
      rw [takeBlock]
      by_cases opening : c = '{'
      · subst opening
        rw [if_pos rfl]
        exact cut (depth + 1) fun inner => closes_opening
      · rw [if_neg opening]
        by_cases closing : c = '}'
        · subst closing
          rw [if_pos rfl]
          cases depth with
          | zero =>
              rw [if_pos rfl]
              constructor
              · intro same
                cases same
                exact ⟨rfl, closes_last.mpr rfl⟩
              · rintro ⟨split, closes⟩
                cases block with
                | nil => exact absurd closes not_closes_nil
                | cons d inner =>
                    obtain ⟨rfl, tail⟩ := List.cons.inj split
                    obtain rfl := closes_last.mp closes
                    rw [tail]
                    rfl
          | succ shallower =>
              rw [if_neg (by omega)]
              exact cut shallower fun inner => closes_closing
        · rw [if_neg closing]
          exact cut depth fun inner => closes_other opening closing

theorem block_cons : Block ('{' :: block) ↔ Closes 1 block := by
  constructor
  · intro balanced
    constructor
    · have all := balanced.closed
      simpa using all
    · intro before after split some
      have earlier := balanced.first ('{' :: before) after (by rw [split, List.cons_append])
        (List.cons_ne_nil _ _) some
      simpa using earlier
  · intro closes
    constructor
    · rfl
    · have all := closes.closed
      simpa using all
    · intro before after split some some'
      cases before with
      | nil => exact absurd rfl some
      | cons d before =>
          obtain ⟨rfl, tail⟩ := List.cons.inj split
          have earlier := closes.first before after tail some'
          simpa using earlier

/-- **`takeBlock` cuts blocks.** -/
theorem takeBlock_iff :
    takeBlock 0 ('{' :: text) = some (block, rest) ↔ '{' :: text = block ++ rest ∧ Block block := by
  rw [takeBlock, if_pos rfl, Option.map_eq_some_iff]
  constructor
  · rintro ⟨⟨inner, rest'⟩, found, same⟩
    cases same
    obtain ⟨split, closes⟩ := takeBlock_closes_iff.mp found
    exact ⟨by rw [split, List.cons_append], block_cons.mpr closes⟩
  · rintro ⟨split, balanced⟩
    cases block with
    | nil => cases balanced.opens
    | cons d inner =>
        obtain ⟨rfl, tail⟩ := List.cons.inj split
        exact ⟨(inner, rest), takeBlock_closes_iff.mpr ⟨tail, block_cons.mp balanced⟩, rfl⟩

/-- A text begins with one block at most. -/
theorem block_unique {block' rest' : List Char} (balanced : Block block) (balanced' : Block block')
    (same : block ++ rest = block' ++ rest') : block = block' ∧ rest = rest' := by
  cases block with
  | nil => cases balanced.opens
  | cons c inner =>
      obtain rfl : c = '{' := by simpa using balanced.opens
      have found : takeBlock 0 ('{' :: (inner ++ rest)) = some ('{' :: inner, rest) :=
        takeBlock_iff.mpr ⟨rfl, balanced⟩
      have found' := takeBlock_iff.mpr ⟨same, balanced'⟩
      cases found.symm.trans found'
      exact ⟨rfl, rfl⟩

end Blocks

/-! ## Braces that are still open -/

/-- The braces open behind a text, `depth` of them before it. A closing brace that
closes none is passed over. -/
def stillOpen : ℕ → List Char → ℕ
  | depth, [] => depth
  | depth, c :: rest =>
      if c = '{' then stillOpen (depth + 1) rest
      else if c = '}' then stillOpen (depth - 1) rest
      else stillOpen depth rest

section Open

variable {depth : ℕ} {text block : List Char}

theorem stillOpen_append (depth : ℕ) (before after : List Char) :
    stillOpen depth (before ++ after) = stillOpen (stillOpen depth before) after := by
  induction before generalizing depth with
  | nil => rfl
  | cons c rest ih =>
      rw [List.cons_append, stillOpen, stillOpen]
      split_ifs <;> exact ih _

theorem stillOpen_unopened (unopened : '{' ∉ text) : stillOpen 0 text = 0 := by
  induction text with
  | nil => rfl
  | cons c rest ih =>
      simp only [List.mem_cons, not_or] at unopened
      rw [stillOpen, if_neg (Ne.symm unopened.1)]
      split_ifs <;> exact ih unopened.2

/-- As long as no closing brace is passed over, the open braces are counted. -/
theorem stillOpen_count (kept : ∀ before after, text = before ++ after →
    before.count '}' ≤ before.count '{' + depth) :
    stillOpen depth text + text.count '}' = text.count '{' + depth := by
  induction text generalizing depth with
  | nil => simp [stillOpen]
  | cons c rest ih =>
      have inner : ∀ before after, rest = before ++ after →
          (c :: before).count '}' ≤ (c :: before).count '{' + depth := by
        intro before after split
        exact kept (c :: before) after (by rw [split, List.cons_append])
      rw [stillOpen]
      by_cases opening : c = '{'
      · subst opening
        rw [if_pos rfl]
        have deeper := @ih (depth + 1) fun before after split => by
          have bound := inner before after split
          simp at bound
          omega
        simp
        omega
      · by_cases closing : c = '}'
        · subst closing
          rw [if_neg opening, if_pos rfl]
          have positive := inner [] rest rfl
          simp at positive
          have shallower := @ih (depth - 1) fun before after split => by
            have bound := inner before after split
            simp at bound
            omega
          simp
          omega
        · rw [if_neg opening, if_neg closing]
          have same := @ih depth fun before after split => by
            have bound := inner before after split
            rwa [List.count_cons_of_ne opening, List.count_cons_of_ne closing] at bound
          rwa [List.count_cons_of_ne opening, List.count_cons_of_ne closing]

theorem Closes.stillOpen (closes : Closes depth block) : stillOpen depth block = 0 := by
  have counted := @stillOpen_count depth block fun before after split => by
    by_cases whole : after = []
    · subst whole
      rw [List.append_nil] at split
      subst split
      exact closes.closed.le
    · exact (closes.first before after split whole).le
  have all := closes.closed
  omega

theorem Block.stillOpen (balanced : Block block) : stillOpen 0 block = 0 := by
  cases block with
  | nil => rfl
  | cons c inner =>
      obtain rfl : c = '{' := by simpa using balanced.opens
      rw [Pipeline.stillOpen, if_pos rfl]
      exact (block_cons.mp balanced).stillOpen

/-- Where no brace is open any more, the depth has reached 0 before. -/
theorem closes_of_stillOpen (none_ : stillOpen (depth + 1) text = 0) :
    ∃ block rest, text = block ++ rest ∧ Closes (depth + 1) block := by
  induction text generalizing depth with
  | nil => cases none_
  | cons c text ih =>
      rw [stillOpen] at none_
      by_cases opening : c = '{'
      · subst opening
        rw [if_pos rfl] at none_
        obtain ⟨block, rest, rfl, closes⟩ := ih none_
        exact ⟨'{' :: block, rest, rfl, closes_opening.mpr closes⟩
      · rw [if_neg opening] at none_
        by_cases closing : c = '}'
        · subst closing
          rw [if_pos rfl] at none_
          cases depth with
          | zero => exact ⟨['}'], text, rfl, closes_last.mpr rfl⟩
          | succ depth =>
              obtain ⟨block, rest, rfl, closes⟩ := ih none_
              exact ⟨'}' :: block, rest, rfl, closes_closing.mpr closes⟩
        · rw [if_neg closing] at none_
          obtain ⟨block, rest, rfl, closes⟩ := ih none_
          exact ⟨c :: block, rest, rfl, (closes_other opening closing).mpr closes⟩

end Open

/-! ## The blocks that are reached -/

/-- `text` splits into `before`, a block and `after`. -/
structure Occurs (text before block after : List Char) : Prop where
  split : text = before ++ (block ++ after)
  balanced : Block block

/-- A block before which no brace is open. -/
structure Reached (text before block after : List Char) : Prop extends Occurs text before block after where
  unopened : stillOpen 0 before = 0

section Reached

variable {text before block after first rest : List Char}

/-- Behind the first brace of a text, a block is reached only past the block that
starts there. -/
theorem Reached.cases {pre later : List Char} (unopened : '{' ∉ pre)
    (reached : Reached (pre ++ '{' :: later) before block after) :
    (before = pre ∧ '{' :: later = block ++ after) ∨
      ∃ first between, Block first ∧ before = pre ++ (first ++ between) ∧
        '{' :: later = first ++ (between ++ (block ++ after)) ∧ stillOpen 0 between = 0 := by
  obtain ⟨⟨split, balanced⟩, none_⟩ := reached
  obtain ⟨inner, opens⟩ : ∃ inner, block = '{' :: inner := by
    cases block with
    | nil => cases balanced.opens
    | cons c inner => exact ⟨inner, by simpa using balanced.opens⟩
  rcases List.append_eq_append_iff.mp split with ⟨between, within, tail⟩ | ⟨between, within, tail⟩
  · cases between with
    | nil => exact Or.inl ⟨by rw [within, List.append_nil], by rw [tail, List.nil_append]⟩
    | cons c between =>
        obtain ⟨rfl, tail⟩ := List.cons.inj tail
        right
        rw [within, stillOpen_append, stillOpen_unopened unopened, stillOpen, if_pos rfl] at none_
        obtain ⟨closing, rest, rfl, closes⟩ := closes_of_stillOpen none_
        refine ⟨'{' :: closing, rest, block_cons.mpr closes, ?_, ?_, ?_⟩
        · rw [within, List.cons_append]
        · rw [tail]
          simp only [List.append_assoc, List.cons_append]
        · rwa [stillOpen_append, closes.stillOpen] at none_
  · cases between with
    | nil =>
        left
        rw [List.nil_append] at tail
        exact ⟨by rw [within, List.append_nil], tail.symm⟩
    | cons c between =>
        -- the block would start before the first brace
        rw [opens] at tail
        obtain ⟨rfl, _⟩ := List.cons.inj tail
        exact absurd (by rw [within]; simp) unopened

theorem takeWhile_unopened (text : List Char) : '{' ∉ text.takeWhile (· ≠ '{') := by
  intro member
  have visible := List.mem_takeWhile_imp member
  simp at visible

theorem dropWhile_opens (text : List Char) :
    text.dropWhile (· ≠ '{') = [] ∨ ∃ later, text.dropWhile (· ≠ '{') = '{' :: later := by
  cases dropped : text.dropWhile (· ≠ '{') with
  | nil => exact Or.inl rfl
  | cons c later =>
      have opens := List.head?_dropWhile_not (· ≠ '{') text
      rw [dropped] at opens
      have brace : c = '{' := by simpa using opens
      exact Or.inr ⟨later, by rw [brace]⟩

theorem first_brace (text : List Char) :
    text.takeWhile (· ≠ '{') ++ text.dropWhile (· ≠ '{') = text := List.takeWhile_append_dropWhile

/-- Where no block starts at the first brace, none is reached. -/
theorem not_reached (found : takeBlock 0 (text.dropWhile (· ≠ '{')) = none) :
    ¬ Reached text before block after := by
  intro reached
  rcases dropWhile_opens text with none_ | ⟨later, opens⟩
  · obtain ⟨⟨split, balanced⟩, _⟩ := reached
    have member : '{' ∈ text := by
      rw [split]
      exact List.mem_append_right _ (List.mem_append_left _ (List.mem_of_head? balanced.opens))
    exact absurd (List.dropWhile_eq_nil_iff.mp none_ _ member) (by simp)
  · rw [opens] at found
    have whole := first_brace text
    rw [opens] at whole
    rw [← whole] at reached
    rcases reached.cases (takeWhile_unopened text) with ⟨_, starts⟩ | ⟨_, _, balanced, _, starts, _⟩
    · rw [takeBlock_iff.mpr ⟨starts, reached.balanced⟩] at found
      cases found
    · rw [takeBlock_iff.mpr ⟨starts, balanced⟩] at found
      cases found

/-- The blocks reached are the one at the first brace, and those reached behind it. -/
theorem reached_iff (found : takeBlock 0 (text.dropWhile (· ≠ '{')) = some (first, rest)) :
    Reached text before block after ↔
      (before = text.takeWhile (· ≠ '{') ∧ block = first ∧ after = rest) ∨
        ∃ between, before = text.takeWhile (· ≠ '{') ++ (first ++ between) ∧
          Reached rest between block after := by
  rcases dropWhile_opens text with none_ | ⟨later, opens⟩
  · rw [none_] at found
    cases found
  rw [opens] at found
  obtain ⟨starts, balanced⟩ := takeBlock_iff.mp found
  have whole := first_brace text
  rw [opens] at whole
  have unopened := takeWhile_unopened text
  constructor
  · intro reached
    rw [← whole] at reached
    rcases reached.cases unopened with ⟨same, starts'⟩ | ⟨first', between, balanced', same, starts', none_⟩
    · obtain ⟨rfl, rfl⟩ := block_unique reached.balanced balanced (starts'.symm.trans starts)
      exact Or.inl ⟨same, rfl, rfl⟩
    · obtain ⟨rfl, tail⟩ := block_unique balanced' balanced (starts'.symm.trans starts)
      exact Or.inr ⟨between, same, ⟨tail.symm, reached.balanced⟩, none_⟩
  · rintro (⟨rfl, rfl, rfl⟩ | ⟨between, rfl, reached⟩)
    · refine ⟨⟨?_, balanced⟩, stillOpen_unopened unopened⟩
      rw [← starts, whole]
    · refine ⟨⟨?_, reached.balanced⟩, ?_⟩
      · rw [List.append_assoc, List.append_assoc, ← reached.split, ← starts, whole]
      · rw [stillOpen_append, stillOpen_unopened unopened, stillOpen_append, balanced.stillOpen]
        exact reached.unopened

end Reached

/-! ## The search -/

section Search

variable {loads : String → Except Exn Json} {text before block after : List Char} {value : Json}

theorem firstJson_cons {blocks : List (List Char)} :
    firstJson loads (block :: blocks) = .ok value ↔
      loads (String.ofList block) = .ok value ∨ NotJson loads block ∧ firstJson loads blocks = .ok value := by
  rw [firstJson, NotJson, RaisesDecode]
  cases loads (String.ofList block) with
  | ok read => simp
  | error e => by_cases kind : e.kind = .jsonDecode <;> simp [kind]

/-- `block` is the first one reached that is not refused, and it holds `value`. -/
structure FirstRead (loads : String → Except Exn Json) (text before block after : List Char)
    (value : Json) : Prop where
  reached : Reached text before block after
  read : loads (String.ofList block) = .ok value
  refused : ∀ before' block' after', Reached text before' block' after' →
    before'.length < before.length → NotJson loads block'

section Step

variable {first rest between : List Char}

theorem not_notJson (read : loads (String.ofList block) = .ok value) : ¬ NotJson loads block := by
  rintro ⟨e, failed, _⟩
  rw [read] at failed
  cases failed

theorem firstRead_start (found : takeBlock 0 (text.dropWhile (· ≠ '{')) = some (first, rest))
    (read : loads (String.ofList first) = .ok value) :
    FirstRead loads text (text.takeWhile (· ≠ '{')) first rest value := by
  refine ⟨(reached_iff found).mpr (Or.inl ⟨rfl, rfl, rfl⟩), read, ?_⟩
  intro before' block' after' reached shorter
  -- no block is reached before the first brace
  rcases (reached_iff found).mp reached with ⟨rfl, _, _⟩ | ⟨between, rfl, _⟩
  · exact absurd shorter (lt_irrefl _)
  · rw [List.length_append] at shorter
    omega

/-- Behind a refused block the search goes on as if the text started there. -/
theorem firstRead_later (found : takeBlock 0 (text.dropWhile (· ≠ '{')) = some (first, rest))
    (refused : NotJson loads first) :
    FirstRead loads rest between block after value ↔
      FirstRead loads text (text.takeWhile (· ≠ '{') ++ (first ++ between)) block after value := by
  have lift : ∀ {between block after}, Reached rest between block after →
      Reached text (text.takeWhile (· ≠ '{') ++ (first ++ between)) block after :=
    fun reached => (reached_iff found).mpr (Or.inr ⟨_, rfl, reached⟩)
  constructor
  · intro reading
    refine ⟨lift reading.reached, reading.read, ?_⟩
    intro before' block' after' reached shorter
    rcases (reached_iff found).mp reached with ⟨_, rfl, _⟩ | ⟨between', rfl, later⟩
    · exact refused
    · apply reading.refused between' block' after' later
      simp only [List.length_append] at shorter
      omega
  · intro reading
    constructor
    · rcases (reached_iff found).mp reading.reached with ⟨_, rfl, _⟩ | ⟨between', same, later⟩
      · exact absurd refused (not_notJson reading.read)
      · obtain rfl : between = between' := by simpa using same
        exact later
    · exact reading.read
    · intro before' block' after' reached shorter
      apply reading.refused _ block' after' (lift reached)
      simp only [List.length_append]
      omega

theorem firstRead_cases (found : takeBlock 0 (text.dropWhile (· ≠ '{')) = some (first, rest))
    (reading : FirstRead loads text before block after value) :
    loads (String.ofList first) = .ok value ∨
      NotJson loads first ∧ ∃ between, FirstRead loads rest between block after value := by
  rcases (reached_iff found).mp reading.reached with ⟨_, rfl, _⟩ | ⟨between, rfl, later⟩
  · exact Or.inl reading.read
  · have refused : NotJson loads first := by
      apply reading.refused _ first rest ((reached_iff found).mpr (Or.inl ⟨rfl, rfl, rfl⟩))
      have positive := List.length_pos_iff.mpr (takeBlock_append found).2
      simp only [List.length_append]
      omega
    exact Or.inr ⟨refused, between, (firstRead_later found refused).mpr reading⟩

end Step

/-- The search finds what the first block holds that is reached and not refused. -/
theorem firstJson_candidates_iff (loads : String → Except Exn Json) (value : Json) :
    ∀ text : List Char, firstJson loads (candidates text) = .ok value ↔
      ∃ before block after, FirstRead loads text before block after value := by
  intro text
  induction length : text.length using Nat.strong_induction_on generalizing text with
  | _ n ih =>
      subst length
      cases found : takeBlock 0 (text.dropWhile (· ≠ '{')) with
      | none =>
          rw [candidates_none found]
          constructor
          · intro result
            cases result
          · rintro ⟨before, block, after, reading⟩
            exact absurd reading.reached (not_reached found)
      | some cut =>
          obtain ⟨first, rest⟩ := cut
          have inner := ih rest.length (takeBlock_rest_lt found) rest rfl
          rw [candidates_some found, firstJson_cons, inner]
          constructor
          · rintro (read | ⟨refused, between, block, after, reading⟩)
            · exact ⟨_, first, rest, firstRead_start found read⟩
            · exact ⟨_, block, after, (firstRead_later found refused).mp reading⟩
          · rintro ⟨before, block, after, reading⟩
            rcases firstRead_cases found reading with read | ⟨refused, between, later⟩
            · exact Or.inl read
            · exact Or.inr ⟨refused, between, block, after, later⟩

/-- The text that `_extract_json_object` searches. -/
def searchText (text : List Char) : List Char :=
  if stripThinkTags text ≠ [] then stripThinkTags text else text

/-- The leftmost block that is read as an object. -/
structure Leftmost (loads : String → Except Exn Json) (text before block after : List Char) (d : Dict) :
    Prop where
  occurs : Occurs text before block after
  read : loads (String.ofList block) = .ok (.object d)
  first : ∀ before' block' after' d', Occurs text before' block' after' →
    loads (String.ofList block') = .ok (.object d') → before.length ≤ before'.length

/-- The extractor tries every balanced block of `text`: it returns the object of the
leftmost that holds one, and finds nothing only where there is none. -/
structure TriesAll (loads : String → Except Exn Json) (text : List Char) (result : Except Exn Json) :
    Prop where
  leftmost : ∀ before block after d, Leftmost loads text before block after d → result = .ok (.object d)
  nothing : RaisesDecode result → ∀ before block after d, Occurs text before block after →
    loads (String.ofList block) ≠ .ok (.object d)

theorem extractJsonObject_eq (loads : String → Except Exn Json) (text : List Char) :
    extractJsonObject loads text = firstJson loads (candidates (searchText text)) := by
  rw [extractJsonObject, scanBlocks_eq]
  rfl

/-- Of the blocks that are read as an object, one is leftmost. -/
theorem exists_leftmost {d : Dict} (occurs : Occurs text before block after)
    (read : loads (String.ofList block) = .ok (.object d)) :
    ∃ before block after d, Leftmost loads text before block after d := by
  induction length : before.length using Nat.strong_induction_on generalizing before block after d with
  | _ n ih =>
      subst length
      by_cases earlier : ∃ before' block' after' d', Occurs text before' block' after' ∧
          loads (String.ofList block') = .ok (.object d') ∧ before'.length < before.length
      · obtain ⟨before', block', after', d', occurs', read', shorter⟩ := earlier
        exact ih before'.length shorter occurs' read' rfl
      · refine ⟨before, block, after, d, occurs, read, fun before' block' after' d' occurs' read' => ?_⟩
        by_contra shorter
        exact earlier ⟨before', block', after', d', occurs', read', by omega⟩

/-- **Which block the extractor returns.** It returns the object of the leftmost
block that holds one if and only if the first block that is reached and not refused
holds the same object. -/
theorem extractor_leftmost_iff (loads : String → Except Exn Json) (text : List Char) :
    TriesAll loads (searchText text) (extractJsonObject loads text) ↔
      ∀ before block after d, Leftmost loads (searchText text) before block after d →
        ∃ before' block' after', FirstRead loads (searchText text) before' block' after' (.object d) := by
  rw [extractJsonObject_eq]
  constructor
  · intro tries before block after d leftmost
    exact (firstJson_candidates_iff loads _ _).mp (tries.leftmost before block after d leftmost)
  · intro reads
    have leftmost : ∀ before block after d, Leftmost loads (searchText text) before block after d →
        firstJson loads (candidates (searchText text)) = .ok (.object d) := by
      intro before block after d found
      exact (firstJson_candidates_iff loads _ _).mpr (reads before block after d found)
    refine ⟨leftmost, fun raises before block after d occurs read => ?_⟩
    obtain ⟨before', block', after', d', found⟩ := exists_leftmost occurs read
    obtain ⟨e, failed, _⟩ := raises
    rw [leftmost before' block' after' d' found] at failed
    cases failed

end Search

/-! ## Poles -/

section Poles

/-- Nothing is stripped of a tagless text whose ends are visible, and it is searched. -/
theorem stripThinkTags_plain {text : List Char} (tagless : ¬ closeTag <:+: text) (visible : strip text = text) :
    stripThinkTags text = text := by
  simp only [stripThinkTags, afterLast_none tagless, removeThinkBlocks_unclosed tagless, visible]
  split <;> rfl

theorem searchText_plain {text : List Char} (tagless : ¬ closeTag <:+: text) (visible : strip text = text)
    (some_ : text ≠ []) : searchText text = text := by
  rw [searchText, stripThinkTags_plain tagless visible, if_pos some_]

/-- Where a block that holds an object is not tried, the extractor does not try all. -/
theorem not_triesAll {loads : String → Except Exn Json} {text before block after : List Char} {d : Dict}
    (occurs : Occurs (searchText text) before block after)
    (read : loads (String.ofList block) = .ok (.object d))
    (raises : RaisesDecode (extractJsonObject loads text)) :
    ¬ TriesAll loads (searchText text) (extractJsonObject loads text) :=
  fun tries => tries.nothing raises before block after d occurs read

theorem block_of_takeBlock {text : List Char} (found : takeBlock 0 ('{' :: text) = some ('{' :: text, [])) :
    Block ('{' :: text) := (takeBlock_iff.mp found).2

def okText : List Char := summaryText ['o', 'k']

def okLoads : String → Except Exn Json := knows okText (summarized ['o', 'k'])

theorem okText_block : Block okText := block_of_takeBlock (by decide)

theorem okLoads_reads : ReadsJson okLoads :=
  knows_reads (summaryText_spelled (unescaped_of_all (by decide))) (summarized_collapse _)

theorem okLoads_okText : okLoads (String.ofList okText) = .ok (.object (summarized ['o', 'k'])) :=
  knows_self _ _

/-- **Refuting pole.** Behind a brace that is never closed, nothing is tried. -/
theorem stray_brace_misses :
    ReadsJson okLoads ∧ RaisesDecode (extractJsonObject okLoads ('{' :: ' ' :: okText)) ∧
      ¬ TriesAll okLoads (searchText ('{' :: ' ' :: okText))
        (extractJsonObject okLoads ('{' :: ' ' :: okText)) := by
  have searched : searchText ('{' :: ' ' :: okText) = '{' :: ' ' :: okText :=
    searchText_plain (by decide) (by decide) (List.cons_ne_nil _ _)
  have nothing : candidates ('{' :: ' ' :: okText) = [] := candidates_none (by decide)
  have raises : RaisesDecode (extractJsonObject okLoads ('{' :: ' ' :: okText)) := by
    rw [extractJsonObject_eq, searched, nothing, firstJson_decode]
    intro block member
    cases member
  refine ⟨okLoads_reads, raises, ?_⟩
  have occurs : Occurs (searchText ('{' :: ' ' :: okText)) ['{', ' '] okText [] := by
    rw [searched]
    exact ⟨by rw [List.append_nil]; rfl, okText_block⟩
  exact not_triesAll occurs okLoads_okText raises

/-- Refuting pole: an object within a block that is refused is skipped with it. -/
theorem nested_object_missed :
    ReadsJson okLoads ∧ RaisesDecode (extractJsonObject okLoads ('{' :: (okText ++ ['}']))) ∧
      ¬ TriesAll okLoads (searchText ('{' :: (okText ++ ['}'])))
        (extractJsonObject okLoads ('{' :: (okText ++ ['}']))) := by
  have searched : searchText ('{' :: (okText ++ ['}'])) = '{' :: (okText ++ ['}']) :=
    searchText_plain (by decide) (by decide) (List.cons_ne_nil _ _)
  have whole : takeBlock 0 (('{' :: (okText ++ ['}'])).dropWhile (· ≠ '{')) =
      some ('{' :: (okText ++ ['}']), []) := by decide
  have tried : candidates ('{' :: (okText ++ ['}'])) = ['{' :: (okText ++ ['}'])] := by
    rw [candidates_some whole, candidates_none rfl]
  have raises : RaisesDecode (extractJsonObject okLoads ('{' :: (okText ++ ['}']))) := by
    rw [extractJsonObject_eq, searched, tried, firstJson_decode]
    intro block member
    rw [List.mem_singleton.mp member]
    exact knows_notJson _ (by decide)
  refine ⟨okLoads_reads, raises, ?_⟩
  have occurs : Occurs (searchText ('{' :: (okText ++ ['}']))) ['{'] okText ['}'] := by
    rw [searched]
    exact ⟨rfl, okText_block⟩
  exact not_triesAll occurs okLoads_okText raises

end Poles

end InferenceForge.Pipeline
