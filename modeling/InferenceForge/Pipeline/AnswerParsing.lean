/-
# InferenceForge.Pipeline.AnswerParsing — where a classification is read from

A reasoning model answers `<think>` reasoning `</think>` answer. `parse_answer` is
the result about `parseContent` on such a content, for every reasoning:

* if the answer is not blank, only the answer is read;
* if it is blank, stripping the reasoning would leave nothing and
  `stripThinkTags` falls back to the whole text, so the blocks of the reasoning
  are tried in order (`draft_is_returned`);
* a content cut off inside the reasoning raises a `JSONDecodeError` if no block
  of the reasoning is JSON.

The search of `extractJsonObject` is a search through a list of blocks
(`scanBlocks_eq`, `candidates`), and text without braces around a text changes
none of them (`candidates_around`).
-/
import InferenceForge.Pipeline.ModelOutput
import Mathlib.Data.List.Infix

namespace InferenceForge.Pipeline

open InferenceForge.Python

set_option autoImplicit false

def RaisesDecode (parsed : Except Exn Json) : Prop :=
  ∃ e, parsed = .error e ∧ e.kind = .jsonDecode

/-! ## The search as a list of blocks -/

/-- The blocks `_extract_json_object` tries while none parses. -/
def candidates (text : List Char) : List (List Char) :=
  match _found : takeBlock 0 (text.dropWhile (· ≠ '{')) with
  | none => []
  | some (block, rest) => block :: candidates rest
termination_by text.length
decreasing_by
  have cut := takeBlock_append _found
  have shorter := List.length_dropWhile_le (· ≠ '{') text
  rw [cut.1, List.length_append] at shorter
  have := List.length_pos_iff.mpr cut.2
  omega

theorem candidates_none {text : List Char} (found : takeBlock 0 (text.dropWhile (· ≠ '{')) = none) :
    candidates text = [] := by
  rw [candidates]
  split
  · rfl
  · next block rest found' =>
      rw [found] at found'
      cases found'

theorem candidates_some {text block rest : List Char}
    (found : takeBlock 0 (text.dropWhile (· ≠ '{')) = some (block, rest)) :
    candidates text = block :: candidates rest := by
  rw [candidates]
  split
  · next found' =>
      rw [found] at found'
      cases found'
  · next block' rest' found' =>
      rw [found] at found'
      cases found'
      rfl

/-- The rest of a text is shorter once a block is taken. -/
theorem takeBlock_rest_lt {text block rest : List Char}
    (found : takeBlock 0 (text.dropWhile (· ≠ '{')) = some (block, rest)) :
    rest.length < text.length := by
  obtain ⟨cut, some_⟩ := takeBlock_append found
  have shorter := List.length_dropWhile_le (· ≠ '{') text
  rw [cut, List.length_append] at shorter
  have := List.length_pos_iff.mpr some_
  omega

theorem candidates_within : ∀ (text : List Char), ∀ block ∈ candidates text, block <:+: text := by
  intro text
  induction length : text.length using Nat.strong_induction_on generalizing text with
  | _ n ih =>
      subst length
      intro block member
      cases found : takeBlock 0 (text.dropWhile (· ≠ '{')) with
      | none => simp [candidates_none found] at member
      | some cut =>
          obtain ⟨first, rest⟩ := cut
          have whole := (takeBlock_append found).1
          have suffix : first ++ rest <:+ text := by
            rw [← whole]
            exact List.dropWhile_suffix _
          rw [candidates_some found] at member
          rcases List.mem_cons.mp member with rfl | later
          · exact (List.prefix_append block rest).isInfix.trans suffix.isInfix
          · have inner := ih rest.length (takeBlock_rest_lt found) rest rfl block later
            exact inner.trans ((List.suffix_append first rest).isInfix.trans suffix.isInfix)

/-! ### Text without braces -/

def BraceFree (text : List Char) : Prop := '{' ∉ text ∧ '}' ∉ text

theorem takeBlock_braceFree {text : List Char} (free : BraceFree text) (depth : ℕ) :
    takeBlock depth text = none := by
  induction text with
  | nil => rfl
  | cons c rest ih =>
      simp only [BraceFree, List.mem_cons, not_or] at free
      obtain ⟨⟨opens, opensRest⟩, closes, closesRest⟩ := free
      rw [takeBlock, if_neg (Ne.symm opens), if_neg (Ne.symm closes), ih ⟨opensRest, closesRest⟩]
      rfl

theorem takeBlock_append_right (text : List Char) {post : List Char} (free : BraceFree post) (depth : ℕ) :
    takeBlock depth (text ++ post) =
      (takeBlock depth text).map fun (block, rest) => (block, rest ++ post) := by
  induction text generalizing depth with
  | nil => exact takeBlock_braceFree free depth
  | cons c rest ih =>
      simp only [List.cons_append, takeBlock, ih]
      split_ifs <;> simp [Function.comp_def]

theorem takeBlock_dropWhile_append (text : List Char) {post : List Char} (free : BraceFree post) :
    takeBlock 0 ((text ++ post).dropWhile (· ≠ '{')) =
      (takeBlock 0 (text.dropWhile (· ≠ '{'))).map fun (block, rest) => (block, rest ++ post) := by
  rw [List.dropWhile_append]
  split
  · next none_ =>
      have left : text.dropWhile (· ≠ '{') = [] := by simpa using none_
      have right : post.dropWhile (· ≠ '{') = [] := by
        rw [List.dropWhile_eq_nil_iff]
        intro c member
        have ne : c ≠ '{' := by
          rintro rfl
          exact free.1 member
        simpa using ne
      rw [left, right]
      rfl
  · exact takeBlock_append_right _ free 0

theorem candidates_append_right (text : List Char) {post : List Char} (free : BraceFree post) :
    candidates (text ++ post) = candidates text := by
  induction length : text.length using Nat.strong_induction_on generalizing text with
  | _ n ih =>
      subst length
      have both := takeBlock_dropWhile_append text free
      cases found : takeBlock 0 (text.dropWhile (· ≠ '{')) with
      | none =>
          rw [found] at both
          rw [candidates_none found, candidates_none both]
      | some cut =>
          obtain ⟨block, rest⟩ := cut
          rw [found] at both
          rw [candidates_some found, candidates_some both,
            ih rest.length (takeBlock_rest_lt found) rest rfl]

theorem candidates_append_left {pre : List Char} (free : BraceFree pre) (text : List Char) :
    candidates (pre ++ text) = candidates text := by
  have same : (pre ++ text).dropWhile (· ≠ '{') = text.dropWhile (· ≠ '{') := by
    refine List.dropWhile_append_of_pos fun c member => ?_
    have ne : c ≠ '{' := by
      rintro rfl
      exact free.1 member
    simpa using ne
  cases found : takeBlock 0 (text.dropWhile (· ≠ '{')) with
  | none => rw [candidates_none found, candidates_none (by rw [same]; exact found)]
  | some cut => rw [candidates_some found, candidates_some (by rw [same]; exact found)]

theorem candidates_around {pre post : List Char} (before : BraceFree pre) (after : BraceFree post)
    (text : List Char) : candidates (pre ++ text ++ post) = candidates text := by
  rw [candidates_append_right _ after, candidates_append_left before]

section Search

variable (loads : String → Except Exn Json)

/-- `json.loads` finds no JSON. -/
def NotJson (text : List Char) : Prop := RaisesDecode (loads (String.ofList text))

/-- The outcome of trying one block after the other. -/
def firstJson : List (List Char) → Except Exn Json
  | [] => .error noJsonObject
  | block :: rest =>
      match loads (String.ofList block) with
      | .ok value => .ok value
      | .error e => if e.kind = .jsonDecode then firstJson rest else .error e

theorem scanBlocks_eq : ∀ text : List Char, scanBlocks loads text = firstJson loads (candidates text) := by
  intro text
  induction length : text.length using Nat.strong_induction_on generalizing text with
  | _ n ih =>
      subst length
      rw [scanBlocks]
      split
      · next found => rw [candidates_none found, firstJson]
      · next block rest found =>
          rw [candidates_some found, ih rest.length (takeBlock_rest_lt found) rest rfl]
          cases read : loads (String.ofList block) <;> simp only [firstJson, read]

variable {loads}

theorem firstJson_ok {blocks : List (List Char)} {value : Json} (found : firstJson loads blocks = .ok value) :
    ∃ block ∈ blocks, loads (String.ofList block) = .ok value := by
  induction blocks with
  | nil => cases found
  | cons block rest ih =>
      unfold firstJson at found
      split at found
      · next parsed =>
          cases found
          exact ⟨block, List.mem_cons_self, parsed⟩
      · split at found
        · obtain ⟨later, member, parsed⟩ := ih found
          exact ⟨later, List.mem_cons_of_mem block member, parsed⟩
        · cases found

theorem firstJson_decode (blocks : List (List Char)) :
    RaisesDecode (firstJson loads blocks) ↔ ∀ block ∈ blocks, NotJson loads block := by
  induction blocks with
  | nil => simp [firstJson, RaisesDecode, noJsonObject]
  | cons block rest ih =>
      rw [List.forall_mem_cons, ← ih, NotJson, firstJson]
      cases loads (String.ofList block) with
      | ok value => simp [RaisesDecode]
      | error e => by_cases kind : e.kind = .jsonDecode <;> simp [RaisesDecode, kind]

end Search

/-! ## Blanks -/

theorem BraceFree.append {first second : List Char} (free : BraceFree first) (free' : BraceFree second) :
    BraceFree (first ++ second) := by
  simp only [BraceFree, List.mem_append, not_or]
  exact ⟨⟨free.1, free'.1⟩, free.2, free'.2⟩

theorem braceFree_of_spaces {text : List Char} (spaces : ∀ c ∈ text, isSpace c) : BraceFree text :=
  ⟨fun member => absurd (spaces _ member) (by decide), fun member => absurd (spaces _ member) (by decide)⟩

/-- Stripping takes spaces off both ends. -/
theorem strip_split (text : List Char) :
    ∃ pre post, text = pre ++ strip text ++ post ∧ (∀ c ∈ pre, isSpace c) ∧ ∀ c ∈ post, isSpace c := by
  refine ⟨text.takeWhile isSpace, (text.dropWhile isSpace).rtakeWhile isSpace, ?_, ?_, ?_⟩
  · rw [strip, List.append_assoc, List.rdropWhile_append_rtakeWhile, List.takeWhile_append_dropWhile]
  · exact fun c member => List.mem_takeWhile_imp member
  · exact fun c member => List.mem_rtakeWhile_imp member

theorem strip_within (text : List Char) : strip text <:+: text := by
  obtain ⟨pre, post, whole, _, _⟩ := strip_split text
  exact ⟨pre, post, whole.symm⟩

theorem candidates_strip (text : List Char) : candidates (strip text) = candidates text := by
  obtain ⟨pre, post, whole, before, after⟩ := strip_split text
  conv_rhs => rw [whole]
  rw [candidates_around (braceFree_of_spaces before) (braceFree_of_spaces after)]

theorem braceFree_of_blank {text : List Char} (blank : strip text = []) : BraceFree text := by
  obtain ⟨pre, post, whole, before, after⟩ := strip_split text
  rw [whole, blank, List.append_nil]
  exact (braceFree_of_spaces before).append (braceFree_of_spaces after)

theorem strip_cons {c : Char} (rest : List Char) (visible : isSpace c = false) :
    ∃ tail, strip (c :: rest) = c :: tail := by
  obtain ⟨pre, post, whole, before, after⟩ := strip_split (c :: rest)
  cases pre with
  | cons d _ =>
      obtain ⟨rfl, _⟩ := List.cons.inj whole
      simp [before c List.mem_cons_self] at visible
  | nil =>
      cases stripped : strip (c :: rest) with
      | nil =>
          rw [stripped] at whole
          have member : c ∈ post := by
            rw [List.nil_append, List.nil_append] at whole
            rw [← whole]
            exact List.mem_cons_self
          simp [after c member] at visible
      | cons d tail =>
          rw [stripped] at whole
          obtain ⟨rfl, _⟩ := List.cons.inj whole
          exact ⟨tail, rfl⟩

/-! ## Tags -/

theorem not_infix_tail {tag rest : List Char} {c : Char} (unseen : ¬ tag <:+: c :: rest) :
    ¬ tag <:+: rest ∧ tag.isPrefixOf (c :: rest) = false := by
  refine ⟨fun inner => unseen (List.infix_cons inner), ?_⟩
  rw [Bool.eq_false_iff]
  exact fun starts => unseen (List.isPrefixOf_iff_prefix.mp starts).isInfix

theorem afterLast_none {tag text : List Char} (unseen : ¬ tag <:+: text) : afterLast tag text = none := by
  induction text with
  | nil => rfl
  | cons c rest ih =>
      obtain ⟨inner, starts⟩ := not_infix_tail unseen
      simp [afterLast, ih inner, starts]

theorem afterFirst_none {tag text : List Char} (unseen : ¬ tag <:+: text) : afterFirst tag text = none := by
  induction text with
  | nil => rfl
  | cons c rest ih =>
      obtain ⟨inner, starts⟩ := not_infix_tail unseen
      simp [afterFirst, ih inner, starts]

theorem openTag_eq : openTag = ['<', 't', 'h', 'i', 'n', 'k', '>'] := by decide

theorem closeTag_eq : closeTag = ['<', '/', 't', 'h', 'i', 'n', 'k', '>'] := by decide

/-- No closing tag starts within text that has no `<`. -/
theorem afterLast_plain {answer : List Char} (unseen : ¬ closeTag <:+: answer) {before : List Char}
    (plain : '<' ∉ before) : afterLast closeTag (before ++ answer) = none := by
  induction before with
  | nil => exact afterLast_none unseen
  | cons c rest ih =>
      simp only [List.mem_cons, not_or] at plain
      rw [List.cons_append, afterLast, ih plain.2]
      simp [closeTag_eq, plain.1]

/-- Past the last closing tag lies the answer, whatever the reasoning contains. -/
theorem afterLast_closeTag {answer : List Char} (unseen : ¬ closeTag <:+: answer) :
    ∀ before : List Char, afterLast closeTag (before ++ (closeTag ++ answer)) = some answer
  | [] => by
      have inner : afterLast closeTag (['/', 't', 'h', 'i', 'n', 'k', '>'] ++ answer) = none :=
        afterLast_plain unseen (by decide)
      have split : closeTag ++ answer = '<' :: (['/', 't', 'h', 'i', 'n', 'k', '>'] ++ answer) := by
        rw [closeTag_eq]
        rfl
      rw [List.nil_append, split, afterLast, inner]
      simp [closeTag_eq]
  | c :: before => by
      rw [List.cons_append, afterLast, afterLast_closeTag unseen before]

theorem removeThinkBlocks_unclosed {text : List Char} (unseen : ¬ closeTag <:+: text) :
    removeThinkBlocks text = text := by
  induction text with
  | nil => rw [removeThinkBlocks]
  | cons c rest ih =>
      have inner := ih (not_infix_tail unseen).1
      rw [removeThinkBlocks]
      split
      · split
        · next after found =>
            have cut : ¬ closeTag <:+: (c :: rest).drop openTag.length :=
              fun seen => unseen (seen.trans (List.drop_suffix _ _).isInfix)
            rw [afterFirst_none cut] at found
            cases found
        · rw [inner]
      · rw [inner]

theorem openTag_unclosed {reasoning : List Char} (unseen : ¬ closeTag <:+: reasoning) :
    ¬ closeTag <:+: openTag ++ reasoning := by
  simpa [openTag_eq, closeTag_eq, List.infix_cons_iff] using unseen

/-! ## What is read -/

/-- `json.loads` raises a `JSONDecodeError` on a text that starts with `<`. -/
def RefusesTags (loads : String → Except Exn Json) : Prop :=
  ∀ rest : List Char, NotJson loads ('<' :: rest)

/-- A parsed value stands in the answer. It is an error exactly if neither the stripped answer nor
a block of it is JSON. -/
structure ReadFrom (loads : String → Except Exn Json) (answer : List Char) (parsed : Except Exn Json) :
    Prop where
  value : ∀ value, parsed = .ok value →
    ∃ text, text <:+: answer ∧ loads (String.ofList text) = .ok value
  decode : RaisesDecode parsed ↔ NotJson loads (strip answer) ∧ ∀ block ∈ candidates answer, NotJson loads block

section Parsing

variable {loads : String → Except Exn Json} {content : List Char}

/-- The content is parsed as a whole, and else its blocks are tried. -/
theorem parseContent_eq (some_ : stripThinkTags content ≠ []) :
    parseContent loads content =
      firstJson loads (stripThinkTags content :: candidates (stripThinkTags content)) := by
  rw [parseContent, extractJsonObject, scanBlocks_eq, if_pos some_]
  cases read : loads (String.ofList (stripThinkTags content)) <;> simp only [firstJson, read]

/-- What starts with a tag is not JSON as a whole. -/
theorem parseContent_tagged (refuses : RefusesTags loads) {rest : List Char}
    (stripped : stripThinkTags content = strip ('<' :: rest)) :
    parseContent loads content = firstJson loads (candidates ('<' :: rest)) := by
  obtain ⟨tail, starts⟩ := strip_cons rest (c := '<') (by decide)
  have some_ : stripThinkTags content ≠ [] := by
    rw [stripped, starts]
    exact List.cons_ne_nil _ _
  obtain ⟨e, refused, kind⟩ := refuses tail
  rw [parseContent_eq some_, stripped, candidates_strip, starts, firstJson, refused]
  simp [kind]

theorem readFrom_answer {answer : List Char} (some_ : strip answer ≠ [])
    (stripped : stripThinkTags content = strip answer) :
    ReadFrom loads answer (parseContent loads content) := by
  have within : ∀ block ∈ strip answer :: candidates (strip answer), block <:+: answer := by
    intro block member
    rcases List.mem_cons.mp member with rfl | inner
    · exact strip_within answer
    · exact (candidates_within _ block inner).trans (strip_within answer)
  rw [parseContent_eq (by rwa [stripped]), stripped]
  constructor
  · intro value found
    obtain ⟨block, member, parsed⟩ := firstJson_ok found
    exact ⟨block, within block member, parsed⟩
  · rw [firstJson_decode, List.forall_mem_cons, candidates_strip]

theorem after_reasoning {reasoning answer : List Char} (tagless : ¬ closeTag <:+: answer) :
    afterLast closeTag (openTag ++ reasoning ++ closeTag ++ answer) = some answer := by
  rw [List.append_assoc]
  exact afterLast_closeTag tagless _

theorem openTag_braceFree : BraceFree openTag := ⟨by decide, by decide⟩

theorem closeTag_braceFree : BraceFree closeTag := ⟨by decide, by decide⟩

/-- Nothing follows the reasoning: its blocks are tried. -/
theorem parseContent_blank (refuses : RefusesTags loads) {reasoning answer : List Char}
    (tagless : ¬ closeTag <:+: answer) (blank : strip answer = []) :
    parseContent loads (openTag ++ reasoning ++ closeTag ++ answer) =
      firstJson loads (candidates reasoning) := by
  have around : candidates (openTag ++ reasoning ++ closeTag ++ answer) = candidates reasoning := by
    rw [List.append_assoc, candidates_around openTag_braceFree
      (closeTag_braceFree.append (braceFree_of_blank blank))]
  have stripped : stripThinkTags (openTag ++ reasoning ++ closeTag ++ answer) =
      strip (openTag ++ reasoning ++ closeTag ++ answer) := by
    simp only [stripThinkTags, after_reasoning tagless, blank, ne_eq, not_true_eq_false, if_false]
  have starts : openTag ++ reasoning ++ closeTag ++ answer =
      '<' :: (openTag.tail ++ reasoning ++ closeTag ++ answer) := by
    rw [openTag_eq]
    rfl
  rw [← around]
  rw [starts] at stripped ⊢
  exact parseContent_tagged refuses stripped

/-- The content ends within the reasoning: its blocks are tried. -/
theorem parseContent_unclosed (refuses : RefusesTags loads) {reasoning : List Char}
    (unclosed : ¬ closeTag <:+: reasoning) :
    parseContent loads (openTag ++ reasoning) = firstJson loads (candidates reasoning) := by
  have plain := openTag_unclosed unclosed
  have stripped : stripThinkTags (openTag ++ reasoning) = strip (openTag ++ reasoning) := by
    simp [stripThinkTags, afterLast_none plain, removeThinkBlocks_unclosed plain]
  have starts : openTag ++ reasoning = '<' :: (openTag.tail ++ reasoning) := by
    rw [openTag_eq]
    rfl
  rw [← candidates_append_left openTag_braceFree reasoning]
  rw [starts] at stripped ⊢
  exact parseContent_tagged refuses stripped

/-- **Where a classification is read from.** A complete content is read in its
answer, unless that is blank: then the blocks of the reasoning are tried. A content
cut off in the reasoning is an error if no block of the reasoning is JSON. -/
theorem parse_answer (loads : String → Except Exn Json) (refuses : RefusesTags loads)
    (reasoning answer : List Char) (tagless : ¬ closeTag <:+: answer) :
    (strip answer ≠ [] →
      ReadFrom loads answer (parseContent loads (openTag ++ reasoning ++ closeTag ++ answer))) ∧
    (strip answer = [] →
      parseContent loads (openTag ++ reasoning ++ closeTag ++ answer) =
        firstJson loads (candidates reasoning)) ∧
    (¬ closeTag <:+: reasoning → (∀ block ∈ candidates reasoning, NotJson loads block) →
      RaisesDecode (parseContent loads (openTag ++ reasoning))) := by
  refine ⟨fun some_ => ?_, parseContent_blank refuses tagless, fun unclosed none_ => ?_⟩
  · refine readFrom_answer some_ ?_
    simp only [stripThinkTags, after_reasoning tagless, if_pos some_]
  · rw [parseContent_unclosed refuses unclosed, firstJson_decode]
    exact none_

end Parsing

/-- `json.loads` for the one object of a draft. -/
def draftLoads (text : String) : Except Exn Json :=
  if text = "\x7b\"category\": \"other\"\x7d" then .ok (.object [("category", .string "other")])
  else .error { kind := .jsonDecode, message := "Expecting value: line 1 column 1 (char 0)" }

def draft : List Char := "\x7b\"category\": \"other\"\x7d".toList

theorem draftLoads_refusesTags : RefusesTags draftLoads := by
  intro rest
  have other : String.ofList ('<' :: rest) ≠ "\x7b\"category\": \"other\"\x7d" := by
    intro same
    have := congrArg String.toList same
    simp at this
  exact ⟨_, if_neg other, rfl⟩

/-- Satisfiable pole: braces in the reasoning, and an answer of one object, or of none. -/
theorem parse_answer_draft :
    ReadFrom draftLoads draft (parseContent draftLoads (openTag ++ draft ++ closeTag ++ draft)) ∧
      RaisesDecode (parseContent draftLoads (openTag ++ draft ++ closeTag ++ "Sorry [42]".toList)) := by
  have tagless : ¬ closeTag <:+: draft := by decide
  refine ⟨(parse_answer draftLoads draftLoads_refusesTags draft draft tagless).1 (by decide), ?_⟩
  have read := (parse_answer draftLoads draftLoads_refusesTags draft "Sorry [42]".toList (by decide)).1 (by decide)
  have none_ : candidates "Sorry [42]".toList = [] := candidates_none (by decide)
  refine read.decode.mpr ⟨⟨_, if_neg (by decide), rfl⟩, ?_⟩
  rw [none_]
  exact List.forall_mem_nil _

/-- Refuting pole: an object of the reasoning is returned when nothing follows the
reasoning, and when the content ends within it. -/
theorem draft_is_returned :
    parseContent draftLoads (openTag ++ draft ++ closeTag ++ []) =
        .ok (.object [("category", .string "other")]) ∧
      parseContent draftLoads (openTag ++ draft) = .ok (.object [("category", .string "other")]) := by
  have block : takeBlock 0 (draft.dropWhile (· ≠ '{')) = some (draft, []) := by decide
  have nothing : candidates [] = [] := candidates_none rfl
  have blocks : candidates draft = [draft] := by rw [candidates_some block, nothing]
  have read : draftLoads (String.ofList draft) = .ok (.object [("category", .string "other")]) :=
    if_pos String.ofList_toList
  have first : firstJson draftLoads (candidates draft) = .ok (.object [("category", .string "other")]) := by
    rw [blocks, firstJson, read]
  constructor
  · rw [parseContent_blank draftLoads_refusesTags (by decide) (by decide), first]
  · rw [parseContent_unclosed draftLoads_refusesTags (by decide), first]

end InferenceForge.Pipeline
