/-
# InferenceForge.Pipeline.ObjectParsing — which answers come back as they were written

The model is asked for one JSON object. Three ways of answering:

* after reasoning: the object comes back, whatever the reasoning says
  (`answer_recovered`);
* nothing but the object: it comes back unless it contains `</think>` itself
  (`plain_answer_iff`). A tag inside of a string is taken for the end of the
  reasoning, and what follows is all that is read;
* prose around the object: it comes back exactly if the braces of its text, those in
  strings included, first balance at its last character (`wrapped_object_iff`).

In the other cases something else is read, if anything: no part of an object's
text is read as the object (`part_reads_other`).
-/
import InferenceForge.Pipeline.AnswerParsing
import InferenceForge.Python.JsonText

namespace InferenceForge.Pipeline

open InferenceForge.Python

set_option autoImplicit false

/-! ## Spaces around a text -/

section Spaces

variable {pre post text tag : List Char}

theorem strip_around (before : ∀ c ∈ pre, isSpace c) (after : ∀ c ∈ post, isSpace c)
    (text : List Char) : strip (pre ++ text ++ post) = strip text := by
  unfold strip
  rw [List.append_assoc, List.dropWhile_append_of_pos before, List.dropWhile_append]
  split
  · next none =>
      have dropped : post.dropWhile isSpace = [] := List.dropWhile_eq_nil_iff.mpr after
      rw [dropped, List.isEmpty_iff.mp none]
  · rw [List.rdropWhile, List.reverse_append, List.dropWhile_append_of_pos]
    · rfl
    · exact fun c member => after c (List.mem_reverse.mp member)

theorem strip_object {d : Dict} (spelled : ValueText (.object d) text) : strip text = text := by
  obtain ⟨inner, rfl⟩ := object_starts spelled
  unfold strip
  rw [List.dropWhile_cons_of_neg (by decide), ← List.cons_append,
    List.rdropWhile_concat_neg _ _ _ (by decide)]

/-- A tag without spaces is not made of the spaces before a text. -/
theorem infix_of_spaces_before (some_ : tag ≠ []) (visible : ∀ c ∈ tag, isSpace c = false)
    (before : ∀ c ∈ pre, isSpace c) (seen : tag <:+: pre ++ text) : tag <:+: text := by
  induction pre with
  | nil => exact seen
  | cons c rest ih =>
      rw [List.cons_append, List.infix_cons_iff] at seen
      rcases seen with starts | later
      · obtain ⟨first, more, rfl⟩ := List.exists_cons_of_ne_nil some_
        obtain rfl := (List.cons_prefix_cons.mp starts).1
        have space := before first List.mem_cons_self
        rw [visible first List.mem_cons_self] at space
        cases space
      · exact ih (fun d member => before d (List.mem_cons_of_mem c member)) later

theorem infix_of_spaces_after (some_ : tag ≠ []) (visible : ∀ c ∈ tag, isSpace c = false)
    (after : ∀ c ∈ post, isSpace c) (seen : tag <:+: text ++ post) : tag <:+: text := by
  rw [← List.reverse_infix, List.reverse_append] at seen
  rw [← List.reverse_infix]
  refine infix_of_spaces_before (by simpa using some_) ?_ ?_ seen
  · exact fun c member => visible c (List.mem_reverse.mp member)
  · exact fun c member => after c (List.mem_reverse.mp member)

theorem closeTag_visible : closeTag ≠ [] ∧ ∀ c ∈ closeTag, isSpace c = false :=
  ⟨by decide, List.all_iff_forall_prop.mp (by decide)⟩

theorem closeTag_within (before : ∀ c ∈ pre, isSpace c) (after : ∀ c ∈ post, isSpace c)
    (seen : closeTag <:+: pre ++ text ++ post) : closeTag <:+: text := by
  have left := infix_of_spaces_after closeTag_visible.1 closeTag_visible.2 after seen
  exact infix_of_spaces_before closeTag_visible.1 closeTag_visible.2 before left

/-- Where a tag occurs, it occurs for the last time. -/
theorem last_occurrence (some_ : tag ≠ []) (seen : tag <:+: text) :
    ∃ before rest, text = before ++ (tag ++ rest) ∧ ¬ tag <:+: rest := by
  induction length : text.length using Nat.strong_induction_on generalizing text with
  | _ n ih =>
      subst length
      obtain ⟨before, rest, whole⟩ := seen
      by_cases again : tag <:+: rest
      · have shorter : rest.length < text.length := by
          have parts := congrArg List.length whole
          have positive := List.length_pos_iff.mpr some_
          simp only [List.length_append] at parts
          omega
        obtain ⟨before', rest', split, last⟩ := ih rest.length shorter again rfl
        refine ⟨before ++ tag ++ before', rest', ?_, last⟩
        rw [List.append_assoc, ← split, whole]
      · exact ⟨before, rest, by rw [← whole, List.append_assoc], again⟩

end Spaces

section Objects

variable {loads : String → Except Exn Json} {d : Dict} {answer : List Char}

/-- The first text tried is read. -/
theorem firstJson_of_ok {text : List Char} {value : Json} (rest : List (List Char))
    (read : loads (String.ofList text) = .ok value) : firstJson loads (text :: rest) = .ok value := by
  rw [firstJson, read]

/-- Among parts of an object's text, the object is only read from the whole. -/
theorem firstJson_parts (reads : ReadsJson loads) (spelled : ValueText (.object d) answer)
    {texts : List (List Char)} (parts : ∀ text ∈ texts, text <:+: answer)
    (found : firstJson loads texts = .ok (.object d)) : answer ∈ texts := by
  obtain ⟨text, member, read⟩ := firstJson_ok found
  by_cases same : text = answer
  · exact same ▸ member
  · exact absurd read (part_reads_other reads spelled (parts text member) same)

theorem parseContent_of_stripped {content : List Char} (spelled : ValueText (.object d) answer)
    (inverts : loads (String.ofList answer) = .ok (.object d))
    (stripped : stripThinkTags content = answer) : parseContent loads content = .ok (.object d) := by
  have some_ : answer ≠ [] := by
    obtain ⟨inner, rfl⟩ := object_starts spelled
    exact List.cons_ne_nil _ _
  rw [parseContent_eq (stripped.symm ▸ some_), stripped]
  exact firstJson_of_ok _ inverts

/-! ## An answer after reasoning -/

/-- **An answer after reasoning is recovered**, whatever the reasoning says. -/
theorem answer_recovered (spelled : ValueText (.object d) answer)
    (inverts : loads (String.ofList answer) = .ok (.object d)) (tagless : ¬ closeTag <:+: answer)
    (reasoning : List Char) {w1 w2 : List Char} (before : ∀ c ∈ w1, isSpace c)
    (after : ∀ c ∈ w2, isSpace c) :
    parseContent loads (reasoning ++ closeTag ++ w1 ++ answer ++ w2) = .ok (.object d) := by
  have last : afterLast closeTag (reasoning ++ closeTag ++ w1 ++ answer ++ w2) =
      some (w1 ++ answer ++ w2) := by
    have found := afterLast_closeTag (fun seen => tagless (closeTag_within before after seen)) reasoning
    simpa only [List.append_assoc] using found
  have stripped : strip (w1 ++ answer ++ w2) = answer := by
    rw [strip_around before after, strip_object spelled]
  refine parseContent_of_stripped spelled inverts ?_
  obtain ⟨inner, rfl⟩ := object_starts spelled
  simp only [stripThinkTags, last, stripped]
  rfl

/-! ## Nothing but the answer -/

/-- A tag within the answer leaves a proper part of it. -/
theorem stripThinkTags_tagged (spelled : ValueText (.object d) answer) (tagged : closeTag <:+: answer)
    (w1 : List Char) {w2 : List Char} (after : ∀ c ∈ w2, isSpace c) :
    stripThinkTags (w1 ++ answer ++ w2) ≠ [] ∧ stripThinkTags (w1 ++ answer ++ w2) <:+: answer ∧
      stripThinkTags (w1 ++ answer ++ w2) ≠ answer := by
  obtain ⟨before, rest, split, last⟩ := last_occurrence closeTag_visible.1 tagged
  have found : afterLast closeTag (w1 ++ answer ++ w2) = some (rest ++ w2) := by
    have untagged : ¬ closeTag <:+: rest ++ w2 :=
      fun seen => last (infix_of_spaces_after closeTag_visible.1 closeTag_visible.2 after seen)
    have seen := afterLast_closeTag untagged (w1 ++ before)
    rw [split]
    simpa only [List.append_assoc] using seen
  have stripped : strip (rest ++ w2) = strip rest := by
    have around := @strip_around [] w2 (by simp) after rest
    rwa [List.nil_append] at around
  -- the answer ends with a brace, which no tag does
  have visible : strip rest ≠ [] := by
    intro blank
    obtain ⟨inner, braces⟩ := object_starts spelled
    rw [split] at braces
    have ends : '}' ∈ rest := by
      rcases List.eq_nil_or_concat rest with rfl | ⟨init, c, rfl⟩
      · have lasts := congrArg List.getLast? braces
        rw [List.append_nil, ← List.cons_append, List.getLast?_concat, List.getLast?_append_of_ne_nil _
          closeTag_visible.1] at lasts
        exact absurd lasts (by decide)
      · have lasts := congrArg List.getLast? braces
        rw [List.concat_eq_append, ← List.cons_append, List.getLast?_concat, ← List.append_assoc,
          ← List.append_assoc, List.getLast?_concat] at lasts
        obtain rfl := Option.some.inj lasts
        simp
    exact (braceFree_of_blank blank).2 ends
  have result : stripThinkTags (w1 ++ answer ++ w2) = strip rest := by
    simp only [stripThinkTags, found, stripped, if_pos visible]
  have suffix : rest <:+ answer := ⟨before ++ closeTag, by rw [split, List.append_assoc]⟩
  rw [result]
  refine ⟨visible, (strip_within rest).trans suffix.isInfix, fun same => ?_⟩
  have longer := (strip_within rest).length_le
  rw [same, split] at longer
  have positive := List.length_pos_iff.mpr closeTag_visible.1
  simp only [List.length_append] at longer
  omega

/-- **A plain answer comes back** if and only if it does not contain a closing tag. -/
theorem plain_answer_iff (reads : ReadsJson loads) (spelled : ValueText (.object d) answer)
    (inverts : loads (String.ofList answer) = .ok (.object d)) {w1 w2 : List Char}
    (before : ∀ c ∈ w1, isSpace c) (after : ∀ c ∈ w2, isSpace c) :
    parseContent loads (w1 ++ answer ++ w2) = .ok (.object d) ↔ ¬ closeTag <:+: answer := by
  constructor
  · intro parsed tagged
    obtain ⟨some_, within, ne⟩ := stripThinkTags_tagged spelled tagged w1 after
    rw [parseContent_eq some_] at parsed
    have whole := firstJson_parts reads spelled (fun text member => ?_) parsed
    · rcases List.mem_cons.mp whole with same | block
      · exact ne same.symm
      · have longer := (candidates_within _ answer block).length_le
        exact ne (within.eq_of_length (le_antisymm within.length_le longer))
    · rcases List.mem_cons.mp member with rfl | block
      · exact within
      · exact (candidates_within _ text block).trans within
  · intro tagless
    have untagged : ¬ closeTag <:+: w1 ++ answer ++ w2 :=
      fun seen => tagless (closeTag_within before after seen)
    refine parseContent_of_stripped spelled inverts ?_
    have stripped : strip (removeThinkBlocks (w1 ++ answer ++ w2)) = answer := by
      rw [removeThinkBlocks_unclosed untagged, strip_around before after, strip_object spelled]
    obtain ⟨inner, rfl⟩ := object_starts spelled
    simp only [stripThinkTags, afterLast_none untagged, stripped]
    rfl

/-! ## Prose around the answer -/

/-- An object's text is tried exactly if its braces balance at its end. -/
theorem candidates_object (spelled : ValueText (.object d) answer) :
    (takeBlock 0 answer = some (answer, []) → candidates answer = [answer]) ∧
      (answer ∈ candidates answer → takeBlock 0 answer = some (answer, [])) := by
  have start : answer.dropWhile (· ≠ '{') = answer := by
    obtain ⟨inner, rfl⟩ := object_starts spelled
    exact List.dropWhile_cons_of_neg (by decide)
  constructor
  · intro balanced
    rw [candidates_some (by rwa [start]), candidates_none rfl]
  · intro tried
    cases found : takeBlock 0 (answer.dropWhile (· ≠ '{')) with
    | none => simp [candidates_none found] at tried
    | some cut =>
        obtain ⟨block, rest⟩ := cut
        rw [candidates_some found] at tried
        have shorter := takeBlock_rest_lt found
        have whole := (takeBlock_append found).1
        rw [start] at found whole
        rcases List.mem_cons.mp tried with same | later
        · rw [← same] at found whole
          obtain rfl : rest = [] := by simpa using whole
          exact found
        · have longer := (candidates_within _ _ later).length_le
          omega

/-- **An object within prose is extracted** if and only if its braces, counted without
regard to strings, first balance at its end. -/
theorem wrapped_object_iff (reads : ReadsJson loads) (spelled : ValueText (.object d) answer)
    (inverts : loads (String.ofList answer) = .ok (.object d)) {p q : List Char}
    (before : BraceFree p) (after : BraceFree q) (tagless : ¬ closeTag <:+: p ++ answer ++ q) :
    extractJsonObject loads (p ++ answer ++ q) = .ok (.object d) ↔
      takeBlock 0 answer = some (answer, []) := by
  have opens : '{' ∈ p ++ answer ++ q := by
    obtain ⟨inner, rfl⟩ := object_starts spelled
    simp
  have visible : strip (p ++ answer ++ q) ≠ [] :=
    fun blank => (braceFree_of_blank blank).1 opens
  have stripped : stripThinkTags (p ++ answer ++ q) = strip (p ++ answer ++ q) := by
    simp only [stripThinkTags, afterLast_none tagless, removeThinkBlocks_unclosed tagless, if_pos visible]
  have searched : extractJsonObject loads (p ++ answer ++ q) = firstJson loads (candidates answer) := by
    rw [extractJsonObject, stripped, if_pos visible, scanBlocks_eq, candidates_strip,
      candidates_around before after]
  rw [searched]
  constructor
  · intro found
    exact (candidates_object spelled).2 (firstJson_parts reads spelled (candidates_within answer) found)
  · intro balanced
    rw [(candidates_object spelled).1 balanced]
    exact firstJson_of_ok [] inverts

end Objects

/-! ## Poles -/

section Poles

theorem spaces_of_all {text : List Char} (all : text.all isSpace) : ∀ c ∈ text, isSpace c :=
  List.all_eq_true.mp all

/-- Characters that stand for themselves within quotes. -/
theorem unescaped_of_all {text : List Char} (all : text.all fun c => c ≠ '"' ∧ c ≠ '\\' ∧ 0x20 ≤ c.toNat) :
    ∀ c ∈ text, c ≠ '"' ∧ c ≠ '\\' ∧ 0x20 ≤ c.toNat := List.all_iff_forall_prop.mp all

/-- An object whose only field is the summary, and its text. -/
def summarized (summary : List Char) : Dict := [("summary", .string (String.ofList summary))]

def summaryText (summary : List Char) : List Char :=
  '{' :: (('"' :: ("summary".toList ++ ['"'])) ++ ':' :: ('"' :: (summary ++ ['"'])) ++ ['}'])

/-- `json.loads`, for one text. -/
def knows (text : List Char) (d : Dict) (asked : String) : Except Exn Json :=
  if asked = String.ofList text then .ok (.object d)
  else .error { kind := .jsonDecode, message := "Expecting value: line 1 column 1 (char 0)" }

theorem bodyText_of_plain {value : List Char}
    (plain : ∀ c ∈ value, c ≠ '"' ∧ c ≠ '\\' ∧ 0x20 ≤ c.toNat) : BodyText value value := by
  induction value with
  | nil => exact .nil
  | cons c rest ih =>
      obtain ⟨quote, backslash, printable⟩ := plain c List.mem_cons_self
      exact .cons (.plain quote backslash printable)
        (ih fun d member => plain d (List.mem_cons_of_mem c member))

theorem stringText_of_plain {value : List Char}
    (plain : ∀ c ∈ value, c ≠ '"' ∧ c ≠ '\\' ∧ 0x20 ≤ c.toNat) :
    StringText (String.ofList value) ('"' :: (value ++ ['"'])) := by
  refine .quoted ?_
  rw [String.toList_ofList]
  exact bodyText_of_plain plain

theorem summaryText_spelled {summary : List Char}
    (plain : ∀ c ∈ summary, c ≠ '"' ∧ c ≠ '\\' ∧ 0x20 ≤ c.toNat) :
    ValueText (.object (summarized summary)) (summaryText summary) := by
  have blank : Blank [] := by simp [Blank]
  have key : StringText "summary" ('"' :: ("summary".toList ++ ['"'])) := by
    have named := @stringText_of_plain "summary".toList (by simp)
    rwa [String.ofList_toList] at named
  have field := FieldsText.last blank key blank blank (.string (stringText_of_plain plain)) blank
  have object := ValueText.object field
  simpa only [summarized, summaryText, List.nil_append, List.append_nil] using object

theorem knows_reads {text : List Char} {d : Dict} (spelled : ValueText (.object d) text)
    (collapsed : (Json.object d).collapse = .object d) : ReadsJson (knows text d) := by
  intro other value read
  unfold knows at read
  split at read
  · next same =>
      cases read
      have blank : Blank [] := by simp [Blank]
      have document := DocumentText.around blank spelled blank
      rw [List.nil_append, List.append_nil] at document
      have same := congrArg String.toList same
      rw [String.toList_ofList, String.toList_ofList] at same
      subst same
      exact ⟨_, document, collapsed.symm⟩
  · cases read

theorem summarized_collapse (summary : List Char) :
    (Json.object (summarized summary)).collapse = .object (summarized summary) := by
  simp [summarized, Json.collapse, collapseFields, Dict.set]

theorem knows_self (text : List Char) (d : Dict) :
    knows text d (String.ofList text) = .ok (.object d) := if_pos rfl

theorem knows_notJson {text other : List Char} (d : Dict) (ne : other ≠ text) : NotJson (knows text d) other :=
  ⟨_, if_neg fun same => ne (by simpa using congrArg String.toList same), rfl⟩

/-- Satisfiable pole: reasoning with a draft, a stray brace and tags of its own. -/
theorem answer_recovered_draft :
    parseContent (knows (summaryText "ok".toList) (summarized "ok".toList))
        ("<think>\x7b\"a\": 1\x7d</think> or \x7b <think>".toList ++ closeTag ++ "\n".toList ++
          summaryText "ok".toList ++ " ".toList) =
      .ok (.object (summarized "ok".toList)) :=
  answer_recovered (summaryText_spelled (unescaped_of_all (by decide))) (knows_self _ _) (by decide) _ (spaces_of_all (by decide)) (spaces_of_all (by decide))

/-- Satisfiable pole: a summary that mentions an opening tag. -/
theorem plain_answer_iff_opening :
    parseContent (knows (summaryText "<think> \x7d".toList) (summarized "<think> \x7d".toList))
        (" ".toList ++ summaryText "<think> \x7d".toList ++ []) =
      .ok (.object (summarized "<think> \x7d".toList)) :=
  (plain_answer_iff (knows_reads (summaryText_spelled (unescaped_of_all (by decide))) (summarized_collapse _))
    (summaryText_spelled (unescaped_of_all (by decide))) (knows_self _ _) (spaces_of_all (by decide)) (spaces_of_all (by decide))).mpr (by decide)

/-- **Refuting pole.** A summary that mentions a closing tag is not read at all. -/
theorem plain_answer_lost :
    ValueText (.object (summarized closeTag)) (summaryText closeTag) ∧
      ReadsJson (knows (summaryText closeTag) (summarized closeTag)) ∧
      knows (summaryText closeTag) (summarized closeTag) (String.ofList (summaryText closeTag)) =
        .ok (.object (summarized closeTag)) ∧
      RaisesDecode (parseContent (knows (summaryText closeTag) (summarized closeTag))
        (summaryText closeTag)) := by
  have spelled : ValueText (.object (summarized closeTag)) (summaryText closeTag) :=
    summaryText_spelled (unescaped_of_all (by decide))
  refine ⟨spelled, knows_reads spelled (summarized_collapse _), knows_self _ _, ?_⟩
  have stripped : stripThinkTags (summaryText closeTag) = "\"\x7d".toList := by decide
  have nothing : candidates "\"\x7d".toList = [] := candidates_none (by decide)
  rw [parseContent_eq (by rw [stripped]; decide), stripped, nothing, firstJson_decode]
  intro block member
  rw [List.mem_singleton.mp member]
  exact knows_notJson _ (by decide)

/-- Satisfiable pole: prose around an object without braces in its summary. -/
theorem wrapped_object_iff_prose :
    extractJsonObject (knows (summaryText "ok".toList) (summarized "ok".toList))
        ("Sure: ".toList ++ summaryText "ok".toList ++ ".".toList) =
      .ok (.object (summarized "ok".toList)) :=
  (wrapped_object_iff (knows_reads (summaryText_spelled (unescaped_of_all (by decide))) (summarized_collapse _))
    (summaryText_spelled (unescaped_of_all (by decide))) (knows_self _ _) ⟨by decide, by decide⟩ ⟨by decide, by decide⟩
    (by decide)).mpr (by decide)

/-- **Refuting pole.** A closing brace in the summary ends the block too early. -/
theorem wrapped_object_lost :
    ValueText (.object (summarized ['}'])) (summaryText ['}']) ∧
      ReadsJson (knows (summaryText ['}']) (summarized ['}'])) ∧
      knows (summaryText ['}']) (summarized ['}']) (String.ofList (summaryText ['}'])) =
        .ok (.object (summarized ['}'])) ∧
      RaisesDecode (extractJsonObject (knows (summaryText ['}']) (summarized ['}']))
        ("Sure: ".toList ++ summaryText ['}'] ++ ".".toList)) := by
  have spelled : ValueText (.object (summarized ['}'])) (summaryText ['}']) :=
    summaryText_spelled (unescaped_of_all (by decide))
  refine ⟨spelled, knows_reads spelled (summarized_collapse _), knows_self _ _, ?_⟩
  have untagged : ¬ closeTag <:+: "Sure: ".toList ++ summaryText ['}'] ++ ".".toList := by decide
  have stripped : stripThinkTags ("Sure: ".toList ++ summaryText ['}'] ++ ".".toList) =
      strip ("Sure: ".toList ++ summaryText ['}'] ++ ".".toList) := by
    simp only [stripThinkTags, afterLast_none untagged, removeThinkBlocks_unclosed untagged]
    decide
  have first : takeBlock 0 ((summaryText ['}']).dropWhile (· ≠ '{')) =
      some ("\x7b\"summary\":\"\x7d".toList, "\"\x7d".toList) := by decide
  have nothing : candidates "\"\x7d".toList = [] := candidates_none (by decide)
  rw [extractJsonObject, stripped, if_pos (by decide), scanBlocks_eq, candidates_strip,
    candidates_around ⟨by decide, by decide⟩ ⟨by decide, by decide⟩, candidates_some first,
    nothing, firstJson_decode]
  intro block member
  rw [List.mem_singleton.mp member]
  exact knows_notJson _ (by decide)

end Poles

end InferenceForge.Pipeline
