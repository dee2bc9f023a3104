/-
# InferenceForge.Pipeline.ModelOutput — reading the model's answer

The parsing part of `caller.py`: the reasoning block is cut off
(`stripThinkTags`), the rest is parsed, and where that fails the text is searched
for a balanced `{…}` block that parses (`extractJsonObject`). Texts are lists of
characters here; `loads` is `json.loads`.
-/
import InferenceForge.Pipeline.Exceptions
import InferenceForge.Python.Text

namespace InferenceForge.Pipeline

open InferenceForge.Python

set_option autoImplicit false

def openTag : List Char := "<think>".toList

def closeTag : List Char := "</think>".toList

/-- What follows the first occurrence of `tag`. -/
def afterFirst (tag : List Char) : List Char → Option (List Char)
  | [] => none
  | c :: rest =>
      if tag.isPrefixOf (c :: rest) then some ((c :: rest).drop tag.length) else afterFirst tag rest

/-- What follows the last occurrence of `tag`. -/
def afterLast (tag : List Char) : List Char → Option (List Char)
  | [] => none
  | c :: rest =>
      match afterLast tag rest with
      | some after => some after
      | none => if tag.isPrefixOf (c :: rest) then some ((c :: rest).drop tag.length) else none

theorem afterFirst_length_le {tag text after : List Char} (found : afterFirst tag text = some after) :
    after.length ≤ text.length := by
  induction text with
  | nil => cases found
  | cons c rest ih =>
      unfold afterFirst at found
      split at found
      · cases found
        rw [List.length_drop]
        omega
      · have := ih found
        rw [List.length_cons]
        omega

/-- `re.sub(r"<think>.*?</think>", "", text, flags=re.DOTALL)`. -/
def removeThinkBlocks : List Char → List Char
  | [] => []
  | c :: rest =>
      if openTag.isPrefixOf (c :: rest) then
        match _found : afterFirst closeTag ((c :: rest).drop openTag.length) with
        | some after => removeThinkBlocks after
        | none => c :: removeThinkBlocks rest
      else c :: removeThinkBlocks rest
termination_by text => text.length
decreasing_by
  · have shorter := afterFirst_length_le _found
    rw [List.length_drop] at shorter
    have : openTag.length = 7 := by decide
    rw [List.length_cons] at shorter ⊢
    omega
  · exact Nat.lt_succ_self _
  · exact Nat.lt_succ_self _

/-- `_strip_think_tags`. -/
def stripThinkTags (text : List Char) : List Char :=
  match afterLast closeTag text with
  | some rest =>
      let after := strip rest
      if after ≠ [] then after else strip text
  | none =>
      let cleaned := strip (removeThinkBlocks text)
      if cleaned ≠ [] then cleaned else strip text

/-- Cut a text behind the brace that closes its first one; `depth` braces are open. -/
def takeBlock : ℕ → List Char → Option (List Char × List Char)
  | _, [] => none
  | depth, c :: rest =>
      if c = '{' then (takeBlock (depth + 1) rest).map fun (block, rest) => (c :: block, rest)
      else if c = '}' then
        if depth = 1 then some ([c], rest)
        else (takeBlock (depth - 1) rest).map fun (block, rest) => (c :: block, rest)
      else (takeBlock depth rest).map fun (block, rest) => (c :: block, rest)

theorem takeBlock_append {depth : ℕ} {text block rest : List Char}
    (found : takeBlock depth text = some (block, rest)) : text = block ++ rest ∧ block ≠ [] := by
  induction text generalizing depth block rest with
  | nil => cases found
  | cons c more ih =>
      unfold takeBlock at found
      split_ifs at found
      · obtain ⟨⟨block', rest'⟩, inner, eq⟩ := Option.map_eq_some_iff.mp found
        cases eq
        exact ⟨by rw [(ih inner).1, List.cons_append], List.cons_ne_nil _ _⟩
      · cases found
        exact ⟨rfl, List.cons_ne_nil _ _⟩
      · obtain ⟨⟨block', rest'⟩, inner, eq⟩ := Option.map_eq_some_iff.mp found
        cases eq
        exact ⟨by rw [(ih inner).1, List.cons_append], List.cons_ne_nil _ _⟩
      · obtain ⟨⟨block', rest'⟩, inner, eq⟩ := Option.map_eq_some_iff.mp found
        cases eq
        exact ⟨by rw [(ih inner).1, List.cons_append], List.cons_ne_nil _ _⟩

def noJsonObject : Exn where
  kind := .jsonDecode
  message := "No valid JSON object found: line 1 column 1 (char 0)"

section Parsing

variable (loads : String → Except Exn Json)

/-- The search of `_extract_json_object`, from `search_start` on. -/
def scanBlocks (text : List Char) : Except Exn Json :=
  match _found : takeBlock 0 (text.dropWhile (· ≠ '{')) with
  | none => .error noJsonObject
  | some (candidate, rest) =>
      match loads (String.ofList candidate) with
      | .ok value => .ok value
      | .error e => if e.kind = .jsonDecode then scanBlocks rest else .error e
termination_by text.length
decreasing_by
  have cut := takeBlock_append _found
  have shorter := List.length_dropWhile_le (· ≠ '{') text
  rw [cut.1, List.length_append] at shorter
  have := List.length_pos_iff.mpr cut.2
  omega

/-- `_extract_json_object`. -/
def extractJsonObject (text : List Char) : Except Exn Json :=
  let cleaned := stripThinkTags text
  scanBlocks loads (if cleaned ≠ [] then cleaned else text)

/-- The parsing `_single_api_call` does. -/
def parseContent (content : List Char) : Except Exn Json :=
  match loads (String.ofList (stripThinkTags content)) with
  | .ok value => .ok value
  | .error e => if e.kind = .jsonDecode then extractJsonObject loads content else .error e

end Parsing

end InferenceForge.Pipeline
