/-
# InferenceForge.Pipeline.ExtractorLoop — the loops of the extractor

`Scan.step` is `_extract_json_object` by its indices: the `while` looks for a brace
from `search_start` on, the `for` counts the depth from there until it is back at 0,
and goes on behind the block it has cut out if that does not parse. `Moves` lists what
a step can do. From it come

* the measure: the loops end (`Scan.measure_lt`);
* the invariant: the depth is that of the text from `start` to `idx` and has not been
  back at 0, and what was tried before is a chain of refused blocks (`Scan.Sound`);
* the refinement: a step does not change what the search for blocks comes to from here
  (`Scan.outcome`), so the loops return what `extractJsonObject` does.

`extractor_sound` puts them together.
-/
import InferenceForge.Library.Run
import InferenceForge.Pipeline.BlockSearch

namespace InferenceForge.Pipeline

open InferenceForge.Python InferenceForge.Library

set_option autoImplicit false

/-! ## Positions of a text -/

/-- `text[i:j]`. -/
def slice (text : List Char) (i j : ℕ) : List Char := (text.take j).drop i

/-- `text.find(c, start)`. -/
def find (c : Char) (text : List Char) (start : ℕ) : Option ℕ :=
  ((text.drop start).findIdx? (· = c)).map (start + ·)

/-- The brace depth behind a text, counted from 0. -/
def braceDepth (text : List Char) : ℤ := text.count '{' - text.count '}'

/-- The first brace from `start` on is at `i`. -/
structure FirstBrace (text : List Char) (start i : ℕ) : Prop where
  le : start ≤ i
  opens : text[i]? = some '{'
  first : ∀ k, start ≤ k → k < i → text[k]? ≠ some '{'

/-- `j` is the first position at which the brace depth counted from `i` is back at 0. -/
structure FirstBalance (text : List Char) (i j : ℕ) : Prop where
  le : i ≤ j
  within : j < text.length
  opens : text[i]? = some '{'
  closed : braceDepth (slice text i (j + 1)) = 0
  first : ∀ k, i ≤ k → k < j → braceDepth (slice text i (k + 1)) ≠ 0

/-- The blocks tried from the left up to `search_start`: each scan starts behind the
block that the one before has tried, and every one of them is refused. -/
inductive Tried (loads : String → Except Exn Json) (text : List Char) : List (ℕ × ℕ) → ℕ → Prop
  | nil : Tried loads text [] 0
  | snoc {blocks : List (ℕ × ℕ)} {start i j : ℕ} (earlier : Tried loads text blocks start)
      (brace : FirstBrace text start i) (block : FirstBalance text i j)
      (refused : NotJson loads (slice text i (j + 1))) : Tried loads text (blocks ++ [(i, j)]) (j + 1)

section Positions

variable {text : List Char} {c : Char} {start i j : ℕ}

@[simp] theorem slice_self (text : List Char) (i : ℕ) : slice text i i = [] := by
  rw [slice, List.drop_eq_nil_iff, List.length_take]
  exact Nat.min_le_left _ _

theorem slice_succ (le : i ≤ j) (at_ : text[j]? = some c) : slice text i (j + 1) = slice text i j ++ [c] := by
  obtain ⟨bound, same⟩ := List.getElem?_eq_some_iff.mp at_
  rw [slice, slice, List.take_add_one, at_, List.drop_append_of_le_length]
  · rfl
  · rw [List.length_take]
    omega

theorem drop_eq_cons (at_ : text[i]? = some c) : text.drop i = c :: text.drop (i + 1) := by
  obtain ⟨bound, rfl⟩ := List.getElem?_eq_some_iff.mp at_
  exact List.drop_eq_getElem_cons bound

theorem braceDepth_concat (text : List Char) (c : Char) :
    braceDepth (text ++ [c]) = braceDepth text + braceDepth [c] := by
  simp only [braceDepth, List.count_append]
  push_cast
  ring

theorem braceDepth_other (opening : c ≠ '{') (closing : c ≠ '}') : braceDepth [c] = 0 := by
  rw [braceDepth, List.count_cons_of_ne opening, List.count_cons_of_ne closing]
  rfl

theorem find_eq_some_iff : find '{' text start = some i ↔ FirstBrace text start i := by
  rw [find, Option.map_eq_some_iff]
  constructor
  · rintro ⟨k, found, rfl⟩
    obtain ⟨bound, opens, first⟩ := List.findIdx?_eq_some_iff_getElem.mp found
    refine ⟨Nat.le_add_right _ _, ?_, fun l le lt => ?_⟩
    · rw [← List.getElem?_drop, List.getElem?_eq_getElem bound]
      simpa using opens
    · obtain ⟨m, rfl⟩ := Nat.exists_eq_add_of_le le
      have before : m < k := by omega
      have closed := first m before
      rw [← List.getElem?_drop, List.getElem?_eq_getElem (before.trans bound)]
      simpa using closed
  · intro brace
    obtain ⟨k, rfl⟩ := Nat.exists_eq_add_of_le brace.le
    refine ⟨k, List.findIdx?_eq_some_iff_getElem.mpr ?_, rfl⟩
    have opens := brace.opens
    rw [← List.getElem?_drop] at opens
    obtain ⟨bound, same⟩ := List.getElem?_eq_some_iff.mp opens
    refine ⟨bound, by simpa using same, fun m before => ?_⟩
    have other := brace.first (start + m) (Nat.le_add_right _ _) (by omega)
    rw [← List.getElem?_drop, List.getElem?_eq_getElem (before.trans bound)] at other
    simpa using other

theorem find_eq_none_iff : find '{' text start = none ↔ '{' ∉ text.drop start := by
  rw [find, Option.map_eq_none_iff, List.findIdx?_eq_none_iff]
  constructor
  · intro none_ member
    simpa using none_ _ member
  · intro absent c member
    simpa using fun same : c = '{' => absent (same ▸ member)

/-- The search drops what is before the first brace. -/
theorem FirstBrace.dropWhile (brace : FirstBrace text start i) :
    (text.drop start).dropWhile (· ≠ '{') = text.drop i := by
  have found := find_eq_some_iff.mpr brace
  obtain ⟨k, inner, rfl⟩ := Option.map_eq_some_iff.mp found
  have index := (List.findIdx?_eq_some_iff_findIdx_eq.mp inner).2
  rw [List.dropWhile_eq_drop_findIdx_not]
  have same : (fun c : Char => !decide (c ≠ '{')) = fun c => decide (c = '{') := by
    funext c
    simp
  rw [same, index, List.drop_drop]

end Positions

/-! ## The loops -/

/-- Where `_extract_json_object` is. -/
inductive Scan
  /-- At the head of the `while`. -/
  | search (searchStart : ℕ)
  /-- At the head of the `for`, `idx` being next. -/
  | balance (start idx : ℕ) (depth : ℤ)
  | ended (result : Except Exn Json)

section Loops

variable (loads : String → Except Exn Json) (text : List Char)

/-- The loops of `_extract_json_object`, one step of a loop at a time. -/
def Scan.step : Scan → Unit → Option Scan
  | .search searchStart, _ =>
      match find '{' text searchStart with
      | none => some (.ended (.error noJsonObject))
      | some start => some (.balance start start 0)
  | .balance start idx depth, _ =>
      match text[idx]? with
      -- the `else` of the `for`
      | none => some (.ended (.error noJsonObject))
      | some ch =>
          if ch = '{' then some (.balance start (idx + 1) (depth + 1))
          else if ch = '}' then
            if depth - 1 = 0 then
              match loads (String.ofList (slice text start (idx + 1))) with
              | .ok value => some (.ended (.ok value))
              | .error e =>
                  if e.kind = .jsonDecode then some (.search (idx + 1)) else some (.ended (.error e))
            else some (.balance start (idx + 1) (depth - 1))
          else some (.balance start (idx + 1) depth)
  | .ended _, _ => none

/-- What a step can do. -/
inductive Scan.Moves : Scan → Scan → Prop
  | found {searchStart start : ℕ} (brace : FirstBrace text searchStart start) :
      Moves (.search searchStart) (.balance start start 0)
  | exhausted {searchStart : ℕ} (none_ : '{' ∉ text.drop searchStart) :
      Moves (.search searchStart) (.ended (.error noJsonObject))
  | advance {start idx : ℕ} {depth : ℤ} {ch : Char} (at_ : text[idx]? = some ch)
      (goes_on : ch = '}' → depth ≠ 1) :
      Moves (.balance start idx depth) (.balance start (idx + 1) (depth + braceDepth [ch]))
  | read {start idx : ℕ} {value : Json} (at_ : text[idx]? = some '}')
      (parsed : loads (String.ofList (slice text start (idx + 1))) = .ok value) :
      Moves (.balance start idx 1) (.ended (.ok value))
  | refused {start idx : ℕ} (at_ : text[idx]? = some '}')
      (refused : NotJson loads (slice text start (idx + 1))) :
      Moves (.balance start idx 1) (.search (idx + 1))
  | raised {start idx : ℕ} {e : Exn} (at_ : text[idx]? = some '}')
      (failed : loads (String.ofList (slice text start (idx + 1))) = .error e)
      (other : e.kind ≠ .jsonDecode) : Moves (.balance start idx 1) (.ended (.error e))
  | unbalanced {start idx : ℕ} {depth : ℤ} (end_ : text.length ≤ idx) :
      Moves (.balance start idx depth) (.ended (.error noJsonObject))

end Loops

section Steps

variable {loads : String → Except Exn Json} {text : List Char} {s t : Scan}

theorem Scan.step_moves (stepped : Scan.step loads text s () = some t) : Scan.Moves loads text s t := by
  cases s with
  | search searchStart =>
      rw [Scan.step] at stepped
      cases found : find '{' text searchStart with
      | none =>
          rw [found] at stepped
          cases stepped
          exact .exhausted (find_eq_none_iff.mp found)
      | some start =>
          rw [found] at stepped
          cases stepped
          exact .found (find_eq_some_iff.mp found)
  | ended result => cases stepped
  | balance start idx depth =>
      rw [Scan.step] at stepped
      cases at_ : text[idx]? with
      | none =>
          rw [at_] at stepped
          cases stepped
          exact .unbalanced (List.getElem?_eq_none_iff.mp at_)
      | some ch =>
          rw [at_] at stepped
          dsimp only at stepped
          by_cases opening : ch = '{'
          · subst opening
            rw [if_pos rfl] at stepped
            cases stepped
            exact .advance at_ nofun
          · rw [if_neg opening] at stepped
            by_cases closing : ch = '}'
            · subst closing
              rw [if_pos rfl] at stepped
              by_cases last : depth - 1 = 0
              · obtain rfl : depth = 1 := by omega
                rw [if_pos last] at stepped
                cases read : loads (String.ofList (slice text start (idx + 1))) with
                | ok value =>
                    rw [read] at stepped
                    cases stepped
                    exact .read at_ read
                | error e =>
                    rw [read] at stepped
                    dsimp only at stepped
                    by_cases kind : e.kind = .jsonDecode
                    · rw [if_pos kind] at stepped
                      cases stepped
                      exact .refused at_ ⟨e, read, kind⟩
                    · rw [if_neg kind] at stepped
                      cases stepped
                      exact .raised at_ read kind
              · rw [if_neg last] at stepped
                cases stepped
                exact .advance at_ fun _ one => last (by omega)
            · rw [if_neg closing] at stepped
              cases stepped
              have moves := @Scan.Moves.advance loads text start idx depth ch at_ fun same => absurd same closing
              rwa [braceDepth_other opening closing, add_zero] at moves

/-- The loops only come to rest when they are left. -/
theorem Scan.step_eq_none (halted : Scan.step loads text s () = none) : ∃ result, s = .ended result := by
  cases s with
  | ended result => exact ⟨result, rfl⟩
  | search searchStart =>
      simp only [Scan.step] at halted
      split at halted <;> cases halted
  | balance start idx depth =>
      simp only [Scan.step] at halted
      split at halted
      · cases halted
      · split_ifs at halted
        split at halted
        · cases halted
        · split_ifs at halted

/-! ### Termination -/

/-- What is left to be done: no position is come to twice at the same place. -/
def Scan.measure (text : List Char) : Scan → ℕ
  | .search searchStart => 2 * (text.length + 1 - searchStart) + 2
  | .balance _ idx _ => 2 * (text.length + 1 - idx) + 1
  | .ended _ => 0

theorem Scan.measure_lt (stepped : Scan.step loads text s () = some t) : t.measure text < s.measure text := by
  have inside : ∀ {idx ch}, text[idx]? = some ch → idx < text.length :=
    fun at_ => (List.getElem?_eq_some_iff.mp at_).1
  cases Scan.step_moves stepped with
  | found brace =>
      have bound := inside brace.opens
      have le := brace.le
      simp only [Scan.measure]
      omega
  | advance at_ _ | refused at_ _ =>
      have bound := inside at_
      simp only [Scan.measure]
      omega
  | exhausted | read | raised | unbalanced =>
      simp only [Scan.measure]
      omega

end Steps

/-! ### The invariant -/

section Invariant

variable (loads : String → Except Exn Json) (text : List Char)

/-- The scan that starts at the brace at `start` has come to `idx`. -/
structure Balancing (start idx : ℕ) (depth : ℤ) : Prop where
  earlier : ∃ blocks searchStart, Tried loads text blocks searchStart ∧ FirstBrace text searchStart start
  le : start ≤ idx
  counted : depth = braceDepth (slice text start idx)
  still : ∀ k, start ≤ k → k < idx → 0 < braceDepth (slice text start (k + 1))

/-- `value` was read from `text[i..j]`, the block that the scan came to first of those
that are not refused. -/
structure ReadAt (value : Json) (i j : ℕ) : Prop where
  block : FirstBalance text i j
  read : loads (String.ofList (slice text i (j + 1))) = .ok value
  earlier : ∃ blocks searchStart, Tried loads text blocks searchStart ∧ FirstBrace text searchStart i

/-- What holds wherever the loops are. -/
def Scan.Sound : Scan → Prop
  | .search searchStart => ∃ blocks, Tried loads text blocks searchStart
  | .balance start idx depth => Balancing loads text start idx depth
  | .ended (.ok value) => ∃ i j, ReadAt loads text value i j
  | .ended (.error _) => True

end Invariant

section Kept

variable {loads : String → Except Exn Json} {text rest : List Char} {s t : Scan} {start idx : ℕ} {depth : ℤ} {ch : Char}

namespace Balancing

theorem opens (at_start : Balancing loads text start idx depth) : text[start]? = some '{' := by
  obtain ⟨_, _, _, brace⟩ := at_start.earlier
  exact brace.opens

theorem nonneg (balancing : Balancing loads text start idx depth) : 0 ≤ depth := by
  rcases Nat.eq_or_lt_of_le balancing.le with rfl | later
  · rw [balancing.counted, slice_self]
    rfl
  · obtain ⟨k, rfl⟩ : ∃ k, idx = k + 1 := ⟨idx - 1, by omega⟩
    rw [balancing.counted]
    exact (balancing.still k (by omega) (by omega)).le

/-- Behind the first brace it is positive. -/
theorem positive (balancing : Balancing loads text start idx depth) (at_ : text[idx]? = some ch)
    (other : ch ≠ '{') : 0 < depth := by
  have later : start < idx := by
    refine lt_of_le_of_ne balancing.le fun same => other ?_
    subst same
    exact Option.some.inj (at_.symm.trans balancing.opens)
  obtain ⟨k, rfl⟩ : ∃ k, idx = k + 1 := ⟨idx - 1, by omega⟩
  rw [balancing.counted]
  exact balancing.still k (by omega) (by omega)

theorem next_depth (balancing : Balancing loads text start idx depth) (at_ : text[idx]? = some ch) :
    depth + braceDepth [ch] = braceDepth (slice text start (idx + 1)) := by
  rw [slice_succ balancing.le at_, braceDepth_concat, balancing.counted]

theorem next_positive (balancing : Balancing loads text start idx depth) (at_ : text[idx]? = some ch)
    (goes_on : ch = '}' → depth ≠ 1) : 0 < depth + braceDepth [ch] := by
  by_cases opening : ch = '{'
  · subst opening
    have deeper : braceDepth ['{'] = 1 := rfl
    have nonneg := balancing.nonneg
    omega
  · have positive := balancing.positive at_ opening
    by_cases closing : ch = '}'
    · have shallower : braceDepth ['}'] = -1 := rfl
      have more := goes_on closing
      subst closing
      omega
    · rw [braceDepth_other opening closing]
      omega

theorem advance (balancing : Balancing loads text start idx depth) (at_ : text[idx]? = some ch)
    (goes_on : ch = '}' → depth ≠ 1) : Balancing loads text start (idx + 1) (depth + braceDepth [ch]) where
  earlier := balancing.earlier
  le := balancing.le.trans (Nat.le_succ idx)
  counted := balancing.next_depth at_
  still k le lt := by
    rcases Nat.eq_or_lt_of_le (Nat.le_of_lt_succ lt) with rfl | earlier
    · rw [← balancing.next_depth at_]
      exact balancing.next_positive at_ goes_on
    · exact balancing.still k le earlier

/-- The brace that brings the depth back to 0 ends the block. -/
theorem block (balancing : Balancing loads text start idx 1) (at_ : text[idx]? = some '}') :
    FirstBalance text start idx where
  le := balancing.le
  within := (List.getElem?_eq_some_iff.mp at_).1
  opens := balancing.opens
  closed := (balancing.next_depth at_).symm
  first k le lt := (balancing.still k le lt).ne'

end Balancing

theorem Scan.Sound.step (sound : s.Sound loads text) (stepped : Scan.step loads text s () = some t) :
    t.Sound loads text := by
  cases Scan.step_moves stepped with
  | found brace =>
      obtain ⟨blocks, tried⟩ := sound
      refine ⟨⟨blocks, _, tried, brace⟩, le_rfl, ?_, fun k le lt => absurd lt (by omega)⟩
      rw [slice_self]
      rfl
  | exhausted => trivial
  | advance at_ goes_on => exact Balancing.advance sound at_ goes_on
  | read at_ parsed => exact ⟨_, _, Balancing.block sound at_, parsed, sound.earlier⟩
  | refused at_ refused =>
      obtain ⟨blocks, _, tried, brace⟩ := sound.earlier
      exact ⟨_, tried.snoc brace (Balancing.block sound at_) refused⟩
  | raised => trivial
  | unbalanced => trivial

/-! ### The loops and the search for blocks -/

/-- The blocks that are still to be tried. -/
def Scan.pending (text : List Char) : Scan → List (List Char)
  | .search searchStart => candidates (text.drop searchStart)
  | .balance start idx depth =>
      match takeBlock depth.toNat (text.drop idx) with
      | none => []
      | some (block, rest) => (slice text start idx ++ block) :: candidates rest
  | .ended _ => []

/-- What trying them comes to. -/
def Scan.outcome (loads : String → Except Exn Json) (text : List Char) : Scan → Except Exn Json
  | .ended result => result
  | scan => firstJson loads (scan.pending text)

/-- `takeBlock` goes on as the `for` does. -/
theorem takeBlock_advance (nonneg : 0 ≤ depth) (positive : ch ≠ '{' → 0 < depth)
    (goes_on : ch = '}' → depth ≠ 1) : takeBlock depth.toNat (ch :: rest) =
      (takeBlock (depth + braceDepth [ch]).toNat rest).map fun found => (ch :: found.1, found.2) := by
  rw [takeBlock]
  by_cases opening : ch = '{'
  · subst opening
    have deeper : (depth + braceDepth ['{']).toNat = depth.toNat + 1 := by
      rw [show braceDepth ['{'] = 1 from rfl]
      omega
    rw [if_pos rfl, deeper]
  · have more := positive opening
    rw [if_neg opening]
    by_cases closing : ch = '}'
    · have last := goes_on closing
      subst closing
      have shallower : (depth + braceDepth ['}']).toNat = depth.toNat - 1 := by
        rw [show braceDepth ['}'] = -1 from rfl]
        omega
      rw [if_pos rfl, if_neg (by omega), shallower]
    · rw [if_neg closing, braceDepth_other opening closing, add_zero]

theorem Scan.pending_advance (balancing : Balancing loads text start idx depth) (at_ : text[idx]? = some ch)
    (goes_on : ch = '}' → depth ≠ 1) :
    (Scan.balance start (idx + 1) (depth + braceDepth [ch])).pending text =
      (Scan.balance start idx depth).pending text := by
  rw [Scan.pending, Scan.pending, drop_eq_cons at_,
    takeBlock_advance balancing.nonneg (balancing.positive at_) goes_on, slice_succ balancing.le at_]
  cases takeBlock (depth + braceDepth [ch]).toNat (text.drop (idx + 1)) with
  | none => rfl
  | some found => simp

/-- At the end of a block, it and what follows are left. -/
theorem Scan.pending_block (balancing : Balancing loads text start idx 1) (at_ : text[idx]? = some '}') :
    (Scan.balance start idx 1).pending text =
      slice text start (idx + 1) :: candidates (text.drop (idx + 1)) := by
  have cut : takeBlock (1 : ℤ).toNat ('}' :: text.drop (idx + 1)) = some (['}'], text.drop (idx + 1)) := rfl
  rw [Scan.pending, drop_eq_cons at_, cut, slice_succ balancing.le at_]

theorem Scan.pending_found (brace : FirstBrace text start idx) :
    (Scan.balance idx idx 0).pending text = (Scan.search start).pending text := by
  have dropped := brace.dropWhile
  rw [Scan.pending, Scan.pending, slice_self]
  cases found : takeBlock (0 : ℤ).toNat (text.drop idx) with
  | none => rw [candidates_none (dropped ▸ found)]
  | some cut =>
      rw [candidates_some (dropped ▸ found)]
      rfl

/-- **A step does not change what the search comes to.** -/
theorem Scan.outcome_step (sound : s.Sound loads text) (stepped : Scan.step loads text s () = some t) :
    t.outcome loads text = s.outcome loads text := by
  cases Scan.step_moves stepped with
  | found brace => exact congrArg (firstJson loads) (Scan.pending_found brace)
  | @exhausted searchStart none_ =>
      have nothing : (text.drop searchStart).dropWhile (· ≠ '{') = [] :=
        List.dropWhile_eq_nil_iff.mpr fun c member => by
          simpa using fun same : c = '{' => none_ (same ▸ member)
      have left : (Scan.search searchStart).pending text = [] :=
        candidates_none (by rw [nothing, takeBlock])
      exact (congrArg (firstJson loads) left).symm
  | advance at_ goes_on => exact congrArg (firstJson loads) (Scan.pending_advance sound at_ goes_on)
  | read at_ parsed =>
      have left := Scan.pending_block sound at_
      exact ((congrArg (firstJson loads) left).trans (firstJson_of_ok _ parsed)).symm
  | refused at_ refused =>
      have left := Scan.pending_block sound at_
      obtain ⟨e, failed, kind⟩ := refused
      refine Eq.symm ((congrArg (firstJson loads) left).trans ?_)
      rw [firstJson, failed]
      exact if_pos kind
  | raised at_ failed other =>
      have left := Scan.pending_block sound at_
      refine Eq.symm ((congrArg (firstJson loads) left).trans ?_)
      rw [firstJson, failed]
      exact if_neg other
  | @unbalanced start idx depth end_ =>
      have left : (Scan.balance start idx depth).pending text = [] := by
        rw [Scan.pending, List.drop_eq_nil_iff.mpr end_, takeBlock]
      exact (congrArg (firstJson loads) left).symm

end Kept

/-! ## The text that is searched -/

/-- What follows the last occurrence of `tag` is blank. -/
def BlankAfterLast (tag text : List Char) : Prop :=
  ∃ before rest, text = before ++ (tag ++ rest) ∧ ¬ tag <:+: rest ∧ ∀ c ∈ rest, isSpace c

section Tags

variable {text before rest : List Char}

theorem spaces_of_blank (blank : strip text = []) : ∀ c ∈ text, isSpace c := by
  obtain ⟨pre, post, whole, before, after⟩ := strip_split text
  rw [blank, List.append_nil] at whole
  intro c member
  rw [whole] at member
  exact (List.mem_append.mp member).elim (before c) (after c)

theorem strip_closeTag (before : List Char) :
    strip (before ++ closeTag) = before.dropWhile isSpace ++ closeTag := by
  have dropped : (before ++ closeTag).dropWhile isSpace = before.dropWhile isSpace ++ closeTag := by
    rw [List.dropWhile_append]
    split
    · next none_ =>
        rw [List.isEmpty_iff.mp none_]
        decide
    · rfl
  have ends : closeTag = "</think".toList ++ ['>'] := by decide
  rw [strip, dropped, ends, ← List.append_assoc]
  exact List.rdropWhile_concat_neg _ _ _ (by decide)

/-- A closing tag is left only if there is nothing after the last one. -/
theorem stripThinkTags_tag (left : closeTag <:+: stripThinkTags text) :
    BlankAfterLast closeTag text ∧ BlankAfterLast closeTag (stripThinkTags text) := by
  by_cases seen : closeTag <:+: text
  · obtain ⟨before, rest, rfl, last⟩ := last_occurrence closeTag_visible.1 seen
    have found := afterLast_closeTag last before
    by_cases visible : strip rest ≠ []
    · simp only [stripThinkTags, found, if_pos visible] at left
      exact absurd (left.trans (strip_within rest)) last
    · have blank := spaces_of_blank (not_not.mp visible)
      have stripped : stripThinkTags (before ++ (closeTag ++ rest)) = before.dropWhile isSpace ++ closeTag := by
        have around := @strip_around [] rest (by simp) blank (before ++ closeTag)
        rw [List.nil_append, List.append_assoc] at around
        simp only [stripThinkTags, found, if_neg visible]
        rw [around, strip_closeTag]
      refine ⟨⟨before, rest, rfl, last, blank⟩, before.dropWhile isSpace, [], ?_, ?_, by simp⟩
      · rw [stripped, List.append_nil]
      · rw [List.infix_nil]
        exact closeTag_visible.1
  · have stripped : stripThinkTags text = strip text := by
      simp only [stripThinkTags, afterLast_none seen, removeThinkBlocks_unclosed seen, ite_self]
    rw [stripped] at left
    exact absurd (left.trans (strip_within text)) seen

/-- Where nothing is left of a text, it has no brace. -/
theorem braceFree_of_stripped (nothing : stripThinkTags text = []) : BraceFree text := by
  apply braceFree_of_blank
  unfold stripThinkTags at nothing
  split at nothing
  · dsimp only at nothing
    split at nothing
    · next visible => exact absurd nothing visible
    · exact nothing
  · dsimp only at nothing
    split at nothing
    · next visible => exact absurd nothing visible
    · exact nothing

end Tags

section Extractor

variable {loads : String → Except Exn Json} {text : List Char} {steps : List Unit}

/-- Wherever the loops come, the invariant holds and the outcome is the same. -/
theorem scan_invariant {s : Scan} (ran : exec (Scan.step loads text) (.search 0) steps = some s) :
    s.Sound loads text ∧ s.outcome loads text = firstJson loads (candidates text) := by
  have keeps : ∀ (s : Scan) (e : Unit) (t : Scan),
      s.Sound loads text ∧ s.outcome loads text = firstJson loads (candidates text) →
      Scan.step loads text s e = some t →
      t.Sound loads text ∧ t.outcome loads text = firstJson loads (candidates text) := by
    rintro s _ t ⟨sound, same⟩ stepped
    exact ⟨sound.step stepped, (Scan.outcome_step sound stepped).trans same⟩
  exact exec_invariant keeps steps (.search 0) s ⟨⟨[], .nil⟩, rfl⟩ ran

/-- **The extractor** terminates on every text, after a number of steps that is linear
in its length, and what it returns is read from the first block, from the left, that is
not refused; no closing tag is left before that block, unless nothing but blanks follow
the last tag. -/
theorem extractor_sound (loads : String → Except Exn Json) (text : List Char) :
    (∃ steps, steps.length ≤ 2 * (searchText text).length + 4 ∧
      exec (Scan.step loads (searchText text)) (.search 0) steps = some (.ended (extractJsonObject loads text))) ∧
    ∀ value, extractJsonObject loads text = .ok value →
      ∃ i j, ReadAt loads (stripThinkTags text) value i j ∧
        (closeTag <:+: (stripThinkTags text).take i →
          BlankAfterLast closeTag text ∧ BlankAfterLast closeTag (stripThinkTags text)) := by
  have decreases : ∀ s t, Scan.step loads (searchText text) s () = some t →
      t.measure (searchText text) < s.measure (searchText text) := fun _ _ => Scan.measure_lt
  obtain ⟨steps, s, short, ran, halted⟩ := exec_halts _ decreases (.search 0)
  obtain ⟨result, rfl⟩ := Scan.step_eq_none halted
  obtain ⟨sound, outcome⟩ := scan_invariant ran
  obtain rfl : result = extractJsonObject loads text := outcome.trans (extractJsonObject_eq loads text).symm
  constructor
  · refine ⟨steps, short.trans (le_of_eq ?_), ran⟩
    rw [Scan.measure]
    omega
  · intro value returned
    rw [returned] at sound
    obtain ⟨i, j, read⟩ := sound
    by_cases nothing : stripThinkTags text = []
    · -- a blank text has no block
      rw [searchText, if_neg (not_not.mpr nothing)] at read
      have brace := List.mem_of_getElem? read.block.opens
      exact absurd brace (braceFree_of_stripped nothing).1
    · rw [searchText, if_pos nothing] at read
      exact ⟨i, j, read, fun tag => stripThinkTags_tag (tag.trans (List.take_prefix _ _).isInfix)⟩

/-- An object and nothing else. -/
theorem extractor_sound_object :
    ∃ i j, ReadAt okLoads (stripThinkTags okText) (.object (summarized ['o', 'k'])) i j := by
  have searched : searchText okText = okText := searchText_plain (by decide) (by decide) (List.cons_ne_nil _ _)
  have tried : candidates okText = [okText] :=
    (candidates_object (summaryText_spelled (unescaped_of_all (by decide)))).1 (by decide)
  have returned : extractJsonObject okLoads okText = .ok (.object (summarized ['o', 'k'])) := by
    rw [extractJsonObject_eq, searched, tried]
    exact firstJson_of_ok [] okLoads_okText
  obtain ⟨i, j, read, _⟩ := (extractor_sound okLoads okText).2 _ returned
  exact ⟨i, j, read⟩

end Extractor

end InferenceForge.Pipeline
