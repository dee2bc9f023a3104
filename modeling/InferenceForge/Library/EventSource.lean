/-
# InferenceForge.Library.EventSource — the format of an event stream

How a client reads a `text/event-stream`: lines that end in a line feed, a carriage
return or both, fields `name: value` of which only `data` matters here, and an empty
line that dispatches what the `data` lines have gathered. Text behind the last empty
line is dropped.

A `frame` carries one text. A stream of frames is read as those texts, in order, if none
of them has an end of line in it (`events_frames`).
-/
import Mathlib.Data.List.Basic

namespace InferenceForge.Library.EventSource

set_option autoImplicit false

/-- The lines of a stream. `line` is what has been read of the first one, and `returned` says
that a carriage return was just read, so that a line feed belongs to it. -/
def lines (line : List Char) (returned : Bool) : List Char → List (List Char)
  | [] => []
  | c :: rest =>
      if c = '\n' then if returned then lines line false rest else line :: lines [] false rest
      else if c = '\r' then line :: lines [] true rest
      else lines (line ++ [c]) false rest

/-- The value of a `data` field: what follows the colon, less one space. -/
def dataOf (line : List Char) : Option (List Char) :=
  let name := line.takeWhile (· ≠ ':')
  let value := (line.dropWhile (· ≠ ':')).drop 1
  if name = "data".toList then some (if value.head? = some ' ' then value.drop 1 else value) else none

/-- Dispatch at each empty line what was gathered since the last. -/
def dispatch (gathered : List (List Char)) : List (List Char) → List (List Char)
  | [] => []
  | line :: rest =>
      if line = [] then
        if gathered = [] then dispatch [] rest else ['\n'].intercalate gathered :: dispatch [] rest
      else
        match dataOf line with
        | some value => dispatch (gathered ++ [value]) rest
        | none => dispatch gathered rest

/-- The texts a client is given. -/
def events (stream : List Char) : List (List Char) := dispatch [] (lines [] false stream)

/-- `f"data: {data}\n\n"`. -/
def frame (data : List Char) : List Char := "data: ".toList ++ (data ++ ['\n', '\n'])

/-- Without an end of line. -/
def OneLine (text : List Char) : Prop := ∀ c ∈ text, c ≠ '\n' ∧ c ≠ '\r'

theorem OneLine.append {text more : List Char} (first : OneLine text) (second : OneLine more) :
    OneLine (text ++ more) := by
  intro c member
  rcases List.mem_append.mp member with left | right
  · exact first c left
  · exact second c right

theorem lines_of_oneLine {line text : List Char} (oneLine : OneLine text) (rest : List Char) :
    lines line false (text ++ '\n' :: rest) = (line ++ text) :: lines [] false rest := by
  induction text generalizing line with
  | nil =>
      rw [List.nil_append, lines, if_pos rfl, List.append_nil]
      rfl
  | cons c text ih =>
      obtain ⟨feed, carriage⟩ := oneLine c List.mem_cons_self
      rw [List.cons_append, lines, if_neg feed, if_neg carriage,
        ih fun d member => oneLine d (List.mem_cons_of_mem c member), List.append_assoc, List.singleton_append]

theorem oneLine_data : OneLine "data: ".toList := by
  have none : ("data: ".toList.any fun c => c == '\n' || c == '\r') = false := rfl
  intro c member
  simpa using List.any_eq_false.mp none c member

/-- The two lines of a frame. -/
theorem lines_frame {data : List Char} (oneLine : OneLine data) (rest : List Char) :
    lines [] false (frame data ++ rest) = ("data: ".toList ++ data) :: [] :: lines [] false rest := by
  have shape : frame data ++ rest = ("data: ".toList ++ data) ++ '\n' :: ([] ++ '\n' :: rest) := by simp [frame]
  rw [shape, lines_of_oneLine (oneLine_data.append oneLine), lines_of_oneLine (fun c member => by cases member)]
  rfl

theorem dataOf_data (data : List Char) : dataOf ("data: ".toList ++ data) = some data := rfl

theorem events_frame {data : List Char} (oneLine : OneLine data) (rest : List Char) :
    events (frame data ++ rest) = data :: events rest := by
  rw [events, lines_frame oneLine, dispatch, if_neg (by simp), dataOf_data]
  simp only [List.nil_append]
  rw [dispatch, if_pos rfl, if_neg (by simp)]
  simp [events]

/-- **A stream of frames is read as its texts.** -/
theorem events_frames {texts : List (List Char)} (oneLine : ∀ text ∈ texts, OneLine text) :
    events (texts.flatMap frame) = texts := by
  induction texts with
  | nil => rfl
  | cons text texts ih =>
      rw [List.flatMap_cons, events_frame (oneLine text List.mem_cons_self),
        ih fun other member => oneLine other (List.mem_cons_of_mem text member)]

end InferenceForge.Library.EventSource
