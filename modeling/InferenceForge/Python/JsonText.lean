/-
# InferenceForge.Python.JsonText — the texts `json.loads` accepts

`ValueText v t` says that `t` is a JSON text of `v`, by the grammar `json.loads`
follows: strings with their escapes, numbers with `NaN` and the infinities, blanks
between the tokens. A text may name a key twice; `collapse` is what the reader
makes of it.

`Lexed` reads a text the way a tokenizer does, character by character: which
quotes begin a string and which braces stand outside of all strings.
`ValueText.lexed` counts them: one quote for each string of the value and one pair
of braces for each object. That is enough to tell a text from every part of it
(`ValueText.part_lt`): a part that starts inside of a string takes the strings for
what lies between them, and so has fewer strings than the whole.
-/
import InferenceForge.Python.Text
import Mathlib.Data.Bool.AllAny

namespace InferenceForge.Python

set_option autoImplicit false

/-! ## The grammar -/

/-- Blanks between tokens. -/
def Blank (text : List Char) : Prop := ∀ c ∈ text, c ∈ [' ', '\t', '\n', '\r']

/-- The escapes of one letter, and what they stand for. -/
def shortEscapes : List (Char × Char) :=
  [('"', '"'), ('\\', '\\'), ('/', '/'), ('b', Char.ofNat 8), ('f', Char.ofNat 12), ('n', '\n'),
    ('r', '\r'), ('t', '\t')]

def hexDigit (c : Char) : Option ℕ :=
  if '0' ≤ c ∧ c ≤ '9' then some (c.toNat - '0'.toNat)
  else if 'a' ≤ c ∧ c ≤ 'f' then some (c.toNat - 'a'.toNat + 10)
  else if 'A' ≤ c ∧ c ≤ 'F' then some (c.toNat - 'A'.toNat + 10)
  else none

/-- The code of four hexadecimal digits. -/
def codeOf : List Char → Option ℕ
  | [a, b, c, d] => do
      return (((← hexDigit a) * 16 + (← hexDigit b)) * 16 + (← hexDigit c)) * 16 + (← hexDigit d)
  | _ => none

/-- A character of a string, as it is or escaped. -/
inductive CharText : Char → List Char → Prop
  | plain {c : Char} (quote : c ≠ '"') (backslash : c ≠ '\\') (printable : 0x20 ≤ c.toNat) :
      CharText c [c]
  | short {c letter : Char} (escape : (letter, c) ∈ shortEscapes) : CharText c ['\\', letter]
  | code {c : Char} {digits : List Char} (same : codeOf digits = some c.toNat) :
      CharText c ('\\' :: 'u' :: digits)
  /-- A pair of surrogates. -/
  | pair {c : Char} {first second : List Char} {high low : ℕ} (isHigh : codeOf first = some (0xd800 + high))
      (isLow : codeOf second = some (0xdc00 + low)) (high_lt : high < 0x400) (low_lt : low < 0x400)
      (same : c.toNat = 0x10000 + high * 0x400 + low) :
      CharText c ('\\' :: 'u' :: (first ++ '\\' :: 'u' :: second))

inductive BodyText : List Char → List Char → Prop
  | nil : BodyText [] []
  | cons {c : Char} {value text rest : List Char} (first : CharText c text)
      (more : BodyText value rest) : BodyText (c :: value) (text ++ rest)

/-- A string in its quotes. -/
inductive StringText : String → List Char → Prop
  | quoted {value : String} {body : List Char} (inner : BodyText value.toList body) :
      StringText value ('"' :: (body ++ ['"']))

/-- A run of decimal digits. -/
def Digits (text : List Char) : Prop := text ≠ [] ∧ ∀ c ∈ text, '0' ≤ c ∧ c ≤ '9'

/-- The value of a run of decimal digits. -/
def natValue (digits : List Char) : ℕ := digits.foldl (fun value c => 10 * value + (c.toNat - 48)) 0

def intValue (minus whole : List Char) : ℤ :=
  if minus = [] then natValue whole else -natValue whole

/-- `-?(0|[1-9][0-9]*)`. -/
structure WholeText (minus whole : List Char) : Prop where
  sign : minus = [] ∨ minus = ['-']
  digits : Digits whole
  leading : whole.head? = some '0' → whole = ['0']

/-- `(\.[0-9]+)?`. -/
def FractionText (fraction : List Char) : Prop :=
  fraction = [] ∨ ∃ digits, Digits digits ∧ fraction = '.' :: digits

/-- `([eE][-+]?[0-9]+)?`. -/
def PowerText (power : List Char) : Prop :=
  power = [] ∨ ∃ e sign digits, (e = 'e' ∨ e = 'E') ∧ (sign = [] ∨ sign = ['-'] ∨ sign = ['+']) ∧ Digits digits ∧
    power = e :: (sign ++ digits)

/-- A text that JSON reads as the number: an integer by its digits, all else as `float` does. -/
inductive Numeral : Number → List Char → Prop
  | nan : Numeral .nan "NaN".toList
  | inf : Numeral .inf "Infinity".toList
  | negInf : Numeral .negInf "-Infinity".toList
  | int {minus whole : List Char} (integer : WholeText minus whole) :
      Numeral (.finite (intValue minus whole)) (minus ++ whole)
  | float {value : Number} {minus whole fraction power : List Char} (integer : WholeText minus whole)
      (point : FractionText fraction) (exponent : PowerText power) (more : fraction ≠ [] ∨ power ≠ [])
      (reads : float (minus ++ whole ++ fraction ++ power) = some value) :
      Numeral value (minus ++ whole ++ fraction ++ power)

mutual

inductive ValueText : Json → List Char → Prop
  | null : ValueText .null "null".toList
  | true : ValueText (.bool true) "true".toList
  | false : ValueText (.bool false) "false".toList
  | number {value : Number} {text : List Char} (spelled : Numeral value text) :
      ValueText (.number value) text
  | string {value : String} {text : List Char} (spelled : StringText value text) :
      ValueText (.string value) text
  | array {items : List Json} {text : List Char} (inner : ItemsText items text) :
      ValueText (.array items) ('[' :: (text ++ [']']))
  | object {fields : Dict} {text : List Char} (inner : FieldsText fields text) :
      ValueText (.object fields) ('{' :: (text ++ ['}']))

/-- What stands between brackets. -/
inductive ItemsText : List Json → List Char → Prop
  | none {blank : List Char} (blanks : Blank blank) : ItemsText [] blank
  | last {item : Json} {before text after : List Char} (left : Blank before)
      (value : ValueText item text) (right : Blank after) : ItemsText [item] (before ++ text ++ after)
  | cons {item : Json} {items : List Json} {before text after rest : List Char} (left : Blank before)
      (value : ValueText item text) (right : Blank after) (some : items ≠ [])
      (more : ItemsText items rest) : ItemsText (item :: items) (before ++ text ++ after ++ ',' :: rest)

/-- What stands between braces. -/
inductive FieldsText : Dict → List Char → Prop
  | none {blank : List Char} (blanks : Blank blank) : FieldsText [] blank
  | last {key : String} {item : Json} {before name colon gap text after : List Char}
      (left : Blank before) (named : StringText key name) (beforeColon : Blank colon)
      (afterColon : Blank gap) (value : ValueText item text) (right : Blank after) :
      FieldsText [(key, item)] (before ++ name ++ colon ++ ':' :: (gap ++ text ++ after))
  | cons {key : String} {item : Json} {fields : Dict}
      {before name colon gap text after rest : List Char}
      (left : Blank before) (named : StringText key name) (beforeColon : Blank colon)
      (afterColon : Blank gap) (value : ValueText item text) (right : Blank after)
      (some : fields ≠ []) (more : FieldsText fields rest) :
      FieldsText ((key, item) :: fields)
        (before ++ name ++ colon ++ ':' :: (gap ++ text ++ after ++ ',' :: rest))

end

/-- A value between blanks. -/
inductive DocumentText : Json → List Char → Prop
  | around {value : Json} {before text after : List Char} (left : Blank before)
      (inner : ValueText value text) (right : Blank after) : DocumentText value (before ++ text ++ after)

/-! ## What the reader makes of a text -/

mutual

/-- The value with every key once: the last value of a key stands where the key
stood first. -/
def Json.collapse : Json → Json
  | .array items => .array (collapseItems items)
  | .object fields => .object (collapseFields fields [])
  | .null => .null
  | .bool value => .bool value
  | .number value => .number value
  | .string value => .string value

def collapseItems : List Json → List Json
  | [] => []
  | item :: items => item.collapse :: collapseItems items

def collapseFields : Dict → Dict → Dict
  | [], read => read
  | (key, item) :: fields, read => collapseFields fields (Dict.set read key item.collapse)

end

/-! ## Counting strings and objects -/

mutual

/-- A weight for each string, key or value, and one for each object. -/
def Json.weight (string object : ℕ) : Json → ℕ
  | .string _ => string
  | .array items => weightItems string object items
  | .object fields => object + weightFields string object fields
  | .null => 0
  | .bool _ => 0
  | .number _ => 0

def weightItems (string object : ℕ) : List Json → ℕ
  | [] => 0
  | item :: items => item.weight string object + weightItems string object items

def weightFields (string object : ℕ) : Dict → ℕ
  | [] => 0
  | (_, item) :: fields => string + item.weight string object + weightFields string object fields

end

/-! ## Reading character by character -/

/-- Where the next character stands. -/
inductive Quoting
  | outside
  | inside
  /-- In a string, behind a backslash. -/
  | escaped
  deriving DecidableEq

namespace Quoting

def next : Quoting → Char → Quoting
  | .outside, c => if c = '"' then .inside else .outside
  | .inside, c => if c = '"' then .outside else if c = '\\' then .escaped else .inside
  | .escaped, _ => .inside

def after (q : Quoting) (text : List Char) : Quoting := text.foldl next q

def escapeLetters : List Char := 'u' :: shortEscapes.map Prod.fst

/-- Every backslash stands in a string, before a letter it can escape. -/
def Accepts : Quoting → List Char → Prop
  | _, [] => True
  | q, c :: rest =>
      (q = .outside → c ≠ '\\') ∧ (q = .escaped → c ∈ escapeLetters) ∧ Accepts (q.next c) rest

/-- How often `c` stands outside of strings. -/
def occurs (c : Char) : Quoting → List Char → ℕ
  | _, [] => 0
  | q, d :: rest => (if q = .outside ∧ d = c then 1 else 0) + occurs c (q.next d) rest

@[simp] theorem after_nil (q : Quoting) : q.after [] = q := rfl

@[simp] theorem after_cons (q : Quoting) (c : Char) (rest : List Char) :
    q.after (c :: rest) = (q.next c).after rest := rfl

theorem after_append (q : Quoting) (text more : List Char) :
    q.after (text ++ more) = (q.after text).after more := List.foldl_append

theorem accepts_append {q : Quoting} {text more : List Char} :
    Accepts q (text ++ more) ↔ Accepts q text ∧ Accepts (q.after text) more := by
  induction text generalizing q with
  | nil => simp [Accepts]
  | cons c rest ih => simp only [List.cons_append, Accepts, ih, after_cons, and_assoc]

theorem occurs_append (c : Char) (q : Quoting) (text more : List Char) :
    occurs c q (text ++ more) = occurs c q text + occurs c (q.after text) more := by
  induction text generalizing q with
  | nil => simp [occurs]
  | cons d rest ih => simp only [List.cons_append, occurs, ih, after_cons, Nat.add_assoc]

end Quoting

/-- A text that a tokenizer gets through: it begins `strings` strings, and outside of
them it opens and closes that many braces. -/
structure Lexed (text : List Char) (strings opened closed : ℕ) : Prop where
  accepted : Quoting.Accepts .outside text
  ends : Quoting.after .outside text = .outside
  strings : Quoting.occurs '"' .outside text = strings
  opened : Quoting.occurs '{' .outside text = opened
  closed : Quoting.occurs '}' .outside text = closed

section Lexed

variable {text more : List Char} {strings opened closed strings' opened' closed' : ℕ}

theorem Lexed.append (lexed : Lexed text strings opened closed)
    (lexed' : Lexed more strings' opened' closed') :
    Lexed (text ++ more) (strings + strings') (opened + opened') (closed + closed') := by
  constructor
  · rw [Quoting.accepts_append, lexed.ends]
    exact ⟨lexed.accepted, lexed'.accepted⟩
  · rw [Quoting.after_append, lexed.ends, lexed'.ends]
  · rw [Quoting.occurs_append, lexed.ends, lexed.strings, lexed'.strings]
  · rw [Quoting.occurs_append, lexed.ends, lexed.opened, lexed'.opened]
  · rw [Quoting.occurs_append, lexed.ends, lexed.closed, lexed'.closed]

/-- Characters that neither quote nor nest. -/
def Plain (text : List Char) : Prop := ∀ c ∈ text, c ∉ ['"', '\\', '{', '}']

theorem plain_of_all (all : text.all fun c => c ∉ ['"', '\\', '{', '}']) : Plain text :=
  List.all_iff_forall_prop.mp all

theorem Plain.lexed (plain : Plain text) : Lexed text 0 0 0 := by
  induction text with
  | nil => exact ⟨trivial, rfl, rfl, rfl, rfl⟩
  | cons c rest ih =>
      have here := plain c List.mem_cons_self
      simp only [List.mem_cons, List.not_mem_nil, or_false, not_or] at here
      obtain ⟨quote, backslash, opening, closing⟩ := here
      have later := ih fun d member => plain d (List.mem_cons_of_mem c member)
      have stays : Quoting.next .outside c = .outside := if_neg quote
      constructor
      · refine ⟨fun _ => backslash, by simp, ?_⟩
        rw [stays]
        exact later.accepted
      · rw [Quoting.after_cons, stays, later.ends]
      · rw [Quoting.occurs, stays, later.strings, if_neg (by simp [quote])]
      · rw [Quoting.occurs, stays, later.opened, if_neg (by simp [opening])]
      · rw [Quoting.occurs, stays, later.closed, if_neg (by simp [closing])]

theorem lexed_opening : Lexed ['{'] 0 1 0 := ⟨by simp [Quoting.Accepts], rfl, rfl, rfl, rfl⟩

theorem lexed_closing : Lexed ['}'] 0 0 1 := ⟨by simp [Quoting.Accepts], rfl, rfl, rfl, rfl⟩

theorem Blank.plain (blank : Blank text) : Plain text := by
  intro c member
  have blanks := blank c member
  simp only [List.mem_cons, List.not_mem_nil, or_false] at blanks
  rcases blanks with rfl | rfl | rfl | rfl <;> decide

/-! ### Strings -/

/-- A part of a string that ends where it began, inside. -/
structure Within (text : List Char) : Prop where
  accepted : Quoting.Accepts .inside text
  ends : Quoting.after .inside text = .inside
  nothing : ∀ c, Quoting.occurs c .inside text = 0

theorem Within.append (within : Within text) (within' : Within more) : Within (text ++ more) := by
  constructor
  · rw [Quoting.accepts_append, within.ends]
    exact ⟨within.accepted, within'.accepted⟩
  · rw [Quoting.after_append, within.ends, within'.ends]
  · intro c
    rw [Quoting.occurs_append, within.ends, within.nothing, within'.nothing]

theorem within_of_unquoted (unquoted : ∀ c ∈ text, c ≠ '"' ∧ c ≠ '\\') : Within text := by
  induction text with
  | nil => exact ⟨trivial, rfl, fun _ => rfl⟩
  | cons c rest ih =>
      obtain ⟨quote, backslash⟩ := unquoted c List.mem_cons_self
      have later := ih fun d member => unquoted d (List.mem_cons_of_mem c member)
      have stays : Quoting.next .inside c = .inside := by
        rw [Quoting.next, if_neg quote, if_neg backslash]
      constructor
      · refine ⟨by simp, by simp, ?_⟩
        rw [stays]
        exact later.accepted
      · rw [Quoting.after_cons, stays, later.ends]
      · intro d
        rw [Quoting.occurs, stays, later.nothing, if_neg (by simp)]

theorem within_escape {letter : Char} (escapes : letter ∈ Quoting.escapeLetters) :
    Within ['\\', letter] := by
  have begins : Quoting.next .inside '\\' = .escaped := by decide
  constructor
  · refine ⟨by simp, by simp, ?_⟩
    rw [begins]
    exact ⟨by simp, fun _ => escapes, trivial⟩
  · rw [Quoting.after_cons, begins]
    rfl
  · intro c
    simp only [Quoting.occurs, begins]
    simp

theorem hexDigit_unquoted {c : Char} {value : ℕ} (digit : hexDigit c = some value) :
    c ≠ '"' ∧ c ≠ '\\' := by
  have quote : hexDigit '"' = none := by decide
  have backslash : hexDigit '\\' = none := by decide
  constructor
  · rintro rfl
    rw [quote] at digit
    cases digit
  · rintro rfl
    rw [backslash] at digit
    cases digit

theorem codeOf_unquoted {digits : List Char} {code : ℕ} (read : codeOf digits = some code) :
    ∀ c ∈ digits, c ≠ '"' ∧ c ≠ '\\' := by
  match digits, read with
  | [a, b, c, d], read =>
      simp only [codeOf, Option.bind_eq_bind, Option.bind_eq_some_iff] at read
      obtain ⟨_, first, _, second, _, third, _, fourth, _⟩ := read
      intro e member
      simp only [List.mem_cons, List.not_mem_nil, or_false] at member
      rcases member with rfl | rfl | rfl | rfl
      · exact hexDigit_unquoted first
      · exact hexDigit_unquoted second
      · exact hexDigit_unquoted third
      · exact hexDigit_unquoted fourth

theorem within_code {digits : List Char} {code : ℕ} (read : codeOf digits = some code) :
    Within ('\\' :: 'u' :: digits) :=
  (within_escape List.mem_cons_self).append (within_of_unquoted (codeOf_unquoted read))

theorem CharText.within {c : Char} (spelled : CharText c text) : Within text := by
  cases spelled with
  | plain quote backslash printable => exact within_of_unquoted (by simp [quote, backslash])
  | short escape => exact within_escape (List.mem_cons_of_mem _ (List.mem_map_of_mem escape))
  | code same => exact within_code same
  | pair isHigh isLow => exact (within_code isHigh).append (within_code isLow)

theorem BodyText.within {value : List Char} (spelled : BodyText value text) : Within text := by
  induction spelled with
  | nil => exact within_of_unquoted (by simp)
  | cons first more ih => exact first.within.append ih

theorem StringText.lexed {value : String} (spelled : StringText value text) : Lexed text 1 0 0 := by
  cases spelled with
  | quoted inner =>
      have within := inner.within
      have opens : Quoting.next .outside '"' = .inside := by decide
      have closes : Quoting.next .inside '"' = .outside := by decide
      constructor
      · refine ⟨by simp, by simp, ?_⟩
        rw [opens, Quoting.accepts_append, within.ends]
        exact ⟨within.accepted, by simp, by simp, trivial⟩
      · rw [Quoting.after_cons, opens, Quoting.after_append, within.ends]
        exact closes
      · rw [Quoting.occurs, opens, Quoting.occurs_append, within.nothing, within.ends]
        decide
      · rw [Quoting.occurs, opens, Quoting.occurs_append, within.nothing, within.ends]
        decide
      · rw [Quoting.occurs, opens, Quoting.occurs_append, within.nothing, within.ends]
        decide

/-! ### Values -/

theorem plain_append (plain : Plain text) (plain' : Plain more) : Plain (text ++ more) :=
  fun c member => (List.mem_append.mp member).elim (plain c) (plain' c)

theorem Digits.plain (digits : Digits text) : Plain text := by
  intro c member quoted
  have bounds := digits.2 c member
  simp only [List.mem_cons, List.not_mem_nil, or_false] at quoted
  rcases quoted with rfl | rfl | rfl | rfl <;> exact absurd bounds (by decide)

theorem plain_cons {c : Char} (here : c ∉ ['"', '\\', '{', '}']) (plain : Plain text) :
    Plain (c :: text) :=
  List.forall_mem_cons.mpr ⟨here, plain⟩

theorem WholeText.plain {minus whole : List Char} (integer : WholeText minus whole) : Plain (minus ++ whole) := by
  refine plain_append ?_ integer.digits.plain
  rcases integer.sign with rfl | rfl
  · simp [Plain]
  · exact plain_cons (by decide) (by simp [Plain])

theorem FractionText.plain {fraction : List Char} (point : FractionText fraction) : Plain fraction := by
  rcases point with rfl | ⟨digits, isDigits, rfl⟩
  · simp [Plain]
  · exact plain_cons (by decide) isDigits.plain

theorem PowerText.plain {power : List Char} (exponent : PowerText power) : Plain power := by
  rcases exponent with rfl | ⟨e, sign, digits, isE, isSign, isDigits, rfl⟩
  · simp [Plain]
  · refine plain_cons (by rcases isE with rfl | rfl <;> decide) ?_
    refine plain_append ?_ isDigits.plain
    rcases isSign with rfl | rfl | rfl
    · simp [Plain]
    · exact plain_cons (by decide) (by simp [Plain])
    · exact plain_cons (by decide) (by simp [Plain])

theorem Numeral.plain {value : Number} (spelled : Numeral value text) : Plain text := by
  cases spelled with
  | nan => exact plain_of_all (by decide)
  | inf => exact plain_of_all (by decide)
  | negInf => exact plain_of_all (by decide)
  | int integer => exact integer.plain
  | float integer point exponent more reads =>
      exact plain_append (plain_append integer.plain point.plain) exponent.plain

theorem lexed_plain_char {c : Char} (here : c ∉ ['"', '\\', '{', '}']) : Lexed [c] 0 0 0 :=
  (plain_cons here (by simp [Plain])).lexed

theorem Lexed.of_eq (lexed : Lexed text strings opened closed) (sameText : more = text)
    (sameStrings : strings' = strings) (sameOpened : opened' = opened) (sameClosed : closed' = closed) :
    Lexed more strings' opened' closed' := by
  subst sameText sameStrings sameOpened sameClosed
  exact lexed

mutual

/-- A text begins one string for each string of its value, and opens and closes one
pair of braces for each object. -/
theorem ValueText.lexed {value : Json} {text : List Char} (spelled : ValueText value text) :
    Lexed text (value.weight 1 0) (value.weight 0 1) (value.weight 0 1) := by
  cases spelled with
  | null => exact Plain.lexed (plain_of_all (by decide))
  | true => exact Plain.lexed (plain_of_all (by decide))
  | false => exact Plain.lexed (plain_of_all (by decide))
  | number spelled => exact spelled.plain.lexed
  | string spelled => exact spelled.lexed
  | array inner =>
      have brackets := ((lexed_plain_char (c := '[') (by decide)).append inner.lexed).append
        (lexed_plain_char (c := ']') (by decide))
      refine brackets.of_eq rfl ?_ ?_ ?_ <;> simp [Json.weight]
  | object inner =>
      have braces := (lexed_opening.append inner.lexed).append lexed_closing
      refine braces.of_eq rfl ?_ ?_ ?_ <;> simp [Json.weight, Nat.add_comm]

theorem ItemsText.lexed {items : List Json} {text : List Char} (spelled : ItemsText items text) :
    Lexed text (weightItems 1 0 items) (weightItems 0 1 items) (weightItems 0 1 items) := by
  cases spelled with
  | none blanks => exact blanks.plain.lexed
  | last left value right =>
      have item := (left.plain.lexed.append value.lexed).append right.plain.lexed
      refine item.of_eq rfl ?_ ?_ ?_ <;> simp [weightItems]
  | cons left value right some more =>
      have item := (left.plain.lexed.append value.lexed).append right.plain.lexed
      have all := item.append ((lexed_plain_char (c := ',') (by decide)).append more.lexed)
      refine all.of_eq rfl ?_ ?_ ?_ <;> simp [weightItems]

theorem FieldsText.lexed {fields : Dict} {text : List Char} (spelled : FieldsText fields text) :
    Lexed text (weightFields 1 0 fields) (weightFields 0 1 fields) (weightFields 0 1 fields) := by
  cases spelled with
  | none blanks => exact blanks.plain.lexed
  | last left named beforeColon afterColon value right =>
      have key := (left.plain.lexed.append named.lexed).append beforeColon.plain.lexed
      have item := (afterColon.plain.lexed.append value.lexed).append right.plain.lexed
      have all := key.append ((lexed_plain_char (c := ':') (by decide)).append item)
      refine all.of_eq rfl ?_ ?_ ?_ <;> simp [weightFields]
  | cons left named beforeColon afterColon value right some more =>
      have key := (left.plain.lexed.append named.lexed).append beforeColon.plain.lexed
      have item := (afterColon.plain.lexed.append value.lexed).append right.plain.lexed
      have later := item.append ((lexed_plain_char (c := ',') (by decide)).append more.lexed)
      have all := key.append ((lexed_plain_char (c := ':') (by decide)).append later)
      refine all.of_eq rfl ?_ ?_ ?_ <;> simp [weightFields, Nat.add_assoc]

end

theorem DocumentText.lexed {value : Json} (document : DocumentText value text) :
    Lexed text (value.weight 1 0) (value.weight 0 1) (value.weight 0 1) := by
  cases document with
  | around left inner right =>
      have all := (left.plain.lexed.append inner.lexed).append right.plain.lexed
      refine all.of_eq rfl ?_ ?_ ?_ <;> simp

end Lexed

/-! ## The parts of a text -/

section Parts

namespace Quoting

/-- The other side of a quote. -/
def flip : Quoting → Quoting
  | .outside => .inside
  | .inside => .outside
  | .escaped => .escaped

/-- A text that is read from both sides of a quote has no backslash: the two readings
take the same quotes for opposite ones. -/
theorem flip_reading {text : List Char} {q : Quoting} (begins : q ≠ .escaped) (accepted : Accepts q text)
    (flipped : Accepts q.flip text) :
    q.flip.after text = (q.after text).flip ∧
      occurs '"' q text + (if q = .inside then 1 else 0) =
        occurs '"' q.flip text + if q.after text = .inside then 1 else 0 := by
  induction text generalizing q with
  | nil => exact ⟨rfl, rfl⟩
  | cons c rest ih =>
      obtain ⟨outside, _, later⟩ := accepted
      obtain ⟨outside', _, later'⟩ := flipped
      have backslash : c ≠ '\\' := by
        cases q with
        | outside => exact outside rfl
        | inside => exact outside' rfl
        | escaped => exact absurd rfl begins
      have turns : q.flip.next c = (q.next c).flip ∧ q.next c ≠ .escaped := by
        cases q with
        | escaped => exact absurd rfl begins
        | outside | inside => by_cases quote : c = '"' <;> simp [next, flip, quote, backslash]
      rw [turns.1] at later'
      obtain ⟨ends, counts⟩ := ih turns.2 later later'
      refine ⟨by rw [after_cons, turns.1, ends, after_cons], ?_⟩
      rw [occurs, occurs, turns.1, after_cons]
      cases q with
      | escaped => exact absurd rfl begins
      | outside | inside =>
          by_cases quote : c = '"' <;> simp [next, flip, quote, backslash] at counts ⊢ <;> omega

/-- A string that was begun was counted. -/
theorem occurs_pos_of_inside {text : List Char} (inside : after .outside text ≠ .outside) :
    0 < occurs '"' .outside text := by
  induction text with
  | nil => exact absurd rfl inside
  | cons c rest ih =>
      by_cases quote : c = '"'
      · simp [occurs, quote]
      · have stays : next .outside c = .outside := if_neg quote
        rw [after_cons, stays] at inside
        rw [occurs, stays]
        exact Nat.add_pos_right _ (ih inside)

end Quoting

variable {inner before part after : List Char} {strings opened closed strings' opened' closed' : ℕ}

theorem Lexed.braces (lexed : Lexed inner strings opened closed) :
    Lexed ('{' :: (inner ++ ['}'])) strings (opened + 1) (closed + 1) :=
  ((lexed_opening.append lexed).append lexed_closing).of_eq rfl (by omega) (by omega) (by omega)

/-- A part of an object's text that a tokenizer gets through, too, has fewer strings,
opens fewer braces or closes fewer. -/
theorem Lexed.part_lt (lexed : Lexed inner strings opened closed)
    (read : Lexed part strings' opened' closed') (begins : ∀ c ∈ part.head?, c ∉ Quoting.escapeLetters)
    (split : '{' :: (inner ++ ['}']) = before ++ (part ++ after)) (proper : before ≠ [] ∨ after ≠ []) :
    strings' < strings ∨ opened' < opened + 1 ∨ closed' < closed + 1 := by
  have whole := lexed.braces
  rw [split] at whole
  have accepted := whole.accepted
  have counted := whole.strings
  have opens := whole.opened
  have closes := whole.closed
  simp only [Quoting.accepts_append, Quoting.occurs_append] at accepted counted opens closes
  obtain ⟨_, part_accepted, _⟩ := accepted
  cases state : Quoting.after .outside before with
  | escaped =>
      cases part with
      | nil =>
          have none : opened' = 0 := read.opened.symm
          omega
      | cons c rest =>
          rw [state] at part_accepted
          exact absurd (part_accepted.2.1 rfl) (begins c rfl)
  | inside =>
      rw [state] at part_accepted counted
      have same := (Quoting.flip_reading (by decide) read.accepted part_accepted).2
      rw [read.ends] at same
      have begun : 0 < Quoting.occurs '"' .outside before :=
        Quoting.occurs_pos_of_inside (by simp [state])
      have equal := read.strings
      simp [Quoting.flip] at same
      omega
  | outside =>
      rw [state, read.ends] at opens closes
      rw [read.opened] at opens
      rw [read.closed] at closes
      rcases proper with some | some
      · obtain ⟨c, rest, rfl⟩ := List.exists_cons_of_ne_nil some
        obtain rfl : '{' = c := (List.cons.inj split).1
        have first : 0 < Quoting.occurs '{' .outside ('{' :: rest) := by simp [Quoting.occurs]
        omega
      · obtain ⟨init, last, rfl⟩ := (List.eq_nil_or_concat after).resolve_left some
        have cut : ('{' :: inner) ++ ['}'] = (before ++ (part ++ init)) ++ [last] := by
          simpa using split
        obtain ⟨front, back⟩ := List.append_inj' cut rfl
        obtain rfl : '}' = last := (List.cons.inj back).1
        have outside : Quoting.after .outside ('{' :: inner) = .outside := lexed.ends
        rw [front, Quoting.after_append, state, Quoting.after_append, read.ends] at outside
        have final : 0 < Quoting.occurs '}' .outside (init ++ ['}']) := by
          rw [Quoting.occurs_append, outside]
          simp [Quoting.occurs]
        rw [List.concat_eq_append] at closes
        omega

end Parts

/-! ## The reader -/

section Reader

variable {ε : Type} {loads : String → Except ε Json}

/-- What `json.loads` reads is a JSON text of it. -/
def ReadsJson (loads : String → Except ε Json) : Prop :=
  ∀ text value, loads (String.ofList text) = .ok value →
    ∃ raw, DocumentText raw text ∧ value = raw.collapse

theorem weightFields_set (string object : ℕ) (d : Dict) (key : String) (value : Json) :
    weightFields string object (Dict.set d key value) ≤
      weightFields string object d + (string + value.weight string object) := by
  induction d with
  | nil => simp [Dict.set, weightFields]
  | cons field rest ih =>
      obtain ⟨k, v⟩ := field
      by_cases same : k = key
      · rw [Dict.set, if_pos same]
        simp only [weightFields]
        omega
      · rw [Dict.set, if_neg same]
        simp only [weightFields]
        omega

mutual

/-- Collapsing only drops strings and objects. -/
theorem weight_collapse_le (string object : ℕ) :
    ∀ value : Json, value.collapse.weight string object ≤ value.weight string object
  | .array items => by
      rw [Json.collapse, Json.weight, Json.weight]
      exact weightItems_collapse_le string object items
  | .object fields => by
      have dropped := weightFields_collapse_le string object fields []
      rw [Json.collapse, Json.weight, Json.weight]
      simp only [weightFields] at dropped
      omega
  | .null | .bool _ | .number _ | .string _ => by simp [Json.collapse]

theorem weightItems_collapse_le (string object : ℕ) : ∀ items : List Json,
    weightItems string object (collapseItems items) ≤ weightItems string object items
  | [] => by simp [collapseItems]
  | item :: items => by
      have first := weight_collapse_le string object item
      have rest := weightItems_collapse_le string object items
      simp only [collapseItems, weightItems]
      omega

theorem weightFields_collapse_le (string object : ℕ) : ∀ fields read : Dict,
    weightFields string object (collapseFields fields read) ≤
      weightFields string object read + weightFields string object fields
  | [], read => by simp [collapseFields, weightFields]
  | (key, item) :: fields, read => by
      have first := weight_collapse_le string object item
      have entered := weightFields_set string object read key item.collapse
      have rest := weightFields_collapse_le string object fields (Dict.set read key item.collapse)
      simp only [collapseFields, weightFields]
      omega

end

theorem object_starts {d : Dict} {text : List Char} (spelled : ValueText (.object d) text) :
    ∃ inner, text = '{' :: (inner ++ ['}']) := by
  cases spelled with
  | object inner => exact ⟨_, rfl⟩

theorem blank_head {c : Char} {text : List Char} (blank : Blank (c :: text)) :
    c ≠ '{' ∧ c ∉ Quoting.escapeLetters := by
  have here := blank c List.mem_cons_self
  simp only [List.mem_cons, List.not_mem_nil, or_false] at here
  rcases here with rfl | rfl | rfl | rfl <;> decide

theorem ValueText.object_of_brace {value : Json} {rest : List Char}
    (spelled : ValueText value ('{' :: rest)) : ∃ d, value = .object d := by
  generalize same : '{' :: rest = text at spelled
  cases spelled with
  | null | true | false | array inner => cases same
  | number spelled =>
      have brace := spelled.plain '{' (by rw [← same]; exact List.mem_cons_self)
      exact absurd (by decide) brace
  | string spelled =>
      cases spelled with
      | quoted inner => cases same
  | object inner => exact ⟨_, rfl⟩

/-- What starts with a brace is read as an object. -/
theorem reads_object (reads : ReadsJson loads) {rest : List Char} {value : Json}
    (read : loads (String.ofList ('{' :: rest)) = .ok value) : ∃ d, value = .object d := by
  obtain ⟨raw, document, rfl⟩ := reads _ _ read
  generalize whole : '{' :: rest = text at document
  cases document with
  | @around before inner after left spelled right =>
      match before, inner, after with
      | c :: _, _, _ => exact absurd (List.cons.inj whole).1.symm (blank_head left).1
      | [], [], c :: _ => exact absurd (List.cons.inj whole).1.symm (blank_head right).1
      | [], [], [] => cases whole
      | [], c :: more, _ =>
          obtain rfl : '{' = c := (List.cons.inj whole).1
          obtain ⟨d, rfl⟩ := spelled.object_of_brace
          exact ⟨_, by rw [Json.collapse]⟩

theorem collapse_object {raw : Json} {d : Dict} (same : .object d = raw.collapse) :
    ∃ fields, raw = .object fields := by
  cases raw with
  | object fields => exact ⟨fields, rfl⟩
  | null | bool value | number value | string value | array items =>
      rw [Json.collapse] at same
      cases same

/-- A document of an object starts with a brace or a blank. -/
theorem DocumentText.begins {fields : Dict} {text : List Char} (document : DocumentText (.object fields) text) :
    ∀ c ∈ text.head?, c ∉ Quoting.escapeLetters := by
  cases document with
  | @around before inner after left spelled right =>
      intro c first
      cases before with
      | nil =>
          obtain ⟨rest, rfl⟩ := object_starts spelled
          obtain rfl : '{' = c := by simpa using first
          decide
      | cons d more =>
          obtain rfl : d = c := by simpa using first
          exact (blank_head left).2

/-- **No proper part of an object's text is read as the object.** -/
theorem part_reads_other (reads : ReadsJson loads) {d : Dict} {text part : List Char}
    (spelled : ValueText (.object d) text) (within : part <:+: text) (proper : part ≠ text) :
    loads (String.ofList part) ≠ .ok (.object d) := by
  intro read
  obtain ⟨before, after, split⟩ := within
  obtain ⟨raw, document, same⟩ := reads _ _ read
  have strings := weight_collapse_le 1 0 raw
  have objects := weight_collapse_le 0 1 raw
  rw [← same] at strings objects
  have cut : before ≠ [] ∨ after ≠ [] := by
    by_contra none
    push Not at none
    rw [none.1, none.2, List.nil_append, List.append_nil] at split
    exact proper split
  obtain ⟨fields, rfl⟩ := collapse_object same
  cases spelled with
  | object inner =>
      have fewer := inner.lexed.part_lt document.lexed document.begins
        (by rw [← List.append_assoc, split]) cut
      simp only [Json.weight] at strings objects fewer
      omega

end Reader

end InferenceForge.Python
