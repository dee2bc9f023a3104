/-
# InferenceForge.Python.JsonLoads — `json.loads`

The decoder of `json.loads` for a text: `scanString`, `scanNumber` and `scanOnce` take
what they read off the front of the text and return what remains. `fuel` bounds the
nesting of the calls; the length of the text is always enough of it, since every call
reads a character. A text that is refused, where Python raises a `JSONDecodeError`, is
`none`; so is one with a surrogate that has no partner, which no `String` can hold.

What `json.dumps` writes is read back as it was, with `ensure_ascii` or without
(`loads_dumps`).
-/
import InferenceForge.Python.JsonDumps

namespace InferenceForge.Python.JsonDecoder

set_option autoImplicit false

/-- `WHITESPACE.match`. -/
def skipBlank (text : List Char) : List Char := text.dropWhile fun c => c ∈ [' ', '\t', '\n', '\r']

def expect (c : Char) : List Char → Option (List Char)
  | [] => none
  | d :: rest => if d = c then some rest else none

/-! ## Strings -/

/-- What follows a backslash and a `u`: the character and the rest of the text. -/
def scanCode : List Char → Option (Char × List Char)
  | h₁ :: h₂ :: h₃ :: h₄ :: rest =>
      (codeOf [h₁, h₂, h₃, h₄]).bind fun code =>
        if 0xd800 ≤ code ∧ code ≤ 0xdbff then
          match rest with
          | b :: u :: l₁ :: l₂ :: l₃ :: l₄ :: rest =>
              if b = '\\' ∧ u = 'u' then
                (codeOf [l₁, l₂, l₃, l₄]).bind fun low =>
                  if 0xdc00 ≤ low ∧ low ≤ 0xdfff then
                    some (Char.ofNat (0x10000 + (code - 0xd800) * 0x400 + (low - 0xdc00)), rest)
                  else none
              else none
          | _ => none
        else if 0xdc00 ≤ code ∧ code ≤ 0xdfff then none
        else some (Char.ofNat code, rest)
  | _ => none

/-- What follows a backslash. -/
def scanEscape : List Char → Option (Char × List Char)
  | [] => none
  | letter :: rest =>
      if letter = 'u' then scanCode rest else (List.lookup letter shortEscapes).map (·, rest)

/-- `py_scanstring`, behind the quote: the characters up to the closing quote. -/
def scanString : ℕ → List Char → Option (List Char × List Char)
  | 0, _ => none
  | _ + 1, [] => none
  | fuel + 1, c :: rest =>
      if c = '"' then some ([], rest)
      else if c = '\\' then do
        let (read, rest) ← scanEscape rest
        let (more, rest) ← scanString fuel rest
        return (read :: more, rest)
      else if c.toNat < 0x20 then none
      else do
        let (more, rest) ← scanString fuel rest
        return (c :: more, rest)

/-! ## Numbers -/

def isDigit (c : Char) : Bool := '0' ≤ c && c ≤ '9'

def scanWhole : List Char → Option (List Char × List Char)
  | [] => none
  | c :: rest =>
      if c = '0' then some (['0'], rest)
      else if isDigit c then some (c :: rest.takeWhile isDigit, rest.dropWhile isDigit)
      else none

def scanFraction : List Char → List Char × List Char
  | [] => ([], [])
  | c :: rest =>
      if c = '.' ∧ rest.takeWhile isDigit ≠ [] then (c :: rest.takeWhile isDigit, rest.dropWhile isDigit)
      else ([], c :: rest)

/-- An optional sign and the rest. -/
def scanSign (signs : List Char) : List Char → List Char × List Char
  | [] => ([], [])
  | c :: rest => if c ∈ signs then ([c], rest) else ([], c :: rest)

def scanPower : List Char → List Char × List Char
  | [] => ([], [])
  | e :: rest =>
      let (sign, digits) := scanSign ['+', '-'] rest
      if (e = 'e' ∨ e = 'E') ∧ digits.takeWhile isDigit ≠ [] then
        (e :: (sign ++ digits.takeWhile isDigit), digits.dropWhile isDigit)
      else ([], e :: rest)

/-- `_match_number`: an `int` without a fraction and an exponent, else a `float`. -/
def scanNumber (text : List Char) : Option (Number × List Char) := do
  let (minus, rest) := scanSign ['-'] text
  let (whole, rest) ← scanWhole rest
  let (fraction, rest) := scanFraction rest
  let (power, rest) := scanPower rest
  if fraction = [] ∧ power = [] then return (.finite (intValue minus whole), rest)
  let value ← float (minus ++ whole ++ fraction ++ power)
  return (value, rest)

def constants : List (List Char × Json) :=
  [("null".toList, .null), ("true".toList, .bool true), ("false".toList, .bool false), ("NaN".toList, .number .nan),
    ("Infinity".toList, .number .inf), ("-Infinity".toList, .number .negInf)]

def scanConstant (text : List Char) : Option (Json × List Char) :=
  constants.findSome? fun (word, value) =>
    if word.isPrefixOf text then some (value, text.drop word.length) else none

/-! ## Values -/

mutual

/-- `scan_once`. -/
def scanOnce : ℕ → List Char → Option (Json × List Char)
  | 0, _ => none
  | _ + 1, [] => none
  | fuel + 1, c :: rest =>
      if c = '"' then do
        let (value, rest) ← scanString fuel rest
        return (.string (String.ofList value), rest)
      else if c = '{' then
        match expect '}' (skipBlank rest) with
        | some rest => some (.object [], rest)
        | none => do
            let (pairs, rest) ← scanMembers fuel (skipBlank rest)
            -- `dict(pairs)`
            return (.object (pairs.foldl (fun d pair => Dict.set d pair.1 pair.2) []), rest)
      else if c = '[' then
        match expect ']' (skipBlank rest) with
        | some rest => some (.array [], rest)
        | none => do
            let (items, rest) ← scanItems fuel (skipBlank rest)
            return (.array items, rest)
      else
        match scanConstant (c :: rest) with
        | some read => some read
        | none => do
            let (value, rest) ← scanNumber (c :: rest)
            return (.number value, rest)

/-- The items of a list, behind its bracket. -/
def scanItems : ℕ → List Char → Option (List Json × List Char)
  | 0, _ => none
  | fuel + 1, text => do
      let (item, rest) ← scanOnce fuel text
      match skipBlank rest with
      | [] => none
      | c :: rest =>
          if c = ']' then return ([item], rest)
          else if c = ',' then do
            let (items, rest) ← scanItems fuel (skipBlank rest)
            return (item :: items, rest)
          else none

/-- A key of a dict and its value. -/
def scanField : ℕ → List Char → Option ((String × Json) × List Char)
  | 0, _ => none
  | fuel + 1, text => do
      let rest ← expect '"' text
      let (key, rest) ← scanString fuel rest
      let rest ← expect ':' (skipBlank rest)
      let (item, rest) ← scanOnce fuel (skipBlank rest)
      return ((String.ofList key, item), rest)

/-- The fields of a dict, behind its brace. -/
def scanMembers : ℕ → List Char → Option (Dict × List Char)
  | 0, _ => none
  | fuel + 1, text => do
      let (field, rest) ← scanField fuel text
      match skipBlank rest with
      | [] => none
      | c :: rest =>
          if c = '}' then return ([field], rest)
          else if c = ',' then do
            let (fields, rest) ← scanMembers fuel (skipBlank rest)
            return (field :: fields, rest)
          else none

end

/-- `json.loads`: one value, with blanks around it. -/
def loads (text : List Char) : Option Json := do
  let (value, rest) ← scanOnce (text.length + 1) (skipBlank text)
  if skipBlank rest = [] then return value
  none

/-! ## What is written is read back -/

theorem skipBlank_of_ne {c : Char} {rest : List Char} (solid : c ∉ [' ', '\t', '\n', '\r']) :
    skipBlank (c :: rest) = c :: rest :=
  List.dropWhile_cons_of_neg (by simpa using solid)

@[simp] theorem expect_self (c : Char) (rest : List Char) : expect c (c :: rest) = some rest := if_pos rfl

/-! ### Strings -/

theorem hexDigit_hexChar {n : ℕ} (lt : n < 16) : hexDigit (hexChar n) = some n := by
  have all : ∀ n < 16, hexDigit (hexChar n) = some n := by decide
  exact all n lt

theorem codeOf_hex4 {code : ℕ} (lt : code < 0x10000) : codeOf (hex4 code) = some code := by
  have digit : ∀ n, hexDigit (hexChar (n % 16)) = some (n % 16) := fun n => hexDigit_hexChar (Nat.mod_lt _ (by omega))
  simp only [hex4, codeOf, digit, Option.bind_eq_bind, Option.bind_some, Option.pure_def, Option.some.injEq]
  omega

theorem toNat_valid (c : Char) : c.toNat < 0xd800 ∨ 0xdfff < c.toNat ∧ c.toNat < 0x110000 := c.valid

theorem scanCode_basic {code : ℕ} (text : List Char) (basic : code < 0xd800 ∨ 0xdfff < code) (lt : code < 0x10000) :
    scanCode (hex4 code ++ text) = some (Char.ofNat code, text) := by
  have read := codeOf_hex4 lt
  have whole : ¬ (0xd800 ≤ code ∧ code ≤ 0xdbff) := by omega
  have whole' : ¬ (0xdc00 ≤ code ∧ code ≤ 0xdfff) := by omega
  simp only [hex4, List.cons_append, List.nil_append, scanCode] at read ⊢
  rw [read, Option.bind_some, if_neg whole, if_neg whole']

theorem scanCode_pair {high low : ℕ} (text : List Char) (high_lt : high < 0x400) (low_lt : low < 0x400) :
    scanCode (hex4 (0xd800 + high) ++ (codeEscape (0xdc00 + low) ++ text)) =
      some (Char.ofNat (0x10000 + high * 0x400 + low), text) := by
  have first := codeOf_hex4 (show 0xd800 + high < 0x10000 by omega)
  have second := codeOf_hex4 (show 0xdc00 + low < 0x10000 by omega)
  have isHigh : 0xd800 ≤ 0xd800 + high ∧ 0xd800 + high ≤ 0xdbff := by omega
  have isLow : 0xdc00 ≤ 0xdc00 + low ∧ 0xdc00 + low ≤ 0xdfff := by omega
  simp only [codeEscape, hex4, List.cons_append, List.nil_append, scanCode] at first second ⊢
  rw [first, Option.bind_some, if_pos isHigh]
  simp only [and_self, if_true]
  rw [second, Option.bind_some, if_pos isLow, Nat.add_sub_cancel_left, Nat.add_sub_cancel_left]

/-- The short escapes are read as they were written. -/
theorem lookup_escape {c letter : Char} (found : List.lookup c escapeDct = some letter) :
    letter ≠ 'u' ∧ List.lookup letter shortEscapes = some c := by
  have all : ∀ entry ∈ escapeDct, entry.2 ≠ 'u' ∧ List.lookup entry.2 shortEscapes = some entry.1 := by decide
  exact all _ (lookup_mem found)

theorem unescaped {c : Char} (absent : List.lookup c escapeDct = none) : c ≠ '"' ∧ c ≠ '\\' := by
  constructor <;> (rintro rfl; revert absent; decide)

section Strings

variable {ensureAscii : Bool}

/-- A character is read off the front. -/
theorem scanString_char (fuel : ℕ) (c : Char) (text : List Char) :
    scanString (fuel + 1) (encodeChar ensureAscii c ++ text) =
      (scanString fuel text).map fun read => (c :: read.1, read.2) := by
  have escaped : ∀ body, scanEscape body = some (c, text) →
      scanString (fuel + 1) ('\\' :: body) = (scanString fuel text).map fun read => (c :: read.1, read.2) := by
    intro body read
    rw [scanString, if_neg (by decide), if_pos rfl, read]
    show (scanString fuel text).bind _ = _
    cases scanString fuel text <;> rfl
  unfold encodeChar
  split
  · next letter found =>
      obtain ⟨other, back⟩ := lookup_escape found
      apply escaped (letter :: text)
      rw [scanEscape, if_neg other, back]
      rfl
  · next absent =>
      obtain ⟨quote, backslash⟩ := unescaped absent
      split_ifs with verbatim plane
      · have printable : ¬ c.toNat < 0x20 := by have := verbatim.1; omega
        rw [List.singleton_append, scanString, if_neg quote, if_neg backslash, if_neg printable]
        cases scanString fuel text <;> rfl
      · apply escaped
        show scanCode (hex4 c.toNat ++ text) = some (c, text)
        have valid := toNat_valid c
        rw [scanCode_basic text (by omega) plane, Char.ofNat_toNat]
      · apply escaped
        have valid := toNat_valid c
        have high : (c.toNat - 0x10000) / 0x400 < 0x400 := by omega
        have low : (c.toNat - 0x10000) % 0x400 < 0x400 := by omega
        show scanCode (hex4 _ ++ codeEscape _ ++ text) = some (c, text)
        rw [List.append_assoc, scanCode_pair text high low]
        have back : 0x10000 + (c.toNat - 0x10000) / 0x400 * 0x400 + (c.toNat - 0x10000) % 0x400 = c.toNat := by omega
        rw [back, Char.ofNat_toNat]

theorem scanString_encode (ensureAscii : Bool) {fuel : ℕ} {value : List Char} (rest : List Char) (enough : value.length < fuel) :
    scanString fuel (value.flatMap (encodeChar ensureAscii) ++ '"' :: rest) = some (value, rest) := by
  induction value generalizing fuel with
  | nil =>
      obtain ⟨fuel, rfl⟩ := Nat.exists_eq_succ_of_ne_zero (Nat.ne_of_gt enough)
      rfl
  | cons c value ih =>
      obtain ⟨fuel, rfl⟩ := Nat.exists_eq_succ_of_ne_zero (Nat.ne_of_gt (Nat.zero_lt_of_lt enough))
      rw [List.length_cons] at enough
      rw [List.flatMap_cons, List.append_assoc, scanString_char, ih (by omega)]
      rfl

theorem one_le_encodeChar (ensureAscii : Bool) (c : Char) : 1 ≤ (encodeChar ensureAscii c).length := by
  unfold encodeChar
  split
  · simp
  · split_ifs <;> simp [codeEscape]

theorem length_le_encode (ensureAscii : Bool) (value : List Char) :
    value.length ≤ (value.flatMap (encodeChar ensureAscii)).length := by
  induction value with
  | nil => simp
  | cons c value ih =>
      have here := one_le_encodeChar ensureAscii c
      rw [List.flatMap_cons, List.length_append, List.length_cons]
      omega

theorem length_le_encodeString (ensureAscii : Bool) (s : String) :
    s.toList.length + 2 ≤ (encodeString ensureAscii s).length := by
  have short := length_le_encode ensureAscii s.toList
  rw [encodeString, List.length_cons, List.length_append, List.length_singleton]
  omega

end Strings

/-! ### Numbers -/

/-- The text does not go on with a character of `chars`. -/
def Stops (chars : Char → Prop) (rest : List Char) : Prop := ∀ c ∈ rest.head?, ¬ chars c

/-- What can follow a value: the end, a comma or a closing bracket. -/
def Ends (rest : List Char) : Prop := ∀ c ∈ rest.head?, c ∈ [',', ']', '}']

/-- The characters a number can go on with. -/
def GoesOn (c : Char) : Prop := isDigit c = true ∨ c = '.' ∨ c = 'e' ∨ c = 'E'

section Numbers

variable {text rest minus whole fraction power : List Char}

theorem Stops.mono {P Q : Char → Prop} (stops : Stops P rest) (weaker : ∀ c, Q c → P c) : Stops Q rest :=
  fun c first here => stops c first (weaker c here)

theorem Ends.stops (ends : Ends rest) : Stops GoesOn rest := by
  intro c first
  have closing := ends c first
  simp only [List.mem_cons, List.not_mem_nil, or_false] at closing
  rcases closing with rfl | rfl | rfl <;> simp [GoesOn, isDigit]

theorem isDigit_of_digits (digits : Digits text) : ∀ c ∈ text, isDigit c = true := by
  intro c member
  simpa [isDigit] using digits.2 c member

theorem span_digits (run : ∀ c ∈ text, isDigit c = true) (stops : Stops (isDigit · = true) rest) :
    (text ++ rest).takeWhile isDigit = text ∧ (text ++ rest).dropWhile isDigit = rest := by
  have next : rest.takeWhile isDigit = [] ∧ rest.dropWhile isDigit = rest := by
    cases rest with
    | nil => exact ⟨rfl, rfl⟩
    | cons c rest =>
        have stop := stops c rfl
        exact ⟨List.takeWhile_cons_of_neg stop, List.dropWhile_cons_of_neg stop⟩
  rw [List.takeWhile_append_of_pos run, List.dropWhile_append_of_pos run, next.1, next.2, List.append_nil]
  exact ⟨rfl, rfl⟩

theorem scanWhole_text (integer : WholeText minus whole) (stops : Stops (isDigit · = true) rest) :
    scanWhole (whole ++ rest) = some (whole, rest) := by
  have run := isDigit_of_digits integer.digits
  cases whole with
  | nil => exact absurd rfl integer.digits.1
  | cons c whole =>
      by_cases zero : c = '0'
      · have alone := integer.leading (congrArg some zero)
        obtain ⟨rfl, rfl⟩ : c = '0' ∧ whole = [] := by simpa using alone
        rfl
      · obtain ⟨taken, dropped⟩ := span_digits (fun d member => run d (List.mem_cons_of_mem c member)) stops
        rw [List.cons_append, scanWhole, if_neg zero, if_pos (run c List.mem_cons_self), taken, dropped]

theorem scanSign_minus (integer : WholeText minus whole) : scanSign ['-'] (minus ++ whole ++ rest) = (minus, whole ++ rest) := by
  rcases integer.sign with rfl | rfl
  · cases whole with
    | nil => exact absurd rfl integer.digits.1
    | cons c whole =>
        have digit := isDigit_of_digits integer.digits c List.mem_cons_self
        have other : c ∉ ['-'] := by
          rw [List.mem_singleton]
          rintro rfl
          cases digit
        exact if_neg other
  · rfl

theorem scanFraction_text (point : FractionText fraction) (stops : Stops (fun c => isDigit c = true ∨ c = '.') rest) :
    scanFraction (fraction ++ rest) = (fraction, rest) := by
  rcases point with rfl | ⟨digits, run, rfl⟩
  · cases rest with
    | nil => rfl
    | cons c rest =>
        have other : c ≠ '.' := fun same => stops c rfl (.inr same)
        simp [scanFraction, other]
  · obtain ⟨taken, dropped⟩ := span_digits (isDigit_of_digits run) (stops.mono fun c => .inl)
    rw [List.cons_append, scanFraction, taken, dropped, if_pos ⟨rfl, run.1⟩]

theorem scanPower_text (exponent : PowerText power) (stops : Stops GoesOn rest) :
    scanPower (power ++ rest) = (power, rest) := by
  rcases exponent with rfl | ⟨e, sign, digits, letter, signed, run, rfl⟩
  · cases rest with
    | nil => rfl
    | cons c rest =>
        have other : ¬ (c = 'e' ∨ c = 'E') := fun same => stops c rfl (.inr (.inr same))
        simp [scanPower, other]
  · obtain ⟨taken, dropped⟩ := span_digits (isDigit_of_digits run) (stops.mono fun c => .inl)
    have read : scanSign ['+', '-'] (sign ++ digits ++ rest) = (sign, digits ++ rest) := by
      rcases signed with rfl | rfl | rfl
      · cases digits with
        | nil => exact absurd rfl run.1
        | cons c digits =>
            have digit := isDigit_of_digits run c List.mem_cons_self
            have other : c ∉ ['+', '-'] := by
              simp only [List.mem_cons, List.not_mem_nil, or_false]
              rintro (rfl | rfl) <;> cases digit
            exact if_neg other
      · rfl
      · rfl
    rw [List.cons_append, scanPower, read]
    simp only [taken, dropped]
    rw [if_pos ⟨letter, run.1⟩]

/-- A fraction or an exponent does not begin with a digit. -/
theorem stops_power (exponent : PowerText power) (stops : Stops GoesOn rest) :
    Stops (fun c => isDigit c = true ∨ c = '.') (power ++ rest) := by
  rcases exponent with rfl | ⟨e, sign, digits, letter, _, _, rfl⟩
  · exact stops.mono fun c => Or.imp_right .inl
  · intro c first
    obtain rfl : e = c := by simpa using first
    rcases letter with rfl | rfl <;> simp [isDigit]

theorem stops_fraction (point : FractionText fraction) (stops : Stops (isDigit · = true) rest) :
    Stops (isDigit · = true) (fraction ++ rest) := by
  rcases point with rfl | ⟨digits, _, rfl⟩
  · exact stops
  · intro c first
    obtain rfl : '.' = c := by simpa using first
    simp [isDigit]

/-- The parts of a number are read off. -/
theorem scanNumber_parts (integer : WholeText minus whole) (point : FractionText fraction)
    (exponent : PowerText power) (ends : Ends rest) :
    scanNumber (minus ++ whole ++ fraction ++ power ++ rest) =
      if fraction = [] ∧ power = [] then some (.finite (intValue minus whole), rest)
      else (float (minus ++ whole ++ fraction ++ power)).map (·, rest) := by
  have afterPower := ends.stops
  have afterFraction := stops_power exponent afterPower
  have afterWhole := stops_fraction point (afterFraction.mono fun c => Or.inl)
  rw [List.append_assoc, List.append_assoc, scanNumber, scanSign_minus integer]
  simp only [scanWhole_text integer afterWhole, Option.bind_eq_bind, Option.bind_some,
    scanFraction_text point afterFraction, scanPower_text exponent afterPower]
  split
  · rfl
  · simp only [List.append_assoc]
    cases float (minus ++ (whole ++ (fraction ++ power))) <;> rfl

/-- A number is none of the constants. -/
theorem scanConstant_number (integer : WholeText minus whole) (after : List Char) :
    scanConstant (minus ++ whole ++ after) = none := by
  obtain ⟨c, whole, rfl⟩ := List.exists_cons_of_ne_nil integer.digits.1
  have digit := isDigit_of_digits integer.digits c List.mem_cons_self
  have letters : ∀ letter ∈ ['n', 't', 'f', 'N', 'I', '-'], letter ≠ c := by
    rintro letter member rfl
    have none : ['n', 't', 'f', 'N', 'I', '-'].any isDigit = false := rfl
    exact List.any_eq_false.mp none letter member digit
  simp only [List.forall_mem_cons] at letters
  obtain ⟨n, t, f, N, I, m, _⟩ := letters
  rcases integer.sign with rfl | rfl
  · simp [scanConstant, constants, n, t, f, N, I, m]
  · simp [scanConstant, constants, I]

theorem scanOnce_number (integer : WholeText minus whole) (after : List Char) (fuel : ℕ) :
    scanOnce (fuel + 1) (minus ++ whole ++ after) =
      (scanNumber (minus ++ whole ++ after)).map fun read => (.number read.1, read.2) := by
  have plain := scanConstant_number integer after
  have first : ∀ c ∈ (minus ++ whole ++ after).head?, c ≠ '"' ∧ c ≠ '{' ∧ c ≠ '[' := by
    intro c first
    obtain ⟨d, whole, rfl⟩ := List.exists_cons_of_ne_nil integer.digits.1
    have digit := isDigit_of_digits integer.digits d List.mem_cons_self
    rcases integer.sign with rfl | rfl
    · obtain rfl : d = c := by simpa using first
      refine ⟨?_, ?_, ?_⟩ <;> (rintro rfl; cases digit)
    · obtain rfl : '-' = c := by simpa using first
      decide
  generalize minus ++ whole ++ after = text at plain first
  cases text with
  | nil => rfl
  | cons c text =>
      obtain ⟨quote, brace, bracket⟩ := first c rfl
      rw [scanOnce, if_neg quote, if_neg brace, if_neg bracket, plain]
      cases scanNumber (c :: text) <;> rfl

/-- A numeral is read as its number. -/
theorem scan_numeral {x : Number} (spelled : Numeral x text) (ends : Ends rest) (fuel : ℕ) :
    scanOnce (fuel + 1) (text ++ rest) = some (.number x, rest) := by
  cases spelled with
  | nan | inf | negInf => rfl
  | int integer =>
      have read := scanNumber_parts integer (.inl rfl) (.inl rfl) ends
      rw [List.append_nil, List.append_nil] at read
      rw [scanOnce_number integer rest, read]
      rfl
  | @float _ minus whole fraction power integer point exponent more reads =>
      have read := scanNumber_parts integer point exponent ends
      have real : ¬ (fraction = [] ∧ power = []) :=
        fun both => more.elim (fun some => some both.1) (fun some => some both.2)
      rw [if_neg real, reads] at read
      have once := scanOnce_number integer (fraction ++ (power ++ rest)) fuel
      simp only [← List.append_assoc] at once
      rw [once, read]
      rfl

end Numbers

/-! ### Values -/

theorem set_of_not_mem {d : Dict} {key : String} (value : Json) (absent : key ∉ d.map Prod.fst) :
    Dict.set d key value = d ++ [(key, value)] := by
  induction d with
  | nil => rfl
  | cons field rest ih =>
      obtain ⟨k, v⟩ := field
      rw [List.map_cons, List.mem_cons, not_or] at absent
      rw [Dict.set, if_neg (Ne.symm absent.1), ih absent.2]
      rfl

/-- `dict(pairs)` of pairs with different keys. -/
theorem foldl_set (read : Dict) {fields : Dict} (nodup : ((read ++ fields).map Prod.fst).Nodup) :
    fields.foldl (fun d field => Dict.set d field.1 field.2) read = read ++ fields := by
  induction fields generalizing read with
  | nil => rw [List.foldl_nil, List.append_nil]
  | cons field fields ih =>
      have absent : field.1 ∉ read.map Prod.fst := by
        rw [List.map_append, List.map_cons] at nodup
        have apart := (List.nodup_append.mp nodup).2.2
        intro member
        exact apart field.1 member field.1 List.mem_cons_self rfl
      have more : (read ++ [field]) ++ fields = read ++ field :: fields := by simp
      rw [List.foldl_cons, set_of_not_mem _ absent, ih _ (by rw [more]; exact nodup), more]

section Values

variable {ensureAscii : Bool} {numeral : Number → List Char}

/-- A character no value begins with. -/
def Starts (c : Char) : Prop := c ∉ [' ', '\t', '\n', '\r', ']', '}']

instance (c : Char) : Decidable (Starts c) := inferInstanceAs (Decidable (_ ∉ _))

theorem Starts.skip {c : Char} (starts : Starts c) (rest : List Char) : skipBlank (c :: rest) = c :: rest := by
  apply skipBlank_of_ne
  simp only [Starts, List.mem_cons, List.not_mem_nil, or_false, not_or] at starts ⊢
  exact ⟨starts.1, starts.2.1, starts.2.2.1, starts.2.2.2.1⟩

theorem starts_numeral {x : Number} {text : List Char} (spelled : Numeral x text) :
    ∃ c rest, text = c :: rest ∧ Starts c := by
  have begins : ∀ {minus whole : List Char}, WholeText minus whole →
      ∃ c rest, minus ++ whole = c :: rest ∧ Starts c := by
    intro minus whole integer
    obtain ⟨c, whole, rfl⟩ := List.exists_cons_of_ne_nil integer.digits.1
    rcases integer.sign with rfl | rfl
    · refine ⟨c, whole, rfl, fun blank => ?_⟩
      have digit := isDigit_of_digits integer.digits c List.mem_cons_self
      have none : [' ', '\t', '\n', '\r', ']', '}'].any isDigit = false := rfl
      exact List.any_eq_false.mp none c blank digit
    · exact ⟨'-', c :: whole, rfl, by decide⟩
  cases spelled with
  | nan => exact ⟨'N', _, rfl, by decide⟩
  | inf => exact ⟨'I', _, rfl, by decide⟩
  | negInf => exact ⟨'-', _, rfl, by decide⟩
  | int integer => exact begins integer
  | float integer point exponent more reads =>
      obtain ⟨c, rest, first, starts⟩ := begins integer
      rw [first]
      exact ⟨c, _, rfl, starts⟩

theorem starts_dumps (ensureAscii : Bool) {value : Json} (clean : value.Clean numeral) :
    ∃ c rest, dumps ensureAscii numeral value = c :: rest ∧ Starts c := by
  match value, clean with
  | .number x, clean =>
      rw [Json.Clean] at clean
      rw [dumps]
      exact starts_numeral clean
  | .null, _ => exact ⟨'n', _, by rw [dumps]; rfl, by decide⟩
  | .bool true, _ => exact ⟨'t', _, by rw [dumps]; rfl, by decide⟩
  | .bool false, _ => exact ⟨'f', _, by rw [dumps]; rfl, by decide⟩
  | .string s, _ => exact ⟨'"', _, by rw [dumps]; rfl, by decide⟩
  | .array items, _ => exact ⟨'[', _, by rw [dumps], by decide⟩
  | .object fields, _ => exact ⟨'{', _, by rw [dumps], by decide⟩

theorem starts_dumpItems (ensureAscii : Bool) {item : Json} {items : List Json} (clean : CleanItems numeral (item :: items)) :
    ∃ c rest, dumpItems ensureAscii numeral (item :: items) = c :: rest ∧ Starts c := by
  rw [CleanItems] at clean
  obtain ⟨c, rest, first, starts⟩ := starts_dumps ensureAscii clean.1
  rw [dumpItems, first]
  exact ⟨c, _, rfl, starts⟩

/-- A field, when its value is read. -/
theorem scan_field (ensureAscii : Bool) {key : String} {item : Json} {fuel : ℕ} {text after : List Char}
    (starts : ∃ c more, text = c :: more ∧ Starts c) (enough : key.toList.length < fuel)
    (read : scanOnce fuel (text ++ after) = some (item, after)) :
    scanField (fuel + 1) (encodeString ensureAscii key ++ (':' :: ' ' :: (text ++ after))) =
      some ((key, item), after) := by
  obtain ⟨c, more, first, starts⟩ := starts
  have skipped : skipBlank (' ' :: (text ++ after)) = text ++ after := by
    rw [first]
    exact starts.skip _
  have named := scanString_encode ensureAscii (':' :: ' ' :: (text ++ after)) enough
  rw [encodeString, List.cons_append, List.append_assoc, List.singleton_append, scanField, expect_self,
    Option.bind_eq_bind, Option.bind_some, named]
  show (scanOnce fuel (skipBlank (' ' :: _))).bind _ = _
  rw [skipped, read]
  show some ((String.ofList key.toList, item), after) = _
  rw [String.ofList_toList]

theorem ends_cons {c : Char} (rest : List Char) (closing : c ∈ [',', ']', '}']) : Ends (c :: rest) := by
  intro d first
  obtain rfl : c = d := by simpa using first
  exact closing

mutual

/-- A value is read off the front of its text. -/
theorem scan_dumps : ∀ {value : Json}, value.Clean numeral → ∀ (fuel : ℕ) (rest : List Char),
    (dumps ensureAscii numeral value).length ≤ fuel → Ends rest →
      scanOnce fuel (dumps ensureAscii numeral value ++ rest) = some (value, rest)
  | value, clean, 0, rest, enough, ends => by
      obtain ⟨c, more, first, _⟩ := starts_dumps ensureAscii clean
      rw [first] at enough
      simp at enough
  | .null, _, fuel + 1, rest, _, _ => by rw [dumps]; rfl
  | .bool true, _, fuel + 1, rest, _, _ => by rw [dumps]; rfl
  | .bool false, _, fuel + 1, rest, _, _ => by rw [dumps]; rfl
  | .number x, clean, fuel + 1, rest, _, ends => by
      rw [Json.Clean] at clean
      rw [dumps]
      exact scan_numeral clean ends fuel
  | .string s, _, fuel + 1, rest, enough, _ => by
      have short := length_le_encode ensureAscii s.toList
      rw [dumps, encodeString, List.length_cons, List.length_append, List.length_singleton] at enough
      rw [dumps, encodeString, List.cons_append, List.append_assoc, scanOnce, if_pos rfl, List.singleton_append,
        scanString_encode ensureAscii rest (by omega)]
      show some (Json.string (String.ofList s.toList), rest) = _
      rw [String.ofList_toList]
  | .array [], _, fuel + 1, rest, _, _ => by
      rw [dumps, dumpItems]
      rfl
  | .array (item :: items), clean, fuel + 1, rest, enough, _ => by
      rw [Json.Clean] at clean
      rw [dumps, List.length_cons, List.length_append, List.length_singleton] at enough
      have read := scan_dumpItems clean fuel rest (by omega)
      obtain ⟨c, more, first, starts⟩ := starts_dumpItems ensureAscii clean
      have inside : c ≠ ']' := fun same => starts (by simp [same])
      rw [first, List.cons_append] at read
      rw [dumps, first, List.cons_append, List.append_assoc, scanOnce, if_neg (by decide), if_neg (by decide), if_pos rfl,
        List.cons_append, List.singleton_append, starts.skip, expect, if_neg inside]
      simp only [read]
      rfl
  | .object [], _, fuel + 1, rest, _, _ => by
      rw [dumps, dumpFields]
      rfl
  | .object ((key, item) :: fields), clean, fuel + 1, rest, enough, _ => by
      rw [Json.Clean] at clean
      rw [dumps, List.length_cons, List.length_append, List.length_singleton] at enough
      have read := scan_dumpFields clean.2 fuel rest (by omega)
      rw [dumpFields, encodeString, List.cons_append, List.cons_append] at read
      rw [dumps, dumpFields, encodeString, List.cons_append, List.append_assoc, scanOnce, if_neg (by decide), if_pos rfl,
        List.cons_append, List.cons_append, List.singleton_append, skipBlank_of_ne (by decide), expect, if_neg (by decide)]
      simp only [read]
      show some (Json.object _, rest) = _
      rw [foldl_set [] clean.1]
      rfl

/-- So are the items of a list, with the bracket behind them. -/
theorem scan_dumpItems : ∀ {item : Json} {items : List Json}, CleanItems numeral (item :: items) →
    ∀ (fuel : ℕ) (rest : List Char), (dumpItems ensureAscii numeral (item :: items)).length < fuel →
      scanItems fuel (dumpItems ensureAscii numeral (item :: items) ++ ']' :: rest) = some (item :: items, rest)
  | item, [], clean, fuel + 1, rest, enough => by
      rw [CleanItems] at clean
      have whole : dumpItems ensureAscii numeral [item] = dumps ensureAscii numeral item := by
        rw [dumpItems, dumpItems]
        exact List.append_nil _
      rw [whole] at enough ⊢
      have read := scan_dumps clean.1 fuel (']' :: rest) (by omega) (ends_cons rest (by decide))
      rw [scanItems, read]
      rfl
  | item, next :: items, clean, fuel + 1, rest, enough => by
      rw [CleanItems] at clean
      have whole : dumpItems ensureAscii numeral (item :: next :: items) =
          dumps ensureAscii numeral item ++ (',' :: ' ' :: dumpItems ensureAscii numeral (next :: items)) := by
        rw [dumpItems]
        rfl
      rw [whole, List.length_append, List.length_cons, List.length_cons] at enough
      have read := scan_dumps clean.1 fuel (',' :: ' ' :: (dumpItems ensureAscii numeral (next :: items) ++ ']' :: rest))
        (by omega) (ends_cons _ (by decide))
      have others := scan_dumpItems clean.2 fuel rest (by omega)
      obtain ⟨c, more, first, starts⟩ := starts_dumpItems ensureAscii clean.2
      have skipped : skipBlank (' ' :: (dumpItems ensureAscii numeral (next :: items) ++ ']' :: rest)) =
          dumpItems ensureAscii numeral (next :: items) ++ ']' :: rest := by
        rw [first]
        exact starts.skip _
      rw [whole, List.append_assoc, List.cons_append, List.cons_append, scanItems, read]
      show (scanItems fuel (skipBlank (' ' :: _))).bind _ = _
      rw [skipped, others]
      rfl

/-- And those of a dict, with the brace. -/
theorem scan_dumpFields : ∀ {key : String} {item : Json} {fields : Dict}, CleanFields numeral ((key, item) :: fields) →
    ∀ (fuel : ℕ) (rest : List Char), (dumpFields ensureAscii numeral ((key, item) :: fields)).length < fuel →
      scanMembers fuel (dumpFields ensureAscii numeral ((key, item) :: fields) ++ '}' :: rest) =
        some ((key, item) :: fields, rest)
  | key, item, fields, clean, 1, rest, enough => by
      have short := length_le_encodeString ensureAscii key
      rw [dumpFields, List.length_append] at enough
      omega
  | key, item, [], clean, fuel + 2, rest, enough => by
      rw [CleanFields] at clean
      have whole : dumpFields ensureAscii numeral [(key, item)] =
          encodeString ensureAscii key ++ (':' :: ' ' :: dumps ensureAscii numeral item) := by
        rw [dumpFields, dumpFields, List.isEmpty_nil, if_pos rfl, List.append_nil, List.append_nil]
      have short := length_le_encodeString ensureAscii key
      rw [whole, List.length_append, List.length_cons, List.length_cons] at enough
      have read := scan_dumps clean.1 fuel ('}' :: rest) (by omega) (ends_cons rest (by decide))
      have field := scan_field ensureAscii (starts_dumps ensureAscii clean.1) (show key.toList.length < fuel by omega) read
      rw [whole, List.append_assoc, List.cons_append, List.cons_append, scanMembers, field]
      rfl
  | key, item, (next, value) :: fields, clean, fuel + 2, rest, enough => by
      rw [CleanFields] at clean
      have whole : dumpFields ensureAscii numeral ((key, item) :: (next, value) :: fields) =
          encodeString ensureAscii key ++ (':' :: ' ' :: (dumps ensureAscii numeral item ++
            (',' :: ' ' :: dumpFields ensureAscii numeral ((next, value) :: fields)))) := by
        rw [dumpFields]
        rfl
      have short := length_le_encodeString ensureAscii key
      rw [whole] at enough
      simp only [List.length_append, List.length_cons] at enough
      have read := scan_dumps clean.1 fuel
        (',' :: ' ' :: (dumpFields ensureAscii numeral ((next, value) :: fields) ++ '}' :: rest)) (by omega)
        (ends_cons _ (by decide))
      have field := scan_field ensureAscii (starts_dumps ensureAscii clean.1) (show key.toList.length < fuel by omega) read
      have others := scan_dumpFields clean.2 (fuel + 1) rest (by omega)
      have skipped : skipBlank (' ' :: (dumpFields ensureAscii numeral ((next, value) :: fields) ++ '}' :: rest)) =
          dumpFields ensureAscii numeral ((next, value) :: fields) ++ '}' :: rest := by
        rw [dumpFields, encodeString]
        rfl
      simp only [whole, List.append_assoc, List.cons_append] at field ⊢
      rw [scanMembers, field]
      show (scanMembers (fuel + 1) (skipBlank (' ' :: _))).bind _ = _
      rw [skipped, others]
      rfl

end

/-- **What `json.dumps` writes, `json.loads` reads.** -/
theorem loads_dumps (ensureAscii : Bool) {value : Json} (clean : value.Clean numeral) :
    loads (dumps ensureAscii numeral value) = some value := by
  obtain ⟨c, more, first, starts⟩ := starts_dumps ensureAscii clean
  have skipped : skipBlank (dumps ensureAscii numeral value) = dumps ensureAscii numeral value := by
    rw [first]
    exact starts.skip _
  have read := @scan_dumps ensureAscii _ _ clean ((dumps ensureAscii numeral value).length + 1) []
    (Nat.le_succ _) (by simp [Ends])
  rw [List.append_nil] at read
  rw [loads, skipped, read]
  rfl

end Values

end InferenceForge.Python.JsonDecoder
