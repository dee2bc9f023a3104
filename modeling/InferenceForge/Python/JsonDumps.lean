/-
# InferenceForge.Python.JsonDumps — `json.dumps`

The text `json.dumps` writes, with `ensure_ascii` or without: `", "` and `": "` between
the items, the escapes of `ESCAPE_DCT`, `\u` escapes for the other control characters
and, with `ensure_ascii`, for all that is not printable ASCII, above the basic plane as
a pair of surrogates. How a number is spelled (`int.__repr__`, `float.__repr__`) is a
parameter; a value is `Clean` when its numbers are spelled as JSON spells them, reading
back as they were, and no dict has a key twice.

No text has a control character in it (`dumps_printable`), so it is one line.
-/
import InferenceForge.Python.JsonText

namespace InferenceForge.Python

set_option autoImplicit false

/-! ## Strings -/

/-- `ESCAPE_DCT`, less the control characters it spells by their code. -/
def escapeDct : List (Char × Char) :=
  [('\\', '\\'), ('"', '"'), (Char.ofNat 8, 'b'), (Char.ofNat 12, 'f'), ('\n', 'n'), ('\r', 'r'), ('\t', 't')]

def hexChar (n : ℕ) : Char := if n < 10 then Char.ofNat (48 + n) else Char.ofNat (87 + n)

/-- `'{0:04x}'.format(code)`. -/
def hex4 (code : ℕ) : List Char :=
  [hexChar (code / 4096 % 16), hexChar (code / 256 % 16), hexChar (code / 16 % 16), hexChar (code % 16)]

/-- `'\\u{0:04x}'.format(code)`. -/
def codeEscape (code : ℕ) : List Char := '\\' :: 'u' :: hex4 code

/-- What `ESCAPE` and `ESCAPE_ASCII` leave as it is. -/
def Verbatim (ensureAscii : Bool) (c : Char) : Prop :=
  0x20 ≤ c.toNat ∧ (ensureAscii = true → c.toNat ≤ 0x7e)

instance (ensureAscii : Bool) (c : Char) : Decidable (Verbatim ensureAscii c) :=
  inferInstanceAs (Decidable (_ ∧ _))

def encodeChar (ensureAscii : Bool) (c : Char) : List Char :=
  match List.lookup c escapeDct with
  | some letter => ['\\', letter]
  | none =>
      if Verbatim ensureAscii c then [c]
      else if c.toNat < 0x10000 then codeEscape c.toNat
      else
        codeEscape (0xd800 + (c.toNat - 0x10000) / 0x400) ++ codeEscape (0xdc00 + (c.toNat - 0x10000) % 0x400)

/-- `py_encode_basestring` and `py_encode_basestring_ascii`. -/
def encodeString (ensureAscii : Bool) (s : String) : List Char :=
  '"' :: (s.toList.flatMap (encodeChar ensureAscii) ++ ['"'])

/-! ## Values -/

section Dumps

variable (ensureAscii : Bool) (numeral : Number → List Char)

mutual

/-- `json.dumps(value, ensure_ascii=ensureAscii)`. -/
def dumps : Json → List Char
  | .null => "null".toList
  | .bool true => "true".toList
  | .bool false => "false".toList
  | .number x => numeral x
  | .string s => encodeString ensureAscii s
  | .array items => '[' :: (dumpItems items ++ [']'])
  | .object fields => '{' :: (dumpFields fields ++ ['}'])

def dumpItems : List Json → List Char
  | [] => []
  | item :: items => dumps item ++ ((if items.isEmpty then [] else [',', ' ']) ++ dumpItems items)

def dumpFields : Dict → List Char
  | [] => []
  | (key, item) :: fields =>
      encodeString ensureAscii key ++
        (':' :: ' ' :: (dumps item ++ ((if fields.isEmpty then [] else [',', ' ']) ++ dumpFields fields)))

end

end Dumps

/-! ## What can be written -/

section Clean

variable (numeral : Number → List Char)

mutual

/-- A value `json.dumps` can be given: a dict has every key once. -/
def Json.Clean : Json → Prop
  | .number x => Numeral x (numeral x)
  | .array items => CleanItems items
  | .object fields => (fields.map Prod.fst).Nodup ∧ CleanFields fields
  | .null | .bool _ | .string _ => True

def CleanItems : List Json → Prop
  | [] => True
  | item :: items => item.Clean ∧ CleanItems items

def CleanFields : Dict → Prop
  | [] => True
  | (_, item) :: fields => item.Clean ∧ CleanFields fields

end

end Clean

/-! ## The characters of a text -/

/-- Not a control character and, if asked for, ASCII. -/
def Printable (ensureAscii : Bool) (text : List Char) : Prop := ∀ c ∈ text, Verbatim ensureAscii c

section Printable

variable {ensureAscii : Bool} {text more : List Char} {numeral : Number → List Char}

theorem Printable.append (printable : Printable ensureAscii text) (printable' : Printable ensureAscii more) :
    Printable ensureAscii (text ++ more) := by
  intro c member
  rcases List.mem_append.mp member with left | right
  · exact printable c left
  · exact printable' c right

theorem Printable.cons {c : Char} (first : Verbatim ensureAscii c) (printable : Printable ensureAscii text) :
    Printable ensureAscii (c :: text) := by
  intro d member
  rcases List.mem_cons.mp member with rfl | later
  · exact first
  · exact printable d later

theorem printable_nil : Printable ensureAscii [] := fun _ member => by cases member

theorem verbatim_of_ascii {c : Char} (low : 0x20 ≤ c.toNat) (high : c.toNat ≤ 0x7e) : Verbatim ensureAscii c :=
  ⟨low, fun _ => high⟩

/-- The texts of the program's own words. -/
theorem printable_of_all (all : text.all fun c => 0x20 ≤ c.toNat ∧ c.toNat ≤ 0x7e) : Printable ensureAscii text := by
  intro c member
  have ascii := List.all_eq_true.mp all c member
  simp only [decide_eq_true_eq] at ascii
  exact verbatim_of_ascii ascii.1 ascii.2

theorem hexChar_printable {n : ℕ} (lt : n < 16) : Verbatim ensureAscii (hexChar n) := by
  have all : ∀ n < 16, 0x20 ≤ (hexChar n).toNat ∧ (hexChar n).toNat ≤ 0x7e := by decide
  exact verbatim_of_ascii (all n lt).1 (all n lt).2

theorem codeEscape_printable (code : ℕ) : Printable ensureAscii (codeEscape code) := by
  have digit : ∀ n, Verbatim ensureAscii (hexChar (n % 16)) := fun n => hexChar_printable (Nat.mod_lt _ (by omega))
  refine .cons (verbatim_of_ascii (by decide) (by decide)) (.cons (verbatim_of_ascii (by decide) (by decide)) ?_)
  exact .cons (digit _) (.cons (digit _) (.cons (digit _) (.cons (digit _) printable_nil)))

theorem lookup_mem {α β : Type} [BEq α] [LawfulBEq α] {key : α} {value : β} {entries : List (α × β)}
    (found : List.lookup key entries = some value) : (key, value) ∈ entries := by
  induction entries with
  | nil => cases found
  | cons entry rest ih =>
      obtain ⟨k, v⟩ := entry
      rw [List.lookup_cons] at found
      split at found
      · next same =>
          cases found
          rw [eq_of_beq same]
          exact List.mem_cons_self
      · exact List.mem_cons_of_mem _ (ih found)

theorem encodeChar_printable (c : Char) : Printable ensureAscii (encodeChar ensureAscii c) := by
  unfold encodeChar
  split
  · next letter found =>
      have letters : ∀ entry ∈ escapeDct, 0x20 ≤ entry.2.toNat ∧ entry.2.toNat ≤ 0x7e := by decide
      obtain ⟨low, high⟩ := letters _ (lookup_mem found)
      exact .cons (verbatim_of_ascii (by decide) (by decide)) (.cons (verbatim_of_ascii low high) printable_nil)
  · split_ifs with verbatim plane
    · exact .cons verbatim printable_nil
    · exact codeEscape_printable _
    · exact (codeEscape_printable _).append (codeEscape_printable _)

theorem encodeString_printable (s : String) : Printable ensureAscii (encodeString ensureAscii s) := by
  have quote : Verbatim ensureAscii '"' := verbatim_of_ascii (by decide) (by decide)
  refine .cons quote (Printable.append ?_ (.cons quote printable_nil))
  intro d member
  obtain ⟨c, _, inside⟩ := List.mem_flatMap.mp member
  exact encodeChar_printable c d inside

theorem digits_printable (digits : Digits text) : Printable ensureAscii text := by
  intro c member
  obtain ⟨low, high⟩ := digits.2 c member
  have low : '0'.toNat ≤ c.toNat := low
  have high : c.toNat ≤ '9'.toNat := high
  exact verbatim_of_ascii (le_trans (by decide) low) (high.trans (by decide))

theorem WholeText.printable {minus whole : List Char} (integer : WholeText minus whole) :
    Printable ensureAscii (minus ++ whole) := by
  refine Printable.append ?_ (digits_printable integer.digits)
  rcases integer.sign with rfl | rfl
  · exact printable_nil
  · exact printable_of_all (by decide)

theorem FractionText.printable (point : FractionText text) : Printable ensureAscii text := by
  rcases point with rfl | ⟨digits, run, rfl⟩
  · exact printable_nil
  · exact .cons (verbatim_of_ascii (by decide) (by decide)) (digits_printable run)

theorem PowerText.printable (power : PowerText text) : Printable ensureAscii text := by
  rcases power with rfl | ⟨e, sign, digits, letter, signed, run, rfl⟩
  · exact printable_nil
  · have first : Verbatim ensureAscii e := by
      rcases letter with rfl | rfl <;> exact verbatim_of_ascii (by decide) (by decide)
    refine .cons first (Printable.append ?_ (digits_printable run))
    rcases signed with rfl | rfl | rfl
    · exact printable_nil
    · exact printable_of_all (by decide)
    · exact printable_of_all (by decide)

theorem Numeral.printable {x : Number} (spelled : Numeral x text) : Printable ensureAscii text := by
  cases spelled with
  | nan | inf | negInf => exact printable_of_all (by decide)
  | int integer => exact integer.printable
  | float integer point exponent more reads => exact (integer.printable.append point.printable).append exponent.printable

theorem separator_printable {α : Type} (rest : List α) :
    Printable ensureAscii (if rest.isEmpty then [] else [',', ' ']) := by
  split
  · exact printable_nil
  · exact printable_of_all (by decide)

mutual

/-- **A text is one line**: it has no control character in it, and with `ensure_ascii` it is
printable ASCII. -/
theorem dumps_printable : ∀ {value : Json}, value.Clean numeral → Printable ensureAscii (dumps ensureAscii numeral value)
  | .null, _ | .bool true, _ | .bool false, _ => by
      rw [dumps]
      exact printable_of_all (by decide)
  | .number x, clean => by
      rw [Json.Clean] at clean
      rw [dumps]
      exact clean.printable
  | .string s, _ => by
      rw [dumps]
      exact encodeString_printable s
  | .array items, clean => by
      rw [Json.Clean] at clean
      rw [dumps]
      exact .cons (verbatim_of_ascii (by decide) (by decide))
        ((dumpItems_printable clean).append (printable_of_all (by decide)))
  | .object fields, clean => by
      rw [Json.Clean] at clean
      rw [dumps]
      exact .cons (verbatim_of_ascii (by decide) (by decide))
        ((dumpFields_printable clean.2).append (printable_of_all (by decide)))

theorem dumpItems_printable : ∀ {items : List Json}, CleanItems numeral items →
    Printable ensureAscii (dumpItems ensureAscii numeral items)
  | [], _ => by
      rw [dumpItems]
      exact printable_nil
  | item :: items, clean => by
      rw [CleanItems] at clean
      rw [dumpItems]
      exact (dumps_printable clean.1).append ((separator_printable items).append (dumpItems_printable clean.2))

theorem dumpFields_printable : ∀ {fields : Dict}, CleanFields numeral fields →
    Printable ensureAscii (dumpFields ensureAscii numeral fields)
  | [], _ => by
      rw [dumpFields]
      exact printable_nil
  | (key, item) :: fields, clean => by
      rw [CleanFields] at clean
      rw [dumpFields]
      refine (encodeString_printable key).append ?_
      refine .cons (verbatim_of_ascii (by decide) (by decide)) (.cons (verbatim_of_ascii (by decide) (by decide)) ?_)
      exact (dumps_printable clean.1).append ((separator_printable fields).append (dumpFields_printable clean.2))

end

end Printable

end InferenceForge.Python
