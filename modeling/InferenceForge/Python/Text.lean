/-
# InferenceForge.Python.Text — the `str` operations the program uses

`str.isspace`, `str.strip`, `str.split` without a separator, and the conversion
`float(s)`, on the characters of the text. `float` accepts what Python accepts:
surrounding whitespace, a sign, `inf`, `infinity` and `nan` in any case, decimal
digits of any script, and underscores between digits. Its whitespace is not quite
that of `str.strip`: among the ASCII characters only those of C's `isspace` are.
A decimal beyond the range of a double is read as an infinity; otherwise its
value is exact.
-/
import InferenceForge.Python.Json
import Mathlib.Data.List.DropRight
import Mathlib.Data.List.Basic

namespace InferenceForge.Python

set_option autoImplicit false

/-- `c.isspace()`. -/
def isSpace (c : Char) : Bool :=
  let n := c.toNat
  (0x9 ≤ n && n ≤ 0xd) || (0x1c ≤ n && n ≤ 0x20) || n == 0x85 || n == 0xa0 || n == 0x1680 ||
    (0x2000 ≤ n && n ≤ 0x200a) || n == 0x2028 || n == 0x2029 || n == 0x202f || n == 0x205f ||
    n == 0x3000

/-- `text.strip()`. -/
def strip (text : List Char) : List Char := (text.dropWhile isSpace).rdropWhile isSpace

/-- `text.split()`. -/
def split (text : List Char) : List (List Char) :=
  (text.splitOnP isSpace).filter fun word => !word.isEmpty

/-! ## `float(text)` -/

/-- The zeros of the decimal digits of Unicode; nine digits follow each. -/
def decimalZeros : List ℕ :=
  [0x30, 0x660, 0x6f0, 0x7c0, 0x966, 0x9e6, 0xa66, 0xae6, 0xb66, 0xbe6, 0xc66, 0xce6, 0xd66, 0xde6,
    0xe50, 0xed0, 0xf20, 0x1040, 0x1090, 0x17e0, 0x1810, 0x1946, 0x19d0, 0x1a80, 0x1a90, 0x1b50,
    0x1bb0, 0x1c40, 0x1c50, 0xa620, 0xa8d0, 0xa900, 0xa9d0, 0xa9f0, 0xaa50, 0xabf0, 0xff10, 0x104a0,
    0x10d30, 0x11066, 0x110f0, 0x11136, 0x111d0, 0x112f0, 0x11450, 0x114d0, 0x11650, 0x116c0,
    0x11730, 0x118e0, 0x11950, 0x11c50, 0x11d50, 0x11da0, 0x16a60, 0x16ac0, 0x16b50, 0x1d7ce,
    0x1d7d8, 0x1d7e2, 0x1d7ec, 0x1d7f6, 0x1e140, 0x1e2f0, 0x1e950, 0x1fbf0]

def decimalValue (c : Char) : Option ℕ :=
  (decimalZeros.find? fun first => first ≤ c.toNat && c.toNat < first + 10).map (c.toNat - ·)

/-- Drop the underscores; `none` when one does not stand between two digits. -/
def dropUnderscores : Bool → List Char → Option (List Char)
  | _, [] => some []
  | afterDigit, '_' :: rest =>
      if afterDigit && (rest.head?.bind decimalValue).isSome then dropUnderscores false rest else none
  | _, c :: rest => (dropUnderscores (decimalValue c).isSome rest).map (c :: ·)

/-- A run of digits: its value, its length and the rest of the text. -/
def digits : ℕ → ℕ → List Char → ℕ × ℕ × List Char
  | value, length, [] => (value, length, [])
  | value, length, c :: rest =>
      match decimalValue c with
      | some d => digits (10 * value + d) (length + 1) rest
      | none => (value, length, c :: rest)

/-- An optional sign: whether it is `-`, and the rest. -/
def sign : List Char → Bool × List Char
  | '-' :: rest => (true, rest)
  | '+' :: rest => (false, rest)
  | text => (false, text)

/-- The exponent part of a decimal, which ends the text. -/
def exponent : List Char → Option ℤ
  | [] => some 0
  | e :: rest =>
      if e = 'e' ∨ e = 'E' then
        let (negative, rest) := sign rest
        let (value, length, rest) := digits 0 0 rest
        if length = 0 ∨ rest ≠ [] then none
        else some (if negative then -(value : ℤ) else value)
      else none

/-- An unsigned decimal: digits with an optional fraction and exponent. -/
def decimal (text : List Char) : Option ℚ :=
  let (whole, wholeLength, rest) := digits 0 0 text
  let (mantissa, fractionLength, rest) :=
    match rest with
    | '.' :: rest => digits whole 0 rest
    | rest => (whole, 0, rest)
  if wholeLength + fractionLength = 0 then none
  else (exponent rest).map fun e : ℤ => (mantissa : ℚ) * 10 ^ (e - (fractionLength : ℤ))

/-- `2 ^ 1024 - 2 ^ 970`, by powers that are evaluated. -/
def doubleLimit : ℕ := (2 ^ 256) ^ 4 - (2 ^ 194) ^ 5

example : doubleLimit = 2 ^ 1024 - 2 ^ 970 := by rw [doubleLimit, ← pow_mul, ← pow_mul]

/-- The least value that rounds beyond the largest double. -/
def overflow : ℚ := doubleLimit

theorem lt_overflow {n : ℕ} (small : n < doubleLimit) : (n : ℚ) < overflow := Nat.cast_lt.mpr small

theorem overflow_pos : 0 < overflow := lt_overflow (n := 0) (by decide)

/-- `float(x)` raises an OverflowError: an `int` beyond the doubles, as no `float` is. -/
def Number.overflows : Number → Bool
  | .finite value => overflow ≤ value
  | _ => false

/-- The whitespace `float` ignores, which U+001C to U+001F are not. -/
def isFloatSpace (c : Char) : Bool := isSpace c && !(0x1c ≤ c.toNat && c.toNat ≤ 0x1f)

/-- An unsigned number. -/
def unsigned (text : List Char) : Option Number :=
  let lower := String.ofList (text.map Char.toLower)
  if lower = "inf" ∨ lower = "infinity" then some .inf
  else if lower = "nan" then some .nan
  else (decimal text).map fun value => if overflow ≤ value then .inf else .finite value

/-- `float(text)`; `none` where it raises a `ValueError`. -/
def float (text : List Char) : Option Number :=
  (dropUnderscores false ((text.dropWhile isFloatSpace).rdropWhile isFloatSpace)).bind fun text =>
    let (negative, rest) := sign text
    (unsigned rest).map fun value => if negative then value.scale (-1) else value

example : float " +Infinity ".toList = some .inf := by decide

example : float ['\x1c', 'i', 'n', 'f'] = none := by decide

end InferenceForge.Python
