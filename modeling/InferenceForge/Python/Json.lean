/-
# InferenceForge.Python.Json — JSON values as the program handles them

What `json.loads` returns, with the operations of Python the code applies to it:
truth, `dict.get`, `{**d, k: v}`, `d[k] = v`, dropping a key and `sum`. A dict
keeps the order of its keys, as Python's does.

Numbers are exact: a finite `float` or `int` is a rational, and `Infinity`,
`-Infinity` and `NaN` (which `json.loads` accepts) stand beside them. So there is
neither rounding nor overflow in what is computed: a sum of token counts, the cost
and the rates are the mathematical values. Only a single number is held against the
doubles: `float` reads a text beyond them as infinite, and the token counter refuses
an `int` beyond them (`Number.overflows`).
-/
import Mathlib.Data.Rat.Floor
import Mathlib.Algebra.Order.Ring.Rat
import Mathlib.Tactic.Linarith
import Mathlib.Tactic.Positivity
import Mathlib.Tactic.FieldSimp

namespace InferenceForge.Python

set_option autoImplicit false

/-! ## Numbers -/

inductive Number
  | finite (value : ℚ)
  | inf
  | negInf
  | nan
  deriving DecidableEq

namespace Number

def add : Number → Number → Number
  | .finite a, .finite b => .finite (a + b)
  | .nan, _ | _, .nan | .inf, .negInf | .negInf, .inf => .nan
  | .inf, _ | _, .inf => .inf
  | .negInf, _ | _, .negInf => .negInf

instance : Zero Number := ⟨.finite 0⟩

instance : Add Number := ⟨add⟩

/-- The order of a sum does not matter, with infinities and NaN among the summands. -/
instance : AddCommMonoid Number where
  add_assoc a b c := by
    change add (add a b) c = add a (add b c)
    cases a <;> cases b <;> cases c <;> simp [add, Rat.add_assoc]
  zero_add a := by
    change add (.finite 0) a = a
    cases a <;> simp [add]
  add_zero a := by
    change add a (.finite 0) = a
    cases a <;> simp [add]
  add_comm a b := by
    change add a b = add b a
    cases a <;> cases b <;> simp [add, Rat.add_comm]
  nsmul := nsmulRec

/-- `x * q` for a finite `q`. -/
def scale (q : ℚ) : Number → Number
  | .finite a => .finite (a * q)
  | .nan => .nan
  | .inf => if q = 0 then .nan else if 0 < q then .inf else .negInf
  | .negInf => if q = 0 then .nan else if 0 < q then .negInf else .inf

/-- `x < 0`. -/
def isNegative : Number → Bool
  | .finite a => a < 0
  | .negInf => true
  | .inf | .nan => false

end Number

/-- The integer nearest to `q`, the even one of two. -/
def roundHalfEven (q : ℚ) : ℤ :=
  let rest := q - ⌊q⌋
  if rest < 1 / 2 then ⌊q⌋
  else if 1 / 2 < rest then ⌊q⌋ + 1
  else if ⌊q⌋ % 2 = 0 then ⌊q⌋ else ⌊q⌋ + 1

theorem le_roundHalfEven {n : ℤ} {q : ℚ} (le : (n : ℚ) ≤ q) : n ≤ roundHalfEven q := by
  have floor : n ≤ ⌊q⌋ := Int.le_floor.mpr le
  unfold roundHalfEven
  dsimp only
  split_ifs <;> omega

theorem roundHalfEven_le {n : ℤ} {q : ℚ} (le : q ≤ n) : roundHalfEven q ≤ n := by
  rcases lt_or_eq_of_le le with lt | rfl
  · have floor : ⌊q⌋ < n := Int.floor_lt.mpr lt
    unfold roundHalfEven
    dsimp only
    split_ifs <;> omega
  · simp [roundHalfEven]

theorem roundHalfEven_mono {a b : ℚ} (le : a ≤ b) : roundHalfEven a ≤ roundHalfEven b := by
  rcases (Int.floor_mono le).lt_or_eq with lt | same
  · have below : a ≤ (⌊b⌋ : ℤ) := by
      have next : ((⌊a⌋ + 1 : ℤ) : ℚ) ≤ (⌊b⌋ : ℤ) := by exact_mod_cast lt
      have floor := Int.lt_floor_add_one a
      push_cast at next
      linarith
    exact (roundHalfEven_le below).trans (le_roundHalfEven (Int.floor_le b))
  · -- the rests are in the same order
    have rests : a - (⌊b⌋ : ℤ) ≤ b - (⌊b⌋ : ℤ) := by linarith
    unfold roundHalfEven
    dsimp only
    rw [same]
    split_ifs <;> first | omega | linarith

/-- `round(q, digits)`, of the number itself: it is not first rounded to the nearest double,
which makes a difference for exact ties only. -/
def round (digits : ℕ) (q : ℚ) : ℚ := roundHalfEven (q * 10 ^ digits) / 10 ^ digits

theorem round_nonneg {digits : ℕ} {q : ℚ} (nonneg : 0 ≤ q) : 0 ≤ round digits q := by
  have scaled : ((0 : ℤ) : ℚ) ≤ q * 10 ^ digits := by
    rw [Int.cast_zero]
    positivity
  have rounded : (0 : ℚ) ≤ roundHalfEven (q * 10 ^ digits) := by
    exact_mod_cast le_roundHalfEven scaled
  unfold round
  positivity

theorem round_le_one {digits : ℕ} {q : ℚ} (le : q ≤ 1) : round digits q ≤ 1 := by
  have power : (0 : ℚ) < 10 ^ digits := by positivity
  have scaled : q * 10 ^ digits ≤ ((10 ^ digits : ℤ) : ℚ) := by
    push_cast
    nlinarith
  have rounded : ((roundHalfEven (q * 10 ^ digits) : ℤ) : ℚ) ≤ ((10 ^ digits : ℤ) : ℚ) := by
    exact_mod_cast roundHalfEven_le scaled
  unfold round
  rw [div_le_one power]
  simpa using rounded

theorem round_mono {digits : ℕ} {a b : ℚ} (le : a ≤ b) : round digits a ≤ round digits b := by
  have scaled : a * 10 ^ digits ≤ b * 10 ^ digits := by gcongr
  have rounded : ((roundHalfEven (a * 10 ^ digits) : ℤ) : ℚ) ≤ roundHalfEven (b * 10 ^ digits) := by
    exact_mod_cast roundHalfEven_mono scaled
  unfold round
  gcongr

/-- A part of a whole, rounded. -/
theorem round_ratio {digits part whole : ℕ} (le : part ≤ whole) :
    0 ≤ round digits ((part : ℚ) / whole) ∧ round digits ((part : ℚ) / whole) ≤ 1 := by
  have parts : (part : ℚ) ≤ whole := by exact_mod_cast le
  exact ⟨round_nonneg (by positivity), round_le_one (div_le_one_of_le₀ parts (by positivity))⟩

/-- `round(x, digits)`; infinities and NaN are returned as they are. -/
def Number.round (digits : ℕ) : Number → Number
  | .finite a => .finite (Python.round digits a)
  | x => x

/-! ## Values -/

inductive Json
  | null
  | bool (value : Bool)
  | number (value : Number)
  | string (value : String)
  | array (items : List Json)
  | object (fields : List (String × Json))

abbrev Dict := List (String × Json)

/-- `bool(v)`. -/
def Json.truthy : Json → Bool
  | .null => false
  | .bool value => value
  | .number value => value ≠ .finite 0
  | .string value => value ≠ ""
  | .array items => !items.isEmpty
  | .object fields => !fields.isEmpty

/-- `v` as a summand: Python's booleans are the integers 0 and 1. -/
def Json.toNumber? : Json → Option Number
  | .number value => some value
  | .bool true => some (.finite 1)
  | .bool false => some (.finite 0)
  | _ => none

namespace Dict

/-- `d.get(key)`. -/
def get? (d : Dict) (key : String) : Option Json := List.lookup key d

/-- `d[key] = value`, which is also `{**d, key: value}`. -/
def set : Dict → String → Json → Dict
  | [], key, value => [(key, value)]
  | (k, v) :: rest, key, value =>
      if k = key then (key, value) :: rest else (k, v) :: set rest key value

/-- `{k: v for k, v in d.items() if k != key}`. -/
def drop (d : Dict) (key : String) : Dict := d.filter fun field => field.1 ≠ key

/-- The truth of `d.get(key)`. -/
def truthy (d : Dict) (key : String) : Bool := (get? d key).any Json.truthy

/-- `d.get(key) is None`. -/
def isNone (d : Dict) (key : String) : Bool :=
  match get? d key with
  | none | some .null => true
  | _ => false

theorem get?_cons (k : String) (v : Json) (rest : Dict) (key : String) :
    get? ((k, v) :: rest) key = if key = k then some v else get? rest key := by
  by_cases same : key = k
  · simp [get?, same]
  · have differ : (key == k) = false := by simpa using same
    simp [get?, List.lookup_cons, differ, same]

@[simp] theorem get?_set_self (d : Dict) (key : String) (value : Json) :
    get? (set d key value) key = some value := by
  induction d with
  | nil => simp [set, get?_cons]
  | cons field rest ih =>
      obtain ⟨k, v⟩ := field
      by_cases same : k = key
      · rw [set, if_pos same, get?_cons, if_pos rfl]
      · rw [set, if_neg same, get?_cons, if_neg (Ne.symm same), ih]

@[simp] theorem get?_set_of_ne (d : Dict) {key other : String} (ne : other ≠ key) (value : Json) :
    get? (set d key value) other = get? d other := by
  induction d with
  | nil => rw [set, get?_cons, if_neg ne]
  | cons field rest ih =>
      obtain ⟨k, v⟩ := field
      by_cases same : k = key
      · subst same
        rw [set, if_pos rfl, get?_cons, get?_cons, if_neg ne, if_neg ne]
      · rw [set, if_neg same, get?_cons, get?_cons, ih]

@[simp] theorem get?_drop_of_ne (d : Dict) {key other : String} (ne : other ≠ key) :
    get? (drop d key) other = get? d other := by
  induction d with
  | nil => rfl
  | cons field rest ih =>
      obtain ⟨k, v⟩ := field
      by_cases same : k = key
      · subst same
        rw [get?_cons, if_neg ne, ← ih]
        simp [drop]
      · have kept : drop ((k, v) :: rest) key = (k, v) :: drop rest key := by simp [drop, same]
        rw [kept, get?_cons, get?_cons, ih]

theorem truthy_set_of_ne (d : Dict) {key other : String} (ne : other ≠ key) (value : Json) :
    truthy (set d key value) other = truthy d other := by
  rw [truthy, truthy, get?_set_of_ne d ne]

theorem not_truthy_of_isNone {d : Dict} {key : String} (none : isNone d key = true) :
    truthy d key = false := by
  unfold isNone at none
  split at none
  · next missing => rw [truthy, missing]; rfl
  · next null => rw [truthy, null]; rfl
  · cases none

end Dict

/-- `sum(items)`; `none` when a summand is not a number. -/
def sum (items : List Json) : Option Number :=
  items.foldlM (fun total item => item.toNumber?.map total.add) (.finite 0)

theorem sum_isSome {items : List Json} (numeric : ∀ item ∈ items, item.toNumber?.isSome) :
    (sum items).isSome := by
  unfold sum
  generalize Number.finite 0 = total
  induction items generalizing total with
  | nil => rfl
  | cons item rest ih =>
      obtain ⟨value, eq⟩ := Option.isSome_iff_exists.mp (numeric item List.mem_cons_self)
      simp only [List.foldlM_cons, eq, Option.map_some]
      exact ih (fun other member => numeric other (List.mem_cons_of_mem item member)) _

end InferenceForge.Python
