import Evalorch.Python.Text
import Evalorch.Services.Errors
import Mathlib.Data.Int.Log
import Mathlib.Data.Rat.Floor

/-!
# JSON documents

`Json` is a document as the decoder yields it: integers are kept apart from floating point
numbers, and a floating point number may be infinite or not a number. A `Dict` is an object
of it. A text may hold lone surrogates, in the way of `Python.isSurrogate`. `Dict.get` answers
`null` for a missing key and `Dict.item` raises, and `Json.truthy` decides which documents an `or`
skips.
-/

namespace Evalorch

/-- A floating point number: a finite value, an infinity, or not a number. -/
inductive Float64 where
  | finite (value : ℚ)
  | infinity
  | negInfinity
  | nan
deriving DecidableEq

/-- The integer nearest to a rational, the even one of two that are equally near. -/
def roundHalfEven (q : ℚ) : ℤ :=
  if q - ⌊q⌋ < 1 / 2 then ⌊q⌋
  else if 1 / 2 < q - ⌊q⌋ then ⌊q⌋ + 1
  else if ⌊q⌋ % 2 = 0 then ⌊q⌋ else ⌊q⌋ + 1

/-- The number of 53 significant bits that is nearest to a rational, the even one of two that are
equally near. -/
def toDouble (q : ℚ) : ℚ :=
  roundHalfEven (q / 2 ^ (Int.log 2 |q| - 52)) * 2 ^ (Int.log 2 |q| - 52)

/-- `round(x, digits)`. -/
def Float64.round (digits : ℕ) : Float64 → Float64
  | .finite q => .finite (toDouble (roundHalfEven (q * 10 ^ digits) / 10 ^ digits))
  | x => x

/-- A JSON document. -/
inductive Json where
  | null
  | bool (b : Bool)
  | int (n : ℤ)
  | float (x : Float64)
  | str (s : String)
  | list (items : List Json)
  | dict (fields : List (String × Json))

/-- A dictionary with JSON values. -/
abbrev Dict : Type := List (String × Json)

namespace Dict

/-- `document.get(key)`: the field `key`, or `null`. -/
def get (document : Dict) (key : String) : Json :=
  (document.lookup key).getD .null

/-- `document[key]`: raises `KeyError` when the field is missing. -/
def item (document : Dict) (key : String) : Except Exn Json :=
  match document.lookup key with
  | some value => .ok value
  | none => .error (.builtin "KeyError" ("'" ++ key ++ "'"))

/-- `document[key] = value`. -/
def set (document : Dict) (key : String) (value : Json) : Dict :=
  match document with
  | [] => [(key, value)]
  | (k, v) :: rest => if k = key then (k, value) :: rest else (k, v) :: set rest key value

@[simp]
theorem lookup_set_self (document : Dict) (key : String) (value : Json) :
  (document.set key value).lookup key = some value
  := by
  induction document with
  | nil => simp [set]
  | cons field rest ih =>
    obtain ⟨k, v⟩ := field
    by_cases h : k = key
    · simp [set, h]
    · have hne : (key == k) = false := by simpa using Ne.symm h
      simpa [set, List.lookup_cons, h, hne] using ih

theorem lookup_set_of_ne (document : Dict) {key other : String} (value : Json)
    (h : other ≠ key) :
  (document.set key value).lookup other = document.lookup other
  := by
  induction document with
  | nil =>
    have hne : (other == key) = false := by simpa using h
    simp [set, List.lookup_cons, hne]
  | cons field rest ih =>
    obtain ⟨k, v⟩ := field
    by_cases hk : k = key
    · have hne : (other == k) = false := by simpa [hk] using h
      have hne' : (other == key) = false := by simpa using h
      simp [set, List.lookup_cons, hk, hne']
    · by_cases hother : other = k
      · simp [set, hk, hother]
      · have hne : (other == k) = false := by simpa using hother
        simpa [set, List.lookup_cons, hk, hne] using ih

@[simp]
theorem get_set_self (document : Dict) (key : String) (value : Json) :
  (document.set key value).get key = value
  := by rw [get, lookup_set_self, Option.getD_some]

theorem get_set_of_ne (document : Dict) {key other : String} (value : Json) (h : other ≠ key) :
  (document.set key value).get other = document.get other
  := by rw [get, get, lookup_set_of_ne document value h]

end Dict

namespace Json

/-- `type(value).__name__`. -/
def typeName : Json → String
  | .null => "NoneType"
  | .bool _ => "bool"
  | .int _ => "int"
  | .float _ => "float"
  | .str _ => "str"
  | .list _ => "list"
  | .dict _ => "dict"

/-- Whether a document counts as true in a condition. -/
def truthy : Json → Bool
  | .null => false
  | .bool b => b
  | .int n => n != 0
  | .float x => x != .finite 0
  | .str s => s != ""
  | .list items => !items.isEmpty
  | .dict fields => !fields.isEmpty

/-- `first or second`. -/
def or (first second : Json) : Json :=
  if first.truthy then first else second

/-- The number that a document is equal to, if it is a finite one. -/
def number? : Json → Option ℚ
  | .bool b => some (if b then 1 else 0)
  | .int n => some n
  | .float (.finite q) => some q
  | _ => none

mutual

/-- `first == second`: numbers by value, objects whatever the order of their fields. -/
def eq : Json → Json → Bool
  | .null, .null => true
  | .str s, .str t => s = t
  | .list xs, .list ys => eqItems xs ys
  | .dict fs, .dict gs => fs.length = gs.length && eqFields fs gs
  | .float .infinity, .float .infinity => true
  | .float .negInfinity, .float .negInfinity => true
  | x, y =>
    match x.number?, y.number? with
    | some p, some q => p = q
    | _, _ => false

/-- Two arrays with equal items. -/
def eqItems : List Json → List Json → Bool
  | [], [] => true
  | x :: xs, y :: ys => eq x y && eqItems xs ys
  | _, _ => false

/-- The fields of an object, each equal to that of another. -/
def eqFields : List (String × Json) → List (String × Json) → Bool
  | [], _ => true
  | (key, x) :: fs, gs =>
    match gs.lookup key with
    | some y => eq x y && eqFields fs gs
    | none => false

end

/-- An optional text as a document. -/
def ofText : Option String → Json
  | none => .null
  | some s => .str s

end Json

/-- What the interpreter's `repr`, `str.lower` and `str.upper` yield. Nothing depends on it. -/
structure Builtins where
  repr : Json → String
  lower : String → String
  upper : String → String

namespace Builtins

/-- `str(value)`. -/
def str (b : Builtins) : Json → String
  | .str s => s
  | value => b.repr value

/-- `int(text)`. -/
def intOfText (b : Builtins) (text : String) : Except Exn ℤ :=
  match Python.int? text with
  | some n => .ok n
  | none => .error (.value ("invalid literal for int() with base 10: " ++ b.repr (.str text)))

/-- The integer part of a floating point number. -/
def intOfFloat : Float64 → Except Exn ℤ
  | .finite q => .ok (if 0 ≤ q then ⌊q⌋ else ⌈q⌉)
  | .infinity | .negInfinity =>
      .error (.other "OverflowError" "cannot convert float infinity to integer")
  | .nan => .error (.value "cannot convert float NaN to integer")

/-- `int(value)`. -/
def int (b : Builtins) : Json → Except Exn ℤ
  | .int n => .ok n
  | .bool flag => .ok (if flag then 1 else 0)
  | .float x => intOfFloat x
  | .str text => b.intOfText text
  | value => .error (.builtin "TypeError"
      ("int() argument must be a string, a bytes-like object or a real number, not '"
        ++ value.typeName ++ "'"))

end Builtins

/-- `first or second` on optional texts: an empty text counts as absent. -/
def orText (first second : Option String) : Option String :=
  if first.getD "" = "" then second else first

theorem orText_of_ne {s : String} (h : s ≠ "") (second : Option String) :
  orText (some s) second = some s
  := by simp [orText, h]

/-- A text that is not empty passes the test `if text`. -/
theorem filter_of_ne {s : String} (h : s ≠ "") :
  (some s).filter (· != "") = some s
  := by simp [Option.filter, h]

/-- `text[:limit]`. -/
def truncated (limit : ℕ) (text : String) : String :=
  String.ofList (text.toList.take limit)

namespace Demo

/-- Built-ins that show a text in quotes and change no case. -/
def builtins : Builtins where
  repr
    | .str s => "'" ++ s ++ "'"
    | .int n => toString n
    | value => value.typeName
  lower := id
  upper := id

end Demo

end Evalorch
