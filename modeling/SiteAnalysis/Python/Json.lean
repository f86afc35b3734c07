import Mathlib.Data.Rat.Init
import Mathlib.Algebra.Order.Ring.Rat

/-
  This file defines the JSON values that `json.loads`
  produces and the Python operations on them that services
  apply to the answers of other parties: truth values,
  `dict.get`, `dict.items`, `or`, `int` and `str`.

  Objects list their members in order.  A finite `float` is
  the rational number it denotes.

  Key definitions include:
    * `Json`
    * `PyError`
    * `Json.truthy`
    * `Json.get`
    * `Json.first`
    * `Json.items`
    * `Json.toInt`
    * `Json.toStr`
    * `Json.storable`
    * `parseInt`
-/

------------------------------------------------------------
-- JSON Values
------------------------------------------------------------

namespace Python

/- A Python `float`. -/
inductive PyFloat
  | finite (q : Rat)
  | posInf
  | negInf
  | nan
deriving DecidableEq

/- A value that `json.loads` returns. -/
inductive Json
  | null
  | bool (b : Bool)
  | int (n : Int)
  | float (x : PyFloat)
  | str (s : String)
  | arr (items : List Json)
  | obj (fields : List (String × Json))

instance : Inhabited Json := ⟨.null⟩

/- The exceptions of the built-in operations. -/
inductive PyError
  | attributeError (message : String)
  | typeError (message : String)
  | valueError (message : String)
  | overflowError (message : String)
  | indexError (message : String)
  | keyError (message : String)
deriving DecidableEq

/- `str` of a built-in exception. -/
def PyError.message : PyError → String
| .attributeError m => m
| .typeError m => m
| .valueError m => m
| .overflowError m => m
| .indexError m => m
| .keyError m => m

namespace Json

/- `type(value).__name__` -/
def typeName : Json → String
| .null => "NoneType"
| .bool _ => "bool"
| .int _ => "int"
| .float _ => "float"
| .str _ => "str"
| .arr _ => "list"
| .obj _ => "dict"

/- `bool(value)` -/
def truthy : Json → Bool
| .null => false
| .bool b => b
| .int n => n ≠ 0
| .float (.finite q) => q ≠ 0
| .float _ => true
| .str s => s ≠ ""
| .arr items => !items.isEmpty
| .obj fields => !fields.isEmpty

/- `a or b` -/
def or (a b : Json) : Json :=
  if a.truthy then a else b

/- The member of an object, if it has one. -/
def field
    (key : String)
    (fields : List (String × Json)) : Option Json :=
  fields.lookup key

def noAttribute
    (value : Json)
    (attr : String) : PyError :=
  .attributeError
    ("'" ++ value.typeName ++ "' object has no attribute '" ++
      attr ++ "'")

/- `value.get(key, default)` -/
def get
    (value : Json)
    (key : String)
    (default : Json) : Except PyError Json :=
  match value with
  | .obj fields => .ok ((field key fields).getD default)
  | other => .error (other.noAttribute "get")

/- `value[0]` -/
def first : Json → Except PyError Json
| .arr (v :: _) => .ok v
| .arr [] => .error (.indexError "list index out of range")
| .str s =>
    match s.toList with
    | c :: _ => .ok (.str (String.ofList [c]))
    | [] => .error (.indexError "string index out of range")
| .obj _ => .error (.keyError "0")
| other =>
    .error
      (.typeError
        ("'" ++ other.typeName ++
          "' object is not subscriptable"))

/- `value.items()` -/
def items :
    Json → Except PyError (List (String × Json))
| .obj fields => .ok fields
| other => .error (other.noAttribute "items")

/- Whether `value.get` exists. -/
def isObject : Json → Bool
| .obj _ => true
| _ => false

end Json

------------------------------------------------------------
-- Integers From Text
------------------------------------------------------------

/- The code points of the decimal zeros of Unicode. -/
def decimalZeros : List Nat :=
  [0x30, 0x660, 0x6F0, 0x7C0, 0x966, 0x9E6, 0xA66, 0xAE6,
    0xB66, 0xBE6, 0xC66, 0xCE6, 0xD66, 0xDE6, 0xE50, 0xED0,
    0xF20, 0x1040, 0x1090, 0x17E0, 0x1810, 0x1946, 0x19D0,
    0x1A80, 0x1A90, 0x1B50, 0x1BB0, 0x1C40, 0x1C50, 0xA620,
    0xA8D0, 0xA900, 0xA9D0, 0xA9F0, 0xAA50, 0xABF0, 0xFF10,
    0x104A0, 0x10D30, 0x11066, 0x110F0, 0x11136, 0x111D0,
    0x112F0, 0x11450, 0x114D0, 0x11650, 0x116C0, 0x11730,
    0x118E0, 0x11950, 0x11C50, 0x11D50, 0x11DA0, 0x11F50,
    0x16A60, 0x16AC0, 0x16B50, 0x1D7CE, 0x1D7D8, 0x1D7E2,
    0x1D7EC, 0x1D7F6, 0x1E140, 0x1E2F0, 0x1E4F0, 0x1E950,
    0x1FBF0]

/- The value of a decimal digit. -/
def digitValue (c : Char) : Option Nat :=
  (decimalZeros.find?
    (fun z => z ≤ c.toNat ∧ c.toNat < z + 10)).map
      (fun z => c.toNat - z)

/- `c.isspace()` -/
def isSpace (c : Char) : Bool :=
  let n := c.toNat
  (9 ≤ n ∧ n ≤ 13) ∨ (28 ≤ n ∧ n ≤ 32) ∨ n = 0x85 ∨
    n = 0xA0 ∨ n = 0x1680 ∨ (0x2000 ≤ n ∧ n ≤ 0x200A) ∨
      n = 0x2028 ∨ n = 0x2029 ∨ n = 0x202F ∨ n = 0x205F ∨
        n = 0x3000

/- `text.strip()` on the characters of a text. -/
def strip (cs : List Char) : List Char :=
  ((cs.dropWhile isSpace).reverse.dropWhile
    isSpace).reverse

/-
  Digits with single underscores between them: their value
  and their number.  `ready` says that a digit came last.
-/
def parseDigits :
    Nat → Nat → Bool → List Char → Option (Nat × Nat)
| value, count, true, [] => some (value, count)
| _, _, false, [] => none
| value, count, ready, c :: cs =>
    if c = '_' then
      if ready then
        parseDigits value count false cs
      else
        none
    else
      match digitValue c with
      | some d =>
          parseDigits (value * 10 + d) (count + 1) true cs
      | none => none

/- `sys.get_int_max_str_digits()` -/
def maxStrDigits : Nat := 4300

/- An unsigned literal within the limit on its digits. -/
def parseNat (cs : List Char) : Option Nat :=
  match parseDigits 0 0 false cs with
  | some (value, count) =>
      if count ≤ maxStrDigits then some value else none
  | none => none

/- `int(text)`, `none` for a `ValueError`. -/
def parseInt (text : String) : Option Int :=
  match strip text.toList with
  | '-' :: cs => (parseNat cs).map (fun n => -(n : Int))
  | '+' :: cs => (parseNat cs).map (fun n => (n : Int))
  | cs => (parseNat cs).map (fun n => (n : Int))

example : parseInt " -1_000 " = some (-1000) := by decide

namespace Json

/- `int(value)` -/
def toInt : Json → Except PyError Int
| .bool b => .ok (if b then 1 else 0)
| .int n => .ok n
| .float (.finite q) => .ok (q.num.tdiv q.den)
| .float .nan =>
    .error
      (.valueError "cannot convert float NaN to integer")
| .float _ =>
    .error
      (.overflowError
        "cannot convert float infinity to integer")
| .str s =>
    match parseInt s with
    | some n => .ok n
    | none =>
        .error
          (.valueError
            "invalid literal for int() with base 10")
| other =>
    .error
      (.typeError
        ("int() argument must be a string, a bytes-like " ++
          "object or a real number, not '" ++
          other.typeName ++ "'"))

/- Whether `int(value)` succeeds. -/
def isIntLike : Json → Bool
| .bool _ => true
| .int _ => true
| .float (.finite _) => true
| .str s => (parseInt s).isSome
| _ => false

theorem toInt_isOk_iff
    (value : Json) :
    (∃ n, value.toInt = .ok n) ↔ value.isIntLike = true := by
  cases value with
  | float x => cases x <;> simp [toInt, isIntLike]
  | str s =>
      cases hParse : parseInt s <;>
        simp [toInt, isIntLike, hParse]
  | _ => simp [toInt, isIntLike]

theorem get_isOk_iff
    (value : Json)
    (key : String)
    (default : Json) :
    (∃ v, value.get key default = .ok v) ↔
      value.isObject = true := by
  cases value <;> simp [get, isObject]

theorem items_isOk_iff
    (value : Json) :
    (∃ v, value.items = .ok v) ↔
      value.isObject = true := by
  cases value <;> simp [items, isObject]

/-
  `str(value)`; `repr` stands for what `float.__repr__`,
  `list.__repr__` and `dict.__repr__` print.
-/
def toStr
    (repr : Json → String) : Json → String
| .null => "None"
| .bool true => "True"
| .bool false => "False"
| .int n => toString n
| .str s => s
| other => repr other

end Json

/- Text without the NUL character. -/
def noNul (s : String) : Bool :=
  !(s.toList.contains (Char.ofNat 0))

namespace Json

/-
  A value that a `jsonb` column accepts: no NUL in its texts
  and no `NaN` or infinite number.
-/
mutual

def storable : Json → Bool
| .str s => noNul s
| .float (.finite _) => true
| .float _ => false
| .arr items => storableItems items
| .obj fields => storableFields fields
| _ => true

def storableItems : List Json → Bool
| [] => true
| v :: vs => storable v && storableItems vs

def storableFields : List (String × Json) → Bool
| [] => true
| (key, v) :: rest =>
    noNul key && storable v && storableFields rest

end

end Json

------------------------------------------------------------
-- Computations That Can Raise
------------------------------------------------------------

section Exceptions

variable {ε α β : Type}

/- What a computation of two steps returns. -/
theorem bind_eq_ok_iff
    (x : Except ε α)
    (f : α → Except ε β)
    (b : β) :
    (x >>= f) = .ok b ↔ ∃ a, x = .ok a ∧ f a = .ok b := by
  cases x <;> simp [bind, Except.bind]

/- A computation of two steps returns when both do. -/
theorem isOk_bind_iff
    (x : Except ε α)
    (f : α → Except ε β) :
    (∃ b, (x >>= f) = .ok b) ↔
      ∃ a, x = .ok a ∧ ∃ b, f a = .ok b := by
  cases x <;> simp [bind, Except.bind]

end Exceptions

end Python
