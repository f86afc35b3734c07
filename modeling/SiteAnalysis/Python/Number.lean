import SiteAnalysis.Python.Json

/-
  This file defines the arithmetic of Python's numbers that
  services apply to the answers of other parties: the
  rounding of `float`, `round`, and `float` of a value.

  A `float` is a binary64 number; the sign of zero is left
  out.

  Key definitions include:
    * `roundHalfEven`
    * `toDouble`
    * `parseFloat`
    * `Json.toFloat`
    * `Json.percent`
    * `Json.divide`
    * `Json.roundTo`
-/

------------------------------------------------------------
-- Rounding
------------------------------------------------------------

namespace Python

/- `base ^ e` for an exponent of either sign. -/
def power (base : Nat) : Int → Rat
| .ofNat n => (base ^ n : Nat)
| .negSucc n => 1 / (base ^ (n + 1) : Nat)

/- The nearest integer; a tie goes to the even one. -/
def roundHalfEven (q : Rat) : Int :=
  let below := q.floor
  let rest := q - below
  if rest < 1 / 2 then
    below
  else if 1 / 2 < rest then
    below + 1
  else if below % 2 = 0 then
    below
  else
    below + 1

/- The exponent of the leading binary digit of `0 < q`. -/
def floorLog2 (q : Rat) : Int :=
  let guess : Int := q.num.natAbs.log2 - q.den.log2
  if power 2 guess ≤ q then guess else guess - 1

/-
  The nearest binary64 number.  Its last digit is worth at
  least `2 ^ (-1074)`, and at most `2 ^ 971`.
-/
def toDouble (q : Rat) : PyFloat :=
  if q = 0 then
    .finite 0
  else
    let ulp := power 2 (max (floorLog2 |q| - 52) (-1074))
    let rounded := roundHalfEven (q / ulp) * ulp
    if |rounded| < power 2 1024 then
      .finite rounded
    else if 0 < q then
      .posInf
    else
      .negInf

example : toDouble (2 ^ 53 + 1) = .finite (2 ^ 53) := by
  decide +kernel

------------------------------------------------------------
-- Numbers From Text
------------------------------------------------------------

/- Decimal digits and the number of them; none is allowed. -/
def parseFraction : List Char → Option (Nat × Nat)
| [] => some (0, 0)
| cs => parseDigits 0 0 false cs

/- `digits`, `digits.digits`, `digits.` or `.digits` -/
def parseMantissa (cs : List Char) : Option Rat :=
  match cs.span (fun c => c ≠ '.') with
  | (whole, []) =>
      (parseDigits 0 0 false whole).map (fun d => (d.1 : Rat))
  | (whole, _ :: fraction) =>
      match parseFraction whole, parseFraction fraction with
      | some (n, a), some (m, b) =>
          if a + b = 0 then
            none
          else
            some (n + m * power 10 (-b))
      | _, _ => none

/- The digits of an exponent with their sign. -/
def parseExponent : List Char → Option Int
| '-' :: cs =>
    (parseDigits 0 0 false cs).map (fun d => -(d.1 : Int))
| '+' :: cs =>
    (parseDigits 0 0 false cs).map (fun d => (d.1 : Int))
| cs => (parseDigits 0 0 false cs).map (fun d => (d.1 : Int))

/- An unsigned literal. -/
def parseUnsigned (cs : List Char) : Option Rat :=
  match cs.span (fun c => c ≠ 'e' ∧ c ≠ 'E') with
  | (mantissa, []) => parseMantissa mantissa
  | (mantissa, _ :: exponent) =>
      match parseMantissa mantissa, parseExponent exponent with
      | some m, some e => some (m * power 10 e)
      | _, _ => none

def infinityNames : List String := ["inf", "infinity"]

/- `float(text)`, `none` for a `ValueError`. -/
def parseFloat (text : String) : Option PyFloat :=
  let stripped := strip text.toList
  let (negative, cs) :=
    match stripped with
    | '-' :: cs => (true, cs)
    | '+' :: cs => (false, cs)
    | cs => (false, cs)
  let name := String.ofList (cs.map Char.toLower)
  if name ∈ infinityNames then
    some (if negative then .negInf else .posInf)
  else if name = "nan" then
    some .nan
  else
    (parseUnsigned cs).map
      (fun q => toDouble (if negative then -q else q))

------------------------------------------------------------
-- Operations on Values
------------------------------------------------------------

namespace Json

/- `float(value)` -/
def toFloat : Json → Except PyError PyFloat
| .bool b => .ok (.finite (if b then 1 else 0))
| .int n =>
    match toDouble n with
    | .finite q => .ok (.finite q)
    | _ =>
        .error
          (.overflowError "int too large to convert to float")
| .float x => .ok x
| .str s =>
    match parseFloat s with
    | some x => .ok x
    | none =>
        .error
          (.valueError "could not convert string to float")
| other =>
    .error
      (.typeError
        ("float() argument must be a string or a real " ++
          "number, not '" ++ other.typeName ++ "'"))

/- `isinstance(value, (int, float))` -/
def isNumber : Json → Bool
| .bool _ => true
| .int _ => true
| .float _ => true
| _ => false

/- `round(value)` of a `float` -/
def roundFloat : PyFloat → Except PyError Int
| .finite q => .ok (roundHalfEven q)
| .nan =>
    .error
      (.valueError "cannot convert float NaN to integer")
| _ =>
    .error
      (.overflowError
        "cannot convert float infinity to integer")

/- The product of a `float` and a positive integer. -/
def scale
    (n : Nat) : PyFloat → PyFloat
| .finite q => toDouble (q * n)
| x => x

/- `round(value * 100)` of a number -/
def percent : Json → Except PyError Json
| .bool b => .ok (.int (if b then 100 else 0))
| .int n => .ok (.int (n * 100))
| .float x => (roundFloat (scale 100 x)).map .int
| other =>
    .error
      (.typeError
        ("type " ++ other.typeName ++
          " doesn't define __round__ method"))

/- `value / n` for a `float` literal `n`. -/
def divide
    (n : Nat)
    (value : Json) : Except PyError Json :=
  if value.isNumber then do
    let x ← value.toFloat
    match x with
    | .finite q => pure (.float (toDouble (q / n)))
    | x => pure (.float x)
  else
    .error
      (.typeError
        ("unsupported operand type(s) for /: '" ++
          value.typeName ++ "' and 'float'"))

/- `round(value, digits)` -/
def roundTo
    (digits : Nat) : Json → Except PyError Json
| .bool b => .ok (.int (if b then 1 else 0))
| .int n => .ok (.int n)
| .float (.finite q) =>
    .ok
      (.float
        (toDouble
          (roundHalfEven (q * power 10 digits) *
            power 10 (-digits))))
| .float x => .ok (.float x)
| other =>
    .error
      (.typeError
        ("type " ++ other.typeName ++
          " doesn't define __round__ method"))

/- A rounded float is a float. -/
theorem roundTo_float
    (digits : Nat)
    (x : PyFloat) :
    ∃ y, roundTo digits (.float x) = .ok (.float y) := by
  cases x with
  | finite q => exact ⟨_, rfl⟩
  | _ => exact ⟨_, rfl⟩

end Json

end Python
