import SiteAnalysis.Python.Number

/-
  This file defines `json.loads`.

  The depth of the nesting that the interpreter's stack
  allows is a parameter.  Lean characters are no surrogates:
  a pair of escapes is joined as Python joins it, and a lone
  surrogate, which no database column accepts, reads as NUL,
  which none accepts either.

  Key definitions include:
    * `LoadsError`
    * `stringBody`
    * `matchNumber`
    * `setField`
    * `scanValue`
    * `loads`
-/

------------------------------------------------------------
-- Strings
------------------------------------------------------------

namespace Python

/-
  How `json.loads` fails: with a `ValueError`, or for a
  nesting that is too deep for the stack.
-/
inductive LoadsError
  | valueError
  | recursionError
deriving DecidableEq

/- The value of a hexadecimal digit. -/
def hexDigit (c : Char) : Option Nat :=
  if '0' ≤ c ∧ c ≤ '9' then
    some (c.toNat - '0'.toNat)
  else if 'a' ≤ c ∧ c ≤ 'f' then
    some (c.toNat - 'a'.toNat + 10)
  else if 'A' ≤ c ∧ c ≤ 'F' then
    some (c.toNat - 'A'.toNat + 10)
  else
    none

/- The code unit of a `\uXXXX` escape. -/
def hexFour (a b c d : Char) : Option Nat :=
  match hexDigit a, hexDigit b, hexDigit c, hexDigit d with
  | some a, some b, some c, some d =>
      some (((a * 16 + b) * 16 + c) * 16 + d)
  | _, _, _, _ => none

/- The character of a two-character escape. -/
def simpleEscape (c : Char) : Option Char :=
  ([('"', '"'), ('\\', '\\'), ('/', '/'),
    ('b', Char.ofNat 8), ('f', Char.ofNat 12),
    ('n', '\n'), ('r', '\r'), ('t', '\t')]).lookup c

/-
  The code units of a string after its opening quote, and
  the text after its closing one.
-/
def stringUnits :
    List Char → Option (List Nat × List Char)
| [] => none
| '"' :: cs => some ([], cs)
| '\\' :: 'u' :: a :: b :: c :: d :: cs =>
    match hexFour a b c d with
    | some unit =>
        (stringUnits cs).map
          (fun p => (unit :: p.1, p.2))
    | none => none
| '\\' :: e :: cs =>
    match simpleEscape e with
    | some c =>
        (stringUnits cs).map
          (fun p => (c.toNat :: p.1, p.2))
    | none => none
| c :: cs =>
    if c.toNat < 0x20 ∨ c = '\\' then
      none
    else
      (stringUnits cs).map
        (fun p => (c.toNat :: p.1, p.2))

def isHighSurrogate (unit : Nat) : Bool :=
  0xD800 ≤ unit ∧ unit ≤ 0xDBFF

def isLowSurrogate (unit : Nat) : Bool :=
  0xDC00 ≤ unit ∧ unit ≤ 0xDFFF

/- The characters of code units. -/
def joinUnits : List Nat → List Char
| [] => []
| [unit] => [Char.ofNat unit]
| high :: low :: units =>
    if isHighSurrogate high ∧ isLowSurrogate low then
      Char.ofNat
          (0x10000 + (high - 0xD800) * 0x400 +
            (low - 0xDC00)) ::
        joinUnits units
    else
      Char.ofNat high :: joinUnits (low :: units)

/- The string after an opening quote, and the text after it. -/
def stringBody
    (cs : List Char) : Option (String × List Char) :=
  (stringUnits cs).map
    (fun p => (String.ofList (joinUnits p.1), p.2))

------------------------------------------------------------
-- Numbers
------------------------------------------------------------

def isAsciiDigit (c : Char) : Bool :=
  '0' ≤ c ∧ c ≤ '9'

/- `0` or digits without a leading zero. -/
def matchInteger :
    List Char → Option (List Char × List Char)
| '0' :: cs => some (['0'], cs)
| c :: cs =>
    if isAsciiDigit c then
      some ((c :: cs).span isAsciiDigit)
    else
      none
| [] => none

/- `(\.[0-9]+)?` -/
def matchFraction :
    List Char → List Char × List Char
| '.' :: cs =>
    match cs.span isAsciiDigit with
    | ([], _) => ([], '.' :: cs)
    | (digits, rest) => ('.' :: digits, rest)
| cs => ([], cs)

/- The sign of an exponent. -/
def matchSign : List Char → List Char × List Char
| '-' :: cs => (['-'], cs)
| '+' :: cs => (['+'], cs)
| cs => ([], cs)

/- `([eE][-+]?[0-9]+)?` -/
def matchExponent :
    List Char → List Char × List Char
| [] => ([], [])
| e :: cs =>
    if e = 'e' ∨ e = 'E' then
      let (sign, tail) := matchSign cs
      match tail.span isAsciiDigit with
      | ([], _) => ([], e :: cs)
      | (digits, rest) => (e :: (sign ++ digits), rest)
    else
      ([], e :: cs)

/- An `int` or a `float` literal, and the text after it. -/
def matchUnsigned
    (sign : List Char)
    (cs : List Char) :
    Except LoadsError (Json × List Char) :=
  match matchInteger cs with
  | none => .error .valueError
  | some (digits, cs) =>
      let (fraction, cs) := matchFraction cs
      let (exponent, cs) := matchExponent cs
      let text :=
        String.ofList (sign ++ digits ++ fraction ++ exponent)
      if fraction = [] ∧ exponent = [] then
        match parseInt text with
        | some n => .ok (.int n, cs)
        | none => .error .valueError
      else
        match parseFloat text with
        | some x => .ok (.float x, cs)
        | none => .error .valueError

def matchNumber :
    List Char → Except LoadsError (Json × List Char)
| '-' :: cs => matchUnsigned ['-'] cs
| cs => matchUnsigned [] cs

------------------------------------------------------------
-- Values
------------------------------------------------------------

def isBlank (c : Char) : Bool :=
  c = ' ' ∨ c = '\t' ∨ c = '\n' ∨ c = '\r'

/- The text after white space. -/
def skipBlank (cs : List Char) : List Char :=
  cs.dropWhile isBlank

/- `fields[key] = value` -/
def setField
    {V : Type}
    (key : String)
    (value : V) :
    List (String × V) → List (String × V)
| [] => [(key, value)]
| (k, old) :: rest =>
    if k = key then
      (k, value) :: rest
    else
      (k, old) :: setField key value rest

/- A scanner: a value and the text after it. -/
abbrev Scanner :=
  List Char → Except LoadsError (Json × List Char)

/-
  The members of an object from the quote of a key on; every
  round reads a member, so the length of the text bounds
  their number.
-/
def scanMembers
    (scan : Scanner) :
    Nat → List (String × Json) → Scanner
| 0, _, _ => .error .valueError
| fuel + 1, fields, '"' :: cs =>
    match stringBody cs with
    | none => .error .valueError
    | some (key, cs) =>
        match skipBlank cs with
        | ':' :: cs => do
            let (value, cs) ← scan (skipBlank cs)
            let fields := setField key value fields
            match skipBlank cs with
            | '}' :: cs => .ok (.obj fields, cs)
            | ',' :: cs =>
                scanMembers scan fuel fields (skipBlank cs)
            | _ => .error .valueError
        | _ => .error .valueError
| _ + 1, _, _ => .error .valueError

/- The items of an array from the first character on. -/
def scanItems
    (scan : Scanner) :
    Nat → List Json → Scanner
| 0, _, _ => .error .valueError
| fuel + 1, items, cs => do
    let (value, cs) ← scan cs
    let items := items ++ [value]
    match skipBlank cs with
    | ']' :: cs => .ok (.arr items, cs)
    | ',' :: cs => scanItems scan fuel items (skipBlank cs)
    | _ => .error .valueError

/- An object after its opening brace. -/
def scanObject
    (scan : Scanner)
    (cs : List Char) :
    Except LoadsError (Json × List Char) :=
  match skipBlank cs with
  | '}' :: cs => .ok (.obj [], cs)
  | cs => scanMembers scan cs.length [] cs

/- An array after its opening bracket. -/
def scanArray
    (scan : Scanner)
    (cs : List Char) :
    Except LoadsError (Json × List Char) :=
  match skipBlank cs with
  | ']' :: cs => .ok (.arr [], cs)
  | cs => scanItems scan cs.length [] cs

/- A literal name, if the text starts with one. -/
def matchName
    (cs : List Char) : Option (Json × List Char) :=
  match cs with
  | 'n' :: 'u' :: 'l' :: 'l' :: cs => some (.null, cs)
  | 't' :: 'r' :: 'u' :: 'e' :: cs =>
      some (.bool true, cs)
  | 'f' :: 'a' :: 'l' :: 's' :: 'e' :: cs =>
      some (.bool false, cs)
  | 'N' :: 'a' :: 'N' :: cs => some (.float .nan, cs)
  | 'I' :: 'n' :: 'f' :: 'i' :: 'n' :: 'i' :: 't' ::
        'y' :: cs =>
      some (.float .posInf, cs)
  | '-' :: 'I' :: 'n' :: 'f' :: 'i' :: 'n' :: 'i' ::
        't' :: 'y' :: cs =>
      some (.float .negInf, cs)
  | _ => none

/- A value that is no container. -/
def scanScalar : Scanner
| '"' :: cs =>
    match stringBody cs with
    | some (s, cs) => .ok (.str s, cs)
    | none => .error .valueError
| cs =>
    match matchName cs with
    | some answer => .ok answer
    | none => matchNumber cs

/- A value nested at most as deep as `depth`. -/
def scanValue : Nat → Scanner
| 0, cs =>
    match cs with
    | '{' :: _ => .error .recursionError
    | '[' :: _ => .error .recursionError
    | cs => scanScalar cs
| depth + 1, cs =>
    match cs with
    | '{' :: cs => scanObject (scanValue depth) cs
    | '[' :: cs => scanArray (scanValue depth) cs
    | cs => scanScalar cs

/- `json.loads(text)` -/
def loads
    (depth : Nat)
    (text : String) : Except LoadsError Json := do
  let (value, rest) ← scanValue depth (skipBlank text.toList)
  if skipBlank rest = [] then
    .ok value
  else
    .error .valueError

end Python
