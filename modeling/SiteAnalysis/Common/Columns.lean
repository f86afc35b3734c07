import SiteAnalysis.Common.Exceptions

/-
  This file defines what the columns of the database accept.

  Key definitions include:
    * `require`
    * `fitsInteger`
    * `fitsChar`
    * `integerColumn`
    * `charColumn`
    * `textColumn`
    * `jsonColumn`
    * `checkRows`
    * `Printable`
    * `Clean`
    * `RaisesLocal`

  Key theorems include:
    * `require_eq_ok`
    * `check_bind_eq_ok`
    * `charColumn_eq_ok`
    * `clean_bind`
    * `cleanRead_get`
-/

------------------------------------------------------------
-- Column Values
------------------------------------------------------------

namespace SiteAnalysis

open Python

/- Raise `e` unless the condition holds. -/
def require
    (condition : Bool)
    (e : Exc) : Except Exc Unit :=
  if condition then .ok () else .error e

/- A value of a signed 32-bit `integer` column. -/
def fitsInteger (n : Int) : Bool :=
  -2147483648 ≤ n ∧ n ≤ 2147483647

/- A value of a `varchar(max)` column. -/
def fitsChar
    (max : Nat)
    (s : String) : Bool :=
  noNul s ∧ s.length ≤ max

/- An `IntegerField`. -/
def integerColumn (n : Int) : Except Exc Unit :=
  require (fitsInteger n)
    (.database .dataError "integer out of range")

/- A `TextField`. -/
def textColumn (s : String) : Except Exc Unit :=
  require (noNul s)
    (.database .dataError
      "PostgreSQL text fields cannot contain NUL (0x00) bytes")

/- A `CharField(max_length=max)`. -/
def charColumn
    (max : Nat)
    (s : String) : Except Exc Unit := do
  textColumn s
  require (s.length ≤ max)
    (.database .dataError
      ("value too long for type character varying(" ++
        toString max ++ ")"))

/- A `JSONField`. -/
def jsonColumn (v : Json) : Except Exc Unit :=
  require v.storable
    (.database .dataError
      "invalid input syntax for type json")

/- A column declared without `null=True`. -/
def notNull
    (column : String)
    (v : Json) : Except Exc Unit :=
  match v with
  | .null =>
      .error
        (.database .integrityError
          ("null value in column \"" ++ column ++
            "\" violates not-null constraint"))
  | _ => .ok ()

@[simp] theorem require_eq_ok
    (condition : Bool)
    (e : Exc) :
    require condition e = .ok () ↔ condition = true := by
  unfold require
  split <;> simp_all

/- Checks in a row. -/
@[simp] theorem check_bind_eq_ok
    {α : Type}
    (x : Except Exc Unit)
    (f : Unit → Except Exc α)
    (a : α) :
    (x >>= f) = .ok a ↔ x = .ok () ∧ f () = .ok a := by
  cases x <;> simp [bind, Except.bind]

@[simp] theorem integerColumn_eq_ok
    (n : Int) :
    integerColumn n = .ok () ↔ fitsInteger n = true := by
  simp [integerColumn]

@[simp] theorem textColumn_eq_ok
    (s : String) :
    textColumn s = .ok () ↔ noNul s = true := by
  simp [textColumn]

@[simp] theorem charColumn_eq_ok
    (max : Nat)
    (s : String) :
    charColumn max s = .ok () ↔ fitsChar max s = true := by
  simp [charColumn, fitsChar]

@[simp] theorem jsonColumn_eq_ok
    (v : Json) :
    jsonColumn v = .ok () ↔ v.storable = true := by
  simp [jsonColumn]

@[simp] theorem notNull_eq_ok
    (column : String)
    (v : Json) :
    notNull column v = .ok () ↔ v ≠ .null := by
  cases v <;> simp [notNull]

/- Check rows in turn. -/
def checkRows
    {ρ : Type}
    (check : ρ → Except Exc Unit) :
    List ρ → Except Exc Unit
| [] => .ok ()
| row :: rows => do
    check row
    checkRows check rows

theorem checkRows_eq_ok
    {ρ : Type}
    (check : ρ → Except Exc Unit)
    (rows : List ρ) :
    checkRows check rows = .ok () ↔
      ∀ row ∈ rows, check row = .ok () := by
  induction rows with
  | nil => simp [checkRows]
  | cons row rows ih => simp [checkRows, ih]

------------------------------------------------------------
-- Messages
------------------------------------------------------------

/- `str(exc)` fits a text column. -/
def Printable (e : Exc) : Prop :=
  noNul e.str = true

/- Whatever the check raises can be stored as a message. -/
def Clean (x : Except Exc Unit) : Prop :=
  ∀ e, x = .error e → Printable e

theorem noNul_append
    (a b : String) :
    noNul (a ++ b) = (noNul a && noNul b) := by
  simp [noNul]

theorem clean_require
    {condition : Bool}
    {e : Exc}
    (hPrintable : Printable e) :
    Clean (require condition e) := by
  intro e' hError
  unfold require at hError
  split at hError
  · cases hError
  · cases hError
    exact hPrintable

theorem clean_bind
    {x : Except Exc Unit}
    {f : Unit → Except Exc Unit}
    (hLeft : Clean x)
    (hRight : Clean (f ())) :
    Clean (x >>= f) := by
  intro e hError
  cases x with
  | error e' =>
      cases hError
      exact hLeft e rfl
  | ok u => exact hRight e hError

theorem clean_integerColumn
    (n : Int) : Clean (integerColumn n) :=
  clean_require (by unfold Printable; decide)

theorem clean_textColumn
    (s : String) : Clean (textColumn s) :=
  clean_require (by unfold Printable; decide)

theorem clean_jsonColumn
    (v : Json) : Clean (jsonColumn v) :=
  clean_require (by unfold Printable; decide)

theorem clean_charColumn
    {max : Nat}
    (hMax : noNul (toString max) = true)
    (s : String) : Clean (charColumn max s) := by
  apply clean_bind (clean_textColumn s)
  apply clean_require
  have hText :
      noNul "value too long for type character varying(" =
        true := by decide
  have hClose : noNul ")" = true := by decide
  rw [Printable, Exc.str, noNul_append, noNul_append, hText,
    hMax, hClose]
  rfl

/- Whatever the reading of a value raises can be stored. -/
def CleanRead
    {α : Type}
    (x : Except PyError α) : Prop :=
  ∀ e, x = .error e → noNul e.message = true

section Reading

variable {α β : Type}

theorem cleanRead_ok
    (a : α) : CleanRead (.ok a) := by
  intro e hError
  cases hError

theorem cleanRead_bind
    {x : Except PyError α}
    {f : α → Except PyError β}
    (hLeft : CleanRead x)
    (hRight : ∀ a, CleanRead (f a)) :
    CleanRead (x >>= f) := by
  intro e hError
  cases x with
  | error e' =>
      cases hError
      exact hLeft e rfl
  | ok a => exact hRight a e hError

theorem noNul_noAttribute
    {attr : String}
    (value : Json)
    (hAttr : noNul attr = true) :
    noNul (value.noAttribute attr).message = true := by
  have hType : noNul value.typeName = true := by
    cases value <;> (simp only [Json.typeName]; decide)
  have hOpen : noNul "'" = true := by decide
  have hMiddle :
      noNul "' object has no attribute '" = true := by decide
  simp [Json.noAttribute, PyError.message, noNul_append,
    hType, hAttr, hOpen, hMiddle]

theorem cleanRead_get
    (value : Json)
    (key : String)
    (default : Json) :
    CleanRead (value.get key default) := by
  have hGet : noNul "get" = true := by decide
  intro e hError
  cases value with
  | obj fields => cases hError
  | _ =>
      cases hError
      exact noNul_noAttribute _ hGet

/- A raised built-in exception can be stored. -/
theorem printable_of_cleanRead
    {x : Except PyError α}
    {e : Exc}
    (hClean : CleanRead x)
    (hError : fromPython x = .error e) : Printable e := by
  cases x with
  | ok a => cases hError
  | error e' =>
      cases hError
      exact hClean e' rfl

end Reading

theorem clean_notNull
    {column : String}
    (hColumn : noNul column = true)
    (v : Json) : Clean (notNull column v) := by
  have hOpen :
      noNul "null value in column \"" = true := by decide
  have hClose :
      noNul "\" violates not-null constraint" = true := by
    decide
  intro e hError
  cases v with
  | null =>
      cases hError
      simp [Printable, Exc.str, noNul_append, hOpen,
        hColumn, hClose]
  | _ => cases hError

------------------------------------------------------------
-- Origins
------------------------------------------------------------

/- An exception of the client library or of the database. -/
def Exc.isLocal : Exc → Bool
| .python _ => true
| .database _ _ => true
| _ => false

/- Nothing but such exceptions is raised. -/
def RaisesLocal
    {α : Type}
    (x : Except Exc α) : Prop :=
  ∀ e, x = .error e → e.isLocal = true

section Origins

variable {α β : Type}

theorem raisesLocal_ok
    (a : α) : RaisesLocal (.ok a) := by
  intro e hError
  cases hError

theorem raisesLocal_bind
    {x : Except Exc α}
    {f : α → Except Exc β}
    (hLeft : RaisesLocal x)
    (hRight : ∀ a, RaisesLocal (f a)) :
    RaisesLocal (x >>= f) := by
  intro e hError
  cases x with
  | error e' =>
      cases hError
      exact hLeft e rfl
  | ok a => exact hRight a e hError

theorem raisesLocal_require
    {e : Exc}
    (condition : Bool)
    (hLocal : e.isLocal = true) :
    RaisesLocal (require condition e) := by
  intro e' hError
  unfold require at hError
  split at hError
  · cases hError
  · cases hError
    exact hLocal

theorem raisesLocal_charColumn
    (max : Nat)
    (s : String) : RaisesLocal (charColumn max s) := by
  apply raisesLocal_bind (raisesLocal_require _ rfl)
  intro _
  exact raisesLocal_require _ rfl

end Origins

end SiteAnalysis
