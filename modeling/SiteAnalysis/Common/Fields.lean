import SiteAnalysis.Common.Columns
import SiteAnalysis.Python.Number

/-
  This file defines the model fields to which services assign
  the answers of other parties: how the client library
  prepares the value of a field, and what its column accepts.

  Key definitions include:
    * `FieldType`
    * `Field`
    * `Field.prepare`
    * `Field.check`
    * `prepareAll`
    * `checkAll`
    * `Field.Takes`

  Key theorems include:
    * `Field.accepts_iff`
    * `accepted_iff`
    * `clean_checkAll`
-/

------------------------------------------------------------
-- Fields
------------------------------------------------------------

namespace SiteAnalysis

open Python

/- The classes of such fields. -/
inductive FieldType
  | char (max : Nat)
  | integer
  | bigInteger
  | float

/- A field with its column name and its `null` option. -/
structure Field where
  name : String
  type : FieldType
  nullable : Bool

/- A value of a signed 64-bit `bigint` column. -/
def fitsBigInteger (n : Int) : Bool :=
  -9223372036854775808 ≤ n ∧ n ≤ 9223372036854775807

/- A `BigIntegerField`. -/
def bigIntegerColumn (n : Int) : Except Exc Unit :=
  require (fitsBigInteger n)
    (.database .dataError "bigint out of range")

namespace Field

/- The exception of a number field for a wrong value. -/
def expectedNumber
    (repr : Json → String)
    (field : Field)
    (value : Json) : PyError → Exc
| .typeError _ =>
    .python
      (.typeError
        ("Field '" ++ field.name ++
          "' expected a number but got " ++ repr value ++
          "."))
| .valueError _ =>
    .python
      (.valueError
        ("Field '" ++ field.name ++
          "' expected a number but got " ++ repr value ++
          "."))
| e => .python e

/- A converted value, or the exception of the field. -/
def number
    {α : Type}
    (repr : Json → String)
    (field : Field)
    (value : Json)
    (wrap : α → Json) : Except PyError α → Except Exc Json
| .ok a => .ok (wrap a)
| .error e => .error (field.expectedNumber repr value e)

/- `field.get_prep_value(value)` -/
def prepare
    (repr : Json → String)
    (field : Field)
    (value : Json) : Except Exc Json :=
  match value, field.type with
  | .null, _ => .ok .null
  | v, .char _ => .ok (.str (v.toStr repr))
  | v, .integer => field.number repr v .int v.toInt
  | v, .bigInteger => field.number repr v .int v.toInt
  | v, .float => field.number repr v .float v.toFloat

/- What the column accepts of a prepared value. -/
def check
    (field : Field)
    (value : Json) : Except Exc Unit :=
  match value, field.type with
  | .null, _ =>
      require field.nullable
        (.database .integrityError
          ("null value in column \"" ++ field.name ++
            "\" violates not-null constraint"))
  | .str s, .char max => charColumn max s
  | .int n, .integer => integerColumn n
  | .int n, .bigInteger => bigIntegerColumn n
  | _, _ => .ok ()

end Field

------------------------------------------------------------
-- Records of Fields
------------------------------------------------------------

section Records

variable {F : Type}

/- Prepare the values of the listed fields in turn. -/
def prepareAll
    (repr : Json → String)
    (field : F → Field)
    (values : F → Json) : List F → Except Exc Unit
| [] => .ok ()
| f :: fs => do
    let _ ← (field f).prepare repr (values f)
    prepareAll repr field values fs

/- The value that a prepared field has in the row. -/
def stored
    (repr : Json → String)
    (field : F → Field)
    (values : F → Json)
    (f : F) : Json :=
  ((field f).prepare repr (values f)).toOption.getD .null

/- Check the prepared values of the listed fields in turn. -/
def checkAll
    (field : F → Field)
    (values : F → Json) : List F → Except Exc Unit
| [] => .ok ()
| f :: fs => do
    (field f).check (values f)
    checkAll field values fs

end Records

------------------------------------------------------------
-- Accepted Values
------------------------------------------------------------

/- A value other than null that a field of the type takes. -/
def FieldType.Fits
    (repr : Json → String) : FieldType → Json → Prop
| .char max, v => fitsChar max (v.toStr repr) = true
| .integer, v =>
    ∃ n, v.toInt = .ok n ∧ fitsInteger n = true
| .bigInteger, v =>
    ∃ n, v.toInt = .ok n ∧ fitsBigInteger n = true
| .float, v => ∃ x, v.toFloat = .ok x

/- A value that the field takes. -/
def Field.Takes
    (repr : Json → String)
    (field : Field)
    (value : Json) : Prop :=
  (value = .null ∧ field.nullable = true) ∨
    (value ≠ .null ∧ field.type.Fits repr value)

/- The value is prepared, and its column accepts it. -/
def Field.Accepts
    (repr : Json → String)
    (field : Field)
    (value : Json) : Prop :=
  ∃ w, field.prepare repr value = .ok w ∧
    field.check w = .ok ()

section Accepted

variable {F : Type} {repr : Json → String}

@[simp] theorem bigIntegerColumn_eq_ok
    (n : Int) :
    bigIntegerColumn n = .ok () ↔
      fitsBigInteger n = true := by
  simp [bigIntegerColumn]

/- A converted number. -/
theorem Field.number_eq_ok
    {α : Type}
    {field : Field}
    {value w : Json}
    {wrap : α → Json}
    {x : Except PyError α} :
    field.number repr value wrap x = .ok w ↔
      ∃ a, x = .ok a ∧ w = wrap a := by
  cases x with
  | ok a => simp [number, eq_comm]
  | error e => simp [number]

/- A field accepts exactly the values that it takes. -/
theorem Field.accepts_iff
    (field : Field)
    (value : Json) :
    field.Accepts repr value ↔ field.Takes repr value := by
  rcases field with ⟨name, type, nullable⟩
  by_cases hNull : value = .null
  · subst hNull
    simp [Accepts, Takes, prepare, check]
  · have hPrepare :
        prepare repr ⟨name, type, nullable⟩ value =
          match type with
          | .char _ => .ok (.str (value.toStr repr))
          | .integer =>
              number repr ⟨name, type, nullable⟩ value .int
                value.toInt
          | .bigInteger =>
              number repr ⟨name, type, nullable⟩ value .int
                value.toInt
          | .float =>
              number repr ⟨name, type, nullable⟩ value .float
                value.toFloat := by
      cases value <;> cases type <;>
        first | rfl | exact absurd rfl hNull
    simp only [Accepts, Takes, hNull, hPrepare, false_and,
      ne_eq, not_false_eq_true, true_and, false_or]
    cases type with
    | char max => simp [FieldType.Fits, check]
    | integer =>
        simp [FieldType.Fits, number_eq_ok, check]
    | bigInteger =>
        simp [FieldType.Fits, number_eq_ok, check]
    | float =>
        simp [FieldType.Fits, number_eq_ok, check]

variable {field : F → Field} {values : F → Json}
variable {fs : List F}

theorem prepareAll_eq_ok :
    prepareAll repr field values fs = .ok () ↔
      ∀ f ∈ fs, ∃ w,
        (field f).prepare repr (values f) = .ok w := by
  induction fs with
  | nil => simp [prepareAll]
  | cons f fs ih =>
      rw [prepareAll, bind_eq_ok_iff]
      simp only [ih, List.forall_mem_cons]
      constructor
      · rintro ⟨w, hHead, hRest⟩
        exact ⟨⟨w, hHead⟩, hRest⟩
      · rintro ⟨⟨w, hHead⟩, hRest⟩
        exact ⟨w, hHead, hRest⟩

theorem checkAll_eq_ok :
    checkAll field values fs = .ok () ↔
      ∀ f ∈ fs, (field f).check (values f) = .ok () := by
  induction fs with
  | nil => simp [checkAll]
  | cons f fs ih => simp [checkAll, ih]

/- The value of a field that could be prepared. -/
theorem stored_of_prepare
    {f : F}
    {w : Json}
    (hPrepare :
      (field f).prepare repr (values f) = .ok w) :
    stored repr field values f = w := by
  rw [stored, hPrepare]
  rfl

/- A record is stored exactly when its fields take it. -/
theorem accepted_iff :
    (prepareAll repr field values fs = .ok () ∧
        checkAll field (stored repr field values) fs =
          .ok ()) ↔
      ∀ f ∈ fs, (field f).Takes repr (values f) := by
  rw [prepareAll_eq_ok, checkAll_eq_ok]
  constructor
  · rintro ⟨hPrepared, hChecked⟩ f hMem
    rcases hPrepared f hMem with ⟨w, hw⟩
    have hCheck := hChecked f hMem
    rw [stored_of_prepare hw] at hCheck
    exact ((field f).accepts_iff _).mp ⟨w, hw, hCheck⟩
  · intro hTakes
    have hAccepts :
        ∀ f ∈ fs, (field f).Accepts repr (values f) :=
      fun f hMem =>
        ((field f).accepts_iff _).mpr (hTakes f hMem)
    constructor
    · intro f hMem
      rcases hAccepts f hMem with ⟨w, hw, _⟩
      exact ⟨w, hw⟩
    · intro f hMem
      rcases hAccepts f hMem with ⟨w, hw, hCheck⟩
      rw [stored_of_prepare hw]
      exact hCheck

/- A field whose name can be part of a message. -/
structure Field.Plain (field : Field) : Prop where
  name : noNul field.name = true
  max :
    ∀ n, field.type = .char n → noNul (toString n) = true

/- What the column of such a field raises can be stored. -/
theorem Field.clean_check
    {field : Field}
    (hPlain : field.Plain)
    (value : Json) : Clean (field.check value) := by
  rcases field with ⟨name, type, nullable⟩
  have hOpen : noNul "null value in column \"" = true := by
    decide
  have hClose :
      noNul "\" violates not-null constraint" = true := by
    decide
  have hBig : noNul "bigint out of range" = true := by decide
  have hDone : Clean (.ok ()) := by
    intro e hError
    cases hError
  cases value with
  | null =>
      apply clean_require
      simp [Printable, Exc.str, noNul_append, hOpen, hClose,
        hPlain.name]
  | str s =>
      cases type with
      | char max => exact clean_charColumn (hPlain.max max rfl) s
      | _ => exact hDone
  | int n =>
      cases type with
      | integer => exact clean_integerColumn n
      | bigInteger => exact clean_require hBig
      | _ => exact hDone
  | _ => exact hDone

theorem clean_checkAll
    (hPlain : ∀ f ∈ fs, (field f).Plain) :
    Clean (checkAll field values fs) := by
  induction fs with
  | nil =>
      intro e hError
      cases hError
  | cons f fs ih =>
      apply clean_bind
      · exact
          Field.clean_check (hPlain f List.mem_cons_self) _
      · apply ih
        intro f' hMem
        exact hPlain f' (List.mem_cons_of_mem _ hMem)

end Accepted

------------------------------------------------------------
-- Origins
------------------------------------------------------------

section Origins

variable {F : Type} {repr : Json → String}

theorem Field.raisesLocal_number
    {α : Type}
    {field : Field}
    {value : Json}
    {wrap : α → Json}
    (x : Except PyError α) :
    RaisesLocal (field.number repr value wrap x) := by
  intro e hError
  cases x with
  | ok a => cases hError
  | error e' =>
      cases hError
      cases e' <;> rfl

theorem Field.raisesLocal_prepare
    (field : Field)
    (value : Json) :
    RaisesLocal (field.prepare repr value) := by
  unfold Field.prepare
  split
  · exact raisesLocal_ok _
  · exact raisesLocal_ok _
  · exact Field.raisesLocal_number _
  · exact Field.raisesLocal_number _
  · exact Field.raisesLocal_number _

theorem Field.raisesLocal_check
    (field : Field)
    (value : Json) : RaisesLocal (field.check value) := by
  unfold Field.check
  split
  · exact raisesLocal_require _ rfl
  · exact raisesLocal_charColumn _ _
  · exact raisesLocal_require _ rfl
  · exact raisesLocal_require _ rfl
  · exact raisesLocal_ok _

theorem raisesLocal_prepareAll
    (field : F → Field)
    (values : F → Json)
    (fs : List F) :
    RaisesLocal (prepareAll repr field values fs) := by
  induction fs with
  | nil => exact raisesLocal_ok _
  | cons f fs ih =>
      apply
        raisesLocal_bind (Field.raisesLocal_prepare _ _)
      intro _
      exact ih

theorem raisesLocal_checkAll
    (field : F → Field)
    (values : F → Json)
    (fs : List F) :
    RaisesLocal (checkAll field values fs) := by
  induction fs with
  | nil => exact raisesLocal_ok _
  | cons f fs ih =>
      apply raisesLocal_bind (Field.raisesLocal_check _ _)
      intro _
      exact ih

end Origins

end SiteAnalysis
