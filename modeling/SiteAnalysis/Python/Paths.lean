import SiteAnalysis.Python.Json

/-
  This file defines the places of a JSON value that a chain
  of lookups reads, and when such a chain does not raise.

  Key definitions include:
    * `Json.member`
    * `Json.place`
    * `Json.nested`

  Key theorems include:
    * `Json.get_eq_ok`
    * `Json.nested_cons`
    * `Json.place_cons`
-/

------------------------------------------------------------
-- Places
------------------------------------------------------------

namespace Python

namespace Json

/- The member of an object; other values have none. -/
def member
    (value : Json)
    (key : String) : Option Json :=
  match value with
  | .obj fields => field key fields
  | _ => none

/- The value at the end of a path, null if it is missing. -/
def place : Json → List String → Json
| value, [] => value
| value, key :: path =>
    ((value.member key).getD .null).place path

/- Every part on the way is missing or an object. -/
def nested : Json → List String → Bool
| _, [] => true
| value, key :: path =>
    value.isObject &&
      match value.member key with
      | none => true
      | some v => v.nested path

variable {value v : Json} {key : String}

@[simp] theorem nested_nil
    (value : Json) : value.nested [] = true := by
  unfold nested
  rfl

@[simp] theorem place_nil
    (value : Json) : value.place [] = value := by
  unfold place
  rfl

/- There is nothing below null. -/
theorem place_null
    (path : List String) : null.place path = .null := by
  induction path with
  | nil => exact place_nil .null
  | cons key path ih =>
      unfold place
      exact ih

/- Nothing is in the way below an empty object. -/
theorem nested_empty
    (path : List String) : (obj []).nested path = true := by
  cases path with
  | nil => exact nested_nil _
  | cons key path =>
      unfold nested
      rfl

/- There is nothing below an empty object. -/
theorem place_empty
    (key : String)
    (path : List String) :
    (obj []).place (key :: path) = .null := by
  unfold place
  exact place_null path

------------------------------------------------------------
-- Lookups
------------------------------------------------------------

/- A lookup with a default is one of the member. -/
theorem get_eq_ok
    {default : Json} :
    value.get key default = .ok v ↔
      value.isObject = true ∧
        v = (value.member key).getD default := by
  cases value with
  | obj fields =>
      simp only [get, Except.ok.injEq, isObject, member,
        true_and]
      exact eq_comm
  | _ => simp [get, isObject]

/- One lookup of a chain. -/
theorem nested_cons
    (path : List String) :
    value.nested (key :: path) = true ↔
      value.isObject = true ∧
        ((value.member key).getD (.obj [])).nested path =
          true := by
  rw [nested, Bool.and_eq_true]
  cases value.member key with
  | none => simp only [Option.getD_none, nested_empty]
  | some v => rfl

theorem place_cons
    (next : String)
    (path : List String) :
    value.place (key :: next :: path) =
      ((value.member key).getD (.obj [])).place
        (next :: path) := by
  rw [place]
  cases value.member key with
  | none =>
      rw [Option.getD_none, Option.getD_none, place_null,
        place_empty]
  | some v => rfl

end Json

end Python
