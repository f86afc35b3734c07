import Mathlib.Data.List.Forall2
import Mathlib.Data.List.Perm.Basic
import SiteAnalysis.Python.Json

/-
  This file defines when two JSON values are the same up to
  the order of the members of their objects, and proves that
  the operations on them cannot tell.

  Key definitions include:
    * `Json.Alike`
    * `Json.AlikeFields`

  Key theorems include:
    * `Json.alike_of_perm`
    * `Json.truthy_of_alike`
    * `Json.find_of_alike`
-/

------------------------------------------------------------
-- Values
------------------------------------------------------------

namespace Python

namespace Json

/- The same value, whatever the order of members. -/
inductive Alike : Json → Json → Prop
  | null : Alike .null .null
  | bool (b : Bool) : Alike (.bool b) (.bool b)
  | int (n : Int) : Alike (.int n) (.int n)
  | float (x : PyFloat) : Alike (.float x) (.float x)
  | str (s : String) : Alike (.str s) (.str s)
  | arr
      {xs ys : List Json}
      (hLength : xs.length = ys.length)
      (hItems :
        ∀ (i : Nat) (x y : Json), xs[i]? = some x →
          ys[i]? = some y → Alike x y) :
      Alike (.arr xs) (.arr ys)
  | obj
      {xs ys : List (String × Json)}
      (hKeys :
        ∀ key,
          (field key xs).isSome = (field key ys).isSome)
      (hValues :
        ∀ key x y, field key xs = some x →
          field key ys = some y → Alike x y) :
      Alike (.obj xs) (.obj ys)

/- The same members, in whatever order. -/
abbrev AlikeFields
    (xs ys : List (String × Json)) : Prop :=
  Alike (.obj xs) (.obj ys)

variable {v w : Json} {vs ws : List Json}
variable {xs ys : List (String × Json)} {key : String}

theorem mem_of_field
    (hField : field key xs = some v) : (key, v) ∈ xs := by
  induction xs with
  | nil => cases hField
  | cons x rest ih =>
      rcases x with ⟨name, value⟩
      rw [field, List.lookup_cons] at hField
      split at hField
      · rename_i hName
        cases hField
        rw [beq_iff_eq.mp hName]
        exact List.mem_cons_self
      · exact List.mem_cons_of_mem _ (ih hField)

theorem alike_refl (v : Json) : Alike v v := by
  cases v with
  | null => exact .null
  | bool b => exact .bool b
  | int n => exact .int n
  | float x => exact .float x
  | str s => exact .str s
  | arr items =>
      refine .arr rfl ?_
      intro i x y hFirst hSecond
      rw [hFirst] at hSecond
      cases hSecond
      have hMem := List.mem_of_getElem? hFirst
      exact alike_refl x
  | obj fields =>
      refine .obj (fun _ => rfl) ?_
      intro key x y hFirst hSecond
      rw [hFirst] at hSecond
      cases hSecond
      have hMem := mem_of_field hFirst
      exact alike_refl x
termination_by sizeOf v
decreasing_by
  · subst_vars
    have := List.sizeOf_lt_of_mem hMem
    simp only [arr.sizeOf_spec]
    omega
  · subst_vars
    have := List.sizeOf_lt_of_mem hMem
    simp only [obj.sizeOf_spec, Prod.mk.sizeOf_spec] at *
    omega

theorem field_of_mem
    (hMem : (key, v) ∈ xs)
    (hDistinct : (xs.map Prod.fst).Nodup) :
    field key xs = some v := by
  induction xs with
  | nil => cases hMem
  | cons x rest ih =>
      rcases x with ⟨name, value⟩
      rw [List.map_cons, List.nodup_cons] at hDistinct
      rw [field, List.lookup_cons]
      rcases List.mem_cons.mp hMem with hHead | hTail
      · cases hHead
        simp
      · have hNe : key ≠ name := by
          rintro rfl
          exact
            hDistinct.1 (List.mem_map.mpr ⟨_, hTail, rfl⟩)
        rw [beq_eq_false_iff_ne.mpr hNe]
        exact ih hTail hDistinct.2

/- An object with its members in another order. -/
theorem alike_of_perm
    (hPerm : xs.Perm ys)
    (hDistinct : (xs.map Prod.fst).Nodup) :
    AlikeFields xs ys := by
  have hSame : ∀ key, field key xs = field key ys := by
    intro key
    have hDistinct' : (ys.map Prod.fst).Nodup :=
      (hPerm.map Prod.fst).nodup_iff.mp hDistinct
    cases hFirst : field key xs with
    | some v =>
        have hMem := hPerm.mem_iff.mp (mem_of_field hFirst)
        exact (field_of_mem hMem hDistinct').symm
    | none =>
        cases hSecond : field key ys with
        | none => rfl
        | some w =>
            have hMem :=
              hPerm.mem_iff.mpr (mem_of_field hSecond)
            rw [field_of_mem hMem hDistinct] at hFirst
            cases hFirst
  refine .obj (fun key => by rw [hSame]) ?_
  intro key x y hFirst hSecond
  rw [hSame, hSecond] at hFirst
  cases hFirst
  exact alike_refl x

theorem forall₂_of_alike
    (hAlike : Alike (.arr vs) (.arr ws)) :
    List.Forall₂ Alike vs ws := by
  cases hAlike with
  | arr hLength hItems =>
      rw [List.forall₂_iff_get]
      refine ⟨hLength, ?_⟩
      intro i hFirst hSecond
      exact
        hItems i _ _ (List.getElem?_eq_getElem hFirst)
          (List.getElem?_eq_getElem hSecond)

/- The members of one key. -/
theorem field_of_alike
    (key : String)
    (hAlike : AlikeFields xs ys) :
    (field key xs = none ∧ field key ys = none) ∨
      ∃ v w, field key xs = some v ∧
        field key ys = some w ∧ Alike v w := by
  cases hAlike with
  | obj hKeys hValues =>
      have hSame := hKeys key
      cases hFirst : field key xs with
      | none =>
          rw [hFirst] at hSame
          exact
            Or.inl
              ⟨rfl,
                Option.isSome_eq_false_iff.mp hSame.symm |>
                  Option.isNone_iff_eq_none.mp⟩
      | some v =>
          rw [hFirst] at hSame
          rcases Option.isSome_iff_exists.mp hSame.symm with
            ⟨w, hSecond⟩
          exact
            Or.inr
              ⟨v, w, rfl, hSecond,
                hValues key v w hFirst hSecond⟩

/- A missing member counts as `None`. -/
theorem getD_of_alike
    (key : String)
    (hAlike : AlikeFields xs ys) :
    Alike ((field key xs).getD .null)
      ((field key ys).getD .null) := by
  rcases field_of_alike key hAlike with
    ⟨hFirst, hSecond⟩ | ⟨v, w, hFirst, hSecond, hValue⟩
  · rw [hFirst, hSecond]
    exact .null
  · rw [hFirst, hSecond]
    exact hValue

theorem isEmpty_of_alikeFields
    (hAlike : AlikeFields xs ys) :
    xs.isEmpty = ys.isEmpty := by
  have hHead :
      ∀ (name : String) (value : Json)
        (rest : List (String × Json)),
        (field name ((name, value) :: rest)).isSome = true :=
    by simp [field]
  cases hAlike with
  | obj hKeys hValues =>
      cases xs with
      | nil =>
          cases ys with
          | nil => rfl
          | cons y rest =>
              have hSame := hKeys y.1
              rw [hHead] at hSame
              cases hSame
      | cons x rest =>
          cases ys with
          | nil =>
              have hSame := hKeys x.1
              rw [hHead] at hSame
              cases hSame
          | cons y rest' => rfl

theorem truthy_of_alike
    (hAlike : Alike v w) : v.truthy = w.truthy := by
  cases hAlike with
  | @arr vs ws hLength hItems =>
      cases vs with
      | nil =>
          cases ws with
          | nil => rfl
          | cons w rest => cases hLength
      | cons v rest =>
          cases ws with
          | nil => cases hLength
          | cons w rest' => rfl
  | obj hKeys hValues =>
      have hEmpty :=
        isEmpty_of_alikeFields (.obj hKeys hValues)
      simp only [truthy, hEmpty]
  | _ => rfl

theorem isObject_of_alike
    (hAlike : Alike v w) : v.isObject = w.isObject := by
  cases hAlike <;> rfl

/- The value has no members to order. -/
def isScalar : Json → Bool
| .arr _ => false
| .obj _ => false
| _ => true

theorem eq_of_alike
    (hAlike : Alike v w)
    (hScalar : v.isScalar = true) : v = w := by
  cases hAlike with
  | arr hLength hItems => cases hScalar
  | obj hKeys hValues => cases hScalar
  | _ => rfl

/- A test that cannot tell finds the same item. -/
theorem find_of_alike
    {p : Json → Bool}
    (hTest : ∀ v w, Alike v w → p v = p w)
    (hAll : List.Forall₂ Alike vs ws) :
    Alike ((vs.find? p).getD .null)
      ((ws.find? p).getD .null) := by
  induction hAll with
  | nil => exact .null
  | @cons v w vs ws hHead _ ih =>
      rw [List.find?_cons, List.find?_cons, hTest v w hHead]
      cases p w with
      | true => exact hHead
      | false => exact ih

theorem all_of_alike
    {p : Json → Bool}
    (hTest : ∀ v w, Alike v w → p v = p w)
    (hAll : List.Forall₂ Alike vs ws) :
    vs.all p = ws.all p := by
  induction hAll with
  | nil => rfl
  | @cons v w vs ws hHead _ ih =>
      rw [List.all_cons, List.all_cons, hTest v w hHead, ih]

theorem field_filter
    (fields : List (String × Json))
    (name key : String) :
    field name (fields.filter (fun m => m.1 ≠ key)) =
      if name = key then none else field name fields := by
  induction fields with
  | nil => simp [field]
  | cons m rest ih =>
      rcases m with ⟨other, value⟩
      rw [List.filter_cons]
      by_cases hOther : other = key
      · rw [if_neg (by simpa using hOther), ih]
        by_cases hName : name = key
        · rw [if_pos hName, if_pos hName]
        · have hNe : name ≠ other := by
            rw [hOther]
            exact hName
          rw [if_neg hName, if_neg hName, field, field,
            List.lookup_cons, beq_eq_false_iff_ne.mpr hNe]
      · rw [if_pos (by simpa using hOther), field,
          List.lookup_cons]
        by_cases hName : name = other
        · subst hName
          simp [field, hOther]
        · rw [beq_eq_false_iff_ne.mpr hName]
          have hRest :
              field name ((other, value) :: rest) =
                field name rest := by
            rw [field, List.lookup_cons,
              beq_eq_false_iff_ne.mpr hName]
            rfl
          rw [hRest]
          exact ih

/- An object without one of its members. -/
theorem alike_filter
    (key : String)
    (hAlike : AlikeFields xs ys) :
    AlikeFields (xs.filter (fun m => m.1 ≠ key))
      (ys.filter (fun m => m.1 ≠ key)) := by
  cases hAlike with
  | obj hKeys hValues =>
      refine .obj ?_ ?_
      · intro name
        rw [field_filter, field_filter]
        split
        · rfl
        · exact hKeys name
      · intro name x y hFirst hSecond
        rw [field_filter] at hFirst hSecond
        split at hFirst
        · cases hFirst
        · rename_i hName
          rw [if_neg hName] at hSecond
          exact hValues name x y hFirst hSecond

end Json

end Python
