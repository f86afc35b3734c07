import Mathlib.Algebra.Order.BigOperators.Group.List
import Mathlib.Algebra.Order.Ring.Int

/-
  This file defines journals: lists of entries with an amount
  and a snapshot of the running total.

  Key definitions include:
    * `total`
    * `Running`

  Key theorems include:
    * `total_append`
    * `total_filter_append`
    * `running_append`
    * `total_split`
    * `total_eq_zero_iff`
-/

------------------------------------------------------------
-- Totals
------------------------------------------------------------

namespace Accounting

section Totals

variable {ρ A : Type} [AddCommMonoid A]
variable {amount snapshot : ρ → A}
variable {rows : List ρ} {r : ρ}

/- The sum of the amounts. -/
def total
    (amount : ρ → A)
    (rows : List ρ) : A :=
  (rows.map amount).sum

@[simp] theorem total_nil :
    total amount [] = 0 := rfl

@[simp] theorem total_cons :
    total amount (r :: rows) =
      amount r + total amount rows := by
  simp [total]

theorem total_append :
    total amount (rows ++ [r]) =
      total amount rows + amount r := by
  simp [total]

/- The total of a selection after one more entry. -/
theorem total_filter_append
    (p : ρ → Bool) :
    total amount ((rows ++ [r]).filter p) =
      total amount (rows.filter p) +
        if p r then amount r else 0 := by
  by_cases hp : p r = true <;> simp [total, hp]

/- A selection and its complement make up the total. -/
theorem total_split
    (p : ρ → Bool)
    (rows : List ρ) :
    total amount rows =
      total amount (rows.filter p) +
        total amount (rows.filter (fun r => !p r)) := by
  induction rows with
  | nil => simp
  | cons r rows ih =>
      by_cases hp : p r = true
      · simp [hp, ih, add_assoc]
      · simp [hp, ih, add_left_comm]

------------------------------------------------------------
-- Running Totals
------------------------------------------------------------

/-
  The snapshot of every entry is the total up to it, the
  entry included.
-/
def Running
    (amount snapshot : ρ → A)
    (rows : List ρ) : Prop :=
  ∀ before r after,
    rows = before ++ r :: after →
      snapshot r = total amount before + amount r

theorem running_nil :
    Running amount snapshot [] := by
  intro before r after hRows
  simp at hRows

/- An entry with the new total keeps a journal running. -/
theorem running_append
    (hRunning : Running amount snapshot rows)
    (hLast :
      snapshot r = total amount rows + amount r) :
    Running amount snapshot (rows ++ [r]) := by
  intro before r' after hRows
  rcases List.eq_nil_or_concat after with
    hNil | ⟨after', last, hConcat⟩
  · subst hNil
    have hEq := List.append_inj' hRows rfl
    have hHead : r = r' := by simpa using hEq.2
    rw [← hEq.1, ← hHead]
    exact hLast
  · subst hConcat
    have hRows' :
        rows ++ [r] =
          (before ++ r' :: after') ++ [last] := by
      simpa using hRows
    have hEq := List.append_inj' hRows' rfl
    exact hRunning before r' after' hEq.1

end Totals

------------------------------------------------------------
-- Totals of Signed Entries
------------------------------------------------------------

/- A sum of positive amounts vanishes only when empty. -/
theorem total_eq_zero_iff
    {ρ : Type}
    {amount : ρ → Int}
    {rows : List ρ}
    (hPositive : ∀ r ∈ rows, 0 < amount r) :
    total amount rows = 0 ↔ rows = [] := by
  constructor
  · intro hZero
    cases rows with
    | nil => rfl
    | cons r rows =>
        have hNonneg : 0 ≤ total amount rows := by
          apply List.sum_nonneg
          intro a hMem
          rcases List.mem_map.mp hMem with ⟨r', hr', rfl⟩
          exact
            (hPositive r' (List.mem_cons_of_mem _ hr')).le
        have hHead := hPositive r List.mem_cons_self
        rw [total_cons] at hZero
        omega
  · rintro rfl
    rfl

end Accounting
