import Mathlib.Data.List.Basic

/-
  This file defines what a computation that may raise yields,
  and when it does not raise.

  Whatever it returns has a property, and it returns where a
  condition holds.  One derivation then shows both what comes
  out and that something does.

  Key definitions include:
    * `Yields`

  Key theorems include:
    * `yields_bind`
    * `yields_mapM`
    * `Yields.returns`
-/

------------------------------------------------------------
-- Guarded Results
------------------------------------------------------------

namespace Python

universe u v w

variable {ε : Type u} {α : Type v} {β : Type w}
variable {C C' : Prop}

/- A result is a `P`, and there is one where `C` holds. -/
def Yields
    (C : Prop)
    (m : Except ε α)
    (P : α → Prop) : Prop :=
  match m with
  | .ok a => P a
  | .error _ => ¬ C

theorem Yields.holds
    {m : Except ε α}
    {P : α → Prop}
    {a : α}
    (hYields : Yields C m P)
    (hOk : m = .ok a) : P a := by
  subst hOk
  exact hYields

theorem Yields.returns
    {m : Except ε α}
    {P : α → Prop}
    (hYields : Yields C m P)
    (hC : C) : ∃ a, m = .ok a ∧ P a := by
  cases m with
  | error e => exact absurd hC hYields
  | ok a => exact ⟨a, rfl, hYields⟩

theorem Yields.mono
    {m : Except ε α}
    {P P' : α → Prop}
    (hYields : Yields C m P)
    (hP : ∀ a, P a → P' a)
    (hC : C' → C) : Yields C' m P' := by
  cases m with
  | error e => exact fun hC' => hYields (hC hC')
  | ok a => exact hP a hYields

theorem yields_of_returns
    {m : Except ε α}
    (hReturns : C → ∃ a, m = .ok a) :
    Yields C m (fun _ => True) := by
  cases m with
  | error e =>
      intro hC
      rcases hReturns hC with ⟨a, hOk⟩
      cases hOk
  | ok a => exact trivial

theorem yields_pure
    {P : α → Prop}
    {a : α}
    (hA : P a) :
    Yields C (pure a : Except ε α) P := hA

end Python

------------------------------------------------------------
-- Sequences
------------------------------------------------------------

namespace Python

universe u v

variable {ε : Type u} {α β : Type v}
variable {C : Prop}

theorem yields_bind
    {m : Except ε α}
    {f : α → Except ε β}
    {P : α → Prop}
    {Q : β → Prop}
    (hFirst : Yields C m P)
    (hThen : ∀ a, P a → Yields C (f a) Q) :
    Yields C (m >>= f) Q := by
  cases m with
  | error e => exact hFirst
  | ok a => exact hThen a hFirst

/- The loop over a list, with one property for each round. -/
theorem yields_mapM
    {f : α → Except ε β}
    {P : β → Prop}
    (xs : List α)
    (hRound : ∀ x ∈ xs, Yields C (f x) P) :
    Yields C (xs.mapM f)
      (fun ys =>
        ys.length = xs.length ∧ ∀ y ∈ ys, P y) := by
  induction xs with
  | nil => exact ⟨rfl, fun _ hMem => by cases hMem⟩
  | cons x xs ih =>
      rw [List.mapM_cons]
      refine yields_bind (hRound x List.mem_cons_self) ?_
      intro y hY
      refine
        yields_bind
          (ih (fun x' hMem =>
            hRound x' (List.mem_cons_of_mem _ hMem))) ?_
      rintro ys ⟨hLength, hAll⟩
      refine yields_pure ⟨by simp [hLength], ?_⟩
      intro y' hMem
      rcases List.mem_cons.mp hMem with hSame | hLater
      · exact hSame ▸ hY
      · exact hAll y' hLater

end Python
