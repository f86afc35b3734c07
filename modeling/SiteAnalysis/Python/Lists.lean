import Mathlib.Data.List.Basic

/-
  This file defines two lists that loops build: one that
  grows up to a cap, as a sample of what is counted, and one
  that only takes what it has not taken before.

  Key definitions include:
    * `appendCapped`
    * `firstBy`
    * `appendNew`

  Key theorems include:
    * `foldl_appendCapped`
    * `mem_firstBy_iff`
    * `foldl_appendNew`
-/

------------------------------------------------------------
-- Capped Lists
------------------------------------------------------------

namespace Python

variable {α : Type}

/- `if len(xs) < cap: xs.append(x)` -/
def appendCapped
    (cap : Int)
    (xs : List α)
    (x : α) : List α :=
  if (xs.length : Int) < cap then xs ++ [x] else xs

/- A loop that appends up to a cap keeps a first part. -/
theorem foldl_appendCapped
    (cap : Int)
    (before xs : List α) :
    xs.foldl (appendCapped cap) before =
      before ++ xs.take (cap.toNat - before.length) := by
  induction xs generalizing before with
  | nil => simp
  | cons x xs ih =>
      rw [List.foldl_cons, ih]
      unfold appendCapped
      split
      · rename_i hRoom
        have hLeft :
            cap.toNat - before.length =
              (cap.toNat - (before ++ [x]).length) + 1 := by
          rw [List.length_append, List.length_singleton]
          omega
        rw [hLeft, List.take_succ_cons, List.append_assoc]
        rfl
      · have hFull : cap.toNat - before.length = 0 := by
          omega
        rw [hFull, List.take_zero, List.take_zero]

------------------------------------------------------------
-- First Occurrences
------------------------------------------------------------

section FirstOccurrences

variable {β : Type} [DecidableEq β]
variable {key : α → β} {x : α} {xs : List α}

/- The elements with a key that no earlier element has. -/
def firstBy (key : α → β) : List α → List α
| [] => []
| x :: xs =>
    x :: (firstBy key xs).filter (fun y => key y ≠ key x)

/- Append an element unless its key has been seen. -/
def appendNew
    (key : α → β)
    (xs : List α)
    (x : α) : List α :=
  if xs.any (fun y => key y = key x) then xs else xs ++ [x]

/- An element is listed if no element before it has its key. -/
theorem mem_firstBy_iff :
    x ∈ firstBy key xs ↔
      ∃ before after, xs = before ++ x :: after ∧
        ∀ y ∈ before, key y ≠ key x := by
  induction xs with
  | nil => simp [firstBy]
  | cons head rest ih =>
      rw [firstBy, List.mem_cons, List.mem_filter, ih]
      constructor
      · rintro (rfl | ⟨⟨before, after, rfl, hNew⟩, hNe⟩)
        · refine ⟨[], rest, rfl, ?_⟩
          exact fun _ hMem => by cases hMem
        · refine ⟨head :: before, after, rfl, ?_⟩
          rw [List.forall_mem_cons]
          refine ⟨?_, hNew⟩
          exact fun hSame =>
            of_decide_eq_true hNe hSame.symm
      · rintro ⟨before, after, hSplit, hNew⟩
        cases before with
        | nil =>
            rw [List.nil_append, List.cons.injEq] at hSplit
            exact Or.inl hSplit.1.symm
        | cons first before =>
            rw [List.cons_append, List.cons.injEq] at hSplit
            rcases hSplit with ⟨rfl, rfl⟩
            rw [List.forall_mem_cons] at hNew
            refine Or.inr ⟨⟨before, after, rfl, hNew.2⟩, ?_⟩
            exact decide_eq_true (Ne.symm hNew.1)

/- No two listed elements share a key. -/
theorem nodup_firstBy
    (key : α → β)
    (xs : List α) :
    ((firstBy key xs).map key).Nodup := by
  induction xs with
  | nil => exact List.nodup_nil
  | cons head rest ih =>
      rw [firstBy, List.map_cons, List.nodup_cons]
      constructor
      · intro hMem
        rcases List.mem_map.mp hMem with ⟨y, hy, hSame⟩
        exact
          of_decide_eq_true (List.mem_filter.mp hy).2 hSame
      · exact ih.sublist (List.filter_sublist.map key)

/- Every key of the list is listed. -/
theorem mem_map_firstBy
    {k : β} :
    k ∈ (firstBy key xs).map key ↔ k ∈ xs.map key := by
  induction xs with
  | nil => exact Iff.rfl
  | cons head rest ih =>
      simp only [List.mem_map] at ih
      by_cases hSame : key head = k
      · simp [firstBy, hSame]
      · rw [firstBy, List.map_cons, List.map_cons,
          List.mem_cons, List.mem_cons, List.mem_map,
          List.mem_map, ← ih]
        constructor
        · rintro (hHead | ⟨y, hy, hKey⟩)
          · exact Or.inl hHead
          · exact
              Or.inr ⟨y, (List.mem_filter.mp hy).1, hKey⟩
        · rintro (hHead | ⟨y, hy, hKey⟩)
          · exact Or.inl hHead
          · refine
              Or.inr ⟨y, List.mem_filter.mpr ⟨hy, ?_⟩, hKey⟩
            apply decide_eq_true
            rw [hKey]
            exact Ne.symm hSame

/- The order is that of the list. -/
theorem sublist_firstBy
    (key : α → β)
    (xs : List α) :
    (firstBy key xs).Sublist xs := by
  induction xs with
  | nil => exact List.Sublist.slnil
  | cons head rest ih =>
      exact (List.filter_sublist.trans ih).cons_cons head

/- A loop that appends what is new. -/
theorem foldl_appendNew
    (key : α → β)
    (before xs : List α) :
    xs.foldl (appendNew key) before =
      before ++
        (firstBy key xs).filter
          (fun x => !before.any (fun y => key y = key x)) := by
  induction xs generalizing before with
  | nil => simp [firstBy]
  | cons head rest ih =>
      rw [List.foldl_cons, ih, appendNew, firstBy]
      split
      · rename_i hSeen
        rw [List.filter_cons_of_neg (by simp [hSeen]),
          List.filter_filter]
        congr 1
        apply List.filter_congr
        intro x _
        by_cases hSame : key x = key head
        · simp [hSame, hSeen]
        · simp [hSame]
      · rename_i hNew
        rw [List.filter_cons_of_pos (by simp [hNew]),
          List.filter_filter, List.append_assoc,
          List.singleton_append]
        congr 2
        apply List.filter_congr
        intro x _
        rw [List.any_append, Bool.not_or]
        congr 1
        simp [eq_comm]

end FirstOccurrences

end Python
