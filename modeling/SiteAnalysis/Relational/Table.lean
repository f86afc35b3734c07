import Mathlib.Data.List.Basic
import Mathlib.Data.List.Nodup

/-
  This file defines tables: lists of rows with a key, in the
  order in which the rows were inserted.

  Key definitions include:
    * `Table.find`
    * `Table.update`
    * `Table.put`
    * `Table.Keyed`

  Key theorems include:
    * `Table.find_update_self`
    * `Table.find_update_of_ne`
    * `Table.find_append_of_ne`
    * `Table.find_put_self`
    * `Table.keyed_update`
    * `Table.keyed_append`
    * `Table.update_append_self`
    * `Table.countP_of_find`
    * `Table.countP_update`
-/

------------------------------------------------------------
-- Keyed Rows
------------------------------------------------------------

namespace Relational

namespace Table

variable {ρ κ : Type} [DecidableEq κ]

/- The first row with the key `k`. -/
def find
    (key : ρ → κ)
    (k : κ)
    (rows : List ρ) : Option ρ :=
  rows.find? (fun r => key r = k)

/- Rewrite the rows with the key `k`. -/
def update
    (key : ρ → κ)
    (k : κ)
    (f : ρ → ρ)
    (rows : List ρ) : List ρ :=
  rows.map (fun r => if key r = k then f r else r)

/- Rewrite the row with the key of `row`, or append it. -/
def put
    (key : ρ → κ)
    (row : ρ)
    (rows : List ρ) : List ρ :=
  match find key (key row) rows with
  | some _ => update key (key row) (fun _ => row) rows
  | none => rows ++ [row]

/- No two rows share a key. -/
def Keyed
    (key : ρ → κ)
    (rows : List ρ) : Prop :=
  (rows.map key).Nodup

variable {key : ρ → κ} {k k' : κ}
variable {f : ρ → ρ} {rows : List ρ} {r : ρ}

theorem mem_of_find
    (hFind : find key k rows = some r) : r ∈ rows :=
  List.mem_of_find?_eq_some hFind

theorem key_of_find
    (hFind : find key k rows = some r) : key r = k := by
  simpa using List.find?_some hFind

theorem find_eq_none_iff :
    find key k rows = none ↔ ∀ r ∈ rows, key r ≠ k := by
  simp [find]

/- In a keyed table every row is found under its key. -/
theorem find_of_mem
    (hKeyed : Keyed key rows)
    (hMem : r ∈ rows) :
    find key (key r) rows = some r := by
  induction rows with
  | nil => cases hMem
  | cons head tail ih =>
      rw [Keyed, List.map_cons, List.nodup_cons] at hKeyed
      rcases List.mem_cons.mp hMem with hHead | hTail
      · subst hHead
        simp [find]
      · have hNe : key head ≠ key r := by
          intro hEq
          exact hKeyed.1
            (hEq ▸ List.mem_map_of_mem hTail)
        simpa [find, hNe] using ih hKeyed.2 hTail

/- In a keyed table a row that is found is the only one. -/
theorem filter_eq_singleton_iff
    (hKeyed : Keyed key rows) :
    rows.filter (fun row => key row = k) = [r] ↔
      find key k rows = some r := by
  constructor
  · intro hFilter
    rw [find, ← List.head?_filter, hFilter]
    rfl
  · intro hFind
    induction rows with
    | nil => cases hFind
    | cons head tail ih =>
        rw [Keyed, List.map_cons, List.nodup_cons] at hKeyed
        by_cases hHead : key head = k
        · have hSame : head = r := by
            simpa [find, hHead] using hFind
          have hNone : ∀ row ∈ tail, key row ≠ k := by
            intro row hMem hKey
            apply hKeyed.1
            rw [hHead, ← hKey]
            exact List.mem_map_of_mem hMem
          have hRest :
              tail.filter (fun row => key row = k) = [] := by
            simpa using hNone
          rw [List.filter_cons_of_pos (by simpa using hHead),
            hRest, hSame]
        · have hTail : find key k tail = some r := by
            simpa [find, hHead] using hFind
          rw [List.filter_cons_of_neg (by simpa using hHead)]
          exact ih hKeyed.2 hTail

theorem find_update_self
    (hKey : ∀ r, key r = k → key (f r) = k) :
    find key k (update key k f rows) =
      (find key k rows).map f := by
  induction rows with
  | nil => rfl
  | cons head tail ih =>
      by_cases hHead : key head = k
      · simp [find, update, hHead, hKey head hHead]
      · simpa [find, update, hHead] using ih

theorem find_update_of_ne
    (hKey : ∀ r, key r = k → key (f r) = k)
    (hNe : k' ≠ k) :
    find key k' (update key k f rows) =
      find key k' rows := by
  induction rows with
  | nil => rfl
  | cons head tail ih =>
      by_cases hHead : key head = k
      · have hMiss : ¬ key (f head) = k' := by
          rw [hKey head hHead]
          exact fun hEq => hNe hEq.symm
        have hMiss' : ¬ key head = k' := by
          rw [hHead]
          exact fun hEq => hNe hEq.symm
        simpa [find, update, hHead, hMiss, hMiss',
          Ne.symm hNe] using ih
      · by_cases hFound : key head = k'
        · simp [find, update, hFound, hNe]
        · simpa [find, update, hHead, hFound] using ih

theorem find_append_of_ne
    (hNe : key r ≠ k) :
    find key k (rows ++ [r]) = find key k rows := by
  simp [find, hNe]

theorem find_append_self
    (hFresh : find key (key r) rows = none) :
    find key (key r) (rows ++ [r]) = some r := by
  have hNone := hFresh
  rw [find] at hNone
  simp [find, hNone]

/- What was found before is found still. -/
theorem find_append_of_some
    {found : ρ}
    (hFind : find key k rows = some found) :
    find key k (rows ++ [r]) = some found := by
  unfold find at *
  rw [List.find?_append, hFind]
  rfl

/- The row that was put is found. -/
theorem find_put_self :
    find key (key r) (put key r rows) = some r := by
  unfold put
  split
  · rename_i old hFind
    rw [find_update_self (fun _ _ => rfl), hFind]
    rfl
  · rename_i hNone
    exact find_append_self hNone

theorem find_put_of_ne
    (hNe : k ≠ key r) :
    find key k (put key r rows) = find key k rows := by
  unfold put
  split
  · exact find_update_of_ne (fun _ _ => rfl) hNe
  · exact find_append_of_ne (Ne.symm hNe)

theorem update_keys
    (hKey : ∀ r, key r = k → key (f r) = k) :
    (update key k f rows).map key = rows.map key := by
  rw [update, List.map_map]
  apply List.map_congr_left
  intro r _
  by_cases hr : key r = k
  · simp [hr, hKey r hr]
  · simp [hr]

theorem keyed_update
    (hKey : ∀ r, key r = k → key (f r) = k)
    (hKeyed : Keyed key rows) :
    Keyed key (update key k f rows) := by
  rw [Keyed, update_keys hKey]
  exact hKeyed

theorem keyed_append
    (hKeyed : Keyed key rows)
    (hFresh : find key (key r) rows = none) :
    Keyed key (rows ++ [r]) := by
  rw [find_eq_none_iff] at hFresh
  rw [Keyed, List.map_append, List.map_singleton]
  apply List.Nodup.append hKeyed (List.nodup_singleton _)
  intro k hOld hNew
  rcases List.mem_map.mp hOld with ⟨row, hRow, rfl⟩
  exact hFresh row hRow (List.mem_singleton.mp hNew)

theorem keyed_put
    (hKeyed : Keyed key rows) :
    Keyed key (put key r rows) := by
  unfold put
  split
  · exact keyed_update (fun _ _ => rfl) hKeyed
  · rename_i hNone
    exact keyed_append hKeyed hNone

/- Membership after an update. -/
theorem mem_update
    (hMem : r ∈ update key k f rows) :
    (r ∈ rows ∧ key r ≠ k) ∨
      ∃ old ∈ rows, key old = k ∧ r = f old := by
  rcases List.mem_map.mp hMem with ⟨old, hOld, hEq⟩
  by_cases hKey : key old = k
  · rw [if_pos hKey] at hEq
    exact Or.inr ⟨old, hOld, hKey, hEq.symm⟩
  · rw [if_neg hKey] at hEq
    subst hEq
    exact Or.inl ⟨hOld, hKey⟩

theorem mem_put
    {row : ρ}
    (hMem : row ∈ put key r rows) :
    row ∈ rows ∨ row = r := by
  unfold put at hMem
  split at hMem
  · rcases mem_update hMem with ⟨hOld, _⟩ | ⟨_, _, _, hNew⟩
    · exact Or.inl hOld
    · exact Or.inr hNew
  · rcases List.mem_append.mp hMem with hOld | hNew
    · exact Or.inl hOld
    · exact Or.inr (List.mem_singleton.mp hNew)

/- A selection that has no row with the key. -/
theorem filter_update
    (p : ρ → Bool)
    (hOld : ∀ r, key r = k → p r = false)
    (hNew : ∀ r, key r = k → p (f r) = false) :
    (update key k f rows).filter p = rows.filter p := by
  induction rows with
  | nil => rfl
  | cons head tail ih =>
      rw [update] at ih
      by_cases hHead : key head = k
      · simp [update, hHead, hOld head hHead,
          hNew head hHead, ih]
      · simp [update, hHead, List.filter_cons, ih]

/- A row without the key is not touched. -/
theorem update_of_find_none
    (hNone : find key k rows = none) :
    update key k f rows = rows := by
  rw [find_eq_none_iff] at hNone
  rw [update]
  conv_rhs => rw [← List.map_id rows]
  apply List.map_congr_left
  intro r hr
  simp [hNone r hr]

/- Rewriting rows twice under one key. -/
theorem update_update
    {g : ρ → ρ}
    (hKey : ∀ r, key r = k → key (f r) = k) :
    update key k g (update key k f rows) =
      update key k (fun r => g (f r)) rows := by
  rw [update, update, update, List.map_map]
  apply List.map_congr_left
  intro r _
  by_cases hr : key r = k
  · simp [hr, hKey r hr]
  · simp [hr]

/- Rewriting the row that was inserted last. -/
theorem update_append_self
    (hFresh : find key (key r) rows = none) :
    update key (key r) f (rows ++ [r]) = rows ++ [f r] := by
  have hRows := update_of_find_none (f := f) hFresh
  rw [update] at hRows
  rw [update, List.map_append, hRows]
  simp

/-
  Two predicates that differ on the one row with a key count
  as they differ on that row.
-/
theorem countP_of_find
    {p p' : ρ → Bool}
    (hKeyed : Keyed key rows)
    (hFind : find key k rows = some r)
    (hSame : ∀ row ∈ rows, key row ≠ k → p' row = p row) :
    rows.countP p' + (p r).toNat =
      rows.countP p + (p' r).toNat := by
  induction rows with
  | nil => cases hFind
  | cons head tail ih =>
      rw [Keyed, List.map_cons, List.nodup_cons] at hKeyed
      rw [List.countP_cons, List.countP_cons]
      by_cases hHead : key head = k
      · have hEq : head = r := by
          simpa [find, hHead] using hFind
        subst hEq
        have hTail : tail.countP p' = tail.countP p := by
          apply List.countP_congr
          intro row hRow
          rw [hSame row (List.mem_cons_of_mem _ hRow)]
          intro hKey
          apply hKeyed.1
          rw [hHead, ← hKey]
          exact List.mem_map_of_mem hRow
        rw [hTail]
        cases p head <;> cases p' head <;> simp
      · have hTail : find key k tail = some r := by
          simpa [find, hHead] using hFind
        have hCount :=
          ih hKeyed.2 hTail
            (fun row hRow =>
              hSame row (List.mem_cons_of_mem _ hRow))
        rw [hSame head List.mem_cons_self hHead]
        omega

/-
  Rewriting the one row with a key moves a count by what the
  predicate says of the old and of the new row.
-/
theorem countP_update
    (p : ρ → Bool)
    (hKeyed : Keyed key rows)
    (hFind : find key k rows = some r) :
    (update key k f rows).countP p + (p r).toNat =
      rows.countP p + (p (f r)).toNat := by
  have hKey : key r = k := key_of_find hFind
  have hCount :
      rows.countP
            (p ∘ fun r => if key r = k then f r else r) +
          (p r).toNat =
        rows.countP p +
          ((p ∘ fun r => if key r = k then f r else r)
            r).toNat := by
    apply countP_of_find hKeyed hFind
    intro row _ hNe
    simp [hNe]
  rw [update, List.countP_map]
  simpa [hKey] using hCount

------------------------------------------------------------
-- Selections
------------------------------------------------------------

omit [DecidableEq κ] in
theorem keyed_filter
    (p : ρ → Bool)
    (hKeyed : Keyed key rows) :
    Keyed key (rows.filter p) :=
  List.Nodup.sublist (List.filter_sublist.map key) hKeyed

/- A selection that has all the rows with the key. -/
theorem find_filter
    (p : ρ → Bool)
    (hPicks : ∀ r, key r = k → p r = true) :
    find key k (rows.filter p) = find key k rows := by
  rw [find, find, List.find?_filter]
  congr 1
  funext r
  by_cases hKey : key r = k
  · simp [hKey, hPicks r hKey]
  · simp [hKey]

/- A change of rows that a selection does not notice. -/
theorem update_filter
    (p : ρ → Bool)
    (hSame : ∀ r, key r = k → p (f r) = p r) :
    (update key k f rows).filter p =
      update key k f (rows.filter p) := by
  rw [update, update, List.filter_map]
  congr 1
  apply List.filter_congr
  intro r _
  by_cases hKey : key r = k
  · simp [hKey, hSame r hKey]
  · simp [hKey]

theorem put_filter
    (p : ρ → Bool)
    (hPicks : ∀ r', key r' = key r → p r' = true) :
    (put key r rows).filter p =
      put key r (rows.filter p) := by
  unfold put
  rw [find_filter p hPicks]
  split
  · apply update_filter
    intro r' hKey
    rw [hPicks r rfl, hPicks r' hKey]
  · rw [List.filter_append]
    simp [hPicks r rfl]

theorem filter_put
    (p : ρ → Bool)
    (hNone : ∀ r', key r' = key r → p r' = false) :
    (put key r rows).filter p = rows.filter p := by
  unfold put
  split
  · exact filter_update p hNone (fun _ _ => hNone r rfl)
  · rw [List.filter_append]
    simp [hNone r rfl]

omit [DecidableEq κ] in
/- What is left out is not in the selection. -/
theorem filter_filter_not
    {p q : ρ → Bool}
    (hApart : ∀ r ∈ rows, p r = true → q r = false) :
    (rows.filter (fun r => !p r)).filter q =
      rows.filter q := by
  rw [List.filter_filter]
  apply List.filter_congr
  intro r hRow
  cases hLeft : p r with
  | false => simp
  | true => simp [hApart r hRow hLeft]

/- New rows of one owner, in the selection of an owner. -/
theorem filter_append_owned
    {new : List ρ}
    (owner : ρ → κ)
    (hNew : ∀ r ∈ new, owner r = k)
    (k' : κ) :
    (rows ++ new).filter (fun r => owner r = k') =
      if k' = k then
        rows.filter (fun r => owner r = k) ++ new
      else
        rows.filter (fun r => owner r = k') := by
  rw [List.filter_append]
  split
  · rename_i hSame
    have hAll : new.filter (fun r => owner r = k) = new :=
      List.filter_eq_self.mpr
        (fun r hRow => decide_eq_true (hNew r hRow))
    rw [hSame, hAll]
  · rename_i hNe
    have hNone :
        new.filter (fun r => owner r = k') = [] := by
      apply List.filter_eq_nil_iff.mpr
      intro r hRow
      rw [hNew r hRow]
      simpa using Ne.symm hNe
    rw [hNone, List.append_nil]

end Table

end Relational
