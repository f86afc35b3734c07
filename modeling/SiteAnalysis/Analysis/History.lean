import SiteAnalysis.Analysis.Service

/-
  This file defines what the rollups do to the history table:
  the rows of other users stay, and no row disappears or
  counts less.

  Key definitions include:
    * `Grows`
    * `Touches`
    * `Reflects`

  Key theorems include:
    * `touches_insertHistory`
    * `touches_updateHistory`
    * `reflects_of_grows`
-/

------------------------------------------------------------
-- Changes of the History
------------------------------------------------------------

namespace SiteAnalysis.Analysis

open Relational
open Reports

/- Every row that is shown stays, with at least its count. -/
def Grows (d d' : Db) : Prop :=
  ∀ row ∈ d.histories, row.isDeleted = false →
    ∃ row' ∈ d'.histories, row'.key = row.key ∧
      row'.isDeleted = false ∧
        row.reportsCount ≤ row'.reportsCount

/- A change of one user's history and of nothing else. -/
structure Touches
    (user : UserId)
    (d d' : Db) : Prop where
  reports : d'.reports = d.reports
  cache : d'.cache = d.cache
  posts : d'.posts = d.posts
  grows : Grows d d'
  others :
    ∀ user', user' ≠ user → d'.history user' = d.history user'

/- The list shows every row of the user that `d` shows. -/
def Reflects
    (list : List AnalysisHistory)
    (user : UserId)
    (d : Db) : Prop :=
  ∀ row ∈ d.histories, row.user = user →
    row.isDeleted = false →
      ∃ row' ∈ list, row'.url = row.url ∧
        row.reportsCount ≤ row'.reportsCount

variable {d d' d'' : Db} {user : UserId} {key : HistoryKey}
variable {now : Time}

theorem grows_refl
    (d : Db) : Grows d d := by
  intro row hMem hShown
  exact ⟨row, hMem, rfl, hShown, le_refl _⟩

theorem Grows.trans
    (hLeft : Grows d d')
    (hRight : Grows d' d'') : Grows d d'' := by
  intro row hMem hShown
  rcases hLeft row hMem hShown with
    ⟨row', hMem', hKey, hShown', hCount⟩
  rcases hRight row' hMem' hShown' with
    ⟨row'', hMem'', hKey', hShown'', hCount'⟩
  exact
    ⟨row'', hMem'', hKey'.trans hKey, hShown'',
      hCount.trans hCount'⟩

theorem grows_of_histories
    (hSame : d'.histories = d.histories) : Grows d d' := by
  intro row hMem hShown
  rw [← hSame] at hMem
  exact ⟨row, hMem, rfl, hShown, le_refl _⟩

theorem touches_refl
    (d : Db) : Touches user d d where
  reports := rfl
  cache := rfl
  posts := rfl
  grows := grows_refl d
  others := fun _ _ => rfl

theorem Touches.trans
    (hLeft : Touches user d d')
    (hRight : Touches user d' d'') :
    Touches user d d'' where
  reports := hRight.reports.trans hLeft.reports
  cache := hRight.cache.trans hLeft.cache
  posts := hRight.posts.trans hLeft.posts
  grows := hLeft.grows.trans hRight.grows
  others := fun user' hNe =>
    (hRight.others user' hNe).trans (hLeft.others user' hNe)

theorem touches_insertHistory
    (row : AnalysisHistory)
    (d : Db) :
    Touches row.user d (insertHistory row d) where
  reports := rfl
  cache := rfl
  posts := rfl
  grows := by
    intro old hMem hShown
    exact
      ⟨old, List.mem_append_left _ hMem, rfl, hShown,
        le_refl _⟩
  others := by
    intro user' hNe
    have hOther : ¬ row.user = user' := fun h => hNe h.symm
    simp [Db.history, insertHistory, hOther]

theorem touches_updateHistory
    (key : HistoryKey)
    (now : Time)
    (d : Db) :
    Touches key.1 d (updateHistory key (.increment now) d)
    where
  reports := rfl
  cache := rfl
  posts := rfl
  grows := by
    intro old hMem hShown
    by_cases hKey : old.key = key
    · refine ⟨old.increment now, ?_, rfl, hShown, ?_⟩
      · apply List.mem_map.mpr
        exact ⟨old, hMem, if_pos hKey⟩
      · simp [AnalysisHistory.increment]
    · refine ⟨old, ?_, rfl, hShown, le_refl _⟩
      apply List.mem_map.mpr
      exact ⟨old, hMem, if_neg hKey⟩
  others := by
    intro user' hNe
    have hRows :
        ((updateHistory key (.increment now)
              d).histories.filter
            (fun row =>
              row.user = user' ∧ row.isDeleted = false)) =
          d.histories.filter
            (fun row =>
              row.user = user' ∧ row.isDeleted = false) := by
      have hOther :
          ∀ row : AnalysisHistory, row.key = key →
            ¬ row.user = user' := by
        intro row hKey hUser
        apply hNe
        rw [← hUser, ← hKey]
        rfl
      apply Table.filter_update
      · intro row hKey
        simp [hOther row hKey]
      · intro row hKey
        have hSame : (row.increment now).user = row.user := rfl
        simp [hSame, hOther row hKey]
    rw [Db.history, Db.history, hRows]

/- The history of a user, as a set of rows. -/
theorem mem_history
    {row : AnalysisHistory} :
    row ∈ d.history user ↔
      row ∈ d.histories ∧ row.user = user ∧
        row.isDeleted = false := by
  simp [Db.history]

/- A history that was read later shows what was there. -/
theorem reflects_of_grows
    (hGrows : Grows d d') :
    Reflects (d'.history user) user d := by
  intro row hMem hUser hShown
  rcases hGrows row hMem hShown with
    ⟨row', hMem', hKey, hShown', hCount⟩
  have hUser' : row'.user = user :=
    (congrArg Prod.fst hKey).trans hUser
  exact
    ⟨row', mem_history.mpr ⟨hMem', hUser', hShown'⟩,
      congrArg Prod.snd hKey, hCount⟩

end SiteAnalysis.Analysis
