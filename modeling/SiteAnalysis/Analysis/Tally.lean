import Mathlib.Data.Finset.Card
import Mathlib.Data.Finset.Image
import SiteAnalysis.Reports.Permanence

/-
  This file defines deliveries of the analysis task and what
  the counters of the history have to tally with.

  A rollup adds one to the counter of its user and its URL,
  whether or not the report has been counted before.  So the
  counters are those of the start and the rollups that have
  been committed since.

  Key definitions include:
    * `Delivery`
    * `startDeliveries`
    * `CountsOnce`
    * `historyCount`
    * `completedCount`
    * `Adds`
    * `Tallies`

  Key theorems include:
    * `adds_insertHistory`
    * `adds_updateHistory`
    * `Tallies.count`
-/

------------------------------------------------------------
-- Deliveries
------------------------------------------------------------

namespace SiteAnalysis.Analysis

open Concurrency
open Relational
open Python
open Reports

/- A delivery of `run_pagespeed_analysis`. -/
structure Delivery where
  reportId : ReportId
  retries : Nat
  now : Time

def startDeliveries
    (settings : PagespeedSettings)
    (repr : Json → String)
    (deliveries : Tid → Delivery)
    (d : Db) : AttemptWorld where
  shared := Store.quiet d
  threads := fun t =>
    .live
      (runPagespeedAnalysis settings repr
        (deliveries t).retries (deliveries t).reportId
        (deliveries t).now)

/- What a delivery returns that has processed its report. -/
def completedOutcome : TaskOutcome :=
  .returned ReportStatus.completed.value

/- A delivery of the report has processed it to the end. -/
def Processed
    (deliveries : Tid → Delivery)
    (w : AttemptWorld)
    (reportId : ReportId) : Prop :=
  ∃ t, (deliveries t).reportId = reportId ∧
    w.threads t = .live (.ret completedOutcome)

/-
  A rollup is committed only while no delivery has processed
  the report, and a failure is saved only while the report is
  not completed.
-/
def CountsOnce
    (deliveries : Tid → Delivery)
    (d : Db)
    (w : AttemptWorld) : Event (Choice Exc Reply) → Prop
| .step t c =>
    (∀ reportId,
      FailsUnfinished .analysis reportId w (.step t c)) ∧
      ((w.threads t).head = some .commit →
        (w.shared.frames t).length = 1 →
          ¬ IsCompleted .analysis (deliveries t).reportId d ∧
            ¬ Processed deliveries w (deliveries t).reportId)
| .lose _ => True

------------------------------------------------------------
-- Counts
------------------------------------------------------------

/- The counter of the user and the URL. -/
def historyCount
    (d : Db)
    (key : HistoryKey) : Int :=
  match d.findHistory key with
  | some row => row.reportsCount
  | none => 0

/- A completed report of the user and the URL. -/
def completedFor
    (key : HistoryKey)
    (row : AnalysisReport) : Bool :=
  row.status = .completed ∧ row.user = some key.1 ∧
    row.url = key.2

def completedCount
    (d : Db)
    (key : HistoryKey) : Nat :=
  (d.reports .analysis).countP (completedFor key)

theorem completedFor_eq_true
    {key : HistoryKey}
    {row : AnalysisReport} :
    completedFor key row = true ↔
      row.status = .completed ∧ row.user = some key.1 ∧
        row.url = key.2 := by
  simp [completedFor]

/- What no attempt changes of a report. -/
def owner
    (row : AnalysisReport) :
    ReportId × Option UserId × String :=
  (row.id, row.user, row.url)

def owners (d : Db) : List (ReportId × Option UserId × String) :=
  (d.reports .analysis).map owner

/- The reports keep their owners and their completion. -/
structure Steady (d d' : Db) : Prop where
  owners : owners d' = owners d
  completed :
    ∀ reportId, IsCompleted .analysis reportId d →
      IsCompleted .analysis reportId d'
  histories : d'.histories = d.histories

/- One more report of the user and the URL is counted. -/
structure Adds
    (key : HistoryKey)
    (d d' : Db) : Prop where
  reports : d'.reports = d.reports
  others :
    ∀ key', key' ≠ key →
      d'.findHistory key' = d.findHistory key'
  counted : historyCount d' key = historyCount d key + 1
  found : d'.findHistory key ≠ none

variable {repr : Json → String} {d d' d₀ : Db}
variable {key : HistoryKey} {now : Time}
variable {reportId : ReportId}

------------------------------------------------------------
-- Reports
------------------------------------------------------------

/- The table of the analysis reports has no key twice. -/
abbrev KeyedReports (d : Db) : Prop :=
  Table.Keyed Report.id (d.reports .analysis)

theorem ids_eq_owners
    (d : Db) :
    (d.reports .analysis).map Report.id =
      (owners d).map Prod.fst := by
  simp [owners, owner]

theorem keyed_of_owners
    (hOwners : owners d' = owners d)
    (hKeyed : KeyedReports d) : KeyedReports d' := by
  unfold KeyedReports Table.Keyed at *
  rw [ids_eq_owners, hOwners, ← ids_eq_owners]
  exact hKeyed

/- The owners say under which ids there are reports. -/
theorem find_owners
    (d : Db)
    (reportId : ReportId) :
    (owners d).find? (fun o => o.1 = reportId) =
      (d.find .analysis reportId).map owner := by
  unfold owners Db.find Table.find
  rw [List.find?_map]
  rfl

/- A report keeps its owner. -/
theorem owner_of_find
    {row : AnalysisReport}
    (hOwners : owners d' = owners d)
    (hFind : d.find .analysis reportId = some row) :
    ∃ row', d'.find .analysis reportId = some row' ∧
      owner row' = owner row := by
  have hSame := find_owners d' reportId
  rw [hOwners, find_owners, hFind] at hSame
  cases hFind' : d'.find .analysis reportId with
  | none =>
      rw [hFind'] at hSame
      cases hSame
  | some row' =>
      rw [hFind'] at hSame
      exact ⟨row', rfl, (Option.some.inj hSame).symm⟩

theorem steady_refl
    (d : Db) : Steady d d where
  owners := rfl
  completed := fun _ hCompleted => hCompleted
  histories := rfl

/- Neither the reports nor the history have changed. -/
theorem steady_of_reports
    (hReports : d'.reports .analysis = d.reports .analysis)
    (hHistories : d'.histories = d.histories) :
    Steady d d' where
  owners := by
    unfold owners
    rw [hReports]
  completed := by
    intro reportId hCompleted
    unfold IsCompleted Db.find at *
    rw [hReports]
    exact hCompleted
  histories := hHistories

/- A row is written over one with the same owner. -/
theorem steady_put
    {row old : AnalysisReport}
    (hKeyed : KeyedReports d)
    (hFind : d.find .analysis row.id = some old)
    (hOwner : owner row = owner old)
    (hStatus : old.status = .completed →
      row.status = .completed) :
    Steady d (putReport row d) where
  owners := by
    have hRows :
        (putReport row d).reports .analysis =
          Table.update Report.id row.id (fun _ => row)
            (d.reports .analysis) := by
      simp only [putReport, Function.update_self, putRow]
      unfold Db.find at hFind
      rw [hFind]
    unfold owners
    rw [hRows, Table.update, List.map_map]
    apply List.map_congr_left
    intro r hMem
    by_cases hId : r.id = row.id
    · have hSame := Table.find_of_mem hKeyed hMem
      rw [hId] at hSame
      unfold Db.find at hFind
      rw [hFind] at hSame
      cases hSame
      simp [hId, hOwner]
    · simp [hId]
  completed := by
    rintro reportId ⟨row', hFind', hCompleted⟩
    by_cases hId : reportId = row.id
    · subst hId
      rw [hFind] at hFind'
      cases hFind'
      exact
        ⟨row, find_putReport_self row d, hStatus hCompleted⟩
    · refine ⟨row', ?_, hCompleted⟩
      rw [find_putReport_of_ne d (fun _ => hId)]
      exact hFind'
  histories := rfl

------------------------------------------------------------
-- The History
------------------------------------------------------------

/- A change of the history that one rollup makes. -/
theorem adds_insertHistory
    (hNone : d.findHistory key = none) :
    Adds key d (insertHistory (firstHistory key now) d) := by
  have hKey : (firstHistory key now).key = key := rfl
  have hFind :
      (insertHistory (firstHistory key now) d).findHistory
          key =
        some (firstHistory key now) := by
    have hNone' :
        Table.find AnalysisHistory.key
            (firstHistory key now).key d.histories =
          none := hNone
    exact Table.find_append_self hNone'
  refine ⟨rfl, ?_, ?_, ?_⟩
  · intro key' hNe
    apply Table.find_append_of_ne
    rw [hKey]
    exact Ne.symm hNe
  · simp only [historyCount, hFind, hNone]
    rfl
  · simp [hFind]

theorem adds_updateHistory
    {row : AnalysisHistory}
    (hFind : d.findHistory key = some row) :
    Adds key d (updateHistory key (.increment now) d) := by
  have hKeeps :
      ∀ r : AnalysisHistory, r.key = key →
        (r.increment now).key = key := fun _ hKey => hKey
  have hAfter :
      (updateHistory key (.increment now) d).findHistory
          key =
        some (row.increment now) := by
    have hSelf :
        Table.find AnalysisHistory.key key
            (Table.update AnalysisHistory.key key
              (.increment now) d.histories) =
          (Table.find AnalysisHistory.key key
            d.histories).map (.increment now) :=
      Table.find_update_self hKeeps
    have hFind' :
        Table.find AnalysisHistory.key key d.histories =
          some row := hFind
    rw [hFind'] at hSelf
    exact hSelf
  refine ⟨rfl, ?_, ?_, ?_⟩
  · intro key' hNe
    exact Table.find_update_of_ne hKeeps hNe
  · simp [historyCount, hAfter, hFind,
      AnalysisHistory.increment]
  · simp [hAfter]

------------------------------------------------------------
-- Progress
------------------------------------------------------------

/-
  What is noted of a delivery: it has saved the completed
  report, it has found the row of the history, its rollup is
  committed, or there is nothing to roll up.
-/
inductive Progress
  | asking
  | saved (key : HistoryKey)
  | found (key : HistoryKey)
  | counted (key : HistoryKey)
  | untracked
deriving DecidableEq

def noteProgress :
    (q : Statement) → q.Answer → Db → Progress → Progress
| .saveReport .analysis object, _, _, _ =>
    match object.user with
    | some user => .saved (user, object.url)
    | none => .untracked
| .getHistory _, _, _, .saved key => .found key
| _, _, _, n => n

/- The end of the rollup's transaction. -/
def Progress.committed : Progress → Progress
| .saved key => .counted key
| .found key => .counted key
| n => n

/- A rollup that is committed is the end. -/
def Progress.Next : Progress → Option (TxOp Statement) → Prop
| .counted _, o => o = none
| _, _ => True

def Progress.Counted (n : Progress) : Prop :=
  ∃ key, n = .counted key

/- The report is stored, completed, for the key. -/
def StoredFor
    (reportId : ReportId)
    (key : HistoryKey)
    (d : Db) : Prop :=
  ∃ row, d.find .analysis reportId = some row ∧
    completedFor key row = true

/- What is noted of a delivery fits the data. -/
def Progress.Fits
    (reportId : ReportId)
    (d : Db) : Progress → Prop
| .asking => True
| .saved key => StoredFor reportId key d
| .found key =>
    StoredFor reportId key d ∧ d.findHistory key ≠ none
| .counted key => StoredFor reportId key d
| .untracked =>
    ∃ row, d.find .analysis reportId = some row ∧
      row.user = none

/-
  The counters are those of the start and the rollups that
  have been committed.
-/
structure Tallies
    (deliveries : Tid → Delivery)
    (d₀ d : Db)
    (ns : Tid → Progress) : Prop where
  owners : owners d = owners d₀
  completed :
    ∀ reportId, IsCompleted .analysis reportId d₀ →
      IsCompleted .analysis reportId d
  fits : ∀ t, (ns t).Fits (deliveries t).reportId d
  counts :
    ∃ counted : Finset Tid,
      (∀ t, t ∈ counted ↔ (ns t).Counted) ∧
        ∀ key, historyCount d key =
          historyCount d₀ key +
            (counted.filter
              (fun t => ns t = .counted key)).card

variable {deliveries : Tid → Delivery}
variable {ns : Tid → Progress} {t : Tid} {n : Progress}

/- A report of the same owner that is completed too. -/
theorem StoredFor.of_owners
    (hStored : StoredFor reportId key d)
    (hOwners : owners d' = owners d)
    (hCompleted : IsCompleted .analysis reportId d') :
    StoredFor reportId key d' := by
  rcases hStored with ⟨row, hFind, hFor⟩
  rw [completedFor_eq_true] at hFor
  rcases owner_of_find hOwners hFind with
    ⟨row', hFind', hOwner⟩
  rcases hCompleted with ⟨row'', hFind'', hStatus⟩
  rw [hFind'] at hFind''
  cases hFind''
  refine ⟨row', hFind', ?_⟩
  rw [completedFor_eq_true]
  simp only [owner, Prod.mk.injEq] at hOwner
  exact
    ⟨hStatus, hOwner.2.1.trans hFor.2.1,
      hOwner.2.2.trans hFor.2.2⟩

theorem StoredFor.isCompleted
    (hStored : StoredFor reportId key d) :
    IsCompleted .analysis reportId d := by
  rcases hStored with ⟨row, hFind, hFor⟩
  rw [completedFor_eq_true] at hFor
  exact ⟨row, hFind, hFor.1⟩

theorem StoredFor.mono
    (hStored : StoredFor reportId key d)
    (hSteady : Steady d d') : StoredFor reportId key d' :=
  hStored.of_owners hSteady.owners
    (hSteady.completed reportId hStored.isCompleted)

/- A report is stored for one key. -/
theorem StoredFor.unique
    {key' : HistoryKey}
    (hLeft : StoredFor reportId key d)
    (hRight : StoredFor reportId key' d) : key = key' := by
  rcases hLeft with ⟨row, hFind, hFor⟩
  rcases hRight with ⟨row', hFind', hFor'⟩
  rw [hFind] at hFind'
  cases hFind'
  rw [completedFor_eq_true] at hFor hFor'
  have hUser := hFor.2.1.symm.trans hFor'.2.1
  have hUrl := hFor.2.2.symm.trans hFor'.2.2
  exact Prod.ext (Option.some.inj hUser) hUrl

theorem historyCount_of_histories
    (hHistories : d'.histories = d.histories) :
    historyCount d' key = historyCount d key := by
  unfold historyCount Db.findHistory
  rw [hHistories]

theorem Progress.Fits.mono
    (hFits : n.Fits reportId d)
    (hSteady : Steady d d') : n.Fits reportId d' := by
  cases n with
  | asking => trivial
  | saved key => exact StoredFor.mono hFits hSteady
  | counted key => exact StoredFor.mono hFits hSteady
  | found key =>
      refine ⟨hFits.1.mono hSteady, ?_⟩
      unfold Db.findHistory
      rw [hSteady.histories]
      exact hFits.2
  | untracked =>
      rcases hFits with ⟨row, hFind, hUser⟩
      rcases owner_of_find hSteady.owners hFind with
        ⟨row', hFind', hOwner⟩
      simp only [owner, Prod.mk.injEq] at hOwner
      exact ⟨row', hFind', hOwner.2.1.trans hUser⟩

/- A rollup does not take a row of the history away. -/
theorem Progress.Fits.adds
    (hFits : n.Fits reportId d)
    (hAdds : Adds key d d') : n.Fits reportId d' := by
  cases n with
  | found key' =>
      refine ⟨?_, ?_⟩
      · unfold StoredFor Db.find
        rw [hAdds.reports]
        exact hFits.1
      · by_cases hKey : key' = key
        · rw [hKey]
          exact hAdds.found
        · rw [hAdds.others key' hKey]
          exact hFits.2
  | _ =>
      unfold Progress.Fits StoredFor Db.find
      rw [hAdds.reports]
      exact hFits

/- A step that changes no counter. -/
theorem Tallies.mono
    (hTallies : Tallies deliveries d₀ d ns)
    (hSteady : Steady d d') :
    Tallies deliveries d₀ d' ns where
  owners := hSteady.owners.trans hTallies.owners
  completed := fun reportId hCompleted =>
    hSteady.completed reportId
      (hTallies.completed reportId hCompleted)
  fits := fun t => (hTallies.fits t).mono hSteady
  counts := by
    rcases hTallies.counts with ⟨counted, hMem, hCounts⟩
    refine ⟨counted, hMem, ?_⟩
    intro key
    rw [historyCount_of_histories hSteady.histories]
    exact hCounts key

/- Another note of a delivery that is not counted. -/
theorem Tallies.note
    (hTallies : Tallies deliveries d₀ d ns)
    (hFits : n.Fits (deliveries t).reportId d)
    (hOld : ¬ (ns t).Counted)
    (hNew : ¬ n.Counted) :
    Tallies deliveries d₀ d (Function.update ns t n) where
  owners := hTallies.owners
  completed := hTallies.completed
  fits := by
    intro t'
    by_cases hSame : t' = t
    · subst hSame
      rw [Function.update_self]
      exact hFits
    · rw [Function.update_of_ne hSame]
      exact hTallies.fits t'
  counts := by
    rcases hTallies.counts with ⟨counted, hMem, hCounts⟩
    refine ⟨counted, ?_, ?_⟩
    · intro t'
      by_cases hSame : t' = t
      · subst hSame
        rw [Function.update_self, hMem]
        exact ⟨fun h => absurd h hOld, fun h => absurd h hNew⟩
      · rw [Function.update_of_ne hSame]
        exact hMem t'
    · intro key
      rw [hCounts key]
      congr 3
      apply Finset.filter_congr
      intro t' hMem'
      have hSame : t' ≠ t := by
        rintro rfl
        exact hOld ((hMem t').mp hMem')
      rw [Function.update_of_ne hSame]

/- A rollup is committed. -/
theorem Tallies.count
    (hTallies : Tallies deliveries d₀ d ns)
    (hNote : ns t = .saved key ∨ ns t = .found key)
    (hAdds : Adds key d d') :
    Tallies deliveries d₀ d'
      (Function.update ns t (.counted key)) where
  owners := by
    have hSame : Analysis.owners d' = Analysis.owners d := by
      unfold Analysis.owners
      rw [hAdds.reports]
    exact hSame.trans hTallies.owners
  completed := by
    intro reportId hCompleted
    unfold IsCompleted Db.find
    rw [hAdds.reports]
    exact hTallies.completed reportId hCompleted
  fits := by
    intro t'
    by_cases hSame : t' = t
    · subst hSame
      rw [Function.update_self]
      have hFits := hTallies.fits t'
      have hStored :
          StoredFor (deliveries t').reportId key d := by
        rcases hNote with hSaved | hFound
        · rw [hSaved] at hFits
          exact hFits
        · rw [hFound] at hFits
          exact hFits.1
      change StoredFor _ key d'
      unfold StoredFor Db.find
      rw [hAdds.reports]
      exact hStored
    · rw [Function.update_of_ne hSame]
      exact (hTallies.fits t').adds hAdds
  counts := by
    rcases hTallies.counts with ⟨counted, hMem, hCounts⟩
    have hNot : t ∉ counted := by
      rw [hMem]
      rintro ⟨key', hCounted⟩
      rw [hCounted] at hNote
      rcases hNote with hSaved | hFound
      · cases hSaved
      · cases hFound
    refine ⟨insert t counted, ?_, ?_⟩
    · intro t'
      by_cases hSame : t' = t
      · subst hSame
        rw [Function.update_self]
        exact
          ⟨fun _ => ⟨key, rfl⟩,
            fun _ => Finset.mem_insert_self _ _⟩
      · rw [Function.update_of_ne hSame,
          Finset.mem_insert, ← hMem t']
        exact or_iff_right hSame
    · intro key'
      have hOthers :
          counted.filter
              (fun t' =>
                Function.update ns t (.counted key) t' =
                  .counted key') =
            counted.filter
              (fun t' => ns t' = .counted key') := by
        apply Finset.filter_congr
        intro t' hMem'
        have hSame : t' ≠ t := by
          rintro rfl
          exact hNot hMem'
        rw [Function.update_of_ne hSame]
      rw [Finset.filter_insert, hOthers,
        Function.update_self]
      by_cases hKey : key' = key
      · subst hKey
        rw [if_pos rfl, Finset.card_insert_of_notMem,
          hAdds.counted, hCounts key']
        · push_cast
          omega
        · intro hMem'
          exact hNot (Finset.mem_of_mem_filter t hMem')
      · have hNe : Progress.counted key ≠ .counted key' := by
          intro hSame
          cases hSame
          exact hKey rfl
        rw [if_neg hNe, ← hCounts key']
        unfold historyCount
        rw [hAdds.others key' hKey]

------------------------------------------------------------
-- Completed Reports
------------------------------------------------------------

/- The ids of the reports that are completed for the key. -/
def completedIds
    (d : Db)
    (key : HistoryKey) : Finset ReportId :=
  (((d.reports .analysis).filter (completedFor key)).map
    Report.id).toFinset

theorem mem_completedIds
    (hKeyed : KeyedReports d) :
    reportId ∈ completedIds d key ↔
      StoredFor reportId key d := by
  simp only [completedIds, List.mem_toFinset, List.mem_map,
    List.mem_filter]
  constructor
  · rintro ⟨row, ⟨hMem, hFor⟩, rfl⟩
    exact ⟨row, Table.find_of_mem hKeyed hMem, hFor⟩
  · rintro ⟨row, hFind, hFor⟩
    exact
      ⟨row, ⟨Table.mem_of_find hFind, hFor⟩,
        id_of_find hFind⟩

theorem card_completedIds
    (hKeyed : KeyedReports d) :
    (completedIds d key).card = completedCount d key := by
  have hNodup :
      (((d.reports .analysis).filter (completedFor key)).map
        Report.id).Nodup := by
    apply List.Nodup.sublist _ hKeyed
    exact List.filter_sublist.map Report.id
  unfold completedIds completedCount
  rw [List.toFinset_card_of_nodup hNodup, List.length_map,
    List.countP_eq_length_filter]

/- The completed reports are the old ones and the counted. -/
theorem Tallies.completedIds_eq
    {counted : Finset Tid}
    (hTallies : Tallies deliveries d₀ d ns)
    (hKeyed : KeyedReports d₀)
    (hAll :
      ∀ reportId, IsCompleted .analysis reportId d →
        ¬ IsCompleted .analysis reportId d₀ →
          ∃ t, (deliveries t).reportId = reportId ∧
            ((ns t).Counted ∨ ns t = .untracked))
    (hMem : ∀ t, t ∈ counted ↔ (ns t).Counted)
    (key : HistoryKey) :
    completedIds d key =
      completedIds d₀ key ∪
        (counted.filter (fun t => ns t = .counted key)).image
          (fun t => (deliveries t).reportId) := by
  have hKeyed' : KeyedReports d :=
    keyed_of_owners hTallies.owners hKeyed
  ext reportId
  rw [Finset.mem_union, mem_completedIds hKeyed',
    mem_completedIds hKeyed]
  simp only [Finset.mem_image, Finset.mem_filter]
  constructor
  · intro hStored
    by_cases hOld : IsCompleted .analysis reportId d₀
    · exact
        Or.inl
          (hStored.of_owners hTallies.owners.symm hOld)
    · right
      rcases hAll reportId hStored.isCompleted hOld with
        ⟨t, rfl, hNote⟩
      have hFits := hTallies.fits t
      rcases hNote with ⟨key', hCounted⟩ | hUntracked
      · rw [hCounted] at hFits
        have hKey : key' = key :=
          StoredFor.unique hFits hStored
        rw [hKey] at hCounted
        exact
          ⟨t, ⟨(hMem t).mpr ⟨key, hCounted⟩, hCounted⟩, rfl⟩
      · rw [hUntracked] at hFits
        rcases hFits with ⟨row, hFind, hUser⟩
        rcases hStored with ⟨row', hFind', hFor⟩
        rw [hFind] at hFind'
        cases hFind'
        rw [completedFor_eq_true, hUser] at hFor
        cases hFor.2.1
  · rintro (hOld | ⟨t, ⟨_, hCounted⟩, rfl⟩)
    · exact
        hOld.of_owners hTallies.owners
          (hTallies.completed reportId hOld.isCompleted)
    · have hFits := hTallies.fits t
      rw [hCounted] at hFits
      exact hFits

end SiteAnalysis.Analysis
