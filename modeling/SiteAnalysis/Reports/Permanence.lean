import SiteAnalysis.Reports.Deletion
import SiteAnalysis.Reports.Stored

/-
  This file proves when a completed report stays completed.

  No attempt looks at the status of the report that it has
  read.  A report that is completed stays so, with an empty
  message, when failures are saved only while the report is
  not completed.

  Key definitions include:
    * `startAttempts`
    * `FailsUnfinished`
    * `StaysCompleted`

  Key theorems include:
    * `worksKeeping_completed`
    * `completed_kept`
-/

------------------------------------------------------------
-- Attempts
------------------------------------------------------------

namespace SiteAnalysis.Reports

open Concurrency
open Relational
open Python

abbrev AttemptWorld :=
  World (Store Db HistoryKey) (TxOp Statement)
    (TxOp.Res Statement.Answer) Exc TaskOutcome

/- Deliveries and retries of any task, in parallel. -/
def startAttempts
    (tools : Tools)
    (workers : Tid → Worker)
    (d : Db) : AttemptWorld where
  shared := Store.quiet d
  threads := fun t => .live ((workers t).program tools)

/-
  A failure is saved only while the stored report is not
  completed.
-/
def FailsUnfinished
    (kind : ReportKind)
    (reportId : ReportId)
    (w : AttemptWorld) : Event (Choice Exc Reply) → Prop
| .step t _ =>
    ∀ object row,
      (w.threads t).head =
          some
            (.query
              (.saveReportFields kind object
                [.status, .errorMessage])) →
        object.id = reportId →
          w.shared.committed.find kind reportId = some row →
            row.status ≠ .completed
| .lose _ => True

/- A completed report has no message. -/
def IsSilent
    (kind : ReportKind)
    (reportId : ReportId)
    (d : Db) : Prop :=
  ∀ row, d.find kind reportId = some row →
    row.status = .completed → row.errorMessage = ""

/- A step keeps the report completed, and silent then. -/
structure StaysCompleted
    (kind : ReportKind)
    (reportId : ReportId)
    (d d' : Db) : Prop where
  completed :
    IsCompleted kind reportId d → IsCompleted kind reportId d'
  silent :
    IsSilent kind reportId d → IsSilent kind reportId d'

------------------------------------------------------------
-- Writes
------------------------------------------------------------

variable {tools : Tools} {repr : Json → String}
variable {kind kind' : ReportKind}
variable {reportId : ReportId} {d d' d'' : Db}

theorem staysCompleted_refl
    (d : Db) : StaysCompleted kind reportId d d where
  completed := fun hCompleted => hCompleted
  silent := fun hSilent => hSilent

theorem staysCompleted_trans
    (d d' d'' : Db)
    (hLeft : StaysCompleted kind reportId d d')
    (hRight : StaysCompleted kind reportId d' d'') :
    StaysCompleted kind reportId d d'' where
  completed := fun hCompleted =>
    hRight.completed (hLeft.completed hCompleted)
  silent := fun hSilent =>
    hRight.silent (hLeft.silent hSilent)

/- The stored report has not changed. -/
theorem staysCompleted_of_find
    (hFind : d'.find kind reportId = d.find kind reportId) :
    StaysCompleted kind reportId d d' where
  completed := by
    unfold IsCompleted
    rw [hFind]
    exact fun hCompleted => hCompleted
  silent := by
    unfold IsSilent
    rw [hFind]
    exact fun hSilent => hSilent

theorem staysCompleted_of_reports
    (hReports : d'.reports = d.reports) :
    StaysCompleted kind reportId d d' := by
  apply staysCompleted_of_find
  rw [Db.find, Db.find, hReports]

/- A write that does not take the completion back. -/
theorem staysCompleted_put
    {row : Report kind'}
    (hCompleted :
      ∀ old : Report kind', d.find kind' row.id = some old →
        old.status = .completed → row.status = .completed)
    (hSilent :
      ∀ old : Report kind', d.find kind' row.id = some old →
        (old.status = .completed → old.errorMessage = "") →
          row.status = .completed → row.errorMessage = "")
    (hFound :
      (d.find kind' row.id).isSome = true ∨
        row.status = .completed ∧ row.errorMessage = "") :
    StaysCompleted kind reportId d (putReport row d) := by
  by_cases hSame : kind = kind' ∧ reportId = row.id
  · rcases hSame with ⟨rfl, rfl⟩
    have hNew :
        (putReport row d).find kind row.id = some row :=
      find_putReport_self row d
    refine ⟨?_, ?_⟩
    · rintro ⟨old, hFind, hOld⟩
      exact ⟨row, hNew, hCompleted old hFind hOld⟩
    · intro hOld row' hFind hRow
      rw [hNew] at hFind
      cases hFind
      rcases hFound with hSome | hDone
      · rcases Option.isSome_iff_exists.mp hSome with
          ⟨old, hFind'⟩
        exact hSilent old hFind' (hOld old hFind') hRow
      · exact hDone.2
  · apply staysCompleted_of_find
    apply find_putReport_of_ne
    intro hKind hId
    exact hSame ⟨hKind, hId⟩

/- A completed report is saved. -/
theorem staysCompleted_saveReport
    {object : Report kind'}
    {a : Unit}
    {lock : Option HistoryKey}
    {f : Db → Db}
    (hStatus : object.status = .completed)
    (hMessage : object.errorMessage = "")
    (hWrite :
      writeReport repr object = .done a lock f) :
    StaysCompleted kind reportId d (f d) := by
  rcases writeReport_eq_done hWrite with
    ⟨_, row, hPrepare, _, rfl⟩
  have hRow :
      row.status = .completed ∧ row.errorMessage = "" := by
    rw [Report.eq_of_prepare hPrepare]
    exact ⟨hStatus, hMessage⟩
  apply staysCompleted_put
  · intro old _ _
    exact hRow.1
  · intro old _ _ _
    exact hRow.2
  · exact Or.inr hRow

/-
  Some fields of a report are saved: those of a failure while
  the report is not completed, or others.
-/
theorem staysCompleted_saveFields
    {object old : Report kind'}
    {fields : List ReportField}
    {a : Unit}
    {lock : Option HistoryKey}
    {f : Db → Db}
    (hFind : d.find kind' object.id = some old)
    (hWrite :
      writeReport repr (object.assign fields old) =
        .done a lock f)
    (hFields :
      kind' = kind → object.id = reportId →
        (old.status ≠ .completed ∧
            (object.assign fields old).status = .failed) ∨
          ((object.assign fields old).status = old.status ∧
            (object.assign fields old).errorMessage =
              old.errorMessage)) :
    StaysCompleted kind reportId d (f d) := by
  rcases writeReport_eq_done hWrite with
    ⟨_, row, hPrepare, _, rfl⟩
  have hEq := Report.eq_of_prepare hPrepare
  have hOldId : old.id = object.id := id_of_find hFind
  have hId : row.id = object.id := by
    rw [hEq]
    exact hOldId
  by_cases hSame : kind' = kind ∧ object.id = reportId
  · have hCase := hFields hSame.1 hSame.2
    have hStatus :
        row.status = (object.assign fields old).status := by
      rw [hEq]
    have hMessage :
        row.errorMessage =
          (object.assign fields old).errorMessage := by
      rw [hEq]
    rw [← hStatus, ← hMessage] at hCase
    apply staysCompleted_put
    · intro old' hFind' hOld
      rw [hId, hFind] at hFind'
      cases hFind'
      rcases hCase with ⟨hNot, _⟩ | ⟨hKept, _⟩
      · exact absurd hOld hNot
      · rw [hKept]
        exact hOld
    · intro old' hFind' hSilent hRow
      rw [hId, hFind] at hFind'
      cases hFind'
      rcases hCase with ⟨_, hFailed⟩ | ⟨hKept, hText⟩
      · rw [hFailed] at hRow
        cases hRow
      · rw [hText]
        exact hSilent (hKept.symm.trans hRow)
    · rw [hId, hFind]
      exact Or.inl rfl
  · apply staysCompleted_of_find
    apply find_putReport_of_ne
    intro hKind hRow
    exact hSame ⟨hKind.symm, (hRow.trans hId).symm⟩

------------------------------------------------------------
-- Runs
------------------------------------------------------------

/- The regime in which completed reports stay completed. -/
abbrev completionRegime
    (repr : Json → String)
    (kind : ReportKind)
    (reportId : ReportId) :
    Regime (backend repr) TaskOutcome Unit Unit Unit :=
  Regime.keeping (backend repr)
    (FailsUnfinished kind reportId)
    (StaysCompleted kind reportId) staysCompleted_refl

theorem kept_works_completed
    {t : Tid}
    {q : Statement}
    (hWorks : Works q) :
    (completionRegime repr kind reportId).KeptQuery
      (StaysCompleted kind reportId) t q where
  toUnnoted := Regime.unnoted_keeping t q
  reply := fun _ _ _ _ hReply =>
    staysCompleted_of_reports (reports_of_reply hReply)
  plan := by
    intro d ns live hPermits a lock f hPlan
    cases q with
    | getReport kind report =>
        simp only [backend, plan] at hPlan
        split at hPlan
        · cases hPlan
          exact staysCompleted_refl d
        · cases hPlan
    | saveReport kind object =>
        exact
          staysCompleted_saveReport hWorks.1 hWorks.2 hPlan
    | saveReportFields kind' object fields =>
        simp only [backend, plan] at hPlan
        split at hPlan
        · cases hPlan
        · rename_i old hFind
          apply staysCompleted_saveFields hFind hPlan
          rintro rfl hId
          rcases hWorks with ⟨rfl, hFailed⟩ | rfl
          · rcases hPermits.world with
              ⟨w, ls, _, rfl, _, _, hHead, hOk⟩
            rw [hId] at hFind
            have hNot := hOk object old hHead hId hFind
            refine Or.inl ⟨hNot, ?_⟩
            simp [Report.assign, hFailed]
          · refine Or.inr ?_
            simp [Report.assign]
    | _ => first | exact False.elim hWorks | cases hPlan

theorem worksKeeping_completed
    (t : Tid) :
    WorksKeeping (completionRegime repr kind reportId)
      (StaysCompleted kind reportId) t where
  toFollows := Regime.follows_keeping staysCompleted_trans
  works := fun _ hWorks => kept_works_completed hWorks
  rollsUp := fun q hRollsUp =>
    { toUnnoted := Regime.unnoted_keeping t q
      reply := fun _ _ _ _ hReply =>
        staysCompleted_of_reports (reports_of_reply hReply)
      plan := fun _ _ _ _ hPlan d' =>
        staysCompleted_of_reports
          (reports_of_rollsUp hRollsUp hPlan d') }

variable {workers : Tid → Worker}

theorem verified_startAttempts :
    (completionRegime tools.repr kind reportId).Verified
      (fun _ _ _ => True) (fun _ _ _ => True) d
      (fun _ => ()) (startAttempts tools workers d) := by
  apply Regime.verified_keeping rfl
  intro t
  refine ⟨_, rfl, ?_⟩
  intro l hRest
  exact
    wp_worker (worksKeeping_completed t) (workers t) hRest

/-
  In every run in which a failure is saved only while the
  report is not completed: from the moment at which the
  stored report is completed, it is completed and its message
  is empty.
-/
theorem completed_kept
    {w w' : AttemptWorld}
    {row : Report kind}
    (hSilent : IsSilent kind reportId d)
    (hReach :
      (backend tools.repr).machine.Reaches
        (FailsUnfinished kind reportId)
        (startAttempts tools workers d) w)
    (hFind :
      w.shared.committed.find kind reportId = some row)
    (hCompleted : row.status = .completed)
    (hLater :
      (backend tools.repr).machine.Reaches
        (FailsUnfinished kind reportId) w w') :
    row.errorMessage = "" ∧
      ∃ row',
        w'.shared.committed.find kind reportId =
            some row' ∧
          row'.status = .completed ∧
            row'.errorMessage = "" := by
  have hVerified :
      (completionRegime tools.repr kind reportId).Verified
        (fun _ _ _ => True) (fun _ _ _ => True) d
        (fun _ => ()) (startAttempts tools workers d) :=
    verified_startAttempts
  have hBefore :
      StaysCompleted kind reportId d w.shared.committed :=
    Regime.keep_of_reaches staysCompleted_trans hVerified
      Machine.Reaches.refl hReach
  have hAfter :
      StaysCompleted kind reportId w.shared.committed
        w'.shared.committed :=
    Regime.keep_of_reaches staysCompleted_trans hVerified
      hReach hLater
  have hSilentNow := hBefore.silent hSilent
  rcases hAfter.completed ⟨row, hFind, hCompleted⟩ with
    ⟨row', hFind', hCompleted'⟩
  refine
    ⟨hSilentNow row hFind hCompleted, row', hFind',
      hCompleted', ?_⟩
  exact hAfter.silent hSilentNow row' hFind' hCompleted'

------------------------------------------------------------
-- A Redelivered Scan
------------------------------------------------------------

/- Deliveries of the task of one TLS report. -/
abbrev scans : AttemptWorld :=
  startAttempts someTools (fun _ => .ssl 0 0) submittedScans

/- The first delivery completes the report. -/
def completion : List (Event (Choice Exc Reply)) :=
  [.step 0 .proceed,
    .step 0 (.reply (.scanned (some emptyScan) 8)),
    .step 0 .proceed]

abbrev scanned : AttemptWorld :=
  ((backend someTools.repr).machine.replay scans
    completion).getD scans

/- The second delivery reads the completed report. -/
abbrev reread : AttemptWorld :=
  ((backend someTools.repr).machine.replay scanned
    [.step 1 .proceed]).getD scans

/- The report that the first delivery saves. -/
def scannedReport : SSLReport :=
  (scanned.shared.committed.find .ssl 0).getD submittedScan

/- Nothing fails, and the report stays completed. -/
theorem completed_kept_reread :
    scannedReport.errorMessage = "" ∧
      ∃ row',
        reread.shared.committed.find .ssl 0 = some row' ∧
          row'.status = .completed ∧
            row'.errorMessage = "" := by
  have hTail :
      ∀ {v w w' : AttemptWorld} (e : Event _),
        (backend someTools.repr).machine.Reaches
            (FailsUnfinished .ssl 0) v w →
          (∀ object : SSLReport,
            (w.threads e.thread).head ≠
              some
                (.query
                  (.saveReportFields .ssl object
                    [.status, .errorMessage]))) →
            (backend someTools.repr).machine.next w e =
                some w' →
              (backend someTools.repr).machine.Reaches
                (FailsUnfinished .ssl 0) v w' := by
    intro v w w' e hReach hHead hNext
    apply hReach.tail _ hNext
    cases e with
    | step t c =>
        intro object row hSave
        exact absurd hSave (hHead object)
    | lose t => trivial
  have hReach :
      (backend someTools.repr).machine.Reaches
        (FailsUnfinished .ssl 0) scans scanned := by
    apply hTail (.step 0 .proceed)
    · apply hTail
        (.step 0 (.reply (.scanned (some emptyScan) 8)))
      · apply hTail (.step 0 .proceed)
        · exact Machine.Reaches.refl
        · intro object hHead
          cases hHead
        · rfl
      · intro object hHead
        cases hHead
      · rfl
    · intro object hHead
      cases hHead
    · rfl
  have hLater :
      (backend someTools.repr).machine.Reaches
        (FailsUnfinished .ssl 0) scanned reread := by
    apply hTail (.step 1 .proceed)
    · exact Machine.Reaches.refl
    · intro object hHead
      cases hHead
    · rfl
  have hSilent : IsSilent .ssl 0 submittedScans := by
    intro row hFind hCompleted
    cases hFind
    cases hCompleted
  exact completed_kept hSilent hReach rfl rfl hLater

/- The scan of the second delivery fails. -/
theorem redelivery_fails_completed :
    ¬ ∀ w w' : AttemptWorld, ∀ row : SSLReport,
      (backend someTools.repr).machine.Reaches
          Machine.anyEvent scans w →
        w.shared.committed.find .ssl 0 = some row →
          row.status = .completed →
            (backend someTools.repr).machine.Reaches
                Machine.anyEvent w w' →
              ∃ row',
                w'.shared.committed.find .ssl 0 =
                    some row' ∧
                  row'.status = .completed ∧
                    row'.errorMessage = "" := by
  intro hKept
  have hReach :=
    Machine.reaches_of_replay
      (M := (backend someTools.repr).machine)
      (w := scans) completion rfl
  have hLater :=
    Machine.reaches_of_replay
      (M := (backend someTools.repr).machine)
      (w := scanned)
      [.step 1 .proceed,
        .step 1 (.reply (.scanned none 9)),
        .step 1 .proceed]
      rfl
  rcases hKept _ _ _ hReach rfl rfl hLater with
    ⟨row', hFind, hCompleted, _⟩
  cases hFind
  cases hCompleted

end SiteAnalysis.Reports
