import SiteAnalysis.Reports.Keeping

/-
  This file proves when a soft deletion outlives the workers.

  A worker that fails saves the status and the message only.
  A worker that succeeds saves its whole object, which it
  read before the deletion; the deletion is kept when this
  happens only while the report is not deleted.

  Key definitions include:
    * `Deletion`
    * `start`
    * `SavesShown`
    * `Deleted`

  Key theorems include:
    * `worksKeeping_deletion`
    * `wp_destroyReport`
    * `deletion_kept`
-/

------------------------------------------------------------
-- Requests and Workers
------------------------------------------------------------

namespace SiteAnalysis.Reports

open Concurrency
open Relational
open Python

/- The owner's request and the thread that serves it. -/
structure Deletion where
  owner : Tid
  kind : ReportKind
  user : UserId
  reportId : ReportId
  now : Time

abbrev DeletionWorld :=
  World (Store Db HistoryKey) (TxOp Statement)
    (TxOp.Res Statement.Answer) Exc Unit

def Deletion.program
    (tools : Tools)
    (workers : Tid → Worker)
    (deletion : Deletion)
    (t : Tid) : Service Unit :=
  if t = deletion.owner then
    destroyReport deletion.kind deletion.user
      deletion.reportId deletion.now
  else do
    let _ ← (workers t).program tools
    pure ()

/- One request, and attempts of any task at any report. -/
def startDeletion
    (tools : Tools)
    (workers : Tid → Worker)
    (deletion : Deletion)
    (d : Db) : DeletionWorld where
  shared := Store.quiet d
  threads := fun t =>
    .live (deletion.program tools workers t)

/-
  The report is saved as a whole only while its row is not
  deleted.
-/
def SavesShown
    (kind : ReportKind)
    (reportId : ReportId)
    (w : DeletionWorld) : Event (Choice Exc Reply) → Prop
| .step t _ =>
    ∀ object row,
      (w.threads t).head =
          some (.query (.saveReport kind object)) →
        object.id = reportId →
          w.shared.committed.find kind reportId = some row →
            row.isDeleted = false
| .lose _ => True

/- The report is deleted since `now`. -/
def Deleted
    (kind : ReportKind)
    (reportId : ReportId)
    (now : Time)
    (d : Db) : Prop :=
  ∃ row, d.find kind reportId = some row ∧
    row.isDeleted = true ∧ row.deletedAt = some now

------------------------------------------------------------
-- Writes
------------------------------------------------------------

variable {tools : Tools} {repr : Json → String}
variable {kind kind' : ReportKind}
variable {reportId : ReportId} {now : Time} {d d' : Db}

/- The reports have not changed. -/
theorem Deleted.of_reports
    (hDeleted : Deleted kind reportId now d)
    (hReports : d'.reports = d.reports) :
    Deleted kind reportId now d' := by
  rcases hDeleted with ⟨row, hFind, hRow⟩
  refine ⟨row, ?_, hRow⟩
  rw [Db.find, hReports]
  exact hFind

/- A write of another row. -/
theorem Deleted.put_of_ne
    {row : Report kind'}
    (hDeleted : Deleted kind reportId now d)
    (hNe : kind = kind' → reportId ≠ row.id) :
    Deleted kind reportId now (putReport row d) := by
  rcases hDeleted with ⟨old, hFind, hOld⟩
  refine ⟨old, ?_, hOld⟩
  rw [find_putReport_of_ne d hNe]
  exact hFind

/- A write that takes the deletion over. -/
theorem deleted_put_self
    {row : Report kind}
    (hId : row.id = reportId)
    (hDeleted : row.isDeleted = true)
    (hAt : row.deletedAt = some now) :
    Deleted kind reportId now (putReport row d) := by
  subst hId
  exact
    ⟨row, find_putReport_self row d, hDeleted, hAt⟩

/- A save of the worker's fields keeps the deletion. -/
theorem Deleted.saveFields
    {object row : Report kind'}
    {fields : List ReportField}
    {a : Unit}
    {lock : Option HistoryKey}
    {f : Db → Db}
    (hDeleted : Deleted kind reportId now d)
    (hFields :
      .isDeleted ∉ fields ∧ .deletedAt ∉ fields)
    (hFind : d.find kind' object.id = some row)
    (hWrite :
      writeReport repr (object.assign fields row) =
        .done a lock f) :
    Deleted kind reportId now (f d) := by
  rcases writeReport_eq_done hWrite with
    ⟨_, stored, hPrepare, _, rfl⟩
  have hEq := Report.eq_of_prepare hPrepare
  have hRowId : row.id = object.id := id_of_find hFind
  have hStoredId : stored.id = object.id := by
    rw [hEq]
    exact hRowId
  by_cases hSame : kind = kind' ∧ reportId = object.id
  · rcases hSame with ⟨rfl, rfl⟩
    rcases hDeleted with ⟨old, hOld, hIs, hAt⟩
    rw [hFind] at hOld
    cases hOld
    apply deleted_put_self hStoredId
    · rw [hEq]
      simpa [Report.assign, hFields.1] using hIs
    · rw [hEq]
      simpa [Report.assign, hFields.2] using hAt
  · apply hDeleted.put_of_ne
    intro hKind hId
    exact hSame ⟨hKind, hId.trans hStoredId⟩

------------------------------------------------------------
-- The Regime
------------------------------------------------------------

/- It is noted that the owner's request has deleted. -/
def noteDeletion
    (deletion : Deletion)
    (t : Tid) : Statement → Bool → Bool
| .saveReportFields _ _ _, n =>
    if t = deletion.owner then true else n
| _, n => n

def deletionRegime
    (repr : Json → String)
    (deletion : Deletion) :
    Regime (backend repr) Unit Unit Unit Bool where
  ok := SavesShown deletion.kind deletion.reportId
  frag := fun _ _ => ()
  own := fun _ _ => ()
  inv := fun d ns _ =>
    ns deletion.owner = true →
      Deleted deletion.kind deletion.reportId deletion.now d
  antitone := fun _ _ _ _ _ hInv => hInv
  guar := fun _ _ _ => True
  guar_refl := fun _ _ => trivial
  shape := fun _ _ => True
  note := fun t q _ _ n => noteDeletion deletion t q n
  noteError := fun _ n => n
  inv_error := by
    intro t q d ns live hInv
    rw [Function.update_eq_self]
    exact hInv
  noteCommit := fun _ _ n => n
  noteLost := fun n => n

/- A step keeps the deletion of the report. -/
def KeepsDeletion
    (deletion : Deletion)
    (d d' : Db) : Prop :=
  Deleted deletion.kind deletion.reportId deletion.now d →
    Deleted deletion.kind deletion.reportId deletion.now d'

variable {deletion : Deletion} {t : Tid}

theorem follows_keepsDeletion :
    (deletionRegime repr deletion).Follows
      (KeepsDeletion deletion) t where
  refl := fun _ hDeleted => hDeleted
  trans := fun _ _ _ hLeft hRight hDeleted =>
    hRight (hLeft hDeleted)
  inv := fun _ _ _ _ hKeep hInv hNote => hKeep (hInv hNote)
  guar := fun _ _ _ => trivial
  own := fun _ _ _ => rfl
  frag := fun _ _ _ _ => rfl
  shape := fun _ _ _ => trivial
  noteCommit := fun _ _ => rfl

theorem unnoted
    {q : Statement}
    (hNote : ∀ n, noteDeletion deletion t q n = n) :
    (deletionRegime repr deletion).Unnoted t q where
  shape := fun _ => trivial
  note := fun _ _ n => hNote n
  noteError := fun _ => rfl

theorem unnoted_worker
    (hWorker : t ≠ deletion.owner)
    (q : Statement) :
    (deletionRegime repr deletion).Unnoted t q := by
  apply unnoted
  intro n
  cases q <;> simp [noteDeletion, hWorker]

theorem keepsDeletion_of_reports
    (hReports : d'.reports = d.reports) :
    KeepsDeletion deletion d d' :=
  fun hDeleted => hDeleted.of_reports hReports

/- The statements of a worker, outside its rollup. -/
theorem kept_works
    {q : Statement}
    (hUnnoted : (deletionRegime repr deletion).Unnoted t q)
    (hWorks : Works q) :
    (deletionRegime repr deletion).KeptQuery
      (KeepsDeletion deletion) t q where
  toUnnoted := hUnnoted
  reply := fun _ _ _ _ hReply =>
    keepsDeletion_of_reports (reports_of_reply hReply)
  plan := by
    intro d ns live hPermits a lock f hPlan hDeleted
    cases q with
    | getReport kind report =>
        simp only [backend, plan] at hPlan
        split at hPlan
        · cases hPlan
          exact hDeleted
        · cases hPlan
    | saveReport kind object =>
        rcases writeReport_eq_done hPlan with
          ⟨_, row, hPrepare, _, rfl⟩
        have hId : row.id = object.id := by
          rw [Report.eq_of_prepare hPrepare]
        apply hDeleted.put_of_ne
        intro hKind hSame
        rcases hDeleted with ⟨old, hOld, hIs, _⟩
        rcases hPermits.world with
          ⟨w, ls, _, rfl, _, _, hHead, hOk⟩
        subst hKind
        have hShown :=
          hOk object old hHead (hId.symm.trans hSame.symm)
            hOld
        rw [hShown] at hIs
        cases hIs
    | saveReportFields kind object fields =>
        simp only [backend, plan] at hPlan
        split at hPlan
        · cases hPlan
        · rename_i row hFind
          refine hDeleted.saveFields ?_ hFind hPlan
          rcases hWorks with ⟨hFields, _⟩ | hFields
          · simp [hFields]
          · simp [hFields]
    | _ => first | exact False.elim hWorks | cases hPlan

/- The statements of a rollup do not touch the reports. -/
theorem calm_rollsUp
    {q : Statement}
    (hUnnoted : (deletionRegime repr deletion).Unnoted t q)
    (hRollsUp : RollsUp q) :
    (deletionRegime repr deletion).CalmQuery
      (KeepsDeletion deletion) t q where
  toUnnoted := hUnnoted
  reply := fun _ _ _ _ hReply =>
    keepsDeletion_of_reports (reports_of_reply hReply)
  plan := fun _ _ _ _ hPlan d' =>
    keepsDeletion_of_reports
      (reports_of_rollsUp hRollsUp hPlan d')

theorem worksKeeping_deletion
    (hWorker : t ≠ deletion.owner) :
    WorksKeeping (deletionRegime repr deletion)
      (KeepsDeletion deletion) t where
  toFollows := follows_keepsDeletion
  works := fun q hWorks =>
    kept_works (unnoted_worker hWorker q) hWorks
  rollsUp := fun q hRollsUp =>
    calm_rollsUp (unnoted_worker hWorker q) hRollsUp

------------------------------------------------------------
-- The Owner's Request
------------------------------------------------------------

variable {l : Regime.Local Db HistoryKey Unit Unit Bool}
variable {n : Bool}

/- The request's own save deletes the report. -/
theorem wp_softDelete
    {report : Report deletion.kind}
    (hId : report.id = deletion.reportId)
    (hRest : Regime.Resting () n l) :
    (deletionRegime repr deletion).wp deletion.owner
      (softDelete deletion.now report)
      (fun _ l' => l'.note = true) (fun _ _ => True) l := by
  apply Regime.wp_execute_rest trivial hRest
  · intro e l' _ _
    trivial
  · intro d ns live _ x a d' _ hReply
    cases hReply
  · intro d ns live _ _
    simp only [backend, plan]
    split
    · trivial
    · rename_i row hFind
      cases hWrite :
        writeReport repr
          (Report.assign [.isDeleted, .deletedAt]
            { report with
              isDeleted := true
              deletedAt := some deletion.now }
            row) with
      | refuse e => trivial
      | outside => trivial
      | miss e =>
          intro _ _
          trivial
      | done a lock f =>
          rcases writeReport_eq_done hWrite with
            ⟨_, stored, hPrepare, _, rfl⟩
          have hEq := Report.eq_of_prepare hPrepare
          have hNoted :
              noteDeletion deletion deletion.owner
                  (.saveReportFields deletion.kind
                    { report with
                      isDeleted := true
                      deletedAt := some deletion.now }
                    [.isDeleted, .deletedAt])
                  n =
                true := by
            simp [noteDeletion]
          refine ⟨⟨?_, trivial, fun _ _ => rfl,
            fun _ _ => rfl⟩, ?_⟩
          · intro _
            apply deleted_put_self
            · rw [hEq]
              exact (id_of_find hFind).trans hId
            · rw [hEq]
              rfl
            · rw [hEq]
              rfl
          · intro l' hRest'
            exact hRest'.note.trans hNoted

theorem wp_destroyReport
    (hRest : Regime.Resting () n l) :
    (deletionRegime repr deletion).wp deletion.owner
      (destroyReport deletion.kind deletion.user
        deletion.reportId deletion.now)
      (fun _ l' => l'.note = true) (fun _ _ => True) l := by
  apply Discipline.wp_bind
  apply Regime.wp_execute_rest trivial hRest
  · intro e l' _ _
    trivial
  · intro d ns live _ x a d' _ hReply
    cases hReply
  · intro d ns live hRests _
    simp only [backend, plan]
    split
    · rename_i row hRow
      have hId : row.id = deletion.reportId := by
        rw [Option.filter_eq_some_iff] at hRow
        exact id_of_find hRow.1
      refine ⟨?_, ?_⟩
      · apply Regime.publishable_refl
        exact Regime.inv_same hRests.inv hRests.note
      · intro l' hRest'
        exact wp_softDelete hId hRest'
    · intro l' _
      trivial

------------------------------------------------------------
-- Runs
------------------------------------------------------------

variable {workers : Tid → Worker}

theorem verified_startDeletion :
    (deletionRegime tools.repr deletion).Verified
      (fun t _ l => t = deletion.owner → l.note = true)
      (fun _ _ _ => True) d (fun _ => false)
      (startDeletion tools workers deletion d) where
  quiet := rfl
  inv := fun hNote => by cases hNote
  threads := by
    intro t
    refine ⟨_, rfl, ?_⟩
    have hRest :
        Regime.Resting () false
          ((deletionRegime tools.repr deletion).start t d
            false) :=
      ⟨rfl, rfl, rfl⟩
    unfold Deletion.program
    by_cases hOwner : t = deletion.owner
    · subst hOwner
      rw [if_pos rfl]
      apply Discipline.wp_mono (wp_destroyReport hRest)
      · intro _ l' hNote _
        exact hNote
      · intro _ _ _
        trivial
    · rw [if_neg hOwner]
      apply Discipline.wp_bind
      apply
        Discipline.wp_mono
          (wp_worker (worksKeeping_deletion hOwner)
            (workers t) hRest)
      · intro _ l' _ hEq
        exact absurd hEq hOwner
      · intro _ _ _
        trivial
  ret := fun _ _ _ _ => trivial
  raise := fun _ _ _ _ => trivial
  lose := by
    intro w ls t hHolds _ _
    refine ⟨?_, trivial⟩
    change
      Function.update (fun t => (ls t).note) t (ls t).note
            deletion.owner =
          true →
        _
    rw [Function.update_eq_self]
    exact hHolds.1.1

/-
  In every run in which the report is saved as a whole only
  while its row is not deleted: once the owner's request has
  returned, the row is deleted since the time of the request.
-/
theorem deletion_kept
    {w : DeletionWorld}
    (hReach :
      (backend tools.repr).machine.Reaches
        (SavesShown deletion.kind deletion.reportId)
        (startDeletion tools workers deletion d) w)
    (hReturned :
      w.threads deletion.owner = .live (.ret ())) :
    ∃ row,
      w.shared.committed.find deletion.kind
          deletion.reportId =
          some row ∧
        row.isDeleted = true ∧
          row.deletedAt = some deletion.now := by
  rcases
    verified_startDeletion.inv_of_ret hReach hReturned with
    ⟨l, ns, hNote, hSame, hInv⟩
  exact hInv (hSame.trans (hNote rfl))

------------------------------------------------------------
-- A Scan of a Deleted Report
------------------------------------------------------------

/- A TLS report of user 0 that has just been submitted. -/
def submittedScan : SSLReport where
  id := 0
  user := some 0
  url := "https://a.io/"
  status := .pending
  errorMessage := ""
  rawResponse := .obj []
  isDeleted := false
  deletedAt := none
  columns :=
    { host := "a.io"
      grade := ""
      hasWarnings := false
      ipAddress := ""
      serverName := ""
      certSubject := ""
      certIssuer := ""
      certValidFrom := none
      certValidTo := none
      certExpiresInDays := none
      certIsTrusted := none
      protocols := .arr []
      vulnerabilities := .obj [] }

def submittedScans : Db where
  reports := fun
    | .ssl => [submittedScan]
    | .analysis => []
    | .gtmetrix => []
  histories := []
  cache := fun _ => none
  posts := []

def someTools : Tools where
  repr := fun _ => ""
  isoformat := fun _ => ""
  pagespeed :=
    { apiKey := "key"
      requestTimeout := 60
      maxRetries := 2
      retryBackoff := 2 }
  gtmetrix :=
    { apiKey := "key"
      baseUrl := "https://gtmetrix.com/api/2.0/"
      requestTimeout := 30
      pollInterval := 5
      pollMaxSeconds := 300 }

/- Thread 0 serves the owner of the report. -/
def ownerDeletion : Deletion where
  owner := 0
  kind := .ssl
  user := 0
  reportId := 0
  now := 7

abbrev deletionDuringScan : DeletionWorld :=
  startDeletion someTools (fun _ => .ssl 0 0) ownerDeletion
    submittedScans

/- The worker reads the report, and then the owner deletes. -/
def deletionEvents : List (Event (Choice Exc Reply)) :=
  [.step 1 .proceed, .step 0 .proceed, .step 0 .proceed]

/- A scan in which no command has completed. -/
def emptyScan : Ssl.ServerScanResult where
  completed := true
  scanStatus := "COMPLETED"
  ipAddress := none
  result :=
    { acceptedCipherSuites := fun _ => none
      certificateInfo := none
      heartbleed := none
      opensslCcsInjection := none
      robot := none
      supportsCompression := none
      supportsSecureRenegotiation := none }

/- The scan fails, and its save keeps the deletion. -/
theorem deletion_kept_failure :
    ∃ w : DeletionWorld,
      (backend someTools.repr).machine.Reaches
          (SavesShown ownerDeletion.kind
            ownerDeletion.reportId) deletionDuringScan w ∧
        ∃ row,
          w.shared.committed.find ownerDeletion.kind
              ownerDeletion.reportId =
              some row ∧
            row.isDeleted = true ∧
              row.deletedAt = some ownerDeletion.now := by
  have hReach :
      (backend someTools.repr).machine.Reaches
        (SavesShown ownerDeletion.kind
            ownerDeletion.reportId) deletionDuringScan
        (((backend someTools.repr).machine.replay
          deletionDuringScan
          (deletionEvents ++
            [.step 1 (.reply (.scanned none 8)),
              .step 1 .proceed])).getD
          deletionDuringScan) := by
    have hTail :
        ∀ {w w' : DeletionWorld} (e : Event _),
          (backend someTools.repr).machine.Reaches
              (SavesShown ownerDeletion.kind
            ownerDeletion.reportId) deletionDuringScan w →
            (∀ object : SSLReport,
              (w.threads e.thread).head ≠
                some (.query (.saveReport .ssl object))) →
              (backend someTools.repr).machine.next w e =
                  some w' →
                (backend someTools.repr).machine.Reaches
                  (SavesShown ownerDeletion.kind
            ownerDeletion.reportId) deletionDuringScan
                  w' := by
      intro w w' e hReach hHead hNext
      apply hReach.tail _ hNext
      cases e with
      | step t c =>
          intro object row hSave
          exact absurd hSave (hHead object)
      | lose t => trivial
    apply hTail (.step 1 .proceed)
    · apply hTail (.step 1 (.reply (.scanned none 8)))
      · apply hTail (.step 0 .proceed)
        · apply hTail (.step 0 .proceed)
          · apply hTail (.step 1 .proceed)
            · exact Machine.Reaches.refl
            · intro object hHead
              cases hHead
            · rfl
          · intro object hHead
            cases hHead
          · rfl
        · intro object hHead
          cases hHead
        · rfl
      · intro object hHead
        cases hHead
      · rfl
    · intro object hHead
      cases hHead
    · rfl
  exact ⟨_, hReach, deletion_kept hReach rfl⟩

/- The scan succeeds, and its save undoes the deletion. -/
theorem scan_undoes_deletion :
    ¬ ∀ w : DeletionWorld,
      (backend someTools.repr).machine.Reaches
          Machine.anyEvent deletionDuringScan w →
        w.threads 0 = .live (.ret ()) →
          ∃ row, w.shared.committed.find .ssl 0 = some row ∧
            row.isDeleted = true ∧
              row.deletedAt = some 7 := by
  intro hKept
  have hReach :=
    Machine.reaches_of_replay
      (M := (backend someTools.repr).machine)
      (w := deletionDuringScan)
      (deletionEvents ++
        [.step 1 (.reply (.scanned (some emptyScan) 8)),
          .step 1 .proceed])
      rfl
  rcases hKept _ hReach rfl with ⟨row, hFind, hIs, _⟩
  cases hFind
  cases hIs

end SiteAnalysis.Reports
