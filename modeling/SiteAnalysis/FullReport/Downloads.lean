import SiteAnalysis.FullReport.Consistency
import SiteAnalysis.FullReport.Service
import SiteAnalysis.Relational.Backend

/-
  This file proves when a full report has a download URL
  exactly while it is completed.

  The URL is read off the file column alone, and no delivery
  looks at the status of the report that it has read.  The
  two agree when the status is moved away only from a report
  that is not completed.

  Key definitions include:
    * `startTasks`
    * `MovesUnfinished`
    * `Downloadable`
    * `TaskRules`

  Key theorems include:
    * `heeds_task`
    * `download_iff_completed`
-/

------------------------------------------------------------
-- Deliveries
------------------------------------------------------------

namespace SiteAnalysis.FullReport

open Concurrency
open Relational
open Python
open Reports

abbrev TaskWorld :=
  World (Store Db Empty) (TxOp Statement)
    (TxOp.Res Statement.Answer) Exc String

/- Deliveries of the task, of any reports, in parallel. -/
def startTasks
    (tooling : Tooling)
    (reportId : Tid → ReportId)
    (d : Db) : TaskWorld where
  shared := Store.quiet d
  threads := fun t =>
    .live (runFullReportTask tooling (reportId t))

/-
  The start and the failure of a delivery are saved only
  while the stored report is not completed.
-/
def MovesUnfinished
    (w : TaskWorld) : Event (Choice Exc Reply) → Prop
| .step t _ =>
    ∀ object fields row,
      (w.threads t).head =
          some (.query (.saveReportFields object fields)) →
        w.shared.committed.find object.id = some row →
          row.status ≠ .completed
| .lose _ => True

/- The file column of a report names a file. -/
def HasFile (row : FullReportRow) : Prop :=
  ∃ name, row.file = some name ∧ name ≠ ""

/- The stored reports with a file are the completed ones. -/
def Downloadable (d : Db) : Prop :=
  ∀ report row, d.find report = some row →
    (HasFile row ↔ row.status = .completed)

/- The URL is there when the column names a file. -/
theorem getDownloadUrl_isSome
    (links : Links)
    (row : FullReportRow) :
    getDownloadUrl links row ≠ none ↔ HasFile row := by
  unfold getDownloadUrl HasFile
  cases hFile : row.file with
  | none => simp
  | some name =>
      by_cases hName : name = ""
      · simp [hName, Option.filter]
      · cases hUri : links.buildAbsoluteUri with
        | none => simp [hName, Option.filter]
        | some absolute => simp [hName, Option.filter]

------------------------------------------------------------
-- Statements
------------------------------------------------------------

/-
  What a delivery executes: it saves a report as a whole only
  with a file and completed, and it saves the fields of a
  report that is not completed.
-/
def Delivers : TxOp Statement → Prop
| .query (.saveReport object) =>
    HasFile object ∧ object.status = .completed
| .query (.saveReportFields object fields) =>
    .status ∈ fields ∧ object.status ≠ .completed
| .query _ => True
| _ => False

/- A file is stored by a name. -/
def Names :
    (o : TxOp Statement) → TxOp.Res Statement.Answer o → Prop
| .query (.storeFile _ _), name => name ≠ ""
| _, _ => True

variable {tooling : Tooling} {d : Db} {q : Statement}

/- A row of which both hold, or neither, is put. -/
theorem downloadable_put
    {row : FullReportRow}
    (hDownloadable : Downloadable d)
    (hRow : HasFile row ↔ row.status = .completed) :
    Downloadable (putReport row d) := by
  intro report found hFind
  by_cases hSame : report = row.id
  · subst hSame
    rw [find_putReport_self] at hFind
    cases hFind
    exact hRow
  · rw [find_putReport_of_ne d hSame] at hFind
    exact hDownloadable report found hFind

theorem downloadable_of_done
    {a : q.Answer}
    {lock : Option Empty}
    {f : Db → Db}
    (hDownloadable : Downloadable d)
    (hDelivers : Delivers (.query q))
    (hMoves :
      ∀ object fields row,
        q = .saveReportFields object fields →
          d.find object.id = some row →
            row.status ≠ .completed)
    (hPlan : plan q d = .done a lock f) :
    Downloadable (f d) := by
  cases q with
  | getReport report =>
      simp only [plan] at hPlan
      split at hPlan
      · cases hPlan
        exact hDownloadable
      · cases hPlan
  | saveReport object =>
      have hWrite := Verdict.writeIf_eq_done hPlan
      rw [hWrite.2]
      exact
        downloadable_put hDownloadable
          ⟨fun _ => hDelivers.2, fun _ => hDelivers.1⟩
  | saveReportFields object fields =>
      simp only [plan] at hPlan
      split at hPlan
      · cases hPlan
      · rename_i row hFind
        have hWrite := Verdict.writeIf_eq_done hPlan
        have hNot := hMoves object fields row rfl hFind
        have hStored := hDownloadable _ row hFind
        have hStatus :
            (object.assign fields row).status =
              object.status := by
          simp [FullReportRow.assign, hDelivers.1]
        rw [hWrite.2]
        apply downloadable_put hDownloadable
        rw [hStatus]
        constructor
        · intro hFile
          exact absurd (hStored.mp hFile) hNot
        · intro hCompleted
          exact absurd hCompleted hDelivers.2
  | runTools url strategy => cases hPlan
  | storeFile name content => cases hPlan

theorem downloadable_of_reply
    {x : Reply}
    {a : q.Answer}
    {d' : Db}
    (hDownloadable : Downloadable d)
    (hReply : reply q x d = some (a, d')) :
    Downloadable d' ∧ Names (.query q) a := by
  cases q with
  | runTools url strategy =>
      cases x with
      | ran run =>
          cases hReply
          exact ⟨hDownloadable, trivial⟩
      | stored name => cases hReply
  | storeFile name content =>
      cases x with
      | ran run => cases hReply
      | stored actual =>
          simp only [reply] at hReply
          split at hReply
          · rename_i hName
            cases hReply
            exact ⟨hDownloadable, hName.1⟩
          · cases hReply
  | getReport report => cases hReply
  | saveReport object => cases hReply
  | saveReportFields object fields => cases hReply

------------------------------------------------------------
-- The Task
------------------------------------------------------------

/-
  What the task executes under rules of what is allowed and
  trusted: it saves as a whole only a completed report with
  the file that has just been stored, and by name only the
  status of a report that is not completed.
-/
structure TaskRules
    (allowed : TxOp Statement → Prop)
    (trusted :
      (o : TxOp Statement) →
        TxOp.Res Statement.Answer o → Prop) : Prop where
  getReport : ∀ report, allowed (.query (.getReport report))
  saveFields :
    ∀ object fields, .status ∈ fields →
      object.status ≠ .completed →
        allowed (.query (.saveReportFields object fields))
  runTools :
    ∀ url strategy, allowed (.query (.runTools url strategy))
  storeFile :
    ∀ name content, allowed (.query (.storeFile name content))
  saveReport :
    ∀ (report : FullReportRow) filename pdf (file : String)
      result,
      trusted
          (.query
            (.storeFile (reportUploadTo report filename) pdf))
          file →
        allowed
          (.query
            (.saveReport (completedReport report file result)))

section Rules

variable {allowed : TxOp Statement → Prop}
variable
  {trusted :
    (o : TxOp Statement) →
      TxOp.Res Statement.Answer o → Prop}

theorem heeds_produceReport
    (hRules : TaskRules allowed trusted)
    (report : FullReportRow) :
    (produceReport tooling report).Heeds allowed trusted
      (fun _ => True) := by
  unfold produceReport
  have hTools :
      (query (.runTools report.url report.strategy)).Heeds
        allowed trusted (fun _ => True) :=
    (Prog.heeds_perform (hRules.runTools _ _)).mono
      (fun _ _ => trivial)
  apply hTools.bind
  intro run _
  apply (Prog.heeds_ofExcept _).bind
  intro pdf _
  apply (Prog.heeds_ofExcept _).bind
  intro hostname _
  have hStore :
      (query
        (.storeFile
          (reportUploadTo report
            (reportFilename hostname report.lang))
          pdf)).Heeds
        allowed trusted
        (trusted
          (.query
            (.storeFile
              (reportUploadTo report
                (reportFilename hostname report.lang))
              pdf))) :=
    Prog.heeds_perform (hRules.storeFile _ _)
  apply hStore.bind
  intro file hFile
  have hSave :
      (query
        (.saveReport
          (completedReport report file
            (tooling.combine report run)))).Heeds
        allowed trusted (fun _ => True) :=
    (Prog.heeds_perform
      (hRules.saveReport _ _ _ _ _ hFile)).mono
      (fun _ _ => trivial)
  apply hSave.bind
  intro _ _
  exact trivial

theorem heeds_saveFields
    {object : FullReportRow}
    {fields : List FullReportField}
    (hRules : TaskRules allowed trusted)
    (hField : .status ∈ fields)
    (hStatus : object.status ≠ .completed) :
    (query (.saveReportFields object fields)).Heeds allowed
      trusted (fun _ => True) :=
  (Prog.heeds_perform
    (hRules.saveFields object fields hField hStatus)).mono
    (fun _ _ => trivial)

theorem heeds_task
    (hRules : TaskRules allowed trusted)
    (reportId : ReportId) :
    (runFullReportTask tooling reportId).Heeds allowed trusted
      (fun _ => True) := by
  have hGet :
      (query (.getReport reportId)).Heeds allowed trusted
        (fun _ => True) :=
    (Prog.heeds_perform (hRules.getReport reportId)).mono
      (fun _ _ => trivial)
  apply hGet.handle
  · intro report _
    have hProcessing :
        ({ report with status := .processing } :
            FullReportRow).status ≠ .completed := by
      simp
    apply
      (heeds_saveFields hRules List.mem_cons_self
        hProcessing).bind
    intro _ _
    apply (heeds_produceReport hRules _).handle
    · intro completed _
      exact trivial
    · intro e
      have hFailed :
          (failedReport report e).status ≠ .completed := by
        simp [failedReport]
      apply
        (heeds_saveFields hRules List.mem_cons_self
          hFailed).bind
      intro _ _
      exact trivial
  · intro e
    split
    · exact trivial
    · exact trivial

end Rules

theorem taskRules_delivers : TaskRules Delivers Names where
  getReport := fun _ => trivial
  saveFields := fun _ _ hField hStatus => ⟨hField, hStatus⟩
  runTools := fun _ _ => trivial
  storeFile := fun _ _ => trivial
  saveReport := fun _ _ _ file _ hFile =>
    ⟨⟨file, rfl, hFile⟩, rfl⟩

theorem heeds_runFullReportTask
    (reportId : ReportId) :
    (runFullReportTask tooling reportId).Heeds Delivers Names
      (fun _ => True) :=
  heeds_task taskRules_delivers reportId

/-
  In every run in which the start and the failure of a
  delivery are saved only while the stored report is not
  completed: whoever reads a report gets a download URL when
  and only when the report is completed.
-/
theorem download_iff_completed
    {reportId : Tid → ReportId}
    {w : TaskWorld}
    (hStart : Downloadable d)
    (hReach :
      backend.machine.Reaches MovesUnfinished
        (startTasks tooling reportId d) w) :
    ∀ links pk data,
      getFullReport links w.shared.committed pk =
          some data →
        (data.downloadUrl ≠ none ↔
          data.status = .completed) := by
  have hKept : Downloadable w.shared.committed := by
    apply
      Backend.invariant_of_heeds Delivers Names hReach rfl
        hStart
    · intro o hDelivers
      cases o with
      | query q => exact ⟨q, rfl⟩
      | _ => exact hDelivers.elim
    · intro t p hThread
      cases hThread
      exact heeds_runFullReportTask (reportId t)
    · intro v t q x a d' hBefore _ _ _ hReply
      exact downloadable_of_reply hBefore hReply
    · intro v t q a lock f hBefore hHead hDelivers hOk hPlan
      constructor
      · apply
          downloadable_of_done hBefore hDelivers _ hPlan
        intro object fields row hQuery hFind
        subst hQuery
        exact hOk object fields row hHead hFind
      · cases q with
        | storeFile name content => cases hPlan
        | _ => exact trivial
  intro links pk data hGet
  rcases Option.map_eq_some_iff.mp hGet with
    ⟨row, hLive, rfl⟩
  have hFind := (Option.filter_eq_some_iff.mp hLive).1
  change getDownloadUrl links row ≠ none ↔ _
  rw [getDownloadUrl_isSome]
  exact hKept pk row hFind

------------------------------------------------------------
-- A Redelivered Report
------------------------------------------------------------

/- No tool is enabled, and every file is empty. -/
def blankTooling : Tooling where
  platform := idlePlatform
  setting := []
  buildReportPdf := fun _ _ => .ok []

/- The row that the view has created. -/
def queuedReport : FullReportRow where
  id := 0
  user := none
  url := "https://example.com/"
  strategy := "mobile"
  lang := "en"
  status := .pending
  file := none
  toolsStatus := .obj []
  errorMessage := ""
  isDeleted := false

def queuedDb : Db where
  reports := [queuedReport]
  storage := []

/- Two deliveries of the task of the report. -/
abbrev queuedTasks : TaskWorld :=
  startTasks blankTooling (fun _ => 0) queuedDb

def downRun : ToolRun where
  answers := downAnswers
  generatedAt := 0
  cells :=
    { topIssues := []
      brokenLinks := []
      schemas := []
      issues := [] }

/- The first delivery starts, and completes the report. -/
def production : List (Event (Choice Exc Reply)) :=
  [.step 0 .proceed, .step 0 .proceed,
    .step 0 (.reply (.ran downRun)),
    .step 0 (.reply (.stored "reports/0/analysis.pdf")),
    .step 0 .proceed]

/- The world after the first events of a list. -/
abbrev tasksAfter
    (events : List (Event (Choice Exc Reply))) : TaskWorld :=
  (backend.machine.replay queuedTasks events).getD queuedTasks

/- The addresses of the files on the site. -/
def mediaLinks : Links where
  storageUrl := fun name => "/media/" ++ name
  buildAbsoluteUri :=
    some (fun path => "https://example.com" ++ path)

/- The one delivery leaves a completed report with a URL. -/
theorem download_iff_completed_produced :
    ∃ data,
      getFullReport mediaLinks
          (tasksAfter production).shared.committed 0 =
          some data ∧
        (data.downloadUrl ≠ none ↔
          data.status = .completed) := by
  have hStart : Downloadable queuedDb := by
    intro report row hFind
    have hRow : row = queuedReport := by
      have hMem := Table.mem_of_find hFind
      exact List.mem_singleton.mp hMem
    subst hRow
    constructor
    · rintro ⟨name, hFile, _⟩
      cases hFile
    · intro hStatus
      cases hStatus
  have hOther :
      ∀ (v : TaskWorld) t c,
        (∀ object fields,
          (v.threads t).head ≠
            some (.query (.saveReportFields object fields))) →
          MovesUnfinished v (.step t c) := by
    intro v t c hHead object fields row hSave
    exact absurd hSave (hHead object fields)
  have hRead :
      backend.machine.Reaches MovesUnfinished queuedTasks
        (tasksAfter (production.take 1)) := by
    apply
      Machine.Reaches.refl.tail (hOther _ 0 .proceed _) rfl
    intro object fields hHead
    cases hHead
  have hStarted :
      backend.machine.Reaches MovesUnfinished queuedTasks
        (tasksAfter (production.take 2)) := by
    apply hRead.tail (e := .step 0 .proceed) _ rfl
    intro object fields row hHead hFind
    cases hHead
    cases hFind
    intro hSame
    cases hSame
  have hRan :
      backend.machine.Reaches MovesUnfinished queuedTasks
        (tasksAfter (production.take 3)) := by
    apply
      hStarted.tail
        (hOther _ 0 (.reply (.ran downRun)) _) rfl
    intro object fields hHead
    cases hHead
  have hStored :
      backend.machine.Reaches MovesUnfinished queuedTasks
        (tasksAfter (production.take 4)) := by
    apply
      hRan.tail
        (hOther _ 0
          (.reply (.stored "reports/0/analysis.pdf")) _)
        rfl
    intro object fields hHead
    cases hHead
  have hReach :
      backend.machine.Reaches MovesUnfinished queuedTasks
        (tasksAfter production) := by
    apply hStored.tail (hOther _ 0 .proceed _) rfl
    intro object fields hHead
    cases hHead
  exact
    ⟨_, rfl,
      download_iff_completed hStart hReach mediaLinks 0 _ rfl⟩

/- A second delivery starts on the completed report. -/
theorem redelivered_report_downloadable :
    ¬ ∀ w : TaskWorld,
      backend.machine.Reaches Machine.anyEvent queuedTasks
          w →
        ∀ links pk data,
          getFullReport links w.shared.committed pk =
              some data →
            (data.downloadUrl ≠ none ↔
              data.status = .completed) := by
  intro hAgree
  have hReach :=
    Machine.reaches_of_replay
      (M := backend.machine) (w := queuedTasks)
      (production ++ [.step 1 .proceed, .step 1 .proceed])
      rfl
  have hData := hAgree _ hReach mediaLinks 0 _ rfl
  have hStatus := hData.mp (fun hNone => by cases hNone)
  cases hStatus

end SiteAnalysis.FullReport
