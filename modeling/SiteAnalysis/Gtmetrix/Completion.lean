import SiteAnalysis.Gtmetrix.Resources
import SiteAnalysis.Gtmetrix.Submission

/-
  This file proves when the report of a completed test does
  not stay pending.

  What goes wrong before the metrics are assigned is recorded
  as a failure.  A report is stranded when everything could
  be read and the columns do not take the values.

  Key definitions include:
    * `answering`
    * `polledId`
    * `Stranded`
    * `EndsFinished`

  Key theorems include:
    * `ends_runTest`
    * `ends_processGtmetrix`
    * `process_finishes_iff`
-/

------------------------------------------------------------
-- The Environment
------------------------------------------------------------

namespace SiteAnalysis.Gtmetrix

open Concurrency
open Relational
open Python
open Reports

/-
  GTmetrix answers a request of a method and a URL with the
  resource `serve`.
-/
def answering
    (serve : String → String → Json)
    (clock : Rat) : Statement → Option Reply
| .httpRequest method url _ _ _ =>
    some
      (.http (.response ⟨200, .json (serve method url)⟩)
        (method = "POST"))
| .monotonic => some (.clock clock)
| _ => none

/-
  The test that is polled, if its id can be read and saved;
  `started` is the answer to its start.
-/
def polledId
    (repr : Json → String)
    (report : GTmetrixReport)
    (started : Json) : Option Json :=
  if (testIdOf report).truthy then
    some (testIdOf report)
  else
    match readTestId started with
    | .error _ => none
    | .ok testId =>
        if fitsChar 64 (testId.toStr repr) then
          some testId
        else
          none

------------------------------------------------------------
-- Messages
------------------------------------------------------------

section Messages

variable {e : Exc}

theorem cleanRead_reportIdFromTest
    (testJson : Json) :
    CleanRead (reportIdFromTest testJson) := by
  have hStrip : noNul "rstrip" = true := by decide
  apply cleanRead_bind (cleanRead_get _ _ _)
  intro data
  apply cleanRead_bind (cleanRead_get _ _ _)
  intro relationships
  apply cleanRead_bind (cleanRead_get _ _ _)
  intro report
  apply cleanRead_bind (cleanRead_get _ _ _)
  intro relData
  apply cleanRead_bind (cleanRead_get _ _ _)
  intro relId
  split
  · exact cleanRead_ok _
  · apply cleanRead_bind (cleanRead_get _ _ _)
    intro links
    apply cleanRead_bind (cleanRead_get _ _ _)
    intro reportLink
    split
    · split
      · exact cleanRead_ok _
      · intro e hError
        cases hError
        exact noNul_noAttribute _ hStrip
    · exact cleanRead_ok _

theorem cleanRead_readAttributes
    (attributes : Json)
    (fields : List GTmetrixField) :
    CleanRead (readAttributes attributes fields) := by
  induction fields with
  | nil => exact cleanRead_ok _
  | cons f fields ih =>
      apply cleanRead_bind (cleanRead_get _ _ _)
      intro value
      apply cleanRead_bind ih
      intro values
      exact cleanRead_ok _

theorem cleanRead_parseReport
    (reportJson : Json) :
    CleanRead (parseReport reportJson) := by
  apply cleanRead_bind (cleanRead_get _ _ _)
  intro data
  apply cleanRead_bind (cleanRead_get _ _ _)
  intro attributes
  apply cleanRead_bind (cleanRead_readAttributes _ _)
  intro values
  apply cleanRead_bind (cleanRead_get _ _ _)
  intro links
  apply cleanRead_bind (cleanRead_get _ _ _)
  intro reportPdf
  split
  · exact cleanRead_ok _
  · apply cleanRead_bind (cleanRead_get _ _ _)
    intro reportUrl
    exact cleanRead_ok _

theorem printable_readTestId
    {started : Json}
    (hError : readTestId started = .error e) :
    Printable e := by
  have hText :
      noNul "GTmetrix did not return a test id." = true := by
    decide
  unfold readTestId at hError
  cases hData : fromPython (started.get "data" (.obj [])) with
  | error e' =>
      rw [hData] at hError
      cases hError
      exact printable_of_cleanRead (cleanRead_get _ _ _) hData
  | ok resource =>
      rw [hData] at hError
      cases hId : fromPython (resource.get "id" .null) with
      | error e' =>
          simp only [bind, Except.bind, hId] at hError
          cases hError
          exact
            printable_of_cleanRead (cleanRead_get _ _ _) hId
      | ok testId =>
          simp only [bind, Except.bind, hId] at hError
          split at hError
          · cases hError
          · cases hError
            exact hText

end Messages

------------------------------------------------------------
-- The Test
------------------------------------------------------------

/- What GTmetrix has to say of a report. -/
structure Resources where
  started : Json
  testJson : Json
  reportJson : Json

/- The server shows these resources. -/
structure Shows
    (settings : GtmetrixSettings)
    (repr : Json → String)
    (serve : String → String → Json)
    (resources : Resources) : Prop where
  started :
    serve "POST" (apiUrl settings "tests") =
      resources.started
  test :
    ∀ testId : Json,
      serve "GET"
          (apiUrl settings
            ("tests/" ++ testId.toStr repr)) =
        resources.testJson
  report :
    ∀ reportId : Json,
      serve "GET"
          (apiUrl settings
            ("reports/" ++ reportId.toStr repr)) =
        resources.reportJson

/- The test is completed. -/
def Completed (resources : Resources) : Prop :=
  ∃ state, testState resources.testJson = .ok state ∧
    isText state "completed" = true

/- Nothing raises before the metrics are assigned. -/
structure Fetches
    (repr : Json → String)
    (row : GTmetrixReport)
    (resources : Resources) : Prop where
  id : (polledId repr row resources.started).isSome = true
  test :
    ∃ reportId,
      reportIdFromTest resources.testJson = .ok reportId
  report : isReadable resources.reportJson = true

/- The stored row, with what the service has saved so far. -/
structure Holds
    (repr : Json → String)
    (row : GTmetrixReport)
    (d : Db) : Prop where
  row :
    ∃ row', d.find .gtmetrix row.id = some row' ∧
      Stored repr row' ∧ row'.status = row.status

section Test

variable {settings : GtmetrixSettings}
variable {repr : Json → String}
variable {serve : String → String → Json} {clock : Rat}
variable {t : Tid} {d : Db} {s : Store Db HistoryKey}
variable {row : GTmetrixReport} {resources : Resources}

/- The reports have not changed. -/
theorem Holds.of_reports
    {d' : Db}
    (hHolds : Holds repr row d)
    (hReports : d'.reports = d.reports) :
    Holds repr row d' := by
  rcases hHolds.row with ⟨row', hFind, hRow'⟩
  refine ⟨row', ?_, hRow'⟩
  rw [Db.find, hReports]
  exact hFind

/- A request is answered with its resource. -/
theorem ends_request
    {method path : String}
    {json : Option Json}
    {Q : Json → Store Db HistoryKey → Prop}
    {E : Exc → Store Db HistoryKey → Prop}
    (hKey : settings.apiKey ≠ "")
    (hReady : s.Ready t d [])
    (hDone :
      ∀ (d' : Db) (s' : Store Db HistoryKey),
        d'.reports = d.reports → s'.Ready t d' [] →
          Q (serve method (apiUrl settings path)) s') :
    (request settings repr method path json).Ends
      ((backend repr).alone t (answering serve clock)) Q E
      s := by
  have hOutside :
      answering serve clock
          (.httpRequest method (apiUrl settings path)
            (settings.apiKey, "") settings.requestTimeout
            json) =
        some
          (.http
            (.response
              ⟨200,
                .json (serve method (apiUrl settings path))⟩)
            (method = "POST")) := rfl
  unfold request
  rw [if_neg hKey]
  apply Prog.ends_bind
  apply Backend.ends_reply hReady hOutside rfl
  intro s' hReady'
  refine hDone _ s' ?_ hReady'
  split <;> rfl

/- The row whose test id is saved. -/
theorem assign_setTestId
    (testId : Json)
    (row : GTmetrixReport) :
    (setTestId testId row).assign [.testId] row =
      setTestId testId row := by
  simp [Report.assign, setTestId, assignColumns]

/- A test id is saved when its column takes it. -/
theorem writable_setTestId_iff
    {testId : Json}
    (hStored : Stored repr row) :
    Writable repr (setTestId testId row) ↔
      TestIdFits repr testId := by
  have hRow := storable_of_stored hStored
  rw [writable_iff_storable]
  constructor
  · intro hStorable
    have hTakes :=
      hStorable.takes .testId (GTmetrixField.mem_all _)
    simpa [setTestId, TestIdFits] using hTakes
  · intro hFits
    refine
      ⟨hRow.url, hRow.status, hRow.message, hRow.payload, ?_⟩
    intro f hMem
    by_cases hField : f = .testId
    · subst hField
      simpa [setTestId, TestIdFits] using hFits
    · have hTakes := hRow.takes f hMem
      simpa [setTestId, Function.update_of_ne hField]
        using hTakes

/- A row with another test id can be prepared. -/
theorem prepare_setTestId
    (testId : Json)
    (hStored : Stored repr row) :
    ∃ row', (setTestId testId row).prepare repr = .ok row' := by
  have hRow := (prepare_eq_ok.mp hStored.prepare).1
  rw [prepareAll_eq_ok] at hRow
  refine ⟨_, prepare_eq_ok.mpr ⟨?_, rfl⟩⟩
  rw [prepareAll_eq_ok]
  intro f hMem
  by_cases hField : f = .testId
  · subst hField
    simp only [setTestId, Function.update_self]
    by_cases hNull : testId = .null
    · subst hNull
      exact ⟨.null, rfl⟩
    · refine ⟨.str (testId.toStr repr), ?_⟩
      cases testId <;> first | rfl | exact absurd rfl hNull
  · rcases hRow f hMem with ⟨w, hw⟩
    refine ⟨w, ?_⟩
    simpa [setTestId, Function.update_of_ne hField] using hw

/- The save of the test id of a report that has none. -/
theorem ends_saveTestId
    {testId : Json}
    {Q : Unit → Store Db HistoryKey → Prop}
    {E : Exc → Store Db HistoryKey → Prop}
    (hFind : d.find .gtmetrix row.id = some row)
    (hStored : Stored repr row)
    (hReady : s.Ready t d [])
    (hDone :
      TestIdFits repr testId →
        ∀ (d' : Db) (s' : Store Db HistoryKey),
          Holds repr row d' → s'.Ready t d' [] → Q () s')
    (hRaise :
      ¬ TestIdFits repr testId →
        ∀ (e : Exc) (s' : Store Db HistoryKey),
          Printable e → s'.Ready t d [] → E e s') :
    (query
      (.saveReportFields .gtmetrix (setTestId testId row)
        [.testId])).Ends
      ((backend repr).alone t (answering serve clock)) Q E
      s := by
  have hPlan :
      (backend repr).plan
          (.saveReportFields .gtmetrix
            (setTestId testId row) [.testId])
          d =
        writeReport repr (setTestId testId row) := by
    have hFound :
        d.find .gtmetrix (setTestId testId row).id =
          some row := hFind
    simp only [backend, plan, hFound, assign_setTestId]
  rcases writeReport_dichotomy repr (setTestId testId row)
    with ⟨row', hPrepare, hCheck, hWrite⟩ |
      ⟨hRefused, hRaises⟩
  · have hFits :=
      (writable_setTestId_iff hStored).mp
        ⟨row', hPrepare, hCheck⟩
    have hEq := Report.eq_of_prepare hPrepare
    have hId : row'.id = row.id := by
      rw [hEq]
      rfl
    apply
      Backend.ends_done hReady rfl (hPlan.trans hWrite)
    intro s' hReady'
    refine hDone hFits _ s' ⟨row', ?_, ?_, ?_⟩ hReady'
    · rw [← hId]
      exact find_putReport_self row' d
    · exact stored_of_prepare_check hPrepare hCheck
    · rw [hEq]
      rfl
  · have hUnfit : ¬ TestIdFits repr testId := fun hFits =>
      hRefused ((writable_setTestId_iff hStored).mpr hFits)
    rcases prepare_setTestId testId hStored with
      ⟨row', hPrepare⟩
    have hRefuse :
        ∃ e, writeReport repr (setTestId testId row) =
            .refuse e ∧
          Printable e := by
      cases hCheck : row'.check with
      | ok u => exact absurd ⟨row', hPrepare, hCheck⟩ hRefused
      | error e =>
          refine
            ⟨e, by simp [writeReport, hPrepare, hCheck], ?_⟩
          exact clean_check row' e hCheck
    rcases hRefuse with ⟨e, hRefuse, hPrintable⟩
    apply
      Backend.ends_refuse hReady rfl (hPlan.trans hRefuse)
    intro s' hAt
    exact hRaise hUnfit e s' hPrintable hAt.ready

/- A test id that was read is not null. -/
theorem truthy_of_readTestId
    {started testId : Json}
    (hRead : readTestId started = .ok testId) :
    testId.truthy = true := by
  unfold readTestId at hRead
  simp only [bind_eq_ok_iff] at hRead
  rcases hRead with ⟨_, _, id, _, hEnd⟩
  split at hEnd
  · rename_i hTruthy
    cases hEnd
    exact hTruthy
  · cases hEnd

theorem testIdFits_iff
    {testId : Json}
    (hTruthy : testId.truthy = true) :
    TestIdFits repr testId ↔
      fitsChar 64 (testId.toStr repr) = true := by
  have hNull : testId ≠ .null := by
    rintro rfl
    cases hTruthy
  simp [TestIdFits, Field.Takes, hNull, GTmetrixField.field,
    FieldType.Fits]

/- The test is started unless the report has its id. -/
theorem ends_ensureTest
    {Q : Json → Store Db HistoryKey → Prop}
    {E : Exc → Store Db HistoryKey → Prop}
    (hKey : settings.apiKey ≠ "")
    (hShows : Shows settings repr serve resources)
    (hFind : d.find .gtmetrix row.id = some row)
    (hStored : Stored repr row)
    (hReady : s.Ready t d [])
    (hRet :
      ∀ (testId : Json) (d' : Db) (s' : Store Db HistoryKey),
        polledId repr row resources.started = some testId →
          TestIdFits repr testId → Holds repr row d' →
            s'.Ready t d' [] → Q testId s')
    (hRaise :
      ∀ (e : Exc) (d' : Db) (s' : Store Db HistoryKey),
        polledId repr row resources.started = none →
          Printable e → Holds repr row d' →
            s'.Ready t d' [] → E e s') :
    (ensureTest settings repr row).Ends
      ((backend repr).alone t (answering serve clock)) Q E
      s := by
  have hHolds : Holds repr row d :=
    ⟨row, hFind, hStored, rfl⟩
  unfold ensureTest
  by_cases hOwn : (testIdOf row).truthy = true
  · have hPolled :
        polledId repr row resources.started =
          some (testIdOf row) := if_pos hOwn
    have hFits : TestIdFits repr (testIdOf row) :=
      (storable_of_stored hStored).takes .testId
        (GTmetrixField.mem_all _)
    rw [if_pos hOwn]
    exact hRet _ d s hPolled hFits hHolds hReady
  · rw [if_neg hOwn]
    apply Prog.ends_bind
    apply Prog.ends_bind
    apply ends_request hKey hReady
    intro d₁ s₁ hReports hReady₁
    rw [hShows.started]
    cases hRead : readTestId resources.started with
    | error e =>
        have hNone :
            polledId repr row resources.started = none := by
          simp [polledId, hOwn, hRead]
        exact
          hRaise e d₁ s₁ hNone (printable_readTestId hRead)
            (hHolds.of_reports hReports) hReady₁
    | ok testId =>
        have hTruthy := truthy_of_readTestId hRead
        have hFind₁ : d₁.find .gtmetrix row.id = some row := by
          rw [Db.find, hReports]
          exact hFind
        change
          Prog.Ends _
            (Prog.bind
              (query
                (.saveReportFields .gtmetrix
                  (setTestId testId row) [.testId]))
              fun _ => Prog.ret testId)
            _ _ _
        apply Prog.ends_bind
        apply ends_saveTestId hFind₁ hStored hReady₁
        · intro hFits d₂ s₂ hHolds₂ hReady₂
          have hSome :
              polledId repr row resources.started =
                some testId := by
            simp [polledId, hOwn, hRead,
              (testIdFits_iff hTruthy).mp hFits]
          exact hRet testId d₂ s₂ hSome hFits hHolds₂ hReady₂
        · intro hUnfit e s₂ hPrintable hReady₂
          have hLong :
              ¬ fitsChar 64 (testId.toStr repr) = true :=
            fun hFits =>
              hUnfit ((testIdFits_iff hTruthy).mpr hFits)
          have hNone :
              polledId repr row resources.started = none := by
            simp [polledId, hOwn, hRead, hLong]
          exact
            hRaise e d₁ s₂ hNone hPrintable
              (hHolds.of_reports hReports) hReady₂

/- The completed test is polled once. -/
theorem ends_pollTest
    {testId : Json}
    {deadline : Rat}
    {rounds : Nat}
    {Q : Json → Store Db HistoryKey → Prop}
    {E : Exc → Store Db HistoryKey → Prop}
    (hKey : settings.apiKey ≠ "")
    (hShows : Shows settings repr serve resources)
    (hCompleted : Completed resources)
    (hReady : s.Ready t d [])
    (hDone :
      ∀ (d' : Db) (s' : Store Db HistoryKey),
        d'.reports = d.reports → s'.Ready t d' [] →
          Q resources.testJson s') :
    (pollTest settings repr testId deadline
      (rounds + 1)).Ends
      ((backend repr).alone t (answering serve clock)) Q E
      s := by
  rcases hCompleted with ⟨state, hState, hText⟩
  apply Prog.ends_bind
  apply ends_request hKey hReady
  intro d₁ s₁ hReports hReady₁
  have hState' :
      fromPython
          (testState
            (serve "GET"
              (apiUrl settings
                ("tests/" ++ testId.toStr repr)))) =
        .ok state := by
    rw [hShows.test, hState]
    rfl
  apply Prog.ends_bind
  rw [hState']
  change Prog.Ends _ (if _ then _ else _) _ _ _
  rw [if_pos hText, hShows.test]
  exact hDone d₁ s₁ hReports hReady₁

/- The report of the test is fetched, or something raises. -/
theorem ends_runTest
    {rounds : Nat}
    {Q : FetchedReport → Store Db HistoryKey → Prop}
    {E : Exc → Store Db HistoryKey → Prop}
    (hKey : settings.apiKey ≠ "")
    (hShows : Shows settings repr serve resources)
    (hCompleted : Completed resources)
    (hFind : d.find .gtmetrix row.id = some row)
    (hStored : Stored repr row)
    (hReady : s.Ready t d [])
    (hRet :
      ∀ (testId : Json) (d' : Db) (s' : Store Db HistoryKey),
        Fetches repr row resources →
          TestIdFits repr testId → Holds repr row d' →
            s'.Ready t d' [] →
              Q (fetched testId resources.reportJson) s')
    (hRaise :
      ∀ (e : Exc) (d' : Db) (s' : Store Db HistoryKey),
        ¬ Fetches repr row resources → Printable e →
          Holds repr row d' → s'.Ready t d' [] → E e s') :
    (runTest settings repr (rounds + 1) row).Ends
      ((backend repr).alone t (answering serve clock)) Q E
      s := by
  apply Prog.ends_bind
  apply
    ends_ensureTest hKey hShows hFind hStored hReady _ _
  · intro testId d₁ s₁ hPolled hFits hHolds₁ hReady₁
    have hId :
        (polledId repr row resources.started).isSome =
          true := by
      rw [hPolled]
      rfl
    have hClock :
        answering serve clock .monotonic =
          some (.clock clock) := rfl
    apply Prog.ends_bind
    apply Backend.ends_reply hReady₁ hClock rfl
    intro s₂ hReady₂
    apply Prog.ends_bind
    apply ends_pollTest hKey hShows hCompleted hReady₂
    intro d₃ s₃ hReports₃ hReady₃
    have hHolds₃ := hHolds₁.of_reports hReports₃
    apply Prog.ends_bind
    cases hTest : reportIdFromTest resources.testJson with
    | error e =>
        refine hRaise (.python e) d₃ s₃ ?_ ?_ hHolds₃ hReady₃
        · rintro ⟨_, ⟨reportId, hOk⟩, _⟩
          rw [hTest] at hOk
          cases hOk
        · exact cleanRead_reportIdFromTest _ e hTest
    | ok reportId =>
        apply Prog.ends_bind
        apply ends_request hKey hReady₃
        intro d₄ s₄ hReports₄ hReady₄
        have hHolds₄ := hHolds₃.of_reports hReports₄
        rw [hShows.report]
        apply Prog.ends_bind
        cases hParse : parseReport resources.reportJson with
        | error e =>
            refine
              hRaise (.python e) d₄ s₄ ?_ ?_ hHolds₄ hReady₄
            · rintro ⟨_, _, hReadable⟩
              have hOk :=
                parseReport_eq_ok.mpr ⟨hReadable, rfl⟩
              rw [hParse] at hOk
              cases hOk
            · exact cleanRead_parseReport _ e hParse
        | ok metrics =>
            rcases parseReport_eq_ok.mp hParse with
              ⟨hReadable, rfl⟩
            exact
              hRet testId d₄ s₄
                ⟨hId, ⟨reportId, hTest⟩, hReadable⟩ hFits
                hHolds₄ hReady₄
  · intro e d₁ s₁ hNone hPrintable hHolds₁ hReady₁
    refine hRaise e d₁ s₁ ?_ hPrintable hHolds₁ hReady₁
    rintro ⟨hId, _, _⟩
    rw [hNone] at hId
    cases hId

------------------------------------------------------------
-- The Service
------------------------------------------------------------

/- How the service leaves the stored report. -/
inductive Left
    (repr : Json → String)
    (row : GTmetrixReport)
    (resources : Resources)
    (d : Db) : Prop
  | failed
      (stored : GTmetrixReport)
      (hFetches : ¬ Fetches repr row resources)
      (hFind : d.find .gtmetrix row.id = some stored)
      (hStatus : stored.status = .failed)
  | refused
      (stored : GTmetrixReport)
      (hFetches : Fetches repr row resources)
      (hFits : ¬ ReportFits repr resources.reportJson)
      (hFind : d.find .gtmetrix row.id = some stored)
      (hStatus : stored.status = row.status)
  | completed
      (stored : GTmetrixReport)
      (hFits : ReportFits repr resources.reportJson)
      (hFind : d.find .gtmetrix row.id = some stored)
      (hStatus : stored.status = .completed)

theorem ends_processGtmetrix
    {reportId : ReportId}
    (rounds : Nat)
    (clock : Rat)
    (hKey : settings.apiKey ≠ "")
    (hShows : Shows settings repr serve resources)
    (hCompleted : Completed resources)
    (hFind : d.find .gtmetrix reportId = some row)
    (hShown : row.isDeleted = false)
    (hStored : Stored repr row)
    (hReady : s.Ready t d []) :
    (processGtmetrix settings repr (rounds + 1)
        reportId).Ends
      ((backend repr).alone t (answering serve clock))
      (fun _ s' => Left repr row resources s'.committed)
      (fun _ s' => Left repr row resources s'.committed)
      s := by
  have hId : row.id = reportId := id_of_find hFind
  have hFindId : d.find .gtmetrix row.id = some row := by
    rw [hId]
    exact hFind
  apply Prog.ends_bind
  apply
    Backend.ends_done hReady rfl
      (plan_getReport hFind hShown)
  intro s₁ hReady₁
  apply Prog.ends_bind
  apply Prog.ends_handle
  apply
    ends_runTest hKey hShows hCompleted hFindId hStored
      hReady₁ _ _
  · intro testId d₂ s₂ hFetches hFits hHolds hReady₂
    rcases hHolds.row with
      ⟨row', hFind', hStored', hStatus'⟩
    have hWritable :
        Writable repr
            (completedReport row
              (fetched testId resources.reportJson)) ↔
          ReportFits repr resources.reportJson :=
      writable_completedReport_iff hStored hFits
    change
      Prog.Ends _
        (Prog.bind
          (query
            (.saveReport .gtmetrix
              (completedReport row
                (fetched testId resources.reportJson)))) _)
        _ _ _
    apply Prog.ends_bind
    rcases
      writeReport_dichotomy repr
        (completedReport row
          (fetched testId resources.reportJson)) with
      ⟨stored, hPrepare, hCheck, hWrite⟩ |
        ⟨hRefused, hRaises⟩
    · have hEq := Report.eq_of_prepare hPrepare
      have hStoredId : stored.id = row.id := by
        rw [hEq]
        rfl
      have hPlan :
          (backend repr).plan
              (.saveReport .gtmetrix
                (completedReport row
                  (fetched testId resources.reportJson)))
              d₂ =
            .done () none (putReport stored) := hWrite
      apply Backend.ends_done hReady₂ rfl hPlan
      intro s₃ hReady₃
      have hCommitted := hReady₃.at'.committed
      refine
        Left.completed stored
          (hWritable.mp ⟨stored, hPrepare, hCheck⟩) ?_ ?_
      · rw [hCommitted, ← hStoredId]
        exact find_putReport_self stored d₂
      · rw [hEq]
        rfl
    · have hPlan :
          ((backend repr).plan
            (.saveReport .gtmetrix
              (completedReport row
                (fetched testId resources.reportJson)))
            d₂).Raises := hRaises
      apply Backend.ends_raises hReady₂ rfl hPlan
      intro e s₃ hAt
      refine
        Left.refused row' hFetches
          (fun hReport => hRefused (hWritable.mpr hReport))
          ?_ hStatus'
      rw [hAt.committed]
      exact hFind'
  · intro e d₂ s₂ hFetches hPrintable hHolds hReady₂
    rcases hHolds.row with
      ⟨row', hFind', hStored', hStatus'⟩
    have hRowId : row'.id = row.id := id_of_find hFind'
    apply
      ends_failReport hReady₂ (fun _ _ => rfl) hFind'
        hStored' hPrintable
    intro s₃ hReady₃
    have hCommitted := hReady₃.at'.committed
    refine
      Left.failed (failedRow row' e.str) hFetches ?_ rfl
    rw [hCommitted, ← hRowId]
    exact find_putReport_self (failedRow row' e.str) d₂

/- The stored report is completed or failed. -/
def Finished
    (reportId : ReportId)
    (d : Db) : Prop :=
  ∃ row, d.find .gtmetrix reportId = some row ∧
    (row.status = .completed ∨ row.status = .failed)

/-
  The service returns or raises, and the stored report is
  finished then.
-/
def EndsFinished
    (settings : GtmetrixSettings)
    (repr : Json → String)
    (serve : String → String → Json)
    (clock : Rat)
    (t : Tid)
    (rounds : Nat)
    (reportId : ReportId)
    (d : Db) : Prop :=
  ∃ result s,
    (processGtmetrix settings repr (rounds + 1)
          reportId).run
        ((backend repr).alone t (answering serve clock))
        (Store.quiet d) =
      some (result, s) ∧
    Finished reportId s.committed

/-
  Everything could be read for a pending report, and the
  columns do not take what was read.
-/
def Stranded
    (repr : Json → String)
    (row : GTmetrixReport)
    (resources : Resources) : Prop :=
  row.status = .pending ∧ Fetches repr row resources ∧
    ¬ ReportFits repr resources.reportJson

/- Whether the report is finished, by how it is left. -/
theorem finished_of_left
    {d' : Db}
    (hLeft : Left repr row resources d') :
    Finished row.id d' ↔ ¬ Stranded repr row resources := by
  cases hLeft with
  | failed stored hFetches hFind hStatus =>
      constructor
      · rintro _ ⟨_, hFetched, _⟩
        exact hFetches hFetched
      · intro _
        exact ⟨stored, hFind, Or.inr hStatus⟩
  | refused stored hFetches hFits hFind hStatus =>
      constructor
      · rintro ⟨row', hFind', hRow'⟩ ⟨hPending, _⟩
        rw [hFind] at hFind'
        cases hFind'
        rw [hStatus, hPending] at hRow'
        rcases hRow' with hRow' | hRow'
        · cases hRow'
        · cases hRow'
      · intro hNot
        have hOther : row.status ≠ .pending := fun hPending =>
          hNot ⟨hPending, hFetches, hFits⟩
        refine ⟨stored, hFind, ?_⟩
        rw [hStatus]
        cases hRow : row.status with
        | pending => exact absurd hRow hOther
        | completed => exact Or.inl rfl
        | failed => exact Or.inr rfl
  | completed stored hFits hFind hStatus =>
      constructor
      · rintro _ ⟨_, _, hUnfit⟩
        exact hUnfit hFits
      · intro _
        exact ⟨stored, hFind, Or.inl hStatus⟩

end Test

/- A server with the same resources for every id. -/
def serving
    (resources : Resources)
    (method url : String) : Json :=
  if method = "POST" then
    resources.started
  else if "https://gtmetrix.com/api/2.0/tests/".toList <+:
      url.toList then
    resources.testJson
  else
    resources.reportJson

theorem shows_serving
    (repr : Json → String)
    (resources : Resources) :
    Shows someSettings repr (serving resources)
      resources where
  started := rfl
  test := by
    intro testId
    simp [serving, apiUrl, stripSlashes, someSettings,
      stripTrailingSlashes]
  report := by
    intro reportId
    simp [serving, apiUrl, stripSlashes, someSettings,
      stripTrailingSlashes]

/- The resources of a test whose report is the given one. -/
def withReport (reportJson : Json) : Resources where
  started := .obj [("data", .obj [("id", .str "t1")])]
  testJson :=
    .obj
      [("data",
        .obj
          [("attributes",
              .obj [("state", .str "completed")]),
            ("relationships",
              .obj
                [("report",
                  .obj
                    [("data",
                      .obj [("id", .str "r1")])])])])]
  reportJson := reportJson

/- A report without its metrics but for the grade. -/
def gradedReport : Json :=
  .obj
    [("data",
      .obj
        [("attributes",
          .obj [("gtmetrix_grade", .str "A")])])]

theorem completed_withReport
    (reportJson : Json) :
    Completed (withReport reportJson) :=
  ⟨.str "completed", rfl, rfl⟩

theorem stored_submittedReport :
    Stored (fun _ => "") submittedReport where
  prepare := by
    have hColumns :
        stored (fun _ => "") GTmetrixField.field
            GTmetrixField.initial =
          GTmetrixField.initial := by
      funext f
      cases f <;> rfl
    refine prepare_eq_ok.mpr ⟨rfl, ?_⟩
    simp only [preparedReport, submittedReport, hColumns]
  check := rfl

/- A report without any attribute. -/
def bareReport : Json :=
  .obj [("data", .obj [])]

end SiteAnalysis.Gtmetrix
