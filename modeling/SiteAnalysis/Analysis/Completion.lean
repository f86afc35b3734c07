import SiteAnalysis.Analysis.Payload
import SiteAnalysis.Relational.Calm
import SiteAnalysis.Reports.Stored
import SiteAnalysis.Reports.Workers

/-
  This file proves which answers of PageSpeed a report
  survives: the answer is flattened, with `None` for what is
  missing, and the report does not stay pending.

  Key definitions include:
    * `answering`
    * `Finished`
    * `Handled`

  Key theorems include:
    * `writable_iff`
    * `ends_processAnalysis`
    * `answer_handled_iff`
-/

------------------------------------------------------------
-- The Completed Row
------------------------------------------------------------

namespace SiteAnalysis.Analysis

open Concurrency
open Relational
open Python
open Reports

variable {repr : Json → String} {raw : Json}
variable {row : AnalysisReport}
variable {metrics : List (AnalysisField × Json)}

/- Every metric has a source. -/
theorem source_of_field
    (field : AnalysisField) :
    ∃ source ∈ sources, source.field = field := by
  cases field <;>
    simp [sources, categoryToField, auditToField,
      Source.field]

/- A score is stored as it was read. -/
theorem stored_score
    {values : AnalysisField → Json}
    (hScore :
      values .performanceScore = .null ∨
        ∃ n, values .performanceScore = .int n) :
    stored repr AnalysisField.field values
        .performanceScore =
      values .performanceScore := by
  apply stored_of_prepare
  rcases hScore with hNull | ⟨n, hInt⟩
  · rw [hNull]
    rfl
  · rw [hInt]
    rfl

/- What the table asks of an object. -/
structure Storable
    (repr : Json → String)
    (object : AnalysisReport) : Prop where
  url : fitsChar 2048 object.url = true
  status : fitsChar 10 object.status.value = true
  message : noNul object.errorMessage = true
  payload : object.rawResponse.storable = true
  strategy : fitsChar 10 object.columns.strategy = true
  takes :
    ∀ f ∈ AnalysisField.all,
      f.field.Takes repr (object.columns.metrics f)
  range :
    performanceScoreRange
        (stored repr AnalysisField.field
          object.columns.metrics .performanceScore) =
      .ok ()

/- The row of an object whose values could be prepared. -/
def preparedReport
    (repr : Json → String)
    (object : AnalysisReport) : AnalysisReport :=
  { object with
    columns :=
      { object.columns with
        metrics :=
          stored repr AnalysisField.field
            object.columns.metrics } }

theorem writable_iff_storable
    (object : AnalysisReport) :
    Writable repr object ↔ Storable repr object := by
  constructor
  · rintro ⟨row, hPrepare, hCheck⟩
    simp only [Report.prepare, prepareColumns,
      bind_eq_ok_iff] at hPrepare
    rcases hPrepare with ⟨_, ⟨_, hAll, hColumns⟩, hRow⟩
    cases hColumns
    cases hRow
    simp only [Report.check, checkColumns, check_bind_eq_ok,
      charColumn_eq_ok, textColumn_eq_ok, jsonColumn_eq_ok]
      at hCheck
    rcases hCheck with
      ⟨hUrl, hStatus, hMessage, hPayload, hStrategy, hTakes,
        hRange⟩
    exact
      ⟨hUrl, hStatus, hMessage, hPayload, hStrategy,
        accepted_iff.mp ⟨hAll, hTakes⟩, hRange⟩
  · rintro
      ⟨hUrl, hStatus, hMessage, hPayload, hStrategy, hTakes,
        hRange⟩
    rcases accepted_iff.mpr hTakes with ⟨hAll, hChecked⟩
    refine ⟨preparedReport repr object, ?_, ?_⟩
    · simp only [Report.prepare, prepareColumns, hAll]
      rfl
    · simp only [preparedReport, Report.check, checkColumns,
        check_bind_eq_ok, charColumn_eq_ok,
        textColumn_eq_ok, jsonColumn_eq_ok]
      exact
        ⟨hUrl, hStatus, hMessage, hPayload, hStrategy,
          hChecked, hRange⟩

/- The metric that the completed object has for a source. -/
theorem metrics_completedReport
    {source : Source}
    (hParse : parsePagespeed raw = .ok metrics)
    (hMem : source ∈ sources) :
    source.read (raw.place source.path) =
      .ok
        ((completedReport row raw
          metrics).columns.metrics source.field) := by
  rcases
    lookup_metricsOf (parsePagespeed_eq_ok.mp hParse).2
      nodup_sources hMem with
    ⟨value, hRead, hLookup⟩
  rw [hRead]
  simp [completedReport, assignMetrics, hLookup]

/- The completed object is stored when its values fit. -/
theorem writable_iff
    (hValid : row.check = .ok ())
    (hParses : Parses raw)
    (hParse : parsePagespeed raw = .ok metrics) :
    Writable repr (completedReport row raw metrics) ↔
      Stores raw := by
  have hCompleted : fitsChar 10 "completed" = true := by
    decide
  have hEmpty : noNul "" = true := by decide
  simp only [Report.check, checkColumns, check_bind_eq_ok,
    charColumn_eq_ok] at hValid
  rcases hValid with ⟨hUrl, _, _, _, hStrategy, _⟩
  have hRead :
      ∀ source, source ∈ sources →
        source.read (raw.place source.path) =
          .ok
            ((completedReport row raw
              metrics).columns.metrics source.field) :=
    fun source hMem => metrics_completedReport hParse hMem
  have hTakes :
      ∀ source, source ∈ sources →
        ((source.field.field.Takes repr
            ((completedReport row raw
              metrics).columns.metrics source.field) ∧
          scoreAllowed source.field
            ((completedReport row raw
              metrics).columns.metrics source.field)) ↔
          source.Fits (raw.place source.path)) := by
    intro source hMem
    apply takes_iff hMem (hRead source hMem)
    rcases Source.read_iff.mpr (hParses.read source hMem)
      with ⟨v, hValue, hNone⟩
    rw [hRead source hMem] at hValue
    cases hValue
    exact hNone
  have hScore :
      stored repr AnalysisField.field
          (completedReport row raw metrics).columns.metrics
          .performanceScore =
        (completedReport row raw metrics).columns.metrics
          .performanceScore := by
    apply stored_score
    have hMem :
        Source.score "performance" .performanceScore ∈
          sources := by
      simp [sources, categoryToField]
    rcases readScore_eq_ok (hRead _ hMem) with
      hNull | ⟨n, hInt, _⟩
    · exact Or.inl hNull
    · exact Or.inr ⟨n, hInt⟩
  rw [writable_iff_storable]
  constructor
  · intro hStorable
    refine ⟨hStorable.payload, ?_⟩
    intro source hMem
    rw [← hTakes source hMem]
    refine ⟨hStorable.takes _ ?_, ?_⟩
    · cases source.field <;> simp [AnalysisField.all]
    · intro hField
      rw [hField, ← hScore]
      exact hStorable.range
  · intro hStores
    refine
      ⟨hUrl, hCompleted, hEmpty, hStores.payload, hStrategy,
        ?_, ?_⟩
    · intro field _
      rcases source_of_field field with ⟨source, hMem, rfl⟩
      exact
        ((hTakes source hMem).mpr
          (hStores.values source hMem)).1
    · rcases source_of_field .performanceScore with
        ⟨source, hMem, hField⟩
      rw [hScore, ← hField]
      exact
        ((hTakes source hMem).mpr
          (hStores.values source hMem)).2 hField

------------------------------------------------------------
-- The Run
------------------------------------------------------------

/- PageSpeed answers with the payload; the cache is there. -/
def answering
    (raw : Json) : Statement → Option Reply
| .httpGet _ _ _ =>
    some (.http (.response ⟨200, .json raw⟩) true)
| .cacheDelete _ => some .done
| _ => none

/- The reports have not changed. -/
def SameReports (d d' : Db) : Prop :=
  d'.reports = d.reports

theorem sameReports_refl
    (d : Db) : SameReports d d := rfl

theorem sameReports_trans
    (d d' d'' : Db)
    (hLeft : SameReports d d')
    (hRight : SameReports d' d'') : SameReports d d'' :=
  hRight.trans hLeft

/- The statements of a rollup are answered. -/
theorem serves_rollsUp
    {q : Statement}
    (hRollsUp : RollsUp q) :
    (backend repr).Serves (answering raw) SameReports q where
  inside := by
    intro hInside d
    cases q with
    | getHistory key =>
        simp only [backend, plan]
        split
        · intro h
          cases h
        · intro h
          cases h
    | createHistory row =>
        simp only [backend, plan]
        split
        · intro h
          cases h
        · split
          · intro h
            cases h
          · intro h
            cases h
    | incrementHistory key now =>
        simp only [backend, plan]
        split
        · intro h
          cases h
        · split
          · intro h
            cases h
          · intro h
            cases h
    | cacheDelete user => cases hInside
    | _ => exact False.elim hRollsUp
  plan := by
    intro d a lock f hPlan d'
    cases q with
    | getHistory key =>
        simp only [backend, plan] at hPlan
        split at hPlan
        · cases hPlan
          rfl
        · cases hPlan
    | createHistory row =>
        simp only [backend, plan] at hPlan
        split at hPlan
        · cases hPlan
        · split at hPlan
          · cases hPlan
          · cases hPlan
            rfl
    | incrementHistory key now =>
        simp only [backend, plan] at hPlan
        split at hPlan
        · cases hPlan
          rfl
        · split at hPlan
          · cases hPlan
          · cases hPlan
            rfl
    | cacheDelete user => cases hPlan
    | _ => exact False.elim hRollsUp
  reply := by
    intro x d hAnswer
    cases q with
    | cacheDelete user =>
        cases hAnswer
        exact ⟨(), _, rfl, rfl⟩
    | getHistory key => cases hAnswer
    | createHistory row => cases hAnswer
    | incrementHistory key now => cases hAnswer
    | _ => exact False.elim hRollsUp

section Run

variable {settings : PagespeedSettings} {t : Tid}
variable {d : Db} {s : Store Db HistoryKey}
variable {reportId : ReportId} {now : Time}

/- The rollup leaves the reports alone. -/
theorem ends_rollUp
    (report : AnalysisReport)
    (hReady : s.Ready t d []) :
    (rollUp report now).Ends
      ((backend repr).alone t (answering raw))
      (fun _ s' => SameReports d s'.committed)
      (fun _ s' => SameReports d s'.committed) s := by
  have hConforms :
      (rollUp report now).Conforms
        (fun o => ∀ q, o = .query q →
          (backend repr).Serves (answering raw) SameReports
            q) := by
    apply (rollsUp_rollUp report now).mono
    intro o hOp q hQuery
    subst hQuery
    exact serves_rollsUp hOp
  apply
    Prog.ends_mono
      (Backend.ends_calm sameReports_refl sameReports_trans
        hConforms (hReady.keeps sameReports_refl))
  · intro _ s' hKeeps
    exact hKeeps.committed
  · intro _ s' hKeeps
    exact hKeeps.committed

/- The payload is what the client returns. -/
theorem ends_fetchPagespeed
    {url strategy : String}
    {Q : Json → Store Db HistoryKey → Prop}
    {E : Exc → Store Db HistoryKey → Prop}
    (hKey : settings.apiKey ≠ "")
    (hReady : s.Ready t d [])
    (hDone :
      ∀ s' : Store Db HistoryKey, s'.Ready t d [] →
        Q raw s') :
    (fetchPagespeed settings repr url strategy).Ends
      ((backend repr).alone t (answering raw)) Q E s := by
  unfold fetchPagespeed
  rw [if_neg hKey]
  have hAttempts : ∃ left, maxAttempts settings = left + 1 := by
    refine ⟨maxAttempts settings - 1, ?_⟩
    unfold maxAttempts
    omega
  rcases hAttempts with ⟨left, hLeft⟩
  have hOutside :
      answering raw
          (.httpGet pagespeedEndpoint
            (pagespeedParams settings url strategy)
            settings.requestTimeout) =
        some (.http (.response ⟨200, .json raw⟩) true) := rfl
  rw [hLeft]
  apply Prog.ends_bind
  apply Backend.ends_reply hReady hOutside rfl
  intro s' hReady'
  exact hDone s' hReady'

/- How the service leaves the row that it has read. -/
inductive Left
    (repr : Json → String)
    (raw : Json)
    (row : AnalysisReport)
    (d' : Db) : Prop
  | completed
      (metrics : List (AnalysisField × Json))
      (stored : AnalysisReport)
      (hParse : parsePagespeed raw = .ok metrics)
      (hWritable :
        Writable repr (completedReport row raw metrics))
      (hFind : d'.find .analysis row.id = some stored)
      (hStatus : stored.status = .completed)
  | unchanged
      (hRefused :
        ∀ metrics, parsePagespeed raw = .ok metrics →
          ¬ Writable repr (completedReport row raw metrics))
      (hFind : d'.find .analysis row.id = some row)

/- The service comes to an end for every payload. -/
theorem ends_processAnalysis
    (repr : Json → String)
    (raw : Json)
    (now : Time)
    (hKey : settings.apiKey ≠ "")
    (hFind : d.find .analysis reportId = some row)
    (hShown : row.isDeleted = false)
    (hReady : s.Ready t d []) :
    (processAnalysis settings repr reportId now).Ends
      ((backend repr).alone t (answering raw))
      (fun _ s' => Left repr raw row s'.committed)
      (fun _ s' => Left repr raw row s'.committed) s := by
  have hId : row.id = reportId := id_of_find hFind
  apply Prog.ends_bind
  apply
    Backend.ends_done hReady rfl
      (plan_getReport hFind hShown)
  intro s₁ hReady₁
  apply Prog.ends_bind
  apply Prog.ends_handle
  apply ends_fetchPagespeed hKey hReady₁
  intro s₂ hReady₂
  change
    Prog.Ends _
      (Prog.bind
        (Prog.ofExcept (fromPython (parsePagespeed raw))) _)
      _ _ _
  apply Prog.ends_bind
  cases hParse : parsePagespeed raw with
  | error e =>
      have hCommitted := hReady₂.at'.committed
      have hSame :
          s₂.committed.find .analysis row.id = some row := by
        rw [hCommitted, hId]
        exact hFind
      refine Left.unchanged ?_ hSame
      intro metrics hOk
      rw [hParse] at hOk
      cases hOk
  | ok metrics =>
      change
        Prog.Ends _
          (Prog.bind
            (query
              (.saveReport .analysis
                (completedReport row raw metrics))) _)
          _ _ _
      apply Prog.ends_bind
      rcases
        writeReport_dichotomy repr
          (completedReport row raw metrics) with
        ⟨stored, hPrepare, hCheck, hWrite⟩ |
          ⟨hRefused, hRaises⟩
      · have hEq := Report.eq_of_prepare hPrepare
        have hStoredId : stored.id = row.id := by
          rw [hEq]
          rfl
        have hPlan :
            (backend repr).plan
                (.saveReport .analysis
                  (completedReport row raw metrics))
                d =
              .done () none (putReport stored) := hWrite
        apply Backend.ends_done hReady₂ rfl hPlan
        intro s₃ hReady₃
        have hAfter :
            ∀ s₄ : Store Db HistoryKey,
              SameReports (putReport stored d)
                  s₄.committed →
                Left repr raw row s₄.committed := by
          intro s₄ hSame
          refine
            Left.completed metrics stored hParse
              ⟨stored, hPrepare, hCheck⟩ ?_ ?_
          · rw [Db.find, hSame, ← hStoredId]
            exact find_putReport_self stored d
          · rw [hEq]
            rfl
        apply Prog.ends_bind
        apply Prog.ends_mono (ends_rollUp _ hReady₃)
        · intro _ s₄ hSame
          exact hAfter s₄ hSame
        · intro _ s₄ hSame
          exact hAfter s₄ hSame
      · have hPlan :
            ((backend repr).plan
              (.saveReport .analysis
                (completedReport row raw metrics))
              d).Raises := hRaises
        apply Backend.ends_raises hReady₂ rfl hPlan
        intro e s₃ hAt
        refine Left.unchanged ?_ ?_
        · intro metrics' hOk
          rw [hParse] at hOk
          cases hOk
          exact hRefused
        · rw [hAt.committed, hId]
          exact hFind

------------------------------------------------------------
-- Answers
------------------------------------------------------------

/- The stored report is not pending. -/
def Finished
    (reportId : ReportId)
    (d : Db) : Prop :=
  ∃ row, d.find .analysis reportId = some row ∧
    (row.status = .completed ∨ row.status = .failed)

/-
  The payload is flattened, with `None` for exactly what is
  missing, and once the service has returned or raised the
  stored report is not pending.
-/
structure Handled
    (settings : PagespeedSettings)
    (repr : Json → String)
    (t : Tid)
    (reportId : ReportId)
    (now : Time)
    (raw : Json)
    (d : Db) : Prop where
  parse :
    ∃ metrics, parsePagespeed raw = .ok metrics ∧
      YieldsNone raw metrics
  ends :
    ∃ result s,
      (processAnalysis settings repr reportId now).run
          ((backend repr).alone t (answering raw))
          (Store.quiet d) =
        some (result, s) ∧
      Finished reportId s.committed

/- Whether the report ends, by how it is left. -/
theorem finished_of_left
    {d' : Db}
    (hValid : row.check = .ok ())
    (hParses : Parses raw)
    (hId : row.id = reportId)
    (hLeft : Left repr raw row d') :
    Finished reportId d' ↔
      row.status ≠ .pending ∨ Stores raw := by
  subst hId
  cases hLeft with
  | completed metrics stored hParse hWritable hFind hStatus =>
      have hStores :=
        (writable_iff hValid hParses hParse).mp hWritable
      constructor
      · intro _
        exact Or.inr hStores
      · intro _
        exact ⟨stored, hFind, Or.inl hStatus⟩
  | unchanged hRefused hFind =>
      rcases yieldsNone_iff.mpr hParses with
        ⟨metrics, hParse, _⟩
      have hNot : ¬ Stores raw := fun hStores =>
        hRefused metrics hParse
          ((writable_iff hValid hParses hParse).mpr hStores)
      have hRow :
          Finished row.id d' ↔
            row.status = .completed ∨
              row.status = .failed := by
        constructor
        · rintro ⟨row', hFind', hStatus⟩
          rw [hFind] at hFind'
          cases hFind'
          exact hStatus
        · intro hStatus
          exact ⟨row, hFind, hStatus⟩
      rw [hRow]
      cases row.status <;> simp [hNot]

end Run

/- A report that has just been submitted. -/
def submittedReport : AnalysisReport where
  id := 0
  user := none
  url := "https://a.io/"
  status := .pending
  errorMessage := ""
  rawResponse := .obj []
  isDeleted := false
  deletedAt := none
  columns := { strategy := "mobile", metrics := fun _ => .null }

def submitted : Db where
  reports := fun
    | .analysis => [submittedReport]
    | .gtmetrix => []
    | .ssl => []
  histories := []
  cache := fun _ => none
  posts := []

def someSettings : PagespeedSettings where
  apiKey := "key"
  requestTimeout := 60
  maxRetries := 2
  retryBackoff := 2

/- A result that is null. -/
def nullResult : Json :=
  .obj [("lighthouseResult", .null)]

end SiteAnalysis.Analysis
