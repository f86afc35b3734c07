import SiteAnalysis.Gtmetrix.Client
import SiteAnalysis.Reports.Processing

/-
  This file defines the processing of a GTmetrix report and
  its Celery task.

  Key definitions include:
    * `ensureTest`
    * `processGtmetrix`
    * `runGtmetrixAnalysis`
-/

------------------------------------------------------------
-- Processing
------------------------------------------------------------

namespace SiteAnalysis.Gtmetrix

open Concurrency
open Relational
open Python
open Reports

/- `report.test_id` -/
def testIdOf (report : GTmetrixReport) : Json :=
  report.columns.values .testId

/- `report.test_id = test_id` -/
def setTestId
    (testId : Json)
    (report : GTmetrixReport) : GTmetrixReport :=
  { report with
    columns :=
      { values :=
          Function.update report.columns.values .testId
            testId } }

/- The test is started only once, and its id is saved. -/
def ensureTest
    (settings : GtmetrixSettings)
    (repr : Json → String)
    (report : GTmetrixReport) : Service Json :=
  if (testIdOf report).truthy then
    pure (testIdOf report)
  else do
    let testId ← startTest settings repr report.url
    query
      (.saveReportFields .gtmetrix (setTestId testId report)
        [.testId])
    pure testId

/- The `try` block of `process_gtmetrix`. -/
def runTest
    (settings : GtmetrixSettings)
    (repr : Json → String)
    (rounds : Nat)
    (report : GTmetrixReport) : Service FetchedReport := do
  let testId ← ensureTest settings repr report
  pollAndFetch settings repr rounds testId

/- `setattr(report, field, value)` for the metrics. -/
def assignMetrics
    (metrics : List (GTmetrixField × Json))
    (values : GTmetrixField → Json) : GTmetrixField → Json :=
  fun field => (metrics.lookup field).getD (values field)

/- The object that the successful path saves. -/
def completedReport
    (report : GTmetrixReport)
    (result : FetchedReport) : GTmetrixReport :=
  { report with
    status := .completed
    errorMessage := ""
    rawResponse := result.raw
    columns :=
      { values :=
          Function.update
            (assignMetrics result.metrics
              report.columns.values)
            .testId result.testId } }

def processGtmetrix
    (settings : GtmetrixSettings)
    (repr : Json → String)
    (rounds : Nat)
    (reportId : ReportId) : Service GTmetrixReport := do
  let report ← query (.getReport .gtmetrix reportId)
  let result ←
    (runTest settings repr rounds report).tryCatch
      (failReport .gtmetrix report)
  let completed := completedReport report result
  query (.saveReport .gtmetrix completed)
  pure completed

------------------------------------------------------------
-- Tasks
------------------------------------------------------------

/- `MAX_RETRIES` -/
def maxRetries : Nat := 3

/- `RETRYABLE_ERRORS` -/
def isRetryable (e : Exc) : Bool :=
  isConnectionError e ||
    applicationKind e == some .gtmetrixAPI ||
      applicationKind e == some .gtmetrixTimeout

/- The `except` clauses of the task. -/
def handleFailure
    (retries : Nat)
    (e : Exc) : Service TaskOutcome :=
  if isDoesNotExist .gtmetrix e then
    pure (.returned "missing")
  else if applicationKind e = some .gtmetrixClient then
    pure (.returned "failed")
  else if isRetryable e then
    if maxRetries ≤ retries then
      pure (.returned "failed")
    else
      pure (.retry (some (retryCountdown retries)))
  else
    raiseError e

/- One attempt; `retries` counts the attempts before it. -/
def runGtmetrixAnalysis
    (settings : GtmetrixSettings)
    (repr : Json → String)
    (rounds retries : Nat)
    (reportId : ReportId) : Service TaskOutcome :=
  (processGtmetrix settings repr rounds reportId).handle
    (fun report => pure (.returned report.status.value))
    (handleFailure retries)

end SiteAnalysis.Gtmetrix
