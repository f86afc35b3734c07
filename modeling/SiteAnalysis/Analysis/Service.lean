import SiteAnalysis.Analysis.PageSpeed
import SiteAnalysis.Reports.Processing

/-
  This file defines the processing of an analysis report, its
  history rollup and the cached history, and the Celery task.

  Key definitions include:
    * `getOrCreateHistory`
    * `upsertHistory`
    * `getAnalysisHistory`
    * `processAnalysis`
    * `runPagespeedAnalysis`
-/

------------------------------------------------------------
-- History
------------------------------------------------------------

namespace SiteAnalysis.Analysis

open Concurrency
open Relational
open Python
open Reports

/- The row that `get_or_create` inserts. -/
def firstHistory
    (key : HistoryKey)
    (now : Time) : AnalysisHistory where
  user := key.1
  url := key.2
  reportsCount := 1
  lastAnalyzedAt := now
  isDeleted := false

/-
  `AnalysisHistory.objects.get_or_create`: the insertion has
  a savepoint of its own, and the loser of a race reads the
  winner's row.
-/
def getOrCreateHistory
    (key : HistoryKey)
    (now : Time) : Service (AnalysisHistory × Bool) :=
  (query (.getHistory key)).handle
    (fun row => pure (row, false))
    fun
    | .doesNotExist _ =>
        (atomic
          (query (.createHistory (firstHistory key now)))).handle
          (fun row => pure (row, true))
          fun
          | .database .integrityError m =>
              (query (.getHistory key)).handle
                (fun row => pure (row, false))
                fun
                | .doesNotExist _ =>
                    raiseError (.database .integrityError m)
                | e => raiseError e
          | e => raiseError e
    | e => raiseError e

/- `invalidate_history_cache` -/
def invalidateHistoryCache (user : UserId) : Service Unit :=
  query (.cacheDelete user)

/- The count of a row that was there before. -/
def countExisting
    (now : Time) : AnalysisHistory × Bool → Service Unit
| (_, true) => pure ()
| (row, false) => query (.incrementHistory row.key now)

/- `_upsert_history` under its decorator. -/
def upsertHistoryBody
    (key : HistoryKey)
    (now : Time) : Service Unit := do
  let found ← getOrCreateHistory key now
  countExisting now found
  invalidateHistoryCache key.1

def upsertHistory
    (key : HistoryKey)
    (now : Time) : Service Unit :=
  atomic (upsertHistoryBody key now)

/- `HISTORY_CACHE_TIMEOUT` -/
def historyCacheTimeout : Nat := 60 * 5

/- The entry of the user in the cache, filled if missing. -/
def getAnalysisHistory
    (user : UserId) : Service (List AnalysisHistory) := do
  let cached : Option (List AnalysisHistory) ←
    query (.cacheGet user)
  match cached with
  | some history => pure history
  | none => do
      let history : List AnalysisHistory ←
        query (.listHistory user)
      query (.cacheSet user history historyCacheTimeout)
      pure history

------------------------------------------------------------
-- Processing
------------------------------------------------------------

/- `setattr(report, field, value)` for the metrics. -/
def assignMetrics
    (metrics : List (AnalysisField × Json))
    (values : AnalysisField → Json) : AnalysisField → Json :=
  fun field => (metrics.lookup field).getD (values field)

/- The object that the successful path saves. -/
def completedReport
    (report : AnalysisReport)
    (raw : Json)
    (metrics : List (AnalysisField × Json)) :
    AnalysisReport :=
  { report with
    status := .completed
    errorMessage := ""
    rawResponse := raw
    columns :=
      { report.columns with
        metrics :=
          assignMetrics metrics report.columns.metrics } }

/- The rollup of an authenticated submission. -/
def rollUp
    (report : AnalysisReport)
    (now : Time) : Service Unit :=
  match report.user with
  | none => pure ()
  | some user => upsertHistory (user, report.url) now

/- `now` is the time that `_upsert_history` reads. -/
def processAnalysis
    (settings : PagespeedSettings)
    (repr : Json → String)
    (reportId : ReportId)
    (now : Time) : Service AnalysisReport := do
  let report ← query (.getReport .analysis reportId)
  let raw ←
    (fetchPagespeed settings repr report.url
      report.columns.strategy).tryCatch
      (failReport .analysis report)
  let metrics ←
    Prog.ofExcept (fromPython (parsePagespeed raw))
  let completed := completedReport report raw metrics
  query (.saveReport .analysis completed)
  rollUp completed now
  pure completed

------------------------------------------------------------
-- Tasks
------------------------------------------------------------

/- `max_retries` -/
def maxRetries : Nat := 3

/- `autoretry_for` -/
def isRetryable (e : Exc) : Bool :=
  isConnectionError e ||
    applicationKind e == some .pageSpeedAPI

/- The `except` clause of the task and its `autoretry_for`. -/
def handleFailure
    (retries : Nat)
    (e : Exc) : Service TaskOutcome :=
  if isDoesNotExist .analysis e then
    pure (.returned "missing")
  else if isRetryable e ∧ retries < maxRetries then
    pure (.retry none)
  else
    raiseError e

/- One attempt; `retries` counts the attempts before it. -/
def runPagespeedAnalysis
    (settings : PagespeedSettings)
    (repr : Json → String)
    (retries : Nat)
    (reportId : ReportId)
    (now : Time) : Service TaskOutcome :=
  (processAnalysis settings repr reportId now).handle
    (fun report => pure (.returned report.status.value))
    (handleFailure retries)

end SiteAnalysis.Analysis
