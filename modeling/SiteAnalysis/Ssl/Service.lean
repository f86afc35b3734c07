import SiteAnalysis.Reports.Processing

/-
  This file defines the processing of a TLS report and its
  Celery task.

  Key definitions include:
    * `runSslScan`
    * `processSslCheck`
    * `runSslScanTask`
-/

------------------------------------------------------------
-- Processing
------------------------------------------------------------

namespace SiteAnalysis.Ssl

open Concurrency
open Relational
open Python
open Reports

def runSslScan
    (isoformat : Time → String)
    (host : String)
    (port : Nat) : Service ParsedScan := do
  let answer : Option ServerScanResult × Time ←
    query (.scan host port)
  Prog.ofExcept (readScan isoformat answer.2 host port answer.1)

/- The object that the successful path saves. -/
def completedReport
    (report : SSLReport)
    (result : ParsedScan) : SSLReport :=
  { report with
    status := .completed
    errorMessage := ""
    rawResponse := result.rawResponse
    columns :=
      { result.columns with host := report.columns.host } }

def processSslCheck
    (isoformat : Time → String)
    (reportId : ReportId) : Service SSLReport := do
  let report ← query (.getReport .ssl reportId)
  let result ←
    (runSslScan isoformat report.columns.host 443).tryCatch
      (failReport .ssl report)
  let completed := completedReport report result
  query (.saveReport .ssl completed)
  pure completed

------------------------------------------------------------
-- Tasks
------------------------------------------------------------

/- `MAX_RETRIES` -/
def maxRetries : Nat := 3

/- The `except` clauses of the task. -/
def handleFailure
    (retries : Nat)
    (e : Exc) : Service TaskOutcome :=
  if isDoesNotExist .ssl e then
    pure (.returned "missing")
  else if applicationKind e = some .sslScan then
    if maxRetries ≤ retries then
      pure (.returned "failed")
    else
      pure (.retry (some (retryCountdown retries)))
  else
    raiseError e

/- One attempt; `retries` counts the attempts before it. -/
def runSslScanTask
    (isoformat : Time → String)
    (retries : Nat)
    (reportId : ReportId) : Service TaskOutcome :=
  (processSslCheck isoformat reportId).handle
    (fun report => pure (.returned report.status.value))
    (handleFailure retries)

end SiteAnalysis.Ssl
