import SiteAnalysis.Reports.Database

/-
  This file defines what the report pipelines share: the
  handler that marks a report as failed, the outcome of a
  task, and the soft deletion of a report.

  Key definitions include:
    * `failReport`
    * `TaskOutcome`
    * `softDelete`
    * `destroyReport`
-/

------------------------------------------------------------
-- Workers
------------------------------------------------------------

namespace SiteAnalysis.Reports

open Concurrency
open Relational
open Python

/- The object that the handler saves. -/
def failedReport
    {kind : ReportKind}
    (report : Report kind)
    (e : Exc) : Report kind :=
  { report with
    status := .failed
    errorMessage := e.str }

/-
  Persist the failure, then raise again.  Only the status and
  the message are saved.
-/
def failReport
    {α : Type}
    (kind : ReportKind)
    (report : Report kind)
    (e : Exc) : Service α := do
  query
    (.saveReportFields kind (failedReport report e)
      [.status, .errorMessage])
  raiseError e

/-
  How a task ends without an exception: it returns a text, or
  asks for another attempt.
-/
inductive TaskOutcome
  | returned (text : String)
  | retry (countdown : Option Nat)
deriving DecidableEq

/- The subclass of `ApplicationError`, if it is one. -/
def applicationKind : Exc → Option ErrorKind
| .application e => some e.kind
| _ => none

/- The `DoesNotExist` of a model. -/
def isDoesNotExist (kind : ReportKind) : Exc → Bool
| .doesNotExist model => model = kind.model
| _ => false

/- `requests.ConnectionError` and `requests.Timeout` -/
def isConnectionError : Exc → Bool
| .request .connectionError _ => true
| .request .timeout _ => true
| _ => false

/- The delay before the next attempt, in seconds. -/
def retryCountdown (retries : Nat) : Nat :=
  min (5 * 2 ^ retries) 60

------------------------------------------------------------
-- Owners
------------------------------------------------------------

/- `BaseModel.soft_delete` -/
def softDelete
    {kind : ReportKind}
    (now : Time)
    (report : Report kind) : Service Unit :=
  query
    (.saveReportFields kind
      { report with
        isDeleted := true
        deletedAt := some now }
      [.isDeleted, .deletedAt])

/- The `DELETE` request of a report's owner. -/
def destroyReport
    (kind : ReportKind)
    (user : UserId)
    (reportId : ReportId)
    (now : Time) : Service Unit := do
  let report ← query (.getOwnReport kind user reportId)
  softDelete now report

end SiteAnalysis.Reports
