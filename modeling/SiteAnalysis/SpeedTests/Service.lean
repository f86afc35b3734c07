import SiteAnalysis.SpeedTests.Database

/-
  This file defines the submission of a combined speed test
  and the workers that its tasks are delivered to.

  A block that is atomic returns the tasks that it sends with
  `transaction.on_commit`: they are sent once the outermost
  block is committed, and a block that raises has none.

  Key definitions include:
    * `submitAnalysis`
    * `submitGtmetrix`
    * `submitSpeedTest`
    * `deliver`
-/

------------------------------------------------------------
-- Submissions
------------------------------------------------------------

namespace SiteAnalysis.SpeedTests

open Concurrency
open Relational
open Python
open Reports

/- The object that `AnalysisReport.objects.create` saves. -/
def pendingAnalysis
    (id : ReportId)
    (user : Option UserId)
    (url strategy : String) : AnalysisReport where
  id := id
  user := user
  url := url
  status := .pending
  errorMessage := ""
  rawResponse := .obj []
  isDeleted := false
  deletedAt := none
  columns :=
    { strategy := strategy
      metrics := fun _ => .null }

/- The object that `GTmetrixReport.objects.create` saves. -/
def pendingGtmetrix
    (id : ReportId)
    (user : Option UserId)
    (url : String) : GTmetrixReport where
  id := id
  user := user
  url := url
  status := .pending
  errorMessage := ""
  rawResponse := .obj []
  isDeleted := false
  deletedAt := none
  columns := { values := GTmetrixField.initial }

/- The report, and the tasks to send on commit. -/
def submitAnalysis
    (id : ReportId)
    (user : Option UserId)
    (url strategy : String) :
    Service (AnalysisReport × List Task) :=
  atomic do
    let report := pendingAnalysis id user url strategy
    query (.insertReport .analysis report)
    pure (report, [.analysis report.id])

def submitGtmetrix
    (id : ReportId)
    (user : Option UserId)
    (url : String) : Service (GTmetrixReport × List Task) :=
  atomic do
    let report := pendingGtmetrix id user url
    query (.insertReport .gtmetrix report)
    pure (report, [.gtmetrix report.id])

/- The callbacks of `transaction.on_commit`, in order. -/
def sendAll : List Task → Service Unit
| [] => pure ()
| task :: tasks => do
    query (.delay task)
    sendAll tasks

/-
  A submission: who submits what, and the keys `uuid.uuid4()`
  of the new rows.  `user` is that of `_resolve_user`.
-/
structure Submission where
  user : Option UserId
  url : String
  strategy : String
  googleId : ReportId
  gtmetrixId : ReportId
  speedTestId : SpeedTestId

/- The object that `SpeedTest.objects.create` saves. -/
def newSpeedTest
    (user : Option UserId)
    (url strategy : String)
    (googleReport : AnalysisReport)
    (gtmetrixReport : GTmetrixReport)
    (id : SpeedTestId) : SpeedTest where
  id := id
  user := user
  url := url
  strategy := strategy
  googleReport := some googleReport.id
  gtmetrixReport := some gtmetrixReport.id
  isDeleted := false
  deletedAt := none

/- The outermost atomic block of `submit_speed_test`. -/
def createSpeedTest
    (s : Submission) : Service (SpeedTest × List Task) := do
  let google ←
    submitAnalysis s.googleId s.user s.url s.strategy
  let gtmetrix ←
    submitGtmetrix s.gtmetrixId s.user s.url
  let speedTest :=
    newSpeedTest s.user s.url s.strategy google.1 gtmetrix.1
      s.speedTestId
  query (.insertSpeedTest speedTest)
  pure (speedTest, google.2 ++ gtmetrix.2)

def submitSpeedTest
    (s : Submission) : Service SpeedTest := do
  let created ← atomic (createSpeedTest s)
  sendAll created.2
  pure created.1

------------------------------------------------------------
-- Workers
------------------------------------------------------------

/-
  How a worker executes a task: the number of attempts before
  it, the polls that are looked at and the time of a rollup.
-/
structure Attempt where
  retries : Nat
  rounds : Nat
  now : Time

def Task.worker
    (a : Attempt) : Task → Worker
| .analysis reportId =>
    .analysis a.retries reportId a.now
| .gtmetrix reportId =>
    .gtmetrix a.rounds a.retries reportId

/- A worker receives a task and executes it. -/
def deliver
    (tools : Tools)
    (a : Attempt) : Service (Task × TaskOutcome) := do
  let task : Task ← query .receive
  let outcome ←
    Service.ofReports ((task.worker a).program tools)
  pure (task, outcome)

end SiteAnalysis.SpeedTests
