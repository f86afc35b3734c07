import SiteAnalysis.Reports.Workers

/-
  This file defines the tables and statements of the combined
  speed test: those of the reports, the insertions, and the
  queue of the broker.

  Key definitions include:
    * `SpeedTest`
    * `Task`
    * `Db`
    * `Statement`
    * `plan`
    * `reply`
    * `backend`
    * `Service.ofReports`
-/

------------------------------------------------------------
-- Tables
------------------------------------------------------------

namespace SiteAnalysis.SpeedTests

open Concurrency
open Relational
open Python
open Reports

abbrev SpeedTestId := Nat

structure SpeedTest where
  id : SpeedTestId
  user : Option UserId
  url : String
  strategy : String
  googleReport : Option ReportId
  gtmetrixReport : Option ReportId
  isDeleted : Bool
  deletedAt : Option Time

/- A task that has been sent to the broker. -/
inductive Task
  | analysis (reportId : ReportId)
  | gtmetrix (reportId : ReportId)
deriving DecidableEq

structure Db where
  base : Reports.Db
  speedTests : List SpeedTest
  dispatched : List Task

/- A change of the tables of the reports. -/
def onBase
    (f : Reports.Db → Reports.Db)
    (d : Db) : Db :=
  { d with base := f d.base }

/- `INSERT` of a report. -/
def insertReport
    {kind : ReportKind}
    (row : Report kind)
    (d : Db) : Db :=
  { d with
    base :=
      { d.base with
        reports :=
          Function.update d.base.reports kind
            (d.base.reports kind ++ [row]) } }

def insertSpeedTest
    (row : SpeedTest)
    (d : Db) : Db :=
  { d with speedTests := d.speedTests ++ [row] }

/- What the database accepts of a row. -/
def SpeedTest.check
    (row : SpeedTest) : Except Exc Unit := do
  charColumn 2048 row.url
  charColumn 10 row.strategy

------------------------------------------------------------
-- Statements
------------------------------------------------------------

/-
  A statement on the reports, an insertion, and the two ends
  of the queue: `.delay(report_id=...)` sends a task, and a
  worker receives one that has been sent.
-/
inductive Statement
  | report (q : Reports.Statement)
  | insertReport
      (kind : ReportKind)
      (row : Report kind)
  | insertSpeedTest (row : SpeedTest)
  | delay (task : Task)
  | receive

abbrev Statement.Answer : Statement → Type
| .report q => q.Answer
| .insertReport _ _ => Unit
| .insertSpeedTest _ => Unit
| .delay _ => Unit
| .receive => Task

/- The answers of parties outside the database. -/
inductive Reply
  | report (x : Reports.Reply)
  | accepted
  | delivered (task : Task)

/- What the database makes of each statement. -/
def plan
    (repr : Json → String) :
    (q : Statement) → Db → Verdict Db HistoryKey Exc q.Answer
| .report q, d => (Reports.plan repr q d.base).embed onBase
| .insertReport kind object, d =>
    match object.prepare repr with
    | .error e => .miss e
    | .ok row =>
        match d.base.find kind row.id with
        | some _ => .refuse duplicateKey
        | none =>
            match row.check with
            | .error e => .refuse e
            | .ok () => .done () none (insertReport row)
| .insertSpeedTest row, d =>
    match Table.find SpeedTest.id row.id d.speedTests with
    | some _ => .refuse duplicateKey
    | none => .writeIf row.check (insertSpeedTest row)
| .delay _, _ => .outside
| .receive, _ => .outside

/-
  The broker takes every task, and delivers a task that it
  has taken, at any time and any number of times.
-/
def reply :
    (q : Statement) → Reply → Db → Option (q.Answer × Db)
| .report q, .report x, d =>
    (Reports.reply q x d.base).map fun r =>
      (r.1, { d with base := r.2 })
| .delay task, .accepted, d =>
    some
      ((), { d with dispatched := d.dispatched ++ [task] })
| .receive, .delivered task, d =>
    if task ∈ d.dispatched then some (task, d) else none
| _, _, _ => none

def backend
    (repr : Json → String) :
    Backend Db HistoryKey Statement Statement.Answer Reply
      Exc where
  aborted := (Reports.backend repr).aborted
  plan := plan repr
  reply := reply

/- The services that can use these statements. -/
abbrev Service (α : Type) :=
  Prog (TxOp Statement) (TxOp.Res Statement.Answer) Exc α

/- One statement. -/
abbrev query (q : Statement) : Service q.Answer :=
  execute q

/- The result of a statement on the reports. -/
def ownResult :
    (o : TxOp Reports.Statement) →
      TxOp.Res Statement.Answer (o.embed .report) →
        TxOp.Res Reports.Statement.Answer o :=
  TxOp.restrict (fun _ a => a)

/- A service on the reports. -/
abbrev Service.ofReports
    {α : Type}
    (p : Reports.Service α) : Service α :=
  p.embed (TxOp.embed .report) ownResult

end SiteAnalysis.SpeedTests
