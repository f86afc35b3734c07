import SiteAnalysis.FullReport.Tools
import SiteAnalysis.Relational.Backend
import SiteAnalysis.Relational.Table

/-
  This file defines the table of full reports, the storage of
  their files, and the statements of the task that produces
  them.

  The tools and the storage are parties of their own: what
  they do is not undone by a rollback.

  Key definitions include:
    * `FullReportRow`
    * `ToolRun`
    * `Db`
    * `Statement`
    * `plan`
    * `reply`
    * `backend`

  Key theorems include:
    * `find_putReport_self`
    * `find_putReport_of_ne`
-/

------------------------------------------------------------
-- Rows
------------------------------------------------------------

namespace SiteAnalysis.FullReport

open Concurrency
open Relational
open Python
open Reports

inductive FullReportStatus
  | pending
  | processing
  | completed
  | failed
deriving DecidableEq

def FullReportStatus.value : FullReportStatus → String
| .pending => "pending"
| .processing => "processing"
| .completed => "completed"
| .failed => "failed"

/- An object of the model, or a row of its table. -/
structure FullReportRow where
  id : ReportId
  user : Option UserId
  url : String
  strategy : String
  lang : String
  status : FullReportStatus
  file : Option String
  toolsStatus : Json
  errorMessage : String
  isDeleted : Bool

/- The columns that are saved by name. -/
inductive FullReportField
  | status
  | errorMessage
deriving DecidableEq

/- A nullable `FileField`; what is stored is a name. -/
def fileColumn : Option String → Except Exc Unit
| none => .ok ()
| some name => charColumn 100 name

namespace FullReportRow

/- `UPDATE` of the listed columns from the object. -/
def assign
    (fields : List FullReportField)
    (object stored : FullReportRow) : FullReportRow :=
  { stored with
    status :=
      if .status ∈ fields then
        object.status
      else
        stored.status
    errorMessage :=
      if .errorMessage ∈ fields then
        object.errorMessage
      else
        stored.errorMessage }

/- What the database accepts of a row. -/
def check (row : FullReportRow) : Except Exc Unit := do
  charColumn 2048 row.url
  charColumn 10 row.strategy
  charColumn 2 row.lang
  charColumn 12 row.status.value
  fileColumn row.file
  jsonColumn row.toolsStatus
  textColumn row.errorMessage

/- A row that the default manager shows. -/
def isLive (row : FullReportRow) : Bool :=
  !row.isDeleted

end FullReportRow

------------------------------------------------------------
-- Tables
------------------------------------------------------------

/- The bytes of a file. -/
abbrev Pdf := List UInt8

structure Db where
  reports : List FullReportRow
  storage : List (String × Pdf)

def Db.find
    (d : Db)
    (report : ReportId) : Option FullReportRow :=
  Table.find FullReportRow.id report d.reports

/- `UPDATE`, or `INSERT` when no row has the key. -/
def putReport
    (row : FullReportRow)
    (d : Db) : Db :=
  { d with reports := Table.put FullReportRow.id row d.reports }

/- The row that was put is found. -/
@[simp] theorem find_putReport_self
    (row : FullReportRow)
    (d : Db) :
    (putReport row d).find row.id = some row :=
  Table.find_put_self

/- Other rows are found as before. -/
theorem find_putReport_of_ne
    {row : FullReportRow}
    {report : ReportId}
    (d : Db)
    (hNe : report ≠ row.id) :
    (putReport row d).find report = d.find report :=
  Table.find_put_of_ne hNe

------------------------------------------------------------
-- Statements
------------------------------------------------------------

/-
  The rows of the tables of plain texts: of issues, of broken
  links, of objects and of their issues.
-/
structure Cells where
  topIssues : List (List String)
  brokenLinks : List (List String)
  schemas : List (List String)
  issues : List (List String)

/- What the tools that a report runs come back with. -/
structure ToolRun where
  answers : Answers
  generatedAt : Time
  cells : Cells

/-
  The queries of the task, the run of the tools and the save
  of a file.
-/
inductive Statement
  | getReport (report : ReportId)
  | saveReport (object : FullReportRow)
  | saveReportFields
      (object : FullReportRow)
      (fields : List FullReportField)
  | runTools (url strategy : String)
  | storeFile (name : String) (content : Pdf)

/- What a statement comes back with. -/
abbrev Statement.Answer : Statement → Type
| .getReport _ => FullReportRow
| .saveReport _ => Unit
| .saveReportFields _ _ => Unit
| .runTools _ _ => ToolRun
| .storeFile _ _ => String

/- The tools have run, or a file is stored by a name. -/
inductive Reply
  | ran (run : ToolRun)
  | stored (name : String)

/- What the database makes of each statement. -/
def plan :
    (q : Statement) → Db → Verdict Db Empty Exc q.Answer
| .getReport report, d =>
    match (d.find report).filter FullReportRow.isLive with
    | some row => .read row
    | none => .miss (.doesNotExist "FullReport")
| .saveReport object, _ =>
    .writeIf object.check (putReport object)
| .saveReportFields object fields, d =>
    match d.find object.id with
    | none => .refuse noRowUpdated
    | some row =>
        .writeIf (object.assign fields row).check
          (putReport (object.assign fields row))
| .runTools _ _, _ => .outside
| .storeFile _ _, _ => .outside

/-
  The answers of the tools and of the storage, which gives a
  file a name that no other file has.
-/
def reply :
    (q : Statement) → Reply → Db → Option (q.Answer × Db)
| .runTools _ _, .ran run, d => some (run, d)
| .storeFile _ content, .stored name, d =>
    if name ≠ "" ∧ name ∉ d.storage.map Prod.fst then
      some
        (name,
          { d with storage := d.storage ++ [(name, content)] })
    else
      none
| _, _, _ => none

def backend :
    Backend Db Empty Statement Statement.Answer Reply
      Exc where
  aborted :=
    .database .databaseError
      "current transaction is aborted"
  plan := plan
  reply := reply

/- A program over the statements. -/
abbrev Service (α : Type) :=
  Prog (TxOp Statement) (TxOp.Res Statement.Answer) Exc α

/- One statement. -/
abbrev query (q : Statement) : Service q.Answer :=
  execute q

end SiteAnalysis.FullReport
