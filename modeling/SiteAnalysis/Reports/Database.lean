import Mathlib.Data.List.Sort
import SiteAnalysis.Relational.Backend
import SiteAnalysis.Relational.Table
import SiteAnalysis.Ssl.Scanner

/-
  This file defines the tables of the report services, the
  cache, what GTmetrix has accepted, and the statements that
  the services execute.

  The lock of a history row is its user and its URL.  The
  cache and the servers are parties of their own: what they
  do is not undone by a rollback.  Entries of the cache do
  not expire.

  Key definitions include:
    * `Db`
    * `Db.history`
    * `Statement`
    * `Reply`
    * `plan`
    * `reply`
    * `backend`

  Key theorems include:
    * `find_putReport_self`
    * `find_putReport_of_ne`
    * `writeReport_eq_done`
-/

------------------------------------------------------------
-- Tables
------------------------------------------------------------

namespace SiteAnalysis.Reports

open Concurrency
open Relational
open Python
open Ssl

/- The columns of `unique_user_url_history`. -/
abbrev HistoryKey := UserId × String

def AnalysisHistory.key
    (row : AnalysisHistory) : HistoryKey :=
  (row.user, row.url)

/- A request that GTmetrix has accepted to run a test. -/
structure AcceptedPost where
  url : String
  json : Json

structure Db where
  reports : (kind : ReportKind) → List (Report kind)
  histories : List AnalysisHistory
  cache : UserId → Option (List AnalysisHistory)
  posts : List AcceptedPost

/- A row that the default manager shows. -/
def liveReport
    {kind : ReportKind}
    (row : Report kind) : Bool :=
  !row.isDeleted

namespace Db

def find
    (d : Db)
    (kind : ReportKind)
    (report : ReportId) : Option (Report kind) :=
  Table.find Report.id report (d.reports kind)

def findHistory
    (d : Db)
    (key : HistoryKey) : Option AnalysisHistory :=
  Table.find AnalysisHistory.key key d.histories

/-
  `AnalysisHistory.objects.filter(user=user)` in the order
  `-last_analyzed_at`.
-/
def history
    (d : Db)
    (user : UserId) : List AnalysisHistory :=
  (d.histories.filter
    (fun row => row.user = user ∧ row.isDeleted = false))
    |>.mergeSort
      (fun a b => b.lastAnalyzedAt ≤ a.lastAnalyzedAt)

end Db

/- `UPDATE`, or `INSERT` when no row has the key. -/
def putRow
    {kind : ReportKind}
    (row : Report kind)
    (rows : List (Report kind)) : List (Report kind) :=
  match Table.find Report.id row.id rows with
  | some _ => Table.update Report.id row.id (fun _ => row) rows
  | none => rows ++ [row]

def putReport
    {kind : ReportKind}
    (row : Report kind)
    (d : Db) : Db :=
  { d with
    reports :=
      Function.update d.reports kind
        (putRow row (d.reports kind)) }

theorem find_putRow_self
    {kind : ReportKind}
    (row : Report kind)
    (rows : List (Report kind)) :
    Table.find Report.id row.id (putRow row rows) =
      some row := by
  unfold putRow
  split
  · rename_i old hFind
    rw [Table.find_update_self (fun _ _ => rfl), hFind]
    rfl
  · rename_i hNone
    exact Table.find_append_self hNone

theorem find_putRow_of_ne
    {kind : ReportKind}
    {row : Report kind}
    {report : ReportId}
    (rows : List (Report kind))
    (hNe : report ≠ row.id) :
    Table.find Report.id report (putRow row rows) =
      Table.find Report.id report rows := by
  unfold putRow
  split
  · exact Table.find_update_of_ne (fun _ _ => rfl) hNe
  · exact Table.find_append_of_ne (Ne.symm hNe)

/- The row that was put is found. -/
@[simp] theorem find_putReport_self
    {kind : ReportKind}
    (row : Report kind)
    (d : Db) :
    (putReport row d).find kind row.id = some row := by
  simp [Db.find, putReport, find_putRow_self]

/- Other rows are found as before. -/
theorem find_putReport_of_ne
    {kind kind' : ReportKind}
    {row : Report kind}
    {report : ReportId}
    (d : Db)
    (hNe : kind' = kind → report ≠ row.id) :
    (putReport row d).find kind' report =
      d.find kind' report := by
  by_cases hKind : kind' = kind
  · subst hKind
    simpa [Db.find, putReport] using
      find_putRow_of_ne (d.reports kind') (hNe rfl)
  · simp [Db.find, putReport, Function.update_of_ne hKind]

theorem id_of_find
    {kind : ReportKind}
    {d : Db}
    {report : ReportId}
    {row : Report kind}
    (hFind : d.find kind report = some row) :
    row.id = report :=
  Table.key_of_find hFind

def insertHistory
    (row : AnalysisHistory)
    (d : Db) : Db :=
  { d with histories := d.histories ++ [row] }

def updateHistory
    (key : HistoryKey)
    (f : AnalysisHistory → AnalysisHistory)
    (d : Db) : Db :=
  { d with
    histories :=
      Table.update AnalysisHistory.key key f d.histories }

def AnalysisHistory.check
    (row : AnalysisHistory) : Except Exc Unit := do
  charColumn 2048 row.url
  integerColumn row.reportsCount

/- `reports_count = F("reports_count") + 1` -/
def AnalysisHistory.increment
    (now : Time)
    (row : AnalysisHistory) : AnalysisHistory :=
  { row with
    reportsCount := row.reportsCount + 1
    lastAnalyzedAt := now }

------------------------------------------------------------
-- Statements
------------------------------------------------------------

/-
  The queries of the services and of their callers, the calls
  of the cache and of the servers, and the clock.  `cutOff`
  is never answered: it stands for what is left of a loop at
  the bound on its rounds.
-/
inductive Statement
  | getReport (kind : ReportKind) (report : ReportId)
  | getOwnReport
      (kind : ReportKind)
      (user : UserId)
      (report : ReportId)
  | saveReport (kind : ReportKind) (object : Report kind)
  | saveReportFields
      (kind : ReportKind)
      (object : Report kind)
      (fields : List ReportField)
  | getHistory (key : HistoryKey)
  | createHistory (row : AnalysisHistory)
  | incrementHistory (key : HistoryKey) (now : Time)
  | listHistory (user : UserId)
  | cacheGet (user : UserId)
  | cacheSet
      (user : UserId)
      (history : List AnalysisHistory)
      (timeout : Nat)
  | cacheDelete (user : UserId)
  | httpGet
      (url : String)
      (params : List (String × String))
      (timeout : Nat)
  | httpRequest
      (method : String)
      (url : String)
      (auth : String × String)
      (timeout : Nat)
      (json : Option Json)
  | scan (host : String) (port : Nat)
  | monotonic
  | sleep (seconds : Rat)
  | cutOff

/- What a statement comes back with. -/
abbrev Statement.Answer : Statement → Type
| .getReport kind _ => Report kind
| .getOwnReport kind _ _ => Report kind
| .saveReport _ _ => Unit
| .saveReportFields _ _ _ => Unit
| .getHistory _ => AnalysisHistory
| .createHistory _ => AnalysisHistory
| .incrementHistory _ _ => Unit
| .listHistory _ => List AnalysisHistory
| .cacheGet _ => Option (List AnalysisHistory)
| .cacheSet _ _ _ => Unit
| .cacheDelete _ => Unit
| .httpGet _ _ _ => HttpOutcome
| .httpRequest _ _ _ _ _ => HttpOutcome
| .scan _ _ => Option ServerScanResult × Time
| .monotonic => Rat
| .sleep _ => Unit
| .cutOff => Empty

/-
  What the environment answers: a server's outcome and
  whether the server has accepted the request, which can be
  although the response is lost; the scanner's first result
  and the time after it; the clock; or no more than that the
  call is done.
-/
inductive Reply
  | http (outcome : HttpOutcome) (accepted : Bool)
  | scanned (result : Option ServerScanResult) (now : Time)
  | clock (seconds : Rat)
  | done

def noRowUpdated : Exc :=
  .database .databaseError
    "Save with update_fields did not affect any rows."

def duplicateKey : Exc :=
  .database .integrityError
    "duplicate key value violates unique constraint"

/- A write of a row, unless its values are not accepted. -/
def writeReport
    {kind : ReportKind}
    (repr : Json → String)
    (object : Report kind) :
    Verdict Db HistoryKey Exc Unit :=
  match object.prepare repr with
  | .error e => .miss e
  | .ok row =>
      match row.check with
      | .error e => .refuse e
      | .ok () => .done () none (putReport row)

/- What a write of a row does, if it is done. -/
theorem writeReport_eq_done
    {kind : ReportKind}
    {repr : Json → String}
    {object : Report kind}
    {a : Unit}
    {lock : Option HistoryKey}
    {f : Db → Db}
    (hWrite : writeReport repr object = .done a lock f) :
    lock = none ∧
      ∃ row, object.prepare repr = .ok row ∧
        row.check = .ok () ∧ f = putReport row := by
  unfold writeReport at hWrite
  split at hWrite
  · cases hWrite
  · rename_i row hRow
    split at hWrite
    · cases hWrite
    · rename_i hCheck
      cases hWrite
      exact ⟨rfl, row, hRow, hCheck, rfl⟩

/- What the database makes of each statement. -/
def plan
    (repr : Json → String) :
    (q : Statement) → Db → Verdict Db HistoryKey Exc q.Answer
| .getReport kind report, d =>
    match (d.find kind report).filter liveReport with
    | some row => .read row
    | none => .miss (.doesNotExist kind.model)
| .getOwnReport kind user report, d =>
    match
      (d.find kind report).filter
        (fun row => liveReport row && row.user == some user)
      with
    | some row => .read row
    | none => .miss (.doesNotExist kind.model)
| .saveReport _ object, _ => writeReport repr object
| .saveReportFields kind object fields, d =>
    match d.find kind object.id with
    | none => .refuse noRowUpdated
    | some row => writeReport repr (object.assign fields row)
| .getHistory key, d =>
    match
      (d.findHistory key).filter (fun row => !row.isDeleted)
      with
    | some row => .read row
    | none => .miss (.doesNotExist "AnalysisHistory")
| .createHistory row, d =>
    match d.findHistory row.key with
    | some _ => .refuse duplicateKey
    | none =>
        match row.check with
        | .error e => .refuse e
        | .ok () =>
            .done row (some row.key) (insertHistory row)
| .incrementHistory key now, d =>
    match d.findHistory key with
    | none => .read ()
    | some row =>
        match (row.increment now).check with
        | .error e => .refuse e
        | .ok () =>
            .done () (some key)
              (updateHistory key (.increment now))
| .listHistory user, d => .read (d.history user)
| _, _ => .outside

/- The answers of the cache, the servers and the clock. -/
def reply :
    (q : Statement) → Reply → Db → Option (q.Answer × Db)
| .cacheGet user, .done, d => some (d.cache user, d)
| .cacheSet user history _, .done, d =>
    some
      ((),
        { d with
          cache :=
            Function.update d.cache user (some history) })
| .cacheDelete user, .done, d =>
    some
      ((),
        { d with
          cache := Function.update d.cache user none })
| .httpGet _ _ _, .http outcome _, d => some (outcome, d)
| .httpRequest method url _ _ json, .http outcome accepted,
    d =>
    some
      (outcome,
        if method = "POST" ∧ accepted then
          { d with
            posts := d.posts ++ [⟨url, json.getD .null⟩] }
        else
          d)
| .scan _ _, .scanned result now, d =>
    some ((result, now), d)
| .monotonic, .clock seconds, d => some (seconds, d)
| .sleep _, .done, d => some ((), d)
| _, _, _ => none

def backend
    (repr : Json → String) :
    Backend Db HistoryKey Statement Statement.Answer Reply
      Exc where
  aborted :=
    .database .databaseError
      "current transaction is aborted"
  plan := plan repr
  reply := reply

/- A program over the statements. -/
abbrev Service (α : Type) :=
  Prog (TxOp Statement) (TxOp.Res Statement.Answer) Exc α

/- One statement. -/
abbrev query (q : Statement) : Service q.Answer :=
  execute q

/- `raise` -/
abbrev raiseError {α : Type} (e : Exc) : Service α :=
  .raise e

end SiteAnalysis.Reports
