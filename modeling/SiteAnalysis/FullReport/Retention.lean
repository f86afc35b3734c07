import SiteAnalysis.FullReport.Service

/-
  This file defines the life of the full reports and of their
  files: they are created, produced, soft-deleted and, once
  they have expired, purged.

  Key definitions include:
    * `Archive`
    * `InDirectory`
    * `Archive.expired`
    * `Retention.plan`
    * `Retention.reply`
    * `createFullReport`
    * `softDelete`
    * `purgeExpiredFullReports`

  Key theorems include:
    * `inDirectory_unique`
    * `inDirectory_of_directory`
    * `mem_expired`
-/

------------------------------------------------------------
-- Directories
------------------------------------------------------------

namespace SiteAnalysis.FullReport

open Concurrency
open Relational
open Python
open Reports

/- The directory of a name, with its last slash. -/
def directory (name : String) : List Char :=
  (name.toList.reverse.dropWhile (fun c => c ≠ '/')).reverse

/- The directory of the files of a report. -/
def reportDirectory (report : ReportId) : List Char :=
  "reports/".toList ++ (toString report).toList ++ ['/']

/- The name is that of a file of the report. -/
def InDirectory
    (report : ReportId)
    (name : String) : Prop :=
  reportDirectory report <+: name.toList

instance
    (report : ReportId)
    (name : String) :
    Decidable (InDirectory report name) :=
  inferInstanceAs (Decidable (_ <+: _))

/- Two texts without a slash before the same slash agree. -/
theorem eq_of_before_slash
    {a b x y : List Char}
    (hLeft : '/' ∉ a)
    (hRight : '/' ∉ b)
    (hSame : a ++ '/' :: x = b ++ '/' :: y) : a = b := by
  induction a generalizing b with
  | nil =>
      cases b with
      | nil => rfl
      | cons c b =>
          have hHead := (List.cons.inj hSame).1
          exact absurd (hHead ▸ List.mem_cons_self) hRight
  | cons c a ih =>
      cases b with
      | nil =>
          have hHead := (List.cons.inj hSame).1
          exact absurd (hHead ▸ List.mem_cons_self) hLeft
      | cons c' b =>
          have hEq := List.cons.inj hSame
          have hRest :=
            ih (fun h => hLeft (List.mem_cons_of_mem _ h))
              (fun h => hRight (List.mem_cons_of_mem _ h))
              hEq.2
          rw [hEq.1, hRest]

theorem slash_not_mem_toString
    (n : Nat) : '/' ∉ (toString n).toList := by
  intro hMem
  have hDigits : '/' ∈ Nat.toDigits 10 n := by
    simpa [Nat.repr] using hMem
  have hDigit : '/'.isDigit = true :=
    Nat.isDigit_of_mem_toDigits (by decide) (by decide)
      hDigits
  exact absurd hDigit (by decide)

/- A file is that of one report at most. -/
theorem inDirectory_unique
    {report report' : ReportId}
    {name : String}
    (hLeft : InDirectory report name)
    (hRight : InDirectory report' name) :
    report = report' := by
  obtain ⟨x, hx⟩ := hLeft
  obtain ⟨y, hy⟩ := hRight
  have hSame := hx.trans hy.symm
  unfold reportDirectory at hSame
  rw [List.append_assoc, List.append_assoc,
    List.append_assoc, List.append_assoc] at hSame
  have hRest := List.append_cancel_left hSame
  have hText :=
    eq_of_before_slash (slash_not_mem_toString report)
      (slash_not_mem_toString report') hRest
  have hDigits :
      Nat.toDigits 10 report = Nat.toDigits 10 report' := by
    simpa using hText
  have hValue :=
    congrArg (fun cs => Nat.ofDigitChars 10 cs 0) hDigits
  simpa using hValue

/- A file of a report has a name. -/
theorem ne_empty_of_inDirectory
    {report : ReportId}
    {name : String}
    (hIn : InDirectory report name) : name ≠ "" := by
  rintro rfl
  unfold InDirectory at hIn
  rw [String.toList_empty, List.prefix_nil] at hIn
  unfold reportDirectory at hIn
  simp at hIn

/- What ends with a slash and begins a text is kept. -/
theorem prefix_dropWhile
    {a x : List Char} :
    a ++ ['/'] <+:
      ((a ++ ['/'] ++ x).reverse.dropWhile
        (fun c => c ≠ '/')).reverse := by
  rw [List.reverse_append, List.dropWhile_append]
  split
  · simp
  · simp

/- A file in the same directory is that of the report too. -/
theorem inDirectory_of_directory
    {report : ReportId}
    {wanted name : String}
    (hWanted : InDirectory report wanted)
    (hSame : directory name = directory wanted) :
    InDirectory report name := by
  have hDirectory :
      reportDirectory report <+: directory wanted := by
    obtain ⟨x, hx⟩ := hWanted
    unfold directory
    rw [← hx]
    exact prefix_dropWhile
  have hName : directory name <+: name.toList := by
    unfold directory
    rw [← List.reverse_suffix]
    simpa using
      List.dropWhile_suffix (l := name.toList.reverse)
        (fun c => decide (c ≠ '/'))
  exact (hSame ▸ hDirectory).trans hName

/- The name that a file of the report is to be stored by. -/
theorem inDirectory_reportUploadTo
    (report : FullReportRow)
    (filename : String) :
    InDirectory report.id
      (reportUploadTo report filename) := by
  unfold InDirectory reportDirectory reportUploadTo
  rw [String.toList_append, String.toList_append,
    String.toList_append]
  exact List.prefix_append _ _

------------------------------------------------------------
-- Tables
------------------------------------------------------------

/-
  The reports and their files, with the times at which
  reports were created and files were stored, the rows that
  the cursors of the purges were opened on, and the clock.
-/
structure Archive where
  base : Db
  createdAt : ReportId → Option Time
  storedAt : List (String × Time)
  cursors : List (Tid × ReportId)
  clock : Time

namespace Archive

def find
    (d : Archive)
    (report : ReportId) : Option FullReportRow :=
  d.base.find report

/- The names of the files in the storage. -/
def names (d : Archive) : List String :=
  d.base.storage.map Prod.fst

/- The file is that of the report, soft-deleted or not. -/
def Owns
    (d : Archive)
    (report : ReportId)
    (name : String) : Prop :=
  ∃ row, d.find report = some row ∧ row.file = some name

/- The report was created before the time. -/
def createdBefore
    (d : Archive)
    (cutoff : Time)
    (report : ReportId) : Bool :=
  match d.createdAt report with
  | none => false
  | some time => time < cutoff

/-
  `all_objects.filter(created_at__lt=cutoff)`, in the order
  of the model, latest first.
-/
def expired
    (d : Archive)
    (cutoff : Time) : List FullReportRow :=
  (d.base.reports.filter
    (fun row => d.createdBefore cutoff row.id)).insertionSort
      (fun row row' =>
        (d.createdAt row'.id).getD 0 ≤
          (d.createdAt row.id).getD 0)

theorem mem_expired
    {d : Archive}
    {cutoff : Time}
    {row : FullReportRow} :
    row ∈ d.expired cutoff ↔
      row ∈ d.base.reports ∧
        d.createdBefore cutoff row.id = true := by
  simp [expired, List.mem_insertionSort]

/- The reports and the storage after a change. -/
def onBase
    (f : Db → Db)
    (d : Archive) : Archive :=
  { d with base := f d.base }

end Archive

/- `DELETE` of the row of a report. -/
def removeReport
    (report : ReportId)
    (d : Db) : Db :=
  { d with
    reports := d.reports.filter (fun row => row.id ≠ report) }

/- The rows after a row has been removed. -/
theorem find_removeReport
    (d : Archive)
    (report report' : ReportId) :
    (d.onBase (removeReport report)).find report' =
      if report' = report then
        none
      else
        d.find report' := by
  have hRows :
      (d.onBase (removeReport report)).find report' =
        (d.base.reports.filter
          (fun row => row.id ≠ report)).find?
            (fun row => row.id = report') := rfl
  rw [hRows, List.find?_filter]
  split
  · rename_i hSame
    subst hSame
    simp
  · rename_i hNe
    change _ = d.base.reports.find? _
    congr 1
    funext row
    by_cases hId : row.id = report'
    · simp [hId, hNe]
    · simp [hId]

/- `UPDATE` of the columns of a soft deletion. -/
def hideReport
    (report : ReportId)
    (d : Db) : Db :=
  { d with
    reports :=
      Table.update FullReportRow.id report
        (fun row => { row with isDeleted := true })
        d.reports }

/- The storage without a file. -/
def removeFile
    (name : String)
    (d : Db) : Db :=
  { d with
    storage := d.storage.filter (fun file => file.1 ≠ name) }

/- A new report, with the time of its creation. -/
def insertReport
    (row : FullReportRow)
    (now : Time)
    (d : Archive) : Archive :=
  { d with
    base := { d.base with reports := d.base.reports ++ [row] }
    createdAt :=
      Function.update d.createdAt row.id (some now) }

/- A cursor is opened on the rows. -/
def openCursor
    (cursor : Tid)
    (rows : List FullReportRow)
    (d : Archive) : Archive :=
  { d with
    cursors :=
      d.cursors ++ rows.map (fun row => (cursor, row.id)) }

/- A file has been stored. -/
def recordFile
    (name : String)
    (now : Time)
    (d : Archive) : Archive :=
  { d with
    storedAt := d.storedAt ++ [(name, now)]
    clock := now }

/- A file has been stored. -/
def Archive.withFile
    (d : Archive)
    (name : String)
    (content : Pdf)
    (now : Time) : Archive :=
  recordFile name now
    { d with
      base :=
        { d.base with
          storage := d.base.storage ++ [(name, content)] } }

------------------------------------------------------------
-- Statements
------------------------------------------------------------

namespace Retention

/-
  The statements of the task that produces a report, and
  those of the creation, the soft deletion and the purge of
  reports.  The deletions of a purge say when it has started.
-/
inductive Statement
  | task (q : FullReport.Statement)
  | timezoneNow
  | createReport
      (row : FullReportRow)
      (createdAt : Time)
  | saveDeleted (report : ReportId)
  | filterExpired
      (cursor : Tid)
      (cutoff : Time)
  | deleteFile
      (started : Time)
      (report : ReportId)
      (name : String)
  | deleteReport
      (started : Time)
      (report : ReportId)

abbrev Statement.Answer : Statement → Type
| .task q => q.Answer
| .timezoneNow => Time
| .createReport _ _ => Unit
| .saveDeleted _ => Unit
| .filterExpired _ _ => List FullReportRow
| .deleteFile _ _ _ => Unit
| .deleteReport _ _ => Unit

/-
  The tools and the storage answer the task at some time, the
  clock shows a time, or a file is no longer there.
-/
inductive Reply
  | task (x : FullReport.Reply) (now : Time)
  | time (now : Time)
  | removed

/-
  What the database makes of each statement.  A key that a
  report has had is that of no other report.
-/
def plan :
    (q : Statement) → Archive →
      Verdict Archive Empty Exc q.Answer
| .task q, d => (FullReport.plan q d.base).embed Archive.onBase
| .createReport row createdAt, d =>
    match d.createdAt row.id with
    | some _ => .refuse duplicateKey
    | none => .writeIf row.check (insertReport row createdAt)
| .saveDeleted report, d =>
    match d.find report with
    | none => .refuse noRowUpdated
    | some _ =>
        .done () none (Archive.onBase (hideReport report))
| .filterExpired cursor cutoff, d =>
    .done (d.expired cutoff) none
      (openCursor cursor (d.expired cutoff))
| .deleteReport _ report, _ =>
    .done () none (Archive.onBase (removeReport report))
| .timezoneNow, _ => .outside
| .deleteFile _ _ _, _ => .outside

/-
  The answers of the other parties: time passes, and the
  storage gives a file a name that fits the column, in the
  directory that it was to be in.
-/
def reply :
    (q : Statement) → Reply → Archive →
      Option (q.Answer × Archive)
| .task (.runTools url strategy), .task x now, d =>
    if d.clock ≤ now then
      (FullReport.reply (.runTools url strategy) x d.base).map
        fun r => (r.1, { d with base := r.2, clock := now })
    else
      none
| .task (.storeFile name content), .task x now, d =>
    match
      FullReport.reply (.storeFile name content) x d.base
    with
    | none => none
    | some (actual, base) =>
        if directory actual = directory name ∧
            fitsChar 100 actual = true ∧
              d.clock ≤ now then
          some
            (actual,
              recordFile actual now { d with base := base })
        else
          none
| .timezoneNow, .time now, d =>
    if d.clock ≤ now then
      some (now, { d with clock := now })
    else
      none
| .deleteFile _ _ name, .removed, d =>
    some ((), d.onBase (removeFile name))
| _, _, _ => none

def backend :
    Backend Archive Empty Statement Statement.Answer Reply
      Exc where
  aborted := FullReport.backend.aborted
  plan := plan
  reply := reply

/- A program over these statements. -/
abbrev Service (α : Type) :=
  Prog (TxOp Statement) (TxOp.Res Statement.Answer) Exc α

/- One statement. -/
abbrev query (q : Statement) : Service q.Answer :=
  execute q

/- The result of a statement of the task. -/
def ownResult :
    (o : TxOp FullReport.Statement) →
      TxOp.Res Statement.Answer (o.embed .task) →
        TxOp.Res FullReport.Statement.Answer o :=
  TxOp.restrict (fun _ a => a)

/- The task over these statements. -/
abbrev ofTask
    {α : Type}
    (p : FullReport.Service α) : Service α :=
  p.embed (TxOp.embed .task) ownResult

end Retention

/- What the storage answers. -/
theorem reply_storeFile
    {d d' : Archive}
    {name wanted : String}
    {content : Pdf}
    {x : Retention.Reply}
    (hReply :
      Retention.reply (.task (.storeFile wanted content)) x
        d = some (name, d')) :
    ∃ now, d' = d.withFile name content now ∧
      directory name = directory wanted ∧
        fitsChar 100 name = true := by
  cases x with
  | task y now =>
      simp only [Retention.reply] at hReply
      split at hReply
      · cases hReply
      · rename_i actual base hStored
        split at hReply
        · rename_i hName
          cases hReply
          refine ⟨now, ?_, hName.1, hName.2.1⟩
          cases y with
          | ran run => cases hStored
          | stored given =>
              simp only [reply] at hStored
              split at hStored
              · cases hStored
                rfl
              · cases hStored
        · cases hReply
  | time now => cases hReply
  | removed => cases hReply

------------------------------------------------------------
-- Services
------------------------------------------------------------

/- What a report is created with. -/
structure NewReport where
  id : ReportId
  user : Option UserId
  url : String
  strategy : String
  lang : String

/- The row with the defaults of the model. -/
def NewReport.row (new : NewReport) : FullReportRow where
  id := new.id
  user := new.user
  url := new.url
  strategy := new.strategy
  lang := new.lang
  status := .pending
  file := none
  toolsStatus := .obj []
  errorMessage := ""
  isDeleted := false

/- `FullReport.objects.create` -/
def createFullReport
    (new : NewReport) : Retention.Service Unit := do
  let now : Time ← Retention.query .timezoneNow
  Retention.query (.createReport new.row now)

/- `report.soft_delete()` -/
def softDelete
    (report : ReportId) : Retention.Service Unit :=
  Retention.query (.saveDeleted report)

/- `report.file.delete(save=False)`, if there is a file. -/
def deleteReportFile
    (started : Time)
    (report : FullReportRow) : Retention.Service Unit :=
  match report.file.filter (fun name => name ≠ "") with
  | none => pure ()
  | some name =>
      Retention.query (.deleteFile started report.id name)

/- The loop of the purge. -/
def purgeReports
    (started : Time) :
    List FullReportRow → Nat → Retention.Service Nat
| [], removed => pure removed
| report :: rest, removed => do
    deleteReportFile started report
    Retention.query (.deleteReport started report.id)
    purgeReports started rest (removed + 1)

/-
  `purge_expired_full_reports`, with the retention and the
  name of the cursor of its iterator.
-/
def purgeExpiredFullReports
    (retention : Time)
    (cursor : Tid) : Retention.Service Nat := do
  let now : Time ← Retention.query .timezoneNow
  let expired : List FullReportRow ←
    Retention.query (.filterExpired cursor (now - retention))
  purgeReports now expired 0

/- A delivery of `run_full_report_task`. -/
def deliverFullReport
    (tooling : Tooling)
    (report : ReportId) : Retention.Service String :=
  Retention.ofTask (runFullReportTask tooling report)

/- What happens to the reports. -/
inductive Operation
  | create (new : NewReport)
  | deliver (report : ReportId)
  | softDelete (report : ReportId)
  | purge
      (retention : Time)
      (cursor : Tid)

def Operation.program
    (tooling : Tooling) : Operation → Retention.Service Unit
| .create new => createFullReport new
| .deliver report =>
    (deliverFullReport tooling report).bind fun _ => .ret ()
| .softDelete report => FullReport.softDelete report
| .purge retention cursor =>
    (purgeExpiredFullReports retention cursor).bind
      fun _ => .ret ()

end SiteAnalysis.FullReport
