import SiteAnalysis.Relational.Backend
import SiteAnalysis.Relational.Table
import SiteAnalysis.Validator.Schema
import SiteAnalysis.Python.JsonDump
import SiteAnalysis.Common.Columns

/-
  This file defines the tables of the validator and the
  statements that its services execute.

  Key definitions include:
    * `ValidationJob`
    * `SchemaItem`
    * `SchemaIssue`
    * `Db`
    * `Db.liveItems`
    * `Db.liveIssues`
    * `Statement`
    * `plan`
    * `backend`

  Key theorems include:
    * `saveJobFields_eq_done`
    * `bulkCreateItems_eq_done`
-/

------------------------------------------------------------
-- Rows
------------------------------------------------------------

namespace SiteAnalysis.Validator

open Concurrency
open Relational
open Python

/- The values of fresh `uuid4`s. -/
abbrev JobId := Nat
abbrev ItemId := Nat
abbrev IssueId := Nat

inductive ValidationStatus
  | pending
  | processing
  | completed
  | failed
deriving DecidableEq

def ValidationStatus.value : ValidationStatus → String
| .pending => "pending"
| .processing => "processing"
| .completed => "completed"
| .failed => "failed"

inductive SchemaFormat
  | jsonLd
  | microdata
  | rdfa
deriving DecidableEq

def SchemaFormat.value : SchemaFormat → String
| .jsonLd => "json-ld"
| .microdata => "microdata"
| .rdfa => "rdfa"

def IssueSeverity.value : IssueSeverity → String
| .error => "error"
| .warning => "warning"
| .info => "info"

structure ValidationJob where
  id : JobId
  user : Nat
  url : String
  status : ValidationStatus
  totalSchemasFound : Nat
  totalErrors : Nat
  totalWarnings : Nat
  hasJsonLd : Bool
  hasMicrodata : Bool
  hasRdfa : Bool
  errorMessage : Option String
  isDeleted : Bool

structure SchemaItem where
  id : ItemId
  job : JobId
  schemaType : String
  format : SchemaFormat
  rawData : Json
  isValid : Bool
  richResultEligible : Bool
  isDeleted : Bool

structure SchemaIssue extends Issue where
  id : IssueId
  schemaItem : ItemId

structure Db where
  jobs : List ValidationJob
  items : List SchemaItem
  issues : List SchemaIssue

/- A row of the job that the default manager shows. -/
def SchemaItem.isLive
    (job : JobId)
    (item : SchemaItem) : Bool :=
  item.job = job ∧ item.isDeleted = false

namespace Db

def find
    (d : Db)
    (job : JobId) : Option ValidationJob :=
  Table.find ValidationJob.id job d.jobs

/- `SchemaItem.objects.filter(job=job)` -/
def liveItems
    (d : Db)
    (job : JobId) : List SchemaItem :=
  d.items.filter (SchemaItem.isLive job)

/- The issue belongs to one of the items. -/
def issueOf
    (items : List SchemaItem)
    (issue : SchemaIssue) : Bool :=
  items.any (fun item => item.id = issue.schemaItem)

/- The issues of the items that the manager shows. -/
def liveIssues
    (d : Db)
    (job : JobId) : List SchemaIssue :=
  d.issues.filter (issueOf (d.liveItems job))

/- The keys of the tables. -/
structure Sound (d : Db) : Prop where
  jobs : Table.Keyed ValidationJob.id d.jobs
  items : Table.Keyed SchemaItem.id d.items
  issues :
    ∀ issue ∈ d.issues, ∃ item ∈ d.items,
      item.id = issue.schemaItem

end Db

------------------------------------------------------------
-- Columns
------------------------------------------------------------

/- A nullable `TextField`. -/
def optionalTextColumn : Option String → Except Exc Unit
| none => .ok ()
| some s => textColumn s

def ValidationJob.check
    (row : ValidationJob) : Except Exc Unit := do
  charColumn 2048 row.url
  charColumn 20 row.status.value
  integerColumn row.totalSchemasFound
  integerColumn row.totalErrors
  integerColumn row.totalWarnings
  optionalTextColumn row.errorMessage

def SchemaItem.check
    (row : SchemaItem) : Except Exc Unit := do
  charColumn 100 row.schemaType
  charColumn 10 row.format.value
  jsonColumn row.rawData

def SchemaIssue.check
    (row : SchemaIssue) : Except Exc Unit := do
  charColumn 10 row.severity.value
  charColumn 200 row.field
  textColumn row.message
  optionalTextColumn row.suggestion

------------------------------------------------------------
-- Statements
------------------------------------------------------------

/- The columns of a job that are saved by name. -/
inductive JobField
  | status
  | errorMessage
deriving DecidableEq

/- `UPDATE` of the listed columns from the object. -/
def ValidationJob.assign
    (fields : List JobField)
    (object stored : ValidationJob) : ValidationJob :=
  { stored with
    status :=
      if .status ∈ fields then
        object.status
      else
        stored.status
    errorMessage :=
      if .errorMessage ∈ fields then
        object.errorMessage
      else
        stored.errorMessage }

inductive Statement
  | getJob (job : JobId)
  | saveJobFields
      (object : ValidationJob)
      (fields : List JobField)
  | saveJob (object : ValidationJob)
  | deleteItems (job : JobId)
  | bulkCreateItems (items : List SchemaItem)
  | bulkCreateIssues (issues : List SchemaIssue)

/- What a statement comes back with. -/
abbrev Statement.Answer : Statement → Type
| .getJob _ => ValidationJob
| _ => Unit

def noRowUpdated : Exc :=
  .database .databaseError
    "Save with update_fields did not affect any rows."

def duplicateKey : Exc :=
  .database .integrityError
    "duplicate key value violates unique constraint"

/- A write, unless its values are not accepted. -/
def writeIf
    (check : Except Exc Unit)
    (change : Db → Db) : Verdict Db Empty Exc Unit :=
  match check with
  | .error e => .refuse e
  | .ok () => .done () none change

/- The new keys are distinct and not in the table. -/
def FreshKeys
    {ρ : Type}
    (key : ρ → Nat)
    (rows new : List ρ) : Prop :=
  Table.Keyed key new ∧
    ∀ row ∈ new, Table.find key (key row) rows = none

instance
    {ρ : Type}
    (key : ρ → Nat)
    (rows new : List ρ) :
    Decidable (FreshKeys key rows new) :=
  decidable_of_iff
    ((new.map key).Nodup ∧
      ∀ row ∈ new,
        (Table.find key (key row) rows).isNone = true)
    (by simp [FreshKeys, Table.Keyed])

/- `queryset.delete()` with the issues of the items. -/
def removeItems
    (job : JobId)
    (d : Db) : Db :=
  { d with
    items := d.items.filter (fun i => !i.isLive job)
    issues :=
      d.issues.filter
        (fun s => !Db.issueOf (d.liveItems job) s) }

/- The exception of `json.dumps` for a value nested too deep. -/
def dumpRecursion : Exc :=
  .other "maximum recursion depth exceeded"

/-
  What the database makes of each statement; `dumpDepth` is
  the nesting of values that a JSON column takes.
-/
def plan
    (dumpDepth : Nat) :
    (q : Statement) → Db → Verdict Db Empty Exc q.Answer
| .getJob job, d =>
    match (d.find job).filter (fun row => !row.isDeleted) with
    | some row => .read row
    | none => .miss (.doesNotExist "ValidationJob")
| .saveJobFields object fields, d =>
    match d.find object.id with
    | none => .refuse noRowUpdated
    | some row =>
        writeIf (object.assign fields row).check
          (fun d =>
            { d with
              jobs :=
                Table.update ValidationJob.id object.id
                  (object.assign fields) d.jobs })
| .saveJob object, _ =>
    writeIf object.check
      (fun d =>
        { d with
          jobs := Table.put ValidationJob.id object d.jobs })
| .deleteItems job, _ => .done () none (removeItems job)
| .bulkCreateItems items, d =>
    if items.any (fun i => dumpDepth < i.rawData.nesting) then
      .miss dumpRecursion
    else if FreshKeys SchemaItem.id d.items items then
      writeIf (checkRows SchemaItem.check items)
        (fun d => { d with items := d.items ++ items })
    else
      .refuse duplicateKey
| .bulkCreateIssues issues, d =>
    if FreshKeys SchemaIssue.id d.issues issues then
      writeIf (checkRows SchemaIssue.check issues)
        (fun d => { d with issues := d.issues ++ issues })
    else
      .refuse duplicateKey

def backend
    (dumpDepth : Nat) :
    Backend Db Empty Statement Statement.Answer Empty
      Exc where
  aborted :=
    .database .databaseError
      "current transaction is aborted"
  plan := plan dumpDepth
  reply := fun _ never _ => nomatch never

/- A program over the statements. -/
abbrev Service (α : Type) :=
  Prog (TxOp Statement) (TxOp.Res Statement.Answer) Exc α

/- One statement. -/
abbrev query (q : Statement) : Service q.Answer :=
  execute q

------------------------------------------------------------
-- Statements That Are Done
------------------------------------------------------------

theorem writeIf_eq_done
    {check : Except Exc Unit}
    {change f : Db → Db}
    {a : Unit}
    {lock : Option Empty}
    (hWrite : writeIf check change = .done a lock f) :
    check = .ok () ∧ f = change := by
  unfold writeIf at hWrite
  split at hWrite
  · cases hWrite
  · cases hWrite
    exact ⟨rfl, rfl⟩

/- A save by name rewrites the row of the object. -/
theorem saveJobFields_eq_done
    {dumpDepth : Nat}
    {object : ValidationJob}
    {fields : List JobField}
    {d : Db}
    {a : Unit}
    {lock : Option Empty}
    {f : Db → Db}
    (hPlan :
      plan dumpDepth (.saveJobFields object fields) d =
        .done a lock f) :
    f d =
      { d with
        jobs :=
          Table.update ValidationJob.id object.id
            (object.assign fields) d.jobs } := by
  simp only [plan] at hPlan
  split at hPlan
  · cases hPlan
  · rw [(writeIf_eq_done hPlan).2]

/- Items are created as a whole, under new keys. -/
theorem bulkCreateItems_eq_done
    {dumpDepth : Nat}
    {items : List SchemaItem}
    {d : Db}
    {a : Unit}
    {lock : Option Empty}
    {f : Db → Db}
    (hPlan :
      plan dumpDepth (.bulkCreateItems items) d =
        .done a lock f) :
    FreshKeys SchemaItem.id d.items items ∧
      f = fun d => { d with items := d.items ++ items } := by
  simp only [plan] at hPlan
  split at hPlan
  · cases hPlan
  · split at hPlan
    · rename_i hFresh
      exact ⟨hFresh, (writeIf_eq_done hPlan).2⟩
    · cases hPlan

theorem bulkCreateIssues_eq_done
    {dumpDepth : Nat}
    {issues : List SchemaIssue}
    {d : Db}
    {a : Unit}
    {lock : Option Empty}
    {f : Db → Db}
    (hPlan :
      plan dumpDepth (.bulkCreateIssues issues) d =
        .done a lock f) :
    f =
      fun d => { d with issues := d.issues ++ issues } := by
  simp only [plan] at hPlan
  split at hPlan
  · exact (writeIf_eq_done hPlan).2
  · cases hPlan

end SiteAnalysis.Validator
