import SiteAnalysis.Common.Columns
import SiteAnalysis.Relational.Backend
import SiteAnalysis.Relational.Table

/-
  This file defines the tables that credits and audits share
  and the statements that their services execute.

  The lock of a balance row is its user.  Rows are never
  removed: deletion only sets `is_deleted`, which the default
  manager filters on.

  Key definitions include:
    * `CreditBalance`
    * `CreditTransaction`
    * `AccessibilityAudit`
    * `AuditIssue`
    * `Db`
    * `Statement`
    * `plan`
    * `backend`
-/

------------------------------------------------------------
-- Rows
------------------------------------------------------------

namespace SiteAnalysis.Billing

open Concurrency
open Relational
open Python

abbrev UserId := Nat

/- The value of a fresh `uuid4`. -/
abbrev AuditId := Nat

structure CreditBalance where
  totalPurchased : Int
  totalUsed : Int
  balance : Int
  isDeleted : Bool
deriving DecidableEq

/- The defaults of the columns. -/
def CreditBalance.zero : CreditBalance where
  totalPurchased := 0
  totalUsed := 0
  balance := 0
  isDeleted := false

inductive TransactionType
  | purchase
  | usage
  | refund
deriving DecidableEq

def TransactionType.value : TransactionType → String
| .purchase => "purchase"
| .usage => "usage"
| .refund => "refund"

structure CreditTransaction where
  user : UserId
  amount : Int
  transactionType : TransactionType
  description : String
  balanceAfter : Int
deriving DecidableEq

inductive AuditStatus
  | pending
  | completed
  | failed
deriving DecidableEq

structure AccessibilityAudit where
  id : AuditId
  user : Option UserId
  url : String
  status : AuditStatus
  totalErrors : Int
  totalAlerts : Int
  totalFeatures : Int
  totalStructural : Int
  totalContrastErrors : Int
  wcagLevel : Option String
  rawResponse : Json
  errorMessage : String
  creditsConsumed : Int
  isDeleted : Bool

inductive IssueType
  | error
  | alert
  | feature
  | structural
  | contrast
deriving DecidableEq

/-
  An `AuditIssue` object before it is saved: the values that
  WAVE sent for its text columns are not yet converted.
-/
structure IssueObject where
  audit : AuditId
  issueType : IssueType
  waveId : Json
  description : Json
  count : Int
  wcagReference : Option String

structure AuditIssue where
  audit : AuditId
  issueType : IssueType
  waveId : String
  description : String
  count : Int
  wcagReference : Option String

structure Db where
  balances : UserId → Option CreditBalance
  transactions : List CreditTransaction
  audits : List AccessibilityAudit
  issues : List AuditIssue

namespace Db

def find
    (d : Db)
    (audit : AuditId) : Option AccessibilityAudit :=
  Table.find AccessibilityAudit.id audit d.audits

/- The user's rows in the ledger, in commit order. -/
def ledger
    (d : Db)
    (user : UserId) : List CreditTransaction :=
  d.transactions.filter (fun tx => tx.user = user)

def issuesOf
    (d : Db)
    (audit : AuditId) : List AuditIssue :=
  d.issues.filter (fun issue => issue.audit = audit)

end Db

/- A database in which every user has just signed up. -/
def signup : Db where
  balances := fun _ => some .zero
  transactions := []
  audits := []
  issues := []

------------------------------------------------------------
-- Partial Saves
------------------------------------------------------------

/- The columns of `CreditBalance` that are saved by name. -/
inductive BalanceField
  | totalPurchased
  | totalUsed
  | balance
deriving DecidableEq

/- `UPDATE` of the listed columns from the object. -/
def CreditBalance.assign
    (fields : List BalanceField)
    (object stored : CreditBalance) : CreditBalance :=
  { stored with
    totalPurchased :=
      if .totalPurchased ∈ fields then
        object.totalPurchased
      else
        stored.totalPurchased
    totalUsed :=
      if .totalUsed ∈ fields then
        object.totalUsed
      else
        stored.totalUsed
    balance :=
      if .balance ∈ fields then
        object.balance
      else
        stored.balance }

/- The columns of the audit that are saved by name. -/
inductive AuditField
  | status
  | errorMessage
  | creditsConsumed
deriving DecidableEq

def AccessibilityAudit.assign
    (fields : List AuditField)
    (object stored : AccessibilityAudit) :
    AccessibilityAudit :=
  { stored with
    status :=
      if .status ∈ fields then
        object.status
      else
        stored.status
    errorMessage :=
      if .errorMessage ∈ fields then
        object.errorMessage
      else
        stored.errorMessage
    creditsConsumed :=
      if .creditsConsumed ∈ fields then
        object.creditsConsumed
      else
        stored.creditsConsumed }

@[simp] theorem assign_id
    (fields : List AuditField)
    (object stored : AccessibilityAudit) :
    (object.assign fields stored).id = stored.id := rfl

------------------------------------------------------------
-- Constraints
------------------------------------------------------------

def CreditBalance.check
    (row : CreditBalance) : Except Exc Unit := do
  integerColumn row.totalPurchased
  integerColumn row.totalUsed
  integerColumn row.balance
  require (0 ≤ row.balance)
    (.database .integrityError
      "violates check constraint \"balance_non_negative\"")

def CreditTransaction.check
    (row : CreditTransaction) : Except Exc Unit := do
  integerColumn row.amount
  charColumn 10 row.transactionType.value
  charColumn 255 row.description
  integerColumn row.balanceAfter

/- A `CharField(null=True)`. -/
def optionalCharColumn
    (max : Nat) : Option String → Except Exc Unit
| none => .ok ()
| some s => charColumn max s

def AccessibilityAudit.check
    (row : AccessibilityAudit) : Except Exc Unit := do
  charColumn 2048 row.url
  integerColumn row.totalErrors
  integerColumn row.totalAlerts
  integerColumn row.totalFeatures
  integerColumn row.totalStructural
  integerColumn row.totalContrastErrors
  optionalCharColumn 3 row.wcagLevel
  jsonColumn row.rawResponse
  textColumn row.errorMessage
  integerColumn row.creditsConsumed

/- The row that the database stores for an object. -/
def IssueObject.row
    (repr : Json → String)
    (issue : IssueObject) : AuditIssue where
  audit := issue.audit
  issueType := issue.issueType
  waveId := issue.waveId.toStr repr
  description := issue.description.toStr repr
  count := issue.count
  wcagReference := issue.wcagReference

def IssueObject.check
    (repr : Json → String)
    (issue : IssueObject) : Except Exc Unit := do
  notNull "wave_id" issue.waveId
  charColumn 100 (issue.waveId.toStr repr)
  notNull "description" issue.description
  textColumn (issue.description.toStr repr)
  integerColumn issue.count
  optionalCharColumn 20 issue.wcagReference

def checkIssues
    (repr : Json → String) :
    List IssueObject → Except Exc Unit
| [] => .ok ()
| issue :: rest => do
    issue.check repr
    checkIssues repr rest

theorem clean_optionalCharColumn
    {max : Nat}
    (hMax : noNul (toString max) = true)
    (s : Option String) :
    Clean (optionalCharColumn max s) := by
  cases s with
  | none =>
      intro e hError
      cases hError
  | some s => exact clean_charColumn hMax s

theorem CreditBalance.clean_check
    (row : CreditBalance) : Clean row.check := by
  apply clean_bind (clean_integerColumn _)
  apply clean_bind (clean_integerColumn _)
  apply clean_bind (clean_integerColumn _)
  exact clean_require (by unfold Printable; decide)

theorem CreditTransaction.clean_check
    (row : CreditTransaction) : Clean row.check := by
  apply clean_bind (clean_integerColumn _)
  apply clean_bind (clean_charColumn (by decide) _)
  apply clean_bind (clean_charColumn (by decide) _)
  exact clean_integerColumn _

theorem AccessibilityAudit.clean_check
    (row : AccessibilityAudit) : Clean row.check := by
  apply clean_bind (clean_charColumn (by decide) _)
  apply clean_bind (clean_integerColumn _)
  apply clean_bind (clean_integerColumn _)
  apply clean_bind (clean_integerColumn _)
  apply clean_bind (clean_integerColumn _)
  apply clean_bind (clean_integerColumn _)
  apply clean_bind (clean_optionalCharColumn (by decide) _)
  apply clean_bind (clean_jsonColumn _)
  apply clean_bind (clean_textColumn _)
  exact clean_integerColumn _

theorem IssueObject.clean_check
    (repr : Json → String)
    (issue : IssueObject) : Clean (issue.check repr) := by
  apply clean_bind (clean_notNull (by decide) _)
  apply clean_bind (clean_charColumn (by decide) _)
  apply clean_bind (clean_notNull (by decide) _)
  apply clean_bind (clean_textColumn _)
  apply clean_bind (clean_integerColumn _)
  exact clean_optionalCharColumn (by decide) _

theorem clean_checkIssues
    (repr : Json → String)
    (issues : List IssueObject) :
    Clean (checkIssues repr issues) := by
  induction issues with
  | nil =>
      intro e hError
      cases hError
  | cons issue rest ih =>
      exact clean_bind (issue.clean_check repr) ih

------------------------------------------------------------
-- Statements
------------------------------------------------------------

/- The queries of the services and their HTTP call. -/
inductive Statement
  | getBalance (user : UserId)
  | createBalance (user : UserId)
  | lockBalance (user : UserId)
  | saveBalance
      (user : UserId)
      (object : CreditBalance)
      (fields : List BalanceField)
  | createTransaction (row : CreditTransaction)
  | createAudit (row : AccessibilityAudit)
  | saveAudit (object : AccessibilityAudit)
  | saveAuditFields
      (object : AccessibilityAudit)
      (fields : List AuditField)
  | refreshAudit (audit : AuditId)
  | bulkCreateIssues (issues : List IssueObject)
  | httpGet
      (url : String)
      (params : List (String × String))
      (timeout : Nat)

/- What a statement comes back with. -/
abbrev Statement.Answer : Statement → Type
| .getBalance _ => CreditBalance
| .createBalance _ => CreditBalance
| .lockBalance _ => CreditBalance
| .saveBalance _ _ _ => Unit
| .createTransaction _ => Unit
| .createAudit _ => Unit
| .saveAudit _ => Unit
| .saveAuditFields _ _ => Unit
| .refreshAudit _ => AccessibilityAudit
| .bulkCreateIssues _ => Unit
| .httpGet _ _ _ => HttpOutcome

/- A write, unless a constraint is violated. -/
def checked
    {δ κ : Type}
    (check : Except Exc Unit)
    (lock : Option κ)
    (change : δ → δ) : Verdict δ κ Exc Unit :=
  match check with
  | .ok () => .done () lock change
  | .error e => .refuse e

/- A row that the default manager shows. -/
def liveBalance
    (d : Db)
    (user : UserId) : Option CreditBalance :=
  (d.balances user).filter (fun row => !row.isDeleted)

theorem liveBalance_eq_some
    {d : Db}
    {user : UserId}
    {row : CreditBalance} :
    liveBalance d user = some row ↔
      d.balances user = some row ∧ row.isDeleted = false := by
  simp [liveBalance, Option.filter_eq_some_iff]

def setBalance
    (user : UserId)
    (row : CreditBalance)
    (d : Db) : Db :=
  { d with
    balances := Function.update d.balances user (some row) }

def insertTransaction
    (row : CreditTransaction)
    (d : Db) : Db :=
  { d with transactions := d.transactions ++ [row] }

def insertAudit
    (row : AccessibilityAudit)
    (d : Db) : Db :=
  { d with audits := d.audits ++ [row] }

def updateAudit
    (audit : AuditId)
    (f : AccessibilityAudit → AccessibilityAudit)
    (d : Db) : Db :=
  { d with
    audits :=
      Table.update AccessibilityAudit.id audit f d.audits }

def insertIssues
    (rows : List AuditIssue)
    (d : Db) : Db :=
  { d with issues := d.issues ++ rows }

def noRowUpdated : Exc :=
  .database .databaseError
    "Save with update_fields did not affect any rows."

def duplicateKey : Exc :=
  .database .integrityError
    "duplicate key value violates unique constraint"

/- What the database makes of each statement. -/
def plan
    (repr : Json → String) :
    (q : Statement) → Db → Verdict Db UserId Exc q.Answer
| .getBalance user, d =>
    match liveBalance d user with
    | some row => .read row
    | none => .miss (.doesNotExist "CreditBalance")
| .createBalance user, d =>
    match d.balances user with
    | some _ => .refuse duplicateKey
    | none =>
        .done .zero (some user) (setBalance user .zero)
| .lockBalance user, d =>
    match liveBalance d user with
    | some row => .done row (some user) id
    | none => .miss (.doesNotExist "CreditBalance")
| .saveBalance user object fields, d =>
    match d.balances user with
    | none => .refuse noRowUpdated
    | some stored =>
        checked (object.assign fields stored).check
          (some user)
          (setBalance user (object.assign fields stored))
| .createTransaction row, _ =>
    checked row.check none (insertTransaction row)
| .createAudit row, d =>
    match d.find row.id with
    | some _ => .refuse duplicateKey
    | none => checked row.check none (insertAudit row)
| .saveAudit object, d =>
    match d.find object.id with
    | some _ =>
        checked object.check none
          (updateAudit object.id (fun _ => object))
    | none =>
        checked object.check none (insertAudit object)
| .saveAuditFields object fields, d =>
    match d.find object.id with
    | none => .refuse noRowUpdated
    | some stored =>
        checked (object.assign fields stored).check none
          (updateAudit object.id (object.assign fields))
| .refreshAudit audit, d =>
    match d.find audit with
    | some row => .read row
    | none => .miss (.doesNotExist "AccessibilityAudit")
| .bulkCreateIssues issues, _ =>
    checked (checkIssues repr issues) none
      (insertIssues (issues.map (fun i => i.row repr)))
| .httpGet _ _ _, _ => .outside

/- The answer of a server, for the HTTP call only. -/
def reply :
    (q : Statement) → HttpOutcome → Db →
      Option (q.Answer × Db)
| .httpGet _ _ _, outcome, d => some (outcome, d)
| _, _, _ => none

def backend
    (repr : Json → String) :
    Backend Db UserId Statement Statement.Answer
      HttpOutcome Exc where
  aborted :=
    .database .databaseError
      "current transaction is aborted"
  plan := plan repr
  reply := reply

/- A program over the statements. -/
abbrev Service (α : Type) :=
  Prog (TxOp Statement) (TxOp.Res Statement.Answer) Exc α

/- One statement. -/
abbrev query (q : Statement) : Service q.Answer :=
  execute q

/- `raise` -/
abbrev raiseError {α : Type} (e : Exc) : Service α :=
  .raise e

end SiteAnalysis.Billing
