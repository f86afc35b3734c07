import SiteAnalysis.Audits.Wave
import SiteAnalysis.Credits.Service

/-
  This file defines the audit service.

  An audit is paid for inside the transaction that stores its
  result.  The account of an anonymous caller is `none`.

  Key definitions include:
    * `newAudit`
    * `completedAudit`
    * `finalizeBody`
    * `runAccessibilityAudit`
-/

------------------------------------------------------------
-- Audit Objects
------------------------------------------------------------

namespace SiteAnalysis.Audits

open Concurrency
open Relational
open Python
open Billing
open Credits

/- `AUDIT_CREDIT_COST` -/
def auditCreditCost : Int := 1

/- The object that `objects.create` inserts. -/
def newAudit
    (id : AuditId)
    (account : Option UserId)
    (url : String) : AccessibilityAudit where
  id := id
  user := account
  url := url
  status := .pending
  totalErrors := 0
  totalAlerts := 0
  totalFeatures := 0
  totalStructural := 0
  totalContrastErrors := 0
  wcagLevel := none
  rawResponse := .obj []
  errorMessage := ""
  creditsConsumed := 0
  isDeleted := false

/- The object that the successful path saves. -/
def completedAudit
    (audit : AccessibilityAudit)
    (raw : Json)
    (parsed : Parsed)
    (creditsConsumed : Int) : AccessibilityAudit :=
  { audit with
    totalErrors := parsed.totals.totalErrors
    totalAlerts := parsed.totals.totalAlerts
    totalFeatures := parsed.totals.totalFeatures
    totalStructural := parsed.totals.totalStructural
    totalContrastErrors := parsed.totals.totalContrastErrors
    wcagLevel := parsed.wcagLevel
    rawResponse := raw
    status := .completed
    errorMessage := ""
    creditsConsumed := creditsConsumed }

/- `AuditIssue(audit=audit, **issue)` -/
def issueObject
    (audit : AuditId)
    (issue : Issue) : IssueObject where
  audit := audit
  issueType := issue.issueType
  waveId := issue.waveId
  description := issue.description
  count := issue.count
  wcagReference := issue.wcagReference

def issueObjects
    (audit : AuditId)
    (parsed : Parsed) : List IssueObject :=
  parsed.issues.map (issueObject audit)

/- The text of the usage entry. -/
def usageDescription (url : String) : String :=
  "Accessibility audit: " ++ url

------------------------------------------------------------
-- The Service
------------------------------------------------------------

/- The charge of an authenticated caller. -/
def chargeAccount
    (account : Option UserId)
    (url : String) : Service Int :=
  match account with
  | none => pure 0
  | some user => do
      let _ ←
        deductCredit user auditCreditCost
          (usageDescription url)
      pure auditCreditCost

/- The block that pays for the audit and stores it. -/
def finalizeBody
    (audit : AccessibilityAudit)
    (account : Option UserId)
    (url : String)
    (raw : Json)
    (parsed : Parsed) : Service AccessibilityAudit := do
  let creditsConsumed ← chargeAccount account url
  let completed :=
    completedAudit audit raw parsed creditsConsumed
  query (.saveAudit completed)
  query (.bulkCreateIssues (issueObjects audit.id parsed))
  pure completed

/- The handler around the request. -/
def failRequest
    {α : Type}
    (audit : AccessibilityAudit)
    (e : Exc) : Service α := do
  let failed :=
    { audit with
      status := .failed
      errorMessage := e.str }
  query (.saveAuditFields failed [.status, .errorMessage])
  raiseError e

/- The handler around the block. -/
def failFinalize
    {α : Type}
    (audit : AccessibilityAudit)
    (e : Exc) : Service α := do
  let stored : AccessibilityAudit ←
    query (.refreshAudit audit.id)
  let failed :=
    { stored with
      status := .failed
      errorMessage := e.str
      creditsConsumed := 0 }
  query
    (.saveAuditFields failed
      [.status, .errorMessage, .creditsConsumed])
  raiseError e

/- The check of an authenticated caller's balance. -/
def checkAccount
    (account : Option UserId) : Service Unit :=
  match account with
  | none => pure ()
  | some user => do
      let _ ← checkBalance user auditCreditCost
      pure ()

/- `id` is the fresh identifier of the new audit. -/
def runAccessibilityAudit
    (settings : WaveSettings)
    (repr : Json → String)
    (id : AuditId)
    (account : Option UserId)
    (url : String) : Service AccessibilityAudit := do
  checkAccount account
  let audit := newAudit id account url
  query (.createAudit audit)
  let raw ←
    (fetchWave settings repr url none).tryCatch
      (failRequest audit)
  let parsed ← Prog.ofExcept (fromPython (parseWave raw))
  (atomic
    (finalizeBody audit account url raw parsed)).tryCatch
    (failFinalize audit)

end SiteAnalysis.Audits
