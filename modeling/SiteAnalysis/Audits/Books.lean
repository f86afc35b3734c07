import SiteAnalysis.Audits.Alone

/-
  This file states when the audits and the credits of a
  database agree, and proves that every change the services
  commit keeps them in agreement.

  Key definitions include:
    * `Settled`
    * `Reconciled`

  Key theorems include:
    * `reconciled_insertAudit`
    * `reconciled_fail`
    * `reconciled_finalized`
    * `reconciled_purchase`
-/

------------------------------------------------------------
-- Agreement
------------------------------------------------------------

namespace SiteAnalysis.Audits

open Concurrency
open Relational
open Python
open Billing
open Credits

/- An audit of the user that consumed a credit. -/
def isPaidBy
    (user : UserId)
    (row : AccessibilityAudit) : Bool :=
  row.user = some user ∧ row.creditsConsumed = 1

def isUsage (tx : CreditTransaction) : Bool :=
  tx.transactionType = .usage

/- The audits of the user that consumed a credit. -/
def paidAudits
    (d : Db)
    (user : UserId) : Nat :=
  d.audits.countP (isPaidBy user)

/- The usage rows of the user's ledger. -/
def usageRows
    (d : Db)
    (user : UserId) : Nat :=
  (d.ledger user).countP isUsage

/- `total_used`; a user without a row has used nothing. -/
def usedBy
    (d : Db)
    (user : UserId) : Int :=
  match d.balances user with
  | some row => row.totalUsed
  | none => 0

/-
  The row of an audit as it may be seen in the database: paid
  for and with all its issues once it is completed, and free
  of charge until then.
-/
structure Settled
    (repr : Json → String)
    (d : Db)
    (row : AccessibilityAudit) : Prop where
  free : row.status ≠ .completed → row.creditsConsumed = 0
  paid :
    row.status = .completed →
      row.creditsConsumed = costOf row.user
  issues :
    row.status = .completed →
      ∃ parsed, parseWave row.rawResponse = .ok parsed ∧
        d.issuesOf row.id =
          (issueObjects row.id parsed).map
            (fun issue => issue.row repr)

/- Audits, ledger and balances agree. -/
structure Reconciled
    (repr : Json → String)
    (d : Db) : Prop where
  keyed : Table.Keyed AccessibilityAudit.id d.audits
  settled : ∀ row ∈ d.audits, Settled repr d row
  counted : ∀ user, paidAudits d user = usageRows d user
  used : ∀ user, usedBy d user = usageRows d user

------------------------------------------------------------
-- Changes of the Balances
------------------------------------------------------------

section Changes

variable {repr : Json → String} {d d' : Db}
variable {user user' : UserId}
variable {account : Option UserId} {url : String}
variable {id : AuditId}

/- A row that consumed nothing is nobody's paid audit. -/
theorem isPaidBy_eq_false
    {row : AccessibilityAudit}
    (hFree : row.creditsConsumed = 0) :
    isPaidBy user row = false := by
  simp [isPaidBy, hFree]

/- Only the issues matter to a row that is there. -/
theorem Settled.congr
    {row : AccessibilityAudit}
    (hSettled : Settled repr d row)
    (hIssues : d'.issuesOf row.id = d.issuesOf row.id) :
    Settled repr d' row where
  free := hSettled.free
  paid := hSettled.paid
  issues := by
    intro hStatus
    rcases hSettled.issues hStatus with
      ⟨parsed, hParse, hRows⟩
    exact ⟨parsed, hParse, hIssues.trans hRows⟩

/- A missing row reads as an unused one. -/
theorem reconciled_createBalance
    (hReconciled : Reconciled repr d)
    (hNone : d.balances user = none) :
    Reconciled repr (setBalance user .zero d) where
  keyed := hReconciled.keyed
  settled := fun row hMem =>
    (hReconciled.settled row hMem).congr rfl
  counted := hReconciled.counted
  used := by
    intro user'
    have hUsed := hReconciled.used user'
    have hSame :
        usedBy (setBalance user .zero d) user' =
          usedBy d user' := by
      by_cases hUser : user' = user
      · subst hUser
        simp [usedBy, setBalance, hNone, CreditBalance.zero]
      · simp [usedBy, setBalance, hUser]
    rw [hSame]
    exact hUsed

/- The usage rows after an entry. -/
theorem usageRows_enter
    {object : CreditBalance}
    {tx : CreditTransaction}
    (hUser : tx.user = user') :
    usageRows (enter user' object tx d) user =
      usageRows d user +
        if user = user' then (isUsage tx).toNat else 0 := by
  by_cases hSame : user = user'
  · subst hSame
    rw [usageRows, enter_ledger_self hUser,
      List.countP_append, if_pos rfl]
    cases hUsage : isUsage tx <;> simp [usageRows, hUsage]
  · rw [usageRows, enter_ledger_of_ne hUser hSame,
      if_neg hSame]
    rfl

/- The used credits after an entry. -/
theorem usedBy_enter
    {row object : CreditBalance}
    {tx : CreditTransaction}
    (hFound : d.balances user' = some row) :
    usedBy (enter user' object tx d) user =
      usedBy d user +
        if user = user' then
          object.totalUsed - row.totalUsed
        else
          0 := by
  by_cases hSame : user = user'
  · subst hSame
    simp [usedBy, hFound]
  · simp [usedBy, enter_balances_of_ne hSame, hSame]

/- A purchase. -/
theorem reconciled_purchase
    {amount : Int}
    {description : String}
    {row object : CreditBalance}
    {tx : CreditTransaction}
    (hReconciled : Reconciled repr d)
    (hFound : d.balances user' = some row)
    (hDeposits :
      Deposits user' amount description .purchase row object
        tx) :
    Reconciled repr (enter user' object tx d) where
  keyed := hReconciled.keyed
  settled := fun row hMem =>
    (hReconciled.settled row hMem).congr rfl
  counted := by
    intro user
    have hCounted := hReconciled.counted user
    have hUsage : isUsage tx = false := by
      rw [hDeposits.tx]
      rfl
    rw [usageRows_enter hDeposits.entry.user, hUsage]
    simpa [paidAudits] using hCounted
  used := by
    intro user
    have hUsed := hReconciled.used user
    have hUsage : isUsage tx = false := by
      rw [hDeposits.tx]
      rfl
    have hTotal : object.totalUsed = row.totalUsed := by
      rw [hDeposits.object]
      rfl
    rw [usageRows_enter hDeposits.entry.user,
      usedBy_enter hFound, hUsage, hTotal]
    simpa using hUsed

------------------------------------------------------------
-- Changes of the Audits
------------------------------------------------------------

/- A new audit has consumed nothing. -/
theorem reconciled_insertAudit
    (hReconciled : Reconciled repr d)
    (hFresh : d.find id = none) :
    Reconciled repr
      (insertAudit (newAudit id account url) d) where
  keyed := Table.keyed_append hReconciled.keyed hFresh
  settled := by
    intro row hMem
    rcases List.mem_append.mp hMem with hOld | hNew
    · exact (hReconciled.settled row hOld).congr rfl
    · rw [List.mem_singleton.mp hNew]
      refine ⟨fun _ => rfl, ?_, ?_⟩
      · intro hStatus
        cases hStatus
      · intro hStatus
        cases hStatus
  counted := by
    intro user
    have hCounted := hReconciled.counted user
    have hUnpaid :
        isPaidBy user (newAudit id account url) = false :=
      isPaidBy_eq_false rfl
    rw [paidAudits, insertAudit, List.countP_append,
      List.countP_singleton, if_neg (by simp [hUnpaid])]
    exact hCounted
  used := hReconciled.used

/-
  The rows after the one row of an audit was rewritten and
  only issues of this audit were added.
-/
theorem settled_update
    {f : AccessibilityAudit → AccessibilityAudit}
    {old : AccessibilityAudit}
    (hReconciled : Reconciled repr d)
    (hFind : d.find id = some old)
    (hAudits :
      d'.audits =
        Table.update AccessibilityAudit.id id f d.audits)
    (hIssues :
      ∀ id', id' ≠ id → d'.issuesOf id' = d.issuesOf id')
    (hNew : Settled repr d' (f old)) :
    ∀ row ∈ d'.audits, Settled repr d' row := by
  intro row hMem
  rw [hAudits] at hMem
  rcases Table.mem_update hMem with
    ⟨hOld, hNe⟩ | ⟨row', hOld, hKey, rfl⟩
  · exact
      (hReconciled.settled row hOld).congr (hIssues _ hNe)
  · have hSame := Table.find_of_mem hReconciled.keyed hOld
    rw [hKey] at hSame
    have hEq : row' = old :=
      Option.some.inj (hSame.symm.trans hFind)
    rw [hEq]
    exact hNew

/- The paid audits after an unpaid row was rewritten. -/
theorem paidAudits_update
    {f : AccessibilityAudit → AccessibilityAudit}
    {old : AccessibilityAudit}
    (hReconciled : Reconciled repr d)
    (hFind : d.find id = some old)
    (hFree : old.creditsConsumed = 0)
    (hAudits :
      d'.audits =
        Table.update AccessibilityAudit.id id f d.audits) :
    paidAudits d' user =
      paidAudits d user +
        (isPaidBy user (f old)).toNat := by
  have hCount :=
    Table.countP_update (f := f) (isPaidBy user)
      hReconciled.keyed hFind
  rw [isPaidBy_eq_false hFree] at hCount
  rw [paidAudits, hAudits, paidAudits]
  simpa using hCount

theorem id_of_find
    {row : AccessibilityAudit}
    (hFind : d.find id = some row) : row.id = id :=
  Table.key_of_find hFind

/- An audit that fails has consumed nothing. -/
theorem reconciled_fail
    {f : AccessibilityAudit → AccessibilityAudit}
    {old : AccessibilityAudit}
    (hReconciled : Reconciled repr d)
    (hFind : d.find id = some old)
    (hFree : old.creditsConsumed = 0)
    (hId : ∀ row, (f row).id = row.id)
    (hStatus : (f old).status = .failed)
    (hConsumed : (f old).creditsConsumed = 0) :
    Reconciled repr (updateAudit id f d) where
  keyed :=
    Table.keyed_update
      (fun row hKey => (hId row).trans hKey)
      hReconciled.keyed
  settled := by
    apply settled_update hReconciled hFind rfl
    · intro id' _
      rfl
    · refine ⟨fun _ => hConsumed, ?_, ?_⟩
      · intro hCompleted
        rw [hStatus] at hCompleted
        cases hCompleted
      · intro hCompleted
        rw [hStatus] at hCompleted
        cases hCompleted
  counted := by
    intro user
    have hPaid :
        paidAudits (updateAudit id f d) user =
          paidAudits d user +
            (isPaidBy user (f old)).toNat :=
      paidAudits_update hReconciled hFind hFree rfl
    rw [hPaid, isPaidBy_eq_false hConsumed]
    exact hReconciled.counted user
  used := hReconciled.used

------------------------------------------------------------
-- The Final Block
------------------------------------------------------------

section Finalized

variable {raw : Json} {parsed : Parsed}
variable {row : CreditBalance}

/- Balances and ledger are those after the payment. -/
theorem usageRows_finalized :
    usageRows
        (finalized repr (newAudit id account url) account url
          raw parsed row d)
        user =
      usageRows (pay url row account d) user := rfl

theorem usedBy_finalized :
    usedBy
        (finalized repr (newAudit id account url) account url
          raw parsed row d)
        user =
      usedBy (pay url row account d) user := rfl

theorem finalized_audits_eq :
    (finalized repr (newAudit id account url) account url raw
        parsed row d).audits =
      Table.update AccessibilityAudit.id id
        (fun _ =>
          completedAudit (newAudit id account url) raw parsed
            (costOf account))
        d.audits := by
  simp [finalized, insertIssues, updateAudit, newAudit]

/- The issues of another audit. -/
theorem issuesOf_finalized_of_ne
    {id' : AuditId}
    (hNe : id' ≠ id) :
    (finalized repr (newAudit id account url) account url raw
        parsed row d).issuesOf id' =
      d.issuesOf id' := by
  have hNone :
      ((issueObjects id parsed).map
          (fun issue => issue.row repr)).filter
          (fun issue => issue.audit = id') =
        [] := by
    rw [List.filter_eq_nil_iff]
    intro issue hMem
    simp only [issueObjects, List.mem_map] at hMem
    rcases hMem with ⟨_, ⟨issue', _, rfl⟩, rfl⟩
    simp [IssueObject.row, issueObject, Ne.symm hNe]
  simp only [Db.issuesOf, finalized, insertIssues,
    updateAudit, pay_issues, List.filter_append]
  rw [show (newAudit id account url).id = id from rfl, hNone,
    List.append_nil]

/- The issues of the audit itself. -/
theorem issuesOf_finalized_self
    (hNone : d.issuesOf id = []) :
    (finalized repr (newAudit id account url) account url raw
        parsed row d).issuesOf id =
      (issueObjects id parsed).map
        (fun issue => issue.row repr) := by
  have hAll :
      ((issueObjects id parsed).map
          (fun issue => issue.row repr)).filter
          (fun issue => issue.audit = id) =
        (issueObjects id parsed).map
          (fun issue => issue.row repr) := by
    rw [List.filter_eq_self]
    intro issue hMem
    simp only [issueObjects, List.mem_map] at hMem
    rcases hMem with ⟨_, ⟨issue', _, rfl⟩, rfl⟩
    simp [IssueObject.row, issueObject]
  rw [Db.issuesOf] at hNone
  simp only [Db.issuesOf, finalized, insertIssues,
    updateAudit, pay_issues, List.filter_append]
  rw [show (newAudit id account url).id = id from rfl, hNone,
    hAll, List.nil_append]

/- The usage row of a charge. -/
theorem usageRows_charge
    {amount : Int}
    {description : String}
    {object : CreditBalance} :
    usageRows
        (enter user' object
          (chargeEntry user' amount description row) d)
        user =
      usageRows d user + if user = user' then 1 else 0 :=
  usageRows_enter
    (show
      (chargeEntry user' amount description row).user =
        user'
      from rfl)

/- One usage row for an account, none without. -/
theorem usageRows_pay
    (id : AuditId)
    (raw : Json)
    (parsed : Parsed) :
    usageRows (pay url row account d) user =
      usageRows d user +
        (isPaidBy user
          (completedAudit (newAudit id account url) raw
            parsed (costOf account))).toNat := by
  cases account with
  | none =>
      simp [pay, isPaidBy, completedAudit, newAudit]
  | some user' =>
      rw [pay, usageRows_charge]
      by_cases hSame : user = user'
      · simp [hSame, isPaidBy, completedAudit, newAudit,
          costOf, auditCreditCost]
      · have hOther : user' ≠ user := Ne.symm hSame
        simp [hSame, hOther, isPaidBy, completedAudit,
          newAudit]

/- One used credit for a usage row. -/
theorem usedBy_pay
    (hPayable : Payable d url row account)
    (hUsed : usedBy d user = usageRows d user) :
    usedBy (pay url row account d) user =
      usageRows (pay url row account d) user := by
  cases account with
  | none => exact hUsed
  | some user' =>
      have hFound :=
        (liveBalance_eq_some.mp hPayable.found).1
      rw [pay, usageRows_charge, usedBy_enter hFound]
      by_cases hSame : user = user'
      · rw [if_pos hSame, if_pos hSame, hUsed]
        simp [charge, auditCreditCost]
      · rw [if_neg hSame, if_neg hSame, hUsed]
        simp

/- The final block pays for the audit that it completes. -/
theorem reconciled_finalized
    (hReconciled : Reconciled repr d)
    (hFind : d.find id = some (newAudit id account url))
    (hNone : d.issuesOf id = [])
    (hParse : parseWave raw = .ok parsed)
    (hPayable : Payable d url row account) :
    Reconciled repr
      (finalized repr (newAudit id account url) account url
        raw parsed row d) where
  keyed := by
    rw [finalized_audits_eq]
    exact
      Table.keyed_update (fun _ _ => rfl) hReconciled.keyed
  settled := by
    apply settled_update hReconciled hFind
      finalized_audits_eq
    · intro id' hNe
      exact issuesOf_finalized_of_ne hNe
    · refine ⟨?_, fun _ => rfl, ?_⟩
      · intro hStatus
        exact absurd rfl hStatus
      · intro _
        exact ⟨parsed, hParse, issuesOf_finalized_self hNone⟩
  counted := by
    intro user
    rw [usageRows_finalized,
      usageRows_pay id raw parsed,
      paidAudits_update hReconciled hFind rfl
        finalized_audits_eq,
      hReconciled.counted user]
  used := by
    intro user
    rw [usageRows_finalized, usedBy_finalized]
    exact usedBy_pay hPayable (hReconciled.used user)

end Finalized

end Changes

end SiteAnalysis.Audits
