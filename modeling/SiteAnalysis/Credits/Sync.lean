import SiteAnalysis.Credits.Ledger
import SiteAnalysis.Credits.Alone

/-
  This file relates the three totals of a balance row.

  The balance exceeds what was purchased and not used by the
  additions that do not count as purchased, so the totals
  agree in every run exactly when no such addition is among
  the calls.

  Key definitions include:
    * `InSync`

  Key theorems include:
    * `drift`
    * `inSync_iff`
    * `balance_in_sync_iff`
-/

------------------------------------------------------------
-- The Drift of the Balance
------------------------------------------------------------

namespace SiteAnalysis.Credits

open Concurrency
open Relational
open Accounting
open Billing

/- `balance = total_purchased - total_used` -/
def InSync
    (user : UserId)
    (d : Db) : Prop :=
  ∀ row, d.balances user = some row →
    row.balance = row.totalPurchased - row.totalUsed

/- Every entry is a purchase, a grant or a charge. -/
theorem total_kinds
    (ledger : List CreditTransaction)
    (hNonzero : ∀ tx ∈ ledger, tx.amount ≠ 0) :
    total CreditTransaction.amount ledger =
      total CreditTransaction.amount
          (ledger.filter isPurchase) +
        total CreditTransaction.amount
            (ledger.filter isCharge) +
          total CreditTransaction.amount
            (ledger.filter isGrant) := by
  induction ledger with
  | nil => rfl
  | cons tx ledger ih =>
      have hTail :=
        ih (fun tx' hMem =>
          hNonzero tx' (List.mem_cons_of_mem _ hMem))
      have hHead := hNonzero tx List.mem_cons_self
      rw [total_cons, hTail]
      by_cases hPositive : 0 < tx.amount
      · have hNot : ¬ tx.amount < 0 := by omega
        by_cases hType : tx.transactionType = .purchase
        · simp [isPurchase, isCharge, isGrant, hPositive,
            hNot, hType]
          omega
        · simp [isPurchase, isCharge, isGrant, hPositive,
            hNot, hType]
          omega
      · have hNegative : tx.amount < 0 := by omega
        simp [isPurchase, isCharge, isGrant, hPositive,
          hNegative]
        omega

/- What keeps the balance from being the difference. -/
theorem drift
    {row : CreditBalance}
    {ledger : List CreditTransaction}
    (hAccounted : Accounted row ledger) :
    row.balance =
      row.totalPurchased - row.totalUsed +
        total CreditTransaction.amount
          (ledger.filter isGrant) := by
  have hKinds := total_kinds ledger hAccounted.nonzero
  have hBalance := hAccounted.balance
  have hPurchased := hAccounted.purchased
  have hUsed := hAccounted.used
  omega

/- The totals agree when no entry is a grant. -/
theorem inSync_iff
    {user : UserId}
    {d : Db}
    (hBooks : Books user d) :
    InSync user d ↔
      ∀ tx ∈ d.ledger user, ¬ isGrant tx = true := by
  rcases hBooks with ⟨row, hRow, hAccounted⟩
  have hDrift := drift hAccounted
  have hZero :
      total CreditTransaction.amount
            ((d.ledger user).filter isGrant) =
          0 ↔
        (d.ledger user).filter isGrant = [] := by
    apply total_eq_zero_iff
    intro tx hMem
    exact (isGrant_iff.mp (List.mem_filter.mp hMem).2).1
  have hSync :
      InSync user d ↔
        row.balance = row.totalPurchased - row.totalUsed := by
    constructor
    · intro hAll
      exact hAll row hRow
    · intro hEq row' hRow'
      rw [hRow] at hRow'
      cases hRow'
      exact hEq
  rw [hSync]
  constructor
  · intro hEq
    have hEmpty := hZero.mp (by omega)
    exact List.filter_eq_nil_iff.mp hEmpty
  · intro hNone
    have hTotal :=
      hZero.mpr (List.filter_eq_nil_iff.mpr hNone)
    omega

------------------------------------------------------------
-- Runs
------------------------------------------------------------

/- An accepted grant on a zero balance goes through. -/
theorem depositable_of_grants
    {user : UserId}
    {d : Db}
    {amount : Int}
    {description : String}
    {transactionType : TransactionType}
    (hZero : Provisioned user d)
    (hGrants :
      (Call.addCredits user amount description
        transactionType).Grants user) :
    Depositable d user amount description transactionType
      .zero := by
  rcases hGrants with
    ⟨_, hType, hPositive, hAmount, hDescription⟩
  have hZeroFits : fitsInteger 0 = true := by decide
  have hTypeFits :
      fitsChar 10 transactionType.value = true := by
    cases transactionType <;> decide
  refine
    ⟨liveBalance_eq_some.mpr ⟨hZero.balance, rfl⟩,
      hPositive, ?_, ?_⟩
  · simp [CreditBalance.check, deposit, CreditBalance.zero,
      hType, hZeroFits, hAmount, hPositive.le]
  · simp [CreditTransaction.check, depositEntry,
      CreditBalance.zero, hAmount, hTypeFits, hDescription]

/- A grant, run alone, enters the ledger. -/
theorem grant_reaches
    (repr : Python.Json → String)
    {user : UserId}
    {d : Db}
    {calls : Tid → Call}
    {t : Tid}
    (hZero : Provisioned user d)
    (hGrants : (calls t).Grants user) :
    ∃ w : CreditWorld,
      (backend repr).machine.Reaches Machine.anyEvent
          (start calls d) w ∧
        ∃ tx ∈ w.shared.committed.ledger user,
          isGrant tx = true := by
  cases hCall : calls t with
  | deductCredit user' amount description =>
      rw [hCall] at hGrants
      exact False.elim hGrants
  | addCredits user' amount description transactionType =>
      rw [hCall] at hGrants
      have hSame : user' = user := hGrants.1
      subst hSame
      have hInside : Inside (fun _ => none) :=
        fun _ _ hNone => by cases hNone
      have hReady :
          (Store.quiet d : Store Db UserId).Ready t d [] :=
        Store.ready_quiet
      have hEnds :=
        ends_addCredits repr hInside hReady
          (depositable_of_grants hZero hGrants)
      rcases Prog.run_of_ends hEnds with
        ⟨tx, s, hRun, hReady'⟩ | ⟨_, _, _, hFalse⟩
      · refine
          ⟨_,
            Machine.reaches_of_run
              (w := start calls d) (t := t)
              (M := (backend repr).machine)
              (p := (calls t).program) (s := s)
              (r := .ok tx) (undisturbed (fun _ => none)) rfl
              (by
                rw [hCall]
                exact hRun),
            depositEntry user' amount description
              transactionType .zero, ?_, ?_⟩
        · have hUser :
              (depositEntry user' amount description
                transactionType .zero).user = user' := rfl
          rw [World.put_shared, hReady'.at'.committed,
            enter_ledger_self hUser]
          exact
            List.mem_append_right _ List.mem_cons_self
        · exact
            isGrant_iff.mpr ⟨hGrants.2.2.1, hGrants.2.1⟩
      · exact False.elim hFalse

/-
  The totals agree in every committed state of every run if
  and only if no call among them grants unpurchased credits.
-/
theorem balance_in_sync_iff
    {repr : Python.Json → String}
    {user : UserId}
    {d : Db}
    (calls : Tid → Call)
    (hZero : Provisioned user d) :
    (∀ w : CreditWorld,
      (backend repr).machine.Reaches Machine.anyEvent
          (start calls d) w →
        InSync user w.shared.committed) ↔
      ∀ t, ¬ (calls t).Grants user := by
  constructor
  · intro hSync t hGrants
    rcases grant_reaches repr hZero hGrants with
      ⟨w, hReach, tx, hMem, hGrant⟩
    have hKept := kept_of_reaches hZero hReach
    exact
      (inSync_iff hKept.books).mp (hSync w hReach) tx hMem
        hGrant
  · intro hNone w hReach
    have hKept := kept_of_reaches hZero hReach
    rw [inSync_iff hKept.books]
    intro tx hMem hGrant
    rcases hKept.origin tx hMem hGrant with ⟨t, hGrants⟩
    exact hNone t hGrants

/- The runs of refunds of one credit. -/
theorem balance_in_sync_iff_refund :
    (∀ w : CreditWorld,
      (backend (fun _ => "")).machine.Reaches
          Machine.anyEvent
          (start (fun _ => .addCredits 0 1 "" .refund)
            signup)
          w →
        InSync 0 w.shared.committed) ↔
      ∀ _ : Tid,
        ¬ (Call.addCredits 0 1 "" .refund).Grants 0 :=
  balance_in_sync_iff _ (provisioned_signup 0)

/- One refund puts the totals out of step. -/
theorem refund_out_of_sync :
    ∃ w : CreditWorld,
      (backend (fun _ => "")).machine.Reaches
          Machine.anyEvent
          (start (fun _ => .addCredits 0 1 "" .refund)
            signup)
          w ∧
        ¬ InSync 0 w.shared.committed := by
  refine
    ⟨_,
      Machine.reaches_of_replay
        (List.replicate 5 (.step 0 .proceed)) rfl, ?_⟩
  intro hSync
  have hEq := hSync (deposit 1 .refund .zero) rfl
  exact absurd hEq (by decide)

end SiteAnalysis.Credits
