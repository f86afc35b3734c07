import SiteAnalysis.Credits.Accounting
import SiteAnalysis.Relational.Solo

/-
  This file specifies the credit services on a connection
  that nothing disturbs: exactly when they return, and what
  they leave.

  Key definitions include:
    * `Chargeable`
    * `Depositable`

  Key theorems include:
    * `ends_deductCreditBody`
    * `ends_addCreditsBody`
    * `ends_addCredits`
    * `ends_addCredits_refused`
-/

------------------------------------------------------------
-- Accepted Entries
------------------------------------------------------------

namespace SiteAnalysis.Credits

open Concurrency
open Relational
open Python
open Billing

/- The deduction goes through on the data `d`. -/
structure Chargeable
    (d : Db)
    (user : UserId)
    (amount : Int)
    (description : String)
    (row : CreditBalance) : Prop where
  found : liveBalance d user = some row
  positive : 0 < amount
  covered : amount ≤ row.balance
  object : (charge amount row).check = .ok ()
  tx :
    (chargeEntry user amount description row).check = .ok ()

/- The addition goes through on the data `d`. -/
structure Depositable
    (d : Db)
    (user : UserId)
    (amount : Int)
    (description : String)
    (transactionType : TransactionType)
    (row : CreditBalance) : Prop where
  found : liveBalance d user = some row
  positive : 0 < amount
  object :
    (deposit amount transactionType row).check = .ok ()
  tx :
    (depositEntry user amount description transactionType
      row).check = .ok ()

section Runs

variable {repr : Python.Json → String} {t : Tid}
variable {answers : Statement → Option Python.HttpOutcome}
variable {d : Db} {ps : List (Db → Db)}
variable {s : Store Db UserId} {user : UserId}

/- Only the HTTP call is answered from outside. -/
def Inside
    (answers : Statement → Option Python.HttpOutcome) :
    Prop :=
  ∀ q r, answers q = some r → ∃ u ps n, q = .httpGet u ps n

theorem Inside.none
    (hInside : Inside answers)
    {q : Statement}
    (hQuery : ∀ u ps n, q ≠ .httpGet u ps n) :
    answers q = none := by
  cases hAnswer : answers q with
  | none => rfl
  | some r =>
      rcases hInside q r hAnswer with ⟨u, ps, n, hEq⟩
      exact absurd hEq (hQuery u ps n)

/- The pending writes of a connection that only read. -/
abbrev viewOf
    (ps : List (Db → Db))
    (d : Db) : Db :=
  ps.foldr (fun p d => p d) d

/- The two writes of an entry. -/
theorem ends_enter
    {row object : CreditBalance}
    {fields : List BalanceField}
    {tx : CreditTransaction}
    {Q : CreditTransaction → Store Db UserId → Prop}
    {E : Exc → Store Db UserId → Prop}
    (hInside : Inside answers)
    (hReady : s.Ready t d (id :: ps))
    (hFound : (viewOf ps d).balances user = some row)
    (hAssign : object.assign fields row = object)
    (hDone :
      object.check = .ok () → tx.check = .ok () →
        ∀ s' : Store Db UserId,
          s'.Ready t d (enter user object tx :: ps) →
            Q tx s')
    (hRefuse :
      (object.check ≠ .ok () ∨ tx.check ≠ .ok ()) →
        ∀ (e : Exc) (p : Db → Db) (s' : Store Db UserId),
          Printable e → s'.At t d (p :: ps) → E e s') :
    Prog.Ends ((backend repr).alone t answers)
      (do
        query (.saveBalance user object fields)
        query (.createTransaction tx)
        pure tx)
      Q E s := by
  apply Prog.ends_bind
  have hSave :
      (backend repr).plan
          (.saveBalance user object fields)
          (viewOf (id :: ps) d) =
        checked object.check (some user)
          (setBalance user object) := by
    have hFound' :
        (viewOf (id :: ps) d).balances user = some row :=
      hFound
    simp only [backend, plan, hFound', hAssign]
  cases hCheck : object.check with
  | error e =>
      rw [hCheck] at hSave
      apply Backend.ends_refuse hReady
        (hInside.none (by simp)) hSave
      intro s' hAt
      exact
        hRefuse (Or.inl (by simp [hCheck])) e id s'
          (object.clean_check e hCheck) hAt
  | ok u =>
      rw [hCheck] at hSave
      apply Backend.ends_done hReady
        (hInside.none (by simp)) hSave
      intro s₁ hReady₁
      apply Prog.ends_bind
      cases hTx : tx.check with
      | error e =>
          have hCreate :
              (backend repr).plan (.createTransaction tx)
                  (viewOf
                    (setBalance user object ∘ id :: ps) d) =
                .refuse e := by
            simp only [backend, plan, hTx, checked]
          apply Backend.ends_refuse hReady₁
            (hInside.none (by simp)) hCreate
          intro s' hAt
          exact
            hRefuse (Or.inr (by simp [hTx])) e _ s'
              (tx.clean_check e hTx) hAt
      | ok u' =>
          have hCreate :
              (backend repr).plan (.createTransaction tx)
                  (viewOf
                    (setBalance user object ∘ id :: ps) d) =
                .done () none (insertTransaction tx) := by
            simp only [backend, plan, hTx, checked]
          apply Backend.ends_done hReady₁
            (hInside.none (by simp)) hCreate
          intro s' hReady'
          exact hDone hCheck hTx s' hReady'

theorem printable_insufficientCredits
    (required balance : Int) :
    Printable (insufficientCredits required balance) := by
  have hText :
      noNul
          "You do not have enough credits for this operation." =
        true := by decide
  simpa [Printable, insufficientCredits, ErrorKind.error,
    Exc.str, ErrorKind.defaultMessage] using hText

theorem ends_deductCreditBody
    {amount : Int}
    {description : String}
    (hInside : Inside answers)
    (hReady : s.Ready t d (id :: ps)) :
    (deductCreditBody user amount description).Ends
      ((backend repr).alone t answers)
      (fun tx s' =>
        ∃ row,
          Chargeable (viewOf ps d) user amount description
              row ∧
            tx = chargeEntry user amount description row ∧
              s'.Ready t d
                (enter user (charge amount row) tx :: ps))
      (fun e s' =>
        Printable e ∧ (∃ p, s'.At t d (p :: ps)) ∧
          ∀ row,
            ¬ Chargeable (viewOf ps d) user amount
              description row)
      s := by
  unfold deductCreditBody
  by_cases hAmount : amount ≤ 0
  · rw [if_pos hAmount]
    refine
      ⟨by unfold Printable; decide, ⟨id, hReady.at'⟩, ?_⟩
    intro row hChargeable
    have hPositive := hChargeable.positive
    omega
  · rw [if_neg hAmount]
    apply Prog.ends_bind
    cases hLive : liveBalance (viewOf ps d) user with
    | none =>
        have hPlan :
            (backend repr).plan (.lockBalance user)
                (viewOf (id :: ps) d) =
              .miss (.doesNotExist "CreditBalance") := by
          have hLive' :
              liveBalance (viewOf (id :: ps) d) user = none :=
            hLive
          simp only [backend, plan, hLive']
        apply Backend.ends_miss hReady
          (hInside.none (by simp)) hPlan
        intro s' hReady'
        refine
          ⟨by unfold Printable; decide, ⟨id, hReady'.at'⟩,
            ?_⟩
        intro row hChargeable
        have hFound := hChargeable.found
        rw [hLive] at hFound
        cases hFound
    | some row =>
        have hPlan :
            (backend repr).plan (.lockBalance user)
                (viewOf (id :: ps) d) =
              .done row (some user) id := by
          have hLive' :
              liveBalance (viewOf (id :: ps) d) user =
                some row := hLive
          simp only [backend, plan, hLive']
        have hUnique :
            ∀ row',
              Chargeable (viewOf ps d) user amount
                  description row' →
                row' = row := by
          intro row' hChargeable
          have hFound := hChargeable.found
          rw [hLive] at hFound
          exact (Option.some.inj hFound).symm
        apply Backend.ends_done hReady
          (hInside.none (by simp)) hPlan
        intro s₁ hReady₁
        by_cases hShort : row.balance < amount
        · rw [if_pos hShort]
          refine
            ⟨printable_insufficientCredits _ _,
              ⟨id, hReady₁.at'⟩, ?_⟩
          intro row' hChargeable
          have hCovered := hChargeable.covered
          rw [hUnique row' hChargeable] at hCovered
          omega
        · rw [if_neg hShort]
          apply ends_enter hInside hReady₁
            (liveBalance_eq_some.mp hLive).1
            (charge_assign amount row)
          · intro hObject hTx s' hReady'
            exact
              ⟨row,
                ⟨hLive, by omega, by omega, hObject, hTx⟩,
                rfl, hReady'⟩
          · intro hRefused e p s' hPrintable hAt
            refine ⟨hPrintable, ⟨p, hAt⟩, ?_⟩
            intro row' hChargeable
            have hSame := hUnique row' hChargeable
            subst hSame
            rcases hRefused with hObject | hTx
            · exact hObject hChargeable.object
            · exact hTx hChargeable.tx

theorem ends_addCreditsBody
    {amount : Int}
    {description : String}
    {transactionType : TransactionType}
    {row : CreditBalance}
    (hInside : Inside answers)
    (hReady : s.Ready t d (id :: ps))
    (hDepositable :
      Depositable (viewOf ps d) user amount description
        transactionType row) :
    (addCreditsBody user amount description
        transactionType).Ends
      ((backend repr).alone t answers)
      (fun _ s' =>
        s'.Ready t d
          (enter user (deposit amount transactionType row)
              (depositEntry user amount description
                transactionType row) ::
            ps))
      (fun _ _ => False) s := by
  have hPositive := hDepositable.positive
  have hLive := hDepositable.found
  have hPlan :
      (backend repr).plan (.lockBalance user)
          (viewOf (id :: ps) d) =
        .done row (some user) id := by
    have hLive' :
        liveBalance (viewOf (id :: ps) d) user = some row :=
      hLive
    simp only [backend, plan, hLive']
  unfold addCreditsBody
  rw [if_neg (by omega)]
  apply Prog.ends_bind
  apply Backend.ends_done hReady (hInside.none (by simp))
    hPlan
  intro s₁ hReady₁
  apply ends_enter hInside hReady₁
    (liveBalance_eq_some.mp hLive).1
    (deposit_assign amount transactionType row)
  · intro _ _ s' hReady'
    exact hReady'
  · intro hRefused
    rcases hRefused with hObject | hTx
    · exact absurd hDepositable.object hObject
    · exact absurd hDepositable.tx hTx

/- An accepted addition is committed. -/
theorem ends_addCredits
    (repr : Python.Json → String)
    {amount : Int}
    {description : String}
    {transactionType : TransactionType}
    {row : CreditBalance}
    (hInside : Inside answers)
    (hReady : s.Ready t d [])
    (hDepositable :
      Depositable d user amount description
        transactionType row) :
    (addCredits user amount description
        transactionType).Ends
      ((backend repr).alone t answers)
      (fun _ s' =>
        s'.Ready t
          (enter user (deposit amount transactionType row)
            (depositEntry user amount description
              transactionType row) d)
          [])
      (fun _ _ => False) s := by
  apply Backend.ends_atomic hReady
  intro s' hReady'
  apply Prog.ends_mono
    (ends_addCreditsBody hInside hReady' hDepositable)
  · intro tx s₁ hReady₁
    exact ⟨_, hReady₁, fun s₂ hReady₂ => hReady₂⟩
  · intro e s₁ hFalse
    exact False.elim hFalse

/- An addition whose balance does not fit leaves nothing. -/
theorem ends_addCredits_refused
    (repr : Python.Json → String)
    {amount : Int}
    {description : String}
    {transactionType : TransactionType}
    {row : CreditBalance}
    {e : Exc}
    (hInside : Inside answers)
    (hReady : s.Ready t d [])
    (hFound : liveBalance d user = some row)
    (hPositive : 0 < amount)
    (hRefused :
      (deposit amount transactionType row).check =
        .error e) :
    (addCredits user amount description
        transactionType).Ends
      ((backend repr).alone t answers) (fun _ _ => False)
      (fun e' s' => e' = e ∧ s'.Ready t d []) s := by
  have hLock :
      (backend repr).plan (.lockBalance user) d =
        .done row (some user) id := by
    simp only [backend, plan, hFound]
  have hSave :
      (backend repr).plan
          (.saveBalance user
            (deposit amount transactionType row)
            [.totalPurchased, .balance])
          d =
        .refuse e := by
    simp only [backend, plan,
      (liveBalance_eq_some.mp hFound).1, deposit_assign,
      hRefused, checked]
  apply Backend.ends_atomic hReady
  intro s₁ hReady₁
  unfold addCreditsBody
  rw [if_neg (by omega)]
  apply Prog.ends_bind
  apply Backend.ends_done hReady₁ (hInside.none (by simp))
    hLock
  intro s₂ hReady₂
  apply Prog.ends_bind
  apply Backend.ends_refuse hReady₂ (hInside.none (by simp))
    hSave
  intro s₃ hAt₃
  exact ⟨_, hAt₃, fun s₄ hReady₄ => ⟨rfl, hReady₄⟩⟩

end Runs

end SiteAnalysis.Credits
