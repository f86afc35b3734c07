import Mathlib.Data.List.Induction
import SiteAnalysis.Audits.Runs
import SiteAnalysis.Credits.Ledger

/-
  This file proves when the purchases of a user fit the
  columns of the balance, over every sequence of purchases
  and audits.

  The serializer bounds each amount, but what the user has
  purchased in total only grows: as long as no purchase is
  refused it is the sum of all the amounts.

  Key definitions include:
    * `PurchaseInput`
    * `purchase`
    * `Execution`
    * `Standing`

  Key theorems include:
    * `keeps_standing`
    * `ends_purchase`
    * `standing_of_execution`
    * `purchases_fit_iff`
    * `purchase_refused`
-/

------------------------------------------------------------
-- Purchases
------------------------------------------------------------

namespace SiteAnalysis.Audits

open Concurrency
open Relational
open Python
open Billing
open Credits

/- The data that `PurchaseInputSerializer` lets through. -/
structure PurchaseInput where
  amount : Int
  description : Option String
  minValue : 1 ≤ amount
  maxValue : amount ≤ 1000000
  maxLength :
    ∀ text, description = some text →
      fitsChar 255 text = true

/- `validated_data.get("description", "") or ...` -/
def PurchaseInput.text (input : PurchaseInput) : String :=
  orDefault (input.description.getD "") "Credit purchase"

/- The `post` of `CreditPurchaseView`. -/
def purchase
    (user : UserId)
    (input : PurchaseInput) : Service CreditBalance := do
  let _ ←
    addCredits user input.amount input.text .purchase
  getOrCreateBalance user

/- What the database says of a number that does not fit. -/
def outOfRange : Exc :=
  .database .dataError "integer out of range"

/-
  The user has made the purchases, one after the other and
  with these results, and audits have run in between.
-/
inductive Execution
    (settings : WaveSettings)
    (repr : Json → String)
    (user : UserId)
    (d₀ : Db) :
    List PurchaseInput → List (Except Exc CreditBalance) →
      Db → Prop
  | start : Execution settings repr user d₀ [] [] d₀
  | purchase
      {inputs : List PurchaseInput}
      {results : List (Except Exc CreditBalance)}
      {d : Db}
      {t : Tid}
      {result : Except Exc CreditBalance}
      {s : Store Db UserId}
      (execution :
        Execution settings repr user d₀ inputs results d)
      (input : PurchaseInput)
      (run :
        (purchase user input).run
            ((backend repr).alone t (fun _ => none))
            (Store.quiet d) =
          some (result, s)) :
      Execution settings repr user d₀ (inputs ++ [input])
        (results ++ [result]) s.committed
  | audits
      {inputs : List PurchaseInput}
      {results : List (Except Exc CreditBalance)}
      {d d' : Db}
      (execution :
        Execution settings repr user d₀ inputs results d)
      (audited : Audited settings repr d d') :
      Execution settings repr user d₀ inputs results d'

/- The sum of the amounts. -/
def spent (inputs : List PurchaseInput) : Int :=
  (inputs.map PurchaseInput.amount).sum

/- Every number that is stored for the user fits its column. -/
structure Fitting
    (user : UserId)
    (d : Db) : Prop where
  row :
    ∀ row, d.balances user = some row →
      fitsInteger row.balance = true ∧
        fitsInteger row.totalPurchased = true ∧
          fitsInteger row.totalUsed = true
  ledger :
    ∀ tx ∈ d.ledger user,
      fitsInteger tx.amount = true ∧
        fitsInteger tx.balanceAfter = true

------------------------------------------------------------
-- The Standing of a User
------------------------------------------------------------

/- The balance row of a user who has purchased so much. -/
structure InOrder
    (total : Int)
    (row : CreditBalance) : Prop where
  live : row.isDeleted = false
  purchased : row.totalPurchased = total
  used : 0 ≤ row.totalUsed
  balance : row.balance = total - row.totalUsed
  check : row.check = .ok ()

structure Standing
    (user : UserId)
    (total : Int)
    (d : Db) : Prop where
  row :
    ∃ row, d.balances user = some row ∧ InOrder total row
  ledger : ∀ tx ∈ d.ledger user, tx.check = .ok ()

section Standings

variable {settings : WaveSettings} {repr : Json → String}
variable {user user' : UserId} {purchased purchased' : Int}
variable {row object : CreditBalance}
variable {tx : CreditTransaction} {d d₀ : Db}
variable {t : Tid} {s : Store Db UserId}
variable {input : PurchaseInput}
variable {inputs : List PurchaseInput}
variable {results : List (Except Exc CreditBalance)}

/- What the database has accepted as a balance. -/
theorem accepted_balance
    (hCheck : row.check = .ok ()) :
    fitsInteger row.totalPurchased = true ∧
      fitsInteger row.totalUsed = true ∧
        fitsInteger row.balance = true ∧ 0 ≤ row.balance := by
  simpa [CreditBalance.check] using hCheck

theorem accepted_transaction
    (hCheck : tx.check = .ok ()) :
    fitsInteger tx.amount = true ∧
      fitsInteger tx.balanceAfter = true := by
  simp only [CreditTransaction.check, check_bind_eq_ok,
    integerColumn_eq_ok, charColumn_eq_ok] at hCheck
  exact ⟨hCheck.1, hCheck.2.2.2⟩

theorem Standing.fitting
    (hStanding : Standing user purchased d) :
    Fitting user d where
  row := by
    intro row hRow
    rcases hStanding.row with ⟨row', hRow', hOrder⟩
    rw [hRow] at hRow'
    cases hRow'
    have hAccepted := accepted_balance hOrder.check
    exact ⟨hAccepted.2.2.1, hAccepted.1, hAccepted.2.1⟩
  ledger := fun tx hMem =>
    accepted_transaction (hStanding.ledger tx hMem)

theorem standing_of_provisioned
    (hZero : Provisioned user d) :
    Standing user 0 d where
  row := by
    refine ⟨.zero, hZero.balance, ?_⟩
    exact ⟨rfl, rfl, le_refl 0, rfl, rfl⟩
  ledger := by
    intro tx hMem
    rw [hZero.ledger] at hMem
    cases hMem

/- An entry for the user. -/
theorem standing_enter_self
    (hStanding : Standing user purchased d)
    (hUser : tx.user = user)
    (hOrder : InOrder purchased' object)
    (hTx : tx.check = .ok ()) :
    Standing user purchased' (enter user object tx d) where
  row := ⟨object, enter_balances_self, hOrder⟩
  ledger := by
    intro tx' hMem
    rw [enter_ledger_self hUser] at hMem
    rcases List.mem_append.mp hMem with hOld | hNew
    · exact hStanding.ledger tx' hOld
    · rw [List.mem_singleton.mp hNew]
      exact hTx

/- An entry for another user. -/
theorem standing_enter_of_ne
    (hStanding : Standing user purchased d)
    (hUser : tx.user = user')
    (hNe : user ≠ user') :
    Standing user purchased (enter user' object tx d) where
  row := by
    rw [enter_balances_of_ne hNe]
    exact hStanding.row
  ledger := by
    rw [enter_ledger_of_ne hUser hNe]
    exact hStanding.ledger

/- A deduction does not change what was purchased. -/
theorem inOrder_charge
    {amount : Int}
    (hOrder : InOrder purchased row)
    (hPositive : 0 < amount)
    (hCheck : (charge amount row).check = .ok ()) :
    InOrder purchased (charge amount row) where
  live := hOrder.live
  purchased := hOrder.purchased
  used := by
    have hUsed := hOrder.used
    simp only [charge]
    omega
  balance := by
    have hBalance := hOrder.balance
    simp only [charge]
    omega
  check := hCheck

theorem standing_pay
    {account : Option UserId}
    {url : String}
    (hStanding : Standing user purchased d)
    (hPayable : Payable d url row account) :
    Standing user purchased (pay url row account d) := by
  cases account with
  | none => exact hStanding
  | some user' =>
      by_cases hSame : user = user'
      · subst hSame
        rcases hStanding.row with ⟨row', hRow', hOrder⟩
        have hFound :=
          (liveBalance_eq_some.mp hPayable.found).1
        rw [hFound] at hRow'
        cases hRow'
        exact
          standing_enter_self hStanding rfl
            (inOrder_charge hOrder hPayable.positive
              hPayable.object)
            hPayable.tx
      · exact standing_enter_of_ne hStanding rfl hSame

/- Audits do not change what the user has purchased. -/
theorem keeps_standing
    (repr : Json → String)
    (user : UserId)
    (purchased : Int) :
    Keeps repr (Standing user purchased) where
  createBalance := by
    intro d user' hStanding hNone
    refine ⟨?_, hStanding.ledger⟩
    rcases hStanding.row with ⟨row, hRow, hOrder⟩
    have hNe : user ≠ user' := by
      rintro rfl
      rw [hRow] at hNone
      cases hNone
    refine ⟨row, ?_, hOrder⟩
    simp [setBalance, hNe, hRow]
  insertAudit := fun _ _ _ _ hStanding _ =>
    ⟨hStanding.row, hStanding.ledger⟩
  fail := fun _ _ _ _ _ hStanding _ _ _ _ _ =>
    ⟨hStanding.row, hStanding.ledger⟩
  finalized := by
    intro d id account url raw parsed row hStanding _ _ _
      hPayable
    have hPaid := standing_pay hStanding hPayable
    exact ⟨hPaid.row, hPaid.ledger⟩

------------------------------------------------------------
-- One Purchase
------------------------------------------------------------

theorem PurchaseInput.fits_text
    (input : PurchaseInput) :
    fitsChar 255 input.text = true := by
  have hDefault :
      fitsChar 255 "Credit purchase" = true := by decide
  rw [PurchaseInput.text, orDefault]
  split
  · exact hDefault
  · cases hText : input.description with
    | none => exact (by decide : fitsChar 255 "" = true)
    | some text => exact input.maxLength text hText

/- The row after a purchase is accepted if its total fits. -/
theorem check_deposit
    (hOrder : InOrder purchased row)
    (hFits : purchased + input.amount ≤ 2147483647) :
    (deposit input.amount .purchase row).check =
      .ok () := by
  have hAccepted := accepted_balance hOrder.check
  have hMin := input.minValue
  have hPurchased := hOrder.purchased
  have hBalance := hOrder.balance
  have hUsed := hOrder.used
  simp only [fitsInteger, decide_eq_true_eq] at hAccepted
  simp [CreditBalance.check, deposit, fitsInteger]
  omega

theorem check_depositEntry
    (hOrder : InOrder purchased row)
    (hFits : purchased + input.amount ≤ 2147483647) :
    (depositEntry user input.amount input.text .purchase
      row).check = .ok () := by
  have hAccepted := accepted_balance hOrder.check
  have hMin := input.minValue
  have hMax := input.maxValue
  have hBalance := hOrder.balance
  have hUsed := hOrder.used
  have hType : fitsChar 10 "purchase" = true := by decide
  have hText :
      fitsChar 255
          (orDefault input.text "Credit purchase") =
        true := by
    rw [orDefault]
    split
    · decide
    · exact input.fits_text
  simp only [CreditTransaction.check, depositEntry,
    TransactionType.value, check_bind_eq_ok,
    integerColumn_eq_ok, charColumn_eq_ok]
  refine ⟨?_, hType, hText, ?_⟩
  · simp only [fitsInteger, decide_eq_true_eq]
    omega
  · simp only [fitsInteger, decide_eq_true_eq]
    omega

/- A total that does not fit is refused as such. -/
theorem check_deposit_of_lt
    (hOrder : InOrder purchased row)
    (hOver : 2147483647 < purchased + input.amount) :
    (deposit input.amount .purchase row).check =
      .error outOfRange := by
  have hNot :
      fitsInteger (row.totalPurchased + input.amount) =
        false := by
    rw [hOrder.purchased, fitsInteger,
      decide_eq_false_iff_not]
    omega
  simp [CreditBalance.check, deposit, integerColumn, hNot,
    require, outOfRange, bind, Except.bind]

/-
  A purchase is entered if what was purchased fits with it;
  otherwise the database refuses it and nothing changes.
-/
theorem ends_purchase
    (repr : Json → String)
    (input : PurchaseInput)
    (hReady : s.Ready t d [])
    (hStanding : Standing user purchased d) :
    (purchase user input).Ends
      ((backend repr).alone t (fun _ => none))
      (fun _ s' =>
        purchased + input.amount ≤ 2147483647 ∧
          Standing user (purchased + input.amount)
            s'.committed)
      (fun e s' =>
        2147483647 < purchased + input.amount ∧
          e = outOfRange ∧ s'.committed = d)
      s := by
  have hInside : Inside (fun _ => none) :=
    fun _ _ hNone => by cases hNone
  rcases hStanding.row with ⟨row, hRow, hOrder⟩
  have hPositive : 0 < input.amount := by
    have hMin := input.minValue
    omega
  have hFound : liveBalance d user = some row :=
    liveBalance_eq_some.mpr ⟨hRow, hOrder.live⟩
  apply Prog.ends_bind
  by_cases hFits :
      purchased + input.amount ≤ 2147483647
  · have hCheck := check_deposit hOrder hFits
    have hTx :
        (depositEntry user input.amount input.text .purchase
          row).check = .ok () :=
      check_depositEntry hOrder hFits
    have hOrder' :
        InOrder (purchased + input.amount)
          (deposit input.amount .purchase row) := by
      refine ⟨hOrder.live, ?_, hOrder.used, ?_, hCheck⟩
      · simp [deposit, hOrder.purchased]
      · have hBalance := hOrder.balance
        simp only [deposit]
        omega
    apply Prog.ends_mono
      (ends_addCredits repr hInside hReady
        ⟨hFound, hPositive, hCheck, hTx⟩)
    · intro tx s₁ hReady₁
      have hPlan :
          (backend repr).plan (.getBalance user)
              (enter user
                (deposit input.amount .purchase row)
                (depositEntry user input.amount input.text
                  .purchase row)
                d) =
            .done (deposit input.amount .purchase row) none
              id := by
        have hLive :
            liveBalance
                (enter user
                  (deposit input.amount .purchase row)
                  (depositEntry user input.amount input.text
                    .purchase row)
                  d)
                user =
              some (deposit input.amount .purchase row) :=
          liveBalance_eq_some.mpr
            ⟨enter_balances_self, hOrder'.live⟩
        simp only [backend, plan, hLive, Verdict.read]
      apply Prog.ends_handle
      apply Backend.ends_done hReady₁ rfl hPlan
      intro s₂ hReady₂
      refine ⟨hFits, ?_⟩
      rw [hReady₂.at'.committed]
      exact standing_enter_self hStanding rfl hOrder' hTx
    · intro e s₁ hFalse
      exact False.elim hFalse
  · have hOver : 2147483647 < purchased + input.amount := by
      omega
    apply Prog.ends_mono
      (ends_addCredits_refused repr hInside hReady hFound
        hPositive (check_deposit_of_lt hOrder hOver))
    · intro tx s₁ hFalse
      exact False.elim hFalse
    · rintro e s₁ ⟨rfl, hReady₁⟩
      exact ⟨hOver, rfl, hReady₁.at'.committed⟩

------------------------------------------------------------
-- Sequences of Purchases
------------------------------------------------------------

theorem spent_append :
    spent (inputs ++ [input]) =
      spent inputs + input.amount := by
  simp [spent]

theorem spent_replicate
    (n : Nat)
    (input : PurchaseInput) :
    spent (List.replicate n input) = n * input.amount := by
  simp [spent]

/-
  What a user has purchased after a sequence: all of it, as
  long as no purchase was refused, and a purchase is refused
  only when all of it would not fit.
-/
structure Purchased
    (user : UserId)
    (inputs : List PurchaseInput)
    (results : List (Except Exc CreditBalance))
    (total : Int)
    (d : Db) : Prop where
  standing : Standing user total d
  le : total ≤ spent inputs
  whole :
    .error outOfRange ∉ results → total = spent inputs
  excess :
    .error outOfRange ∈ results →
      2147483647 < spent inputs

theorem purchased_of_provisioned
    (hZero : Provisioned user d) :
    Purchased user [] [] 0 d where
  standing := standing_of_provisioned hZero
  le := le_refl 0
  whole := fun _ => rfl
  excess := fun hMem => by cases hMem

/- The result of one more purchase. -/
theorem purchased_purchase
    {total : Int}
    {result : Except Exc CreditBalance}
    (hPurchased : Purchased user inputs results total d)
    (hRun :
      (purchase user input).run
          ((backend repr).alone t (fun _ => none))
          (Store.quiet d) =
        some (result, s)) :
    ∃ total',
      Purchased user (inputs ++ [input])
        (results ++ [result]) total' s.committed := by
  have hMin := input.minValue
  have hLe := hPurchased.le
  have hEnds :=
    ends_purchase (t := t) repr input Store.ready_quiet
      hPurchased.standing
  rcases Prog.run_of_ends hEnds with
    ⟨row, s', hRun', hFits, hStanding⟩ |
      ⟨e, s', hRun', hOver, hError, hSame⟩
  · rw [hRun] at hRun'
    cases hRun'
    refine ⟨total + input.amount, hStanding, ?_, ?_, ?_⟩
    · rw [spent_append]
      omega
    · intro hNone
      rw [spent_append, hPurchased.whole]
      intro hMem
      exact hNone (List.mem_append_left _ hMem)
    · intro hMem
      rcases List.mem_append.mp hMem with hOld | hNew
      · have hOver := hPurchased.excess hOld
        rw [spent_append]
        omega
      · cases List.mem_singleton.mp hNew
  · rw [hRun] at hRun'
    cases hRun'
    rw [hSame, hError]
    refine ⟨total, hPurchased.standing, ?_, ?_, ?_⟩
    · rw [spent_append]
      omega
    · intro hNone
      exact
        absurd
          (List.mem_append_right _ List.mem_cons_self) hNone
    · intro _
      rw [spent_append]
      omega

theorem purchased_of_execution
    (hZero : Provisioned user d₀)
    (hExecution :
      Execution settings repr user d₀ inputs results d) :
    ∃ total, Purchased user inputs results total d := by
  induction hExecution with
  | start => exact ⟨0, purchased_of_provisioned hZero⟩
  | purchase _ input hRun ih =>
      rcases ih with ⟨total, hPurchased⟩
      exact purchased_purchase hPurchased hRun
  | audits _ hAudited ih =>
      rcases ih with ⟨total, hPurchased⟩
      refine ⟨total, ?_, hPurchased.le, hPurchased.whole,
        hPurchased.excess⟩
      exact
        kept_of_audited (keeps_standing repr user total)
          hPurchased.standing hAudited

/- If nothing was refused the sum of the amounts fits. -/
theorem spent_le_of_unrefused
    (hZero : Provisioned user d₀)
    (hExecution :
      Execution settings repr user d₀ inputs results d)
    (hNone : .error outOfRange ∉ results) :
    spent inputs ≤ 2147483647 := by
  rcases purchased_of_execution hZero hExecution with
    ⟨total, hPurchased⟩
  rcases hPurchased.standing.row with ⟨row, _, hOrder⟩
  have hAccepted := accepted_balance hOrder.check
  simp only [fitsInteger, decide_eq_true_eq] at hAccepted
  rw [← hPurchased.whole hNone, ← hOrder.purchased]
  exact hAccepted.1.2

/-
  After every sequence of purchases and audits, all that is
  stored for the user fits and no purchase was refused for
  its range, if and only if the amounts together fit.
-/
theorem purchases_fit_iff
    (hZero : Provisioned user d₀)
    (hExecution :
      Execution settings repr user d₀ inputs results d) :
    (Fitting user d ∧ .error outOfRange ∉ results) ↔
      (inputs.map PurchaseInput.amount).sum ≤
        2147483647 := by
  constructor
  · rintro ⟨_, hNone⟩
    exact spent_le_of_unrefused hZero hExecution hNone
  · intro hLe
    rcases purchased_of_execution hZero hExecution with
      ⟨total, hPurchased⟩
    refine ⟨hPurchased.standing.fitting, ?_⟩
    intro hMem
    have hOver := hPurchased.excess hMem
    rw [spent] at hOver
    omega

------------------------------------------------------------
-- Too Many Purchases
------------------------------------------------------------

/- Any purchases can be made one after the other. -/
theorem execution_exists
    (settings : WaveSettings)
    (repr : Json → String)
    (hZero : Provisioned user d₀)
    (inputs : List PurchaseInput) :
    ∃ results d,
      Execution settings repr user d₀ inputs results d := by
  induction inputs using List.reverseRecOn with
  | nil => exact ⟨[], d₀, .start⟩
  | append_singleton inputs input ih =>
      rcases ih with ⟨results, d, hExecution⟩
      rcases purchased_of_execution hZero hExecution with
        ⟨total, hPurchased⟩
      have hEnds :=
        ends_purchase (t := 0) repr input Store.ready_quiet
          hPurchased.standing
      rcases Prog.run_of_ends hEnds with
        ⟨row, s, hRun, _⟩ | ⟨e, s, hRun, _⟩
      · exact ⟨_, _, .purchase hExecution input hRun⟩
      · exact ⟨_, _, .purchase hExecution input hRun⟩

end Standings

/- The largest purchase that the serializer admits. -/
def million : PurchaseInput where
  amount := 1000000
  description := none
  minValue := by decide
  maxValue := by decide
  maxLength := by
    intro text hSome
    cases hSome

/- One such purchase fits. -/
theorem purchases_fit_once :
    ∃ results d,
      Execution someSettings (fun _ => "") 0 signup
          [million] results d ∧
        Fitting 0 d ∧ .error outOfRange ∉ results := by
  rcases
    execution_exists someSettings (fun _ => "")
      (provisioned_signup 0) [million] with
    ⟨results, d, hExecution⟩
  exact
    ⟨results, d, hExecution,
      (purchases_fit_iff (provisioned_signup 0)
        hExecution).mpr (by decide)⟩

/- Of 2148 such purchases one is refused. -/
theorem purchase_refused :
    ∃ results d,
      Execution someSettings (fun _ => "") 0 signup
          (List.replicate 2148 million) results d ∧
        .error outOfRange ∈ results := by
  rcases
    execution_exists someSettings (fun _ => "")
      (provisioned_signup 0)
      (List.replicate 2148 million) with
    ⟨results, d, hExecution⟩
  refine ⟨results, d, hExecution, ?_⟩
  by_contra hNone
  have hLe :=
    spent_le_of_unrefused (provisioned_signup 0) hExecution
      hNone
  rw [spent_replicate] at hLe
  exact absurd hLe (by decide)

end SiteAnalysis.Audits
