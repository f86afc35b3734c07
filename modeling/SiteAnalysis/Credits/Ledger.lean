import SiteAnalysis.Accounting.Journal
import SiteAnalysis.Credits.Accounting

/-
  This file proves that the balance of a user and the ledger
  agree, whatever the calls that run at the same time.

  Key definitions include:
    * `Accounted`
    * `Call`
    * `start`
    * `Books`

  Key theorems include:
    * `accounted_charge`
    * `accounted_deposit`
    * `verified_start`
    * `ledger_consistent`
-/

------------------------------------------------------------
-- Accounted Balances
------------------------------------------------------------

namespace SiteAnalysis.Credits

open Concurrency
open Relational
open Accounting
open Billing

/- An entry that counts as purchased. -/
def isPurchase (tx : CreditTransaction) : Bool :=
  0 < tx.amount ∧ tx.transactionType = .purchase

/- An addition that does not count as purchased. -/
def isGrant (tx : CreditTransaction) : Bool :=
  0 < tx.amount ∧ tx.transactionType ≠ .purchase

/- A deduction. -/
def isCharge (tx : CreditTransaction) : Bool :=
  tx.amount < 0

@[simp] theorem isGrant_iff
    {tx : CreditTransaction} :
    isGrant tx = true ↔
      0 < tx.amount ∧ tx.transactionType ≠ .purchase := by
  simp [isGrant]

@[simp] theorem isCharge_iff
    {tx : CreditTransaction} :
    isCharge tx = true ↔ tx.amount < 0 := by
  simp [isCharge]

/- The balance row says what the ledger says. -/
structure Accounted
    (row : CreditBalance)
    (ledger : List CreditTransaction) : Prop where
  live : row.isDeleted = false
  nonneg : 0 ≤ row.balance
  balance :
    row.balance = total CreditTransaction.amount ledger
  running :
    Running CreditTransaction.amount
      CreditTransaction.balanceAfter ledger
  purchased :
    row.totalPurchased =
      total CreditTransaction.amount
        (ledger.filter isPurchase)
  used :
    row.totalUsed =
      -total CreditTransaction.amount
        (ledger.filter isCharge)
  nonzero : ∀ tx ∈ ledger, tx.amount ≠ 0

theorem accounted_zero : Accounted .zero [] where
  live := rfl
  nonneg := le_refl 0
  balance := rfl
  running := running_nil
  purchased := rfl
  used := rfl
  nonzero := fun _ hMem => by cases hMem

section Entries

variable {user : UserId} {amount : Int}
variable {description : String}
variable {transactionType : TransactionType}
variable {row object : CreditBalance}
variable {tx : CreditTransaction}
variable {ledger : List CreditTransaction}

theorem accounted_charge
    (hAccounted : Accounted row ledger)
    (hCharges :
      Charges user amount description row object tx) :
    Accounted object (ledger ++ [tx]) := by
  have hPositive := hCharges.positive
  have hCovered := hCharges.covered
  have hBalance := hAccounted.balance
  rcases hCharges with ⟨_, _, _, rfl, rfl⟩
  refine ⟨hAccounted.live, ?_, ?_, ?_, ?_, ?_, ?_⟩
  · simp only [charge]
    omega
  · simp only [charge, chargeEntry, total_append]
    omega
  · apply running_append hAccounted.running
    simp only [chargeEntry]
    omega
  · rw [total_filter_append, ← hAccounted.purchased]
    simp [charge, chargeEntry, isPurchase]
  · have hUsed := hAccounted.used
    have hIs :
        isCharge
            (chargeEntry user amount description row) =
          true := by
      rw [isCharge_iff]
      simp only [chargeEntry]
      omega
    rw [total_filter_append, if_pos hIs]
    simp only [charge, chargeEntry]
    omega
  · intro r hMem
    rcases List.mem_append.mp hMem with hOld | hNew
    · exact hAccounted.nonzero r hOld
    · rw [List.mem_singleton.mp hNew]
      simp only [chargeEntry]
      omega

theorem accounted_deposit
    (hAccounted : Accounted row ledger)
    (hDeposits :
      Deposits user amount description transactionType row
        object tx) :
    Accounted object (ledger ++ [tx]) := by
  have hPositive := hDeposits.positive
  have hNonneg := hAccounted.nonneg
  have hBalance := hAccounted.balance
  rcases hDeposits with ⟨_, _, rfl, rfl⟩
  refine ⟨hAccounted.live, ?_, ?_, ?_, ?_, ?_, ?_⟩
  · simp only [deposit]
    omega
  · simp only [deposit, depositEntry, total_append]
    omega
  · apply running_append hAccounted.running
    simp only [depositEntry]
    omega
  · rw [total_filter_append, ← hAccounted.purchased]
    by_cases hType : transactionType = .purchase
    · simp [deposit, depositEntry, isPurchase, hType,
        hPositive]
    · simp [deposit, depositEntry, isPurchase, hType]
  · have hNot :
        ¬ isCharge
            (depositEntry user amount description
              transactionType row) =
          true := by
      rw [isCharge_iff]
      simp only [depositEntry]
      omega
    rw [total_filter_append, if_neg hNot]
    simpa [deposit] using hAccounted.used
  · intro r hMem
    rcases List.mem_append.mp hMem with hOld | hNew
    · exact hAccounted.nonzero r hOld
    · rw [List.mem_singleton.mp hNew]
      simp only [depositEntry]
      omega

end Entries

------------------------------------------------------------
-- Concurrent Calls
------------------------------------------------------------

/- A call of one of the two services. -/
inductive Call
  | addCredits
      (user : UserId)
      (amount : Int)
      (description : String)
      (transactionType : TransactionType)
  | deductCredit
      (user : UserId)
      (amount : Int)
      (description : String)

def Call.program : Call → Service CreditTransaction
| .addCredits user amount description transactionType =>
    Credits.addCredits user amount description
      transactionType
| .deductCredit user amount description =>
    Credits.deductCredit user amount description

abbrev CreditWorld :=
  World (Store Db UserId) (TxOp Statement)
    (TxOp.Res Statement.Answer) Exc CreditTransaction

/- Every thread is about to make its call. -/
def start
    (calls : Tid → Call)
    (d : Db) : CreditWorld where
  shared := Store.quiet d
  threads := fun t => .live (calls t).program

/- The state that the `post_save` signal leaves. -/
structure Provisioned
    (user : UserId)
    (d : Db) : Prop where
  balance : d.balances user = some .zero
  ledger : d.ledger user = []

/- The account of the user is in order. -/
def Books
    (user : UserId)
    (d : Db) : Prop :=
  ∃ row, d.balances user = some row ∧
    Accounted row (d.ledger user)

theorem books_of_provisioned
    {user : UserId}
    {d : Db}
    (hZero : Provisioned user d) :
    Books user d := by
  refine ⟨.zero, hZero.balance, ?_⟩
  rw [hZero.ledger]
  exact accounted_zero

/- An entry keeps the books of every user in order. -/
theorem books_enter
    {user user' : UserId}
    {row object : CreditBalance}
    {tx : CreditTransaction}
    {d : Db}
    (hBooks : Books user d)
    (hFound : d.balances user' = some row)
    (hUser : tx.user = user')
    (hKeeps :
      ∀ ledger, Accounted row ledger →
        Accounted object (ledger ++ [tx])) :
    Books user (enter user' object tx d) := by
  rcases hBooks with ⟨row₀, hRow₀, hAccounted⟩
  by_cases hSame : user = user'
  · subst hSame
    rw [hFound] at hRow₀
    cases hRow₀
    refine ⟨object, enter_balances_self, ?_⟩
    rw [enter_ledger_self hUser]
    exact hKeeps _ hAccounted
  · refine ⟨row₀, ?_, ?_⟩
    · rw [enter_balances_of_ne hSame, hRow₀]
    · rw [enter_ledger_of_ne hUser hSame]
      exact hAccounted

/-
  The call adds credits that do not count as purchased, and
  the columns accept its amount and its description.
-/
def Call.Grants
    (user : UserId) : Call → Prop
| .addCredits user' amount description transactionType =>
    user' = user ∧ transactionType ≠ .purchase ∧
      0 < amount ∧ fitsInteger amount = true ∧
        fitsChar 255
          (orDefault description "Credit purchase") = true
| .deductCredit _ _ _ => False

/-
  What is kept of the committed data: the books of one user,
  and where the unpurchased credits come from.
-/
structure Kept
    (calls : Tid → Call)
    (user : UserId)
    (d : Db) : Prop where
  books : Books user d
  origin :
    ∀ tx ∈ d.ledger user, isGrant tx = true →
      ∃ t, (calls t).Grants user

section Runs

variable {calls : Tid → Call} {user : UserId} {d : Db}
variable {repr : Python.Json → String}

theorem kept_of_provisioned
    (hZero : Provisioned user d) :
    Kept calls user d where
  books := books_of_provisioned hZero
  origin := by
    intro tx hMem
    rw [hZero.ledger] at hMem
    cases hMem

/- An entry's origin in the ledger of the user. -/
theorem origin_enter
    {user' : UserId}
    {object : CreditBalance}
    {tx : CreditTransaction}
    (hKept : Kept calls user d)
    (hUser : tx.user = user')
    (hOrigin :
      user' = user → isGrant tx = true →
        ∃ t, (calls t).Grants user) :
    ∀ tx' ∈ (enter user' object tx d).ledger user,
      isGrant tx' = true → ∃ t, (calls t).Grants user := by
  intro tx' hMem hGrant
  by_cases hSame : user = user'
  · subst hSame
    rw [enter_ledger_self hUser] at hMem
    rcases List.mem_append.mp hMem with hOld | hNew
    · exact hKept.origin tx' hOld hGrant
    · rw [List.mem_singleton.mp hNew] at hGrant
      exact hOrigin rfl hGrant
  · rw [enter_ledger_of_ne hUser hSame] at hMem
    exact hKept.origin tx' hMem hGrant

/- The regime of the calls: no data of one thread alone. -/
def regime
    (repr : Python.Json → String)
    (calls : Tid → Call)
    (user : UserId) :
    Regime (backend repr) CreditTransaction Account Unit
      Unit :=
  accounts repr CreditTransaction (fun _ _ => ())
    (Kept calls user) (fun _ _ _ => True)
    (fun _ _ => trivial)

/- A deduction keeps what is kept. -/
theorem kept_charge
    {user' : UserId}
    {amount : Int}
    {description : String}
    {row object : CreditBalance}
    {tx : CreditTransaction}
    (hKept : Kept calls user d)
    (hFound : d.balances user' = some row)
    (hCharges :
      Charges user' amount description row object tx) :
    Kept calls user (enter user' object tx d) where
  books :=
    books_enter hKept.books hFound hCharges.entry.user
      (fun _ hAccounted =>
        accounted_charge hAccounted hCharges)
  origin := by
    apply origin_enter hKept hCharges.entry.user
    intro _ hGrant
    have hPositive := hCharges.positive
    rw [hCharges.tx, isGrant_iff] at hGrant
    simp only [chargeEntry] at hGrant
    omega

/- An addition keeps what is kept. -/
theorem kept_deposit
    {t : Tid}
    {user' : UserId}
    {amount : Int}
    {description : String}
    {transactionType : TransactionType}
    {row object : CreditBalance}
    {tx : CreditTransaction}
    (hCall :
      calls t =
        .addCredits user' amount description
          transactionType)
    (hKept : Kept calls user d)
    (hFound : d.balances user' = some row)
    (hDeposits :
      Deposits user' amount description transactionType row
        object tx) :
    Kept calls user (enter user' object tx d) where
  books :=
    books_enter hKept.books hFound hDeposits.entry.user
      (fun _ hAccounted =>
        accounted_deposit hAccounted hDeposits)
  origin := by
    apply origin_enter hKept hDeposits.entry.user
    intro hSame hGrant
    have hCheck := hDeposits.entry.tx
    rw [hDeposits.tx] at hGrant hCheck
    rw [isGrant_iff] at hGrant
    simp only [CreditTransaction.check, depositEntry,
      check_bind_eq_ok, integerColumn_eq_ok,
      charColumn_eq_ok] at hCheck
    refine ⟨t, ?_⟩
    rw [hCall]
    exact
      ⟨hSame, hGrant.2, hGrant.1, hCheck.1, hCheck.2.2.1⟩

/-
  Every call is verified: what it returns is committed, and
  when it raises it has committed nothing.
-/
theorem wp_call
    (t : Tid) :
    (regime repr calls user).wp t (calls t).program
      (fun _ _ => True) (fun _ l => ¬ l.published)
      ((regime repr calls user).start t d ()) := by
  have hFresh :
      ∀ e : Exc,
        (fun _ l => ¬ l.published : Exc → Knows Unit → Prop)
          e ((regime repr calls user).start t d ()) :=
    fun _ hFalse => hFalse
  cases hCall : calls t with
  | addCredits user' amount description transactionType =>
      apply wp_atomic_entry
        (P :=
          Deposits user' amount description transactionType)
        rfl hFresh (fun _ _ _ hDeposits => hDeposits.entry)
      · intro l₀ hSession
        exact
          wp_addCreditsBody (fun _ => rfl)
            (congrArg Session.frames hSession)
            (congrArg Session.held hSession)
      · intro d' row object tx hKept hFound hDeposits
        exact
          ⟨⟨kept_deposit hCall hKept hFound hDeposits,
            trivial, fun _ => rfl⟩, trivial⟩
  | deductCredit user' amount description =>
      apply wp_atomic_entry
        (P := Charges user' amount description)
        rfl hFresh (fun _ _ _ hCharges => hCharges.entry)
      · intro l₀ hSession
        exact
          wp_deductCreditBody (fun _ => rfl)
            (congrArg Session.frames hSession)
            (congrArg Session.held hSession)
      · intro d' row object tx hKept hFound hCharges
        exact
          ⟨⟨kept_charge hKept hFound hCharges,
            trivial, fun _ => rfl⟩, trivial⟩

theorem verified_start
    (hZero : Provisioned user d) :
    (regime repr calls user).Verified (fun _ _ _ => True)
      (fun _ _ l => ¬ l.published) d (fun _ => ())
      (start calls d) :=
  Regime.verified_plain rfl (kept_of_provisioned hZero)
    (fun t => ⟨_, rfl, wp_call t⟩)

/- In every state of a run the books are in order. -/
theorem kept_of_reaches
    {w : CreditWorld}
    (hZero : Provisioned user d)
    (hReach :
      (backend repr).machine.Reaches Machine.anyEvent
        (start calls d) w) :
    Kept calls user w.shared.committed := by
  rcases (verified_start hZero).inv_of_reaches hReach with
    ⟨_, hKept⟩
  exact hKept

/-
  In every committed state of every run the balance is not
  negative, it is the sum of the ledger, and every entry
  carries the running balance; and no step of a call that
  raises in the end changes committed data.
-/
theorem ledger_consistent
    {w : CreditWorld}
    (hZero : Provisioned user d)
    (hReach :
      (backend repr).machine.Reaches Machine.anyEvent
        (start calls d) w) :
    (∃ row,
      w.shared.committed.balances user = some row ∧
        0 ≤ row.balance ∧
          row.balance =
              total CreditTransaction.amount
                (w.shared.committed.ledger user) ∧
            Running CreditTransaction.amount
              CreditTransaction.balanceAfter
              (w.shared.committed.ledger user)) ∧
      ∀ (event : Event (Choice Exc Python.HttpOutcome))
        (w' w'' : CreditWorld) (e : Exc),
        (backend repr).machine.next w event = some w' →
          (backend repr).machine.Reaches Machine.anyEvent w'
              w'' →
            w''.threads event.thread = .live (.raise e) →
              w'.shared.committed = w.shared.committed := by
  constructor
  · rcases (kept_of_reaches hZero hReach).books with
      ⟨row, hRow, hAccounted⟩
    exact
      ⟨row, hRow, hAccounted.nonneg, hAccounted.balance,
        hAccounted.running⟩
  · intro event w' w'' e hNext hLater hRaise
    exact
      (verified_start hZero).unpublished_of_raise
        (fun _ _ hClean => hClean) hReach trivial hNext
        hLater hRaise

end Runs

theorem provisioned_signup
    (user : UserId) :
    Provisioned user signup := ⟨rfl, rfl⟩

/- A purchase, and a purchase whose commit fails. -/
theorem ledger_consistent_purchase :
    ∃ w : CreditWorld,
      (backend (fun _ => "")).machine.Reaches
          Machine.anyEvent
          (start (fun _ => .addCredits 0 5 "" .purchase)
            signup)
          w ∧
        (w.shared.committed.ledger 0).map
            CreditTransaction.amount =
          [5] ∧
          ∃ row,
            w.shared.committed.balances 0 = some row ∧
              row.balance =
                total CreditTransaction.amount
                  (w.shared.committed.ledger 0) := by
  have hReach :=
    Machine.reaches_of_replay
      (M := (backend (fun _ => "")).machine)
      (w :=
        start (fun _ => .addCredits 0 5 "" .purchase)
          signup)
      (List.replicate 5 (.step 0 .proceed) ++
        List.replicate 4 (.step 1 .proceed) ++
          [.step 1 (.fault (.other "connection lost"))])
      rfl
  rcases
    (ledger_consistent (provisioned_signup 0) hReach).1 with
    ⟨row, hRow, _, hBalance, _⟩
  exact ⟨_, hReach, by decide, row, hRow, hBalance⟩

end SiteAnalysis.Credits
