import SiteAnalysis.Credits.Service
import SiteAnalysis.Relational.Regime

/-
  This file specifies what the credit services do to a
  connection that runs among others.

  The account of a user is the balance row together with the
  user's part of the ledger; it is the fragment behind the
  lock of the balance row.  A service that returns leaves one
  pending entry for the account that it has locked, and a
  service that raises leaves nothing but a frame to drop.

  Key definitions include:
    * `account`
    * `accounts`
    * `charge`
    * `deposit`
    * `entered`
    * `Charges`
    * `Deposits`

  Key theorems include:
    * `wp_deductCreditBody`
    * `wp_addCreditsBody`
    * `wp_atomic_entry`
-/

------------------------------------------------------------
-- Accounts
------------------------------------------------------------

namespace SiteAnalysis.Credits

open Concurrency
open Relational
open Billing

/- A balance row and the user's part of the ledger. -/
abbrev Account :=
  Option CreditBalance × List CreditTransaction

def account
    (user : UserId)
    (d : Db) : Account :=
  (d.balances user, d.ledger user)

/- The regimes whose locks guard the accounts. -/
def accounts
    {Ω : Type}
    (repr : Python.Json → String)
    (α : Type)
    (own : Tid → Db → Ω)
    (inv : Db → Prop)
    (guar : Tid → Db → Db → Prop)
    (hRefl : ∀ t d, guar t d d) :
    Regime (backend repr) α Account Ω Unit :=
  Regime.plain (backend repr) α account own inv guar hRefl

/- What a connection knows under such a regime. -/
abbrev Knows (Ω : Type) :=
  Regime.Local Db UserId Account Ω Unit

/- The balance row after a deduction. -/
def charge
    (amount : Int)
    (row : CreditBalance) : CreditBalance :=
  { row with
    totalUsed := row.totalUsed + amount
    balance := row.balance - amount }

/- The balance row after an addition. -/
def deposit
    (amount : Int)
    (transactionType : TransactionType)
    (row : CreditBalance) : CreditBalance :=
  { row with
    totalPurchased :=
      if transactionType = .purchase then
        row.totalPurchased + amount
      else
        row.totalPurchased
    balance := row.balance + amount }

/- The ledger entry of a deduction from `row`. -/
def chargeEntry
    (user : UserId)
    (amount : Int)
    (description : String)
    (row : CreditBalance) : CreditTransaction where
  user := user
  amount := -amount
  transactionType := .usage
  description := orDefault description "Credit usage"
  balanceAfter := row.balance - amount

/- The ledger entry of an addition to `row`. -/
def depositEntry
    (user : UserId)
    (amount : Int)
    (description : String)
    (transactionType : TransactionType)
    (row : CreditBalance) : CreditTransaction where
  user := user
  amount := amount
  transactionType := transactionType
  description := orDefault description "Credit purchase"
  balanceAfter := row.balance + amount

/- The saved columns of `charge` and `deposit` are all. -/
theorem charge_assign
    (amount : Int)
    (row : CreditBalance) :
    (charge amount row).assign [.totalUsed, .balance] row =
      charge amount row := by
  simp [charge, CreditBalance.assign]

theorem deposit_assign
    (amount : Int)
    (transactionType : TransactionType)
    (row : CreditBalance) :
    (deposit amount transactionType row).assign
        [.totalPurchased, .balance] row =
      deposit amount transactionType row := by
  simp [deposit, CreditBalance.assign]

/- The pending change of an entry. -/
def enter
    (user : UserId)
    (row : CreditBalance)
    (tx : CreditTransaction)
    (d : Db) : Db :=
  insertTransaction tx (setBalance user row d)

section Frames

variable {user user' : UserId}
variable {row : CreditBalance} {tx : CreditTransaction}
variable {d : Db}

@[simp] theorem enter_audits :
    (enter user row tx d).audits = d.audits := rfl

@[simp] theorem enter_issues :
    (enter user row tx d).issues = d.issues := rfl

@[simp] theorem enter_transactions :
    (enter user row tx d).transactions =
      d.transactions ++ [tx] := rfl

@[simp] theorem enter_balances_self :
    (enter user row tx d).balances user = some row := by
  simp [enter, insertTransaction, setBalance]

theorem enter_balances_of_ne
    (hNe : user' ≠ user) :
    (enter user row tx d).balances user' =
      d.balances user' := by
  simp [enter, insertTransaction, setBalance, hNe]

theorem enter_ledger_self
    (hUser : tx.user = user) :
    (enter user row tx d).ledger user =
      d.ledger user ++ [tx] := by
  simp [Db.ledger, hUser]

theorem enter_ledger_of_ne
    (hUser : tx.user = user)
    (hNe : user' ≠ user) :
    (enter user row tx d).ledger user' =
      d.ledger user' := by
  simp [Db.ledger, hUser, Ne.symm hNe]

/- An entry leaves the other accounts alone. -/
theorem enter_account_of_ne
    (hUser : tx.user = user)
    (hNe : user' ≠ user) :
    account user' (enter user row tx d) =
      account user' d := by
  simp [account, enter_balances_of_ne hNe,
    enter_ledger_of_ne hUser hNe]

end Frames

------------------------------------------------------------
-- Sessions of a Credit Service
------------------------------------------------------------

section Sessions

variable {Ω : Type}

/- The connection has locked an account. -/
def locked
    (user : UserId)
    (v : Account)
    (rest : List (Frame Db UserId))
    (l : Knows Ω) :
    Knows Ω :=
  { l with
    session :=
      { frames :=
          { pending := id
            locks := [user]
            broken := false } :: rest
        held := Function.update (fun _ => none) user
          (some v) } }

/- The connection has an entry pending for it. -/
def entered
    (user : UserId)
    (v : Account)
    (row : CreditBalance)
    (tx : CreditTransaction)
    (rest : List (Frame Db UserId))
    (l : Knows Ω) :
    Knows Ω :=
  { l with
    session :=
      { frames :=
          { pending := enter user row tx
            locks := [user]
            broken := false } :: rest
        held := Function.update (fun _ => none) user
          (some v) } }

/- Nothing happened but in the innermost frame. -/
structure Unwinds
    (rest : List (Frame Db UserId))
    (l l' : Knows Ω) :
    Prop where
  frames : ∃ fr, l'.session.frames = fr :: rest
  own : l'.own = l.own
  published : l'.published = l.published

theorem Unwinds.fail
    {rest : List (Frame Db UserId)}
    {l l' : Knows Ω}
    (hUnwinds : Unwinds rest l l') :
    Unwinds rest l
      { l' with session := l'.session.fail } where
  frames := by
    rcases hUnwinds.frames with ⟨fr, hFrames⟩
    exact
      ⟨{ fr with broken := true },
        by simp [Session.fail, hFrames]⟩
  own := hUnwinds.own
  published := hUnwinds.published

/- The frames around do not write anything. -/
def Silent (frames : List (Frame Db UserId)) : Prop :=
  ∀ d, frames.foldr (fun fr d => fr.pending d) d = d

end Sessions

------------------------------------------------------------
-- Specifications
------------------------------------------------------------

section Specifications

variable {Ω α : Type} {repr : Python.Json → String}
variable {own : Tid → Db → Ω} {inv : Db → Prop}
variable {guar : Tid → Db → Db → Prop}
variable {hRefl : ∀ t d, guar t d d}
variable {t : Tid} {user : UserId}
variable {rest : List (Frame Db UserId)}
variable {l : Knows Ω}

/- What a service knows of the account that it locks. -/
structure Opened
    (own : Tid → Db → Ω)
    (inv : Db → Prop)
    (t : Tid)
    (user : UserId)
    (l : Knows Ω)
    (d : Db)
    (row : CreditBalance) : Prop where
  inv : inv d
  own : own t d = l.own
  found : d.balances user = some row
  live : row.isDeleted = false

theorem wp_lockBalance
    {Q : CreditBalance → Knows Ω → Prop}
    {E : Exc → Knows Ω → Prop}
    (hSilent : Silent rest)
    (hFrames : l.session.frames = Frame.fresh :: rest)
    (hHeld : l.session.held = fun _ => none)
    (hRaise : ∀ e l', Unwinds rest l l' → E e l')
    (hRow :
      ∀ d row, Opened own inv t user l d row →
        Q row (locked user (account user d) rest l)) :
    (accounts repr α own inv guar hRefl).wp t
      (query (.lockBalance user)) Q E l := by
  have hSelf : Unwinds rest l l :=
    ⟨⟨_, hFrames⟩, rfl, rfl⟩
  apply Regime.wp_execute_open trivial hFrames rfl
  · intro e _
    exact hRaise e _ hSelf.fail
  · intro d ns live _
    exact Regime.replyWp_of_none (fun _ => rfl)
  · intro d ns live hFits _
    have hView : l.session.view d = d := by
      simp only [Session.view, hFrames, List.foldr_cons]
      exact hSilent d
    rw [hView]
    cases hLive : liveBalance d user with
    | none =>
        simp only [backend, plan, hLive]
        exact hRaise _ _ hSelf
    | some row =>
        have hRow' := liveBalance_eq_some.mp hLive
        have hOpened : Opened own inv t user l d row :=
          ⟨hFits.inv, hFits.own, hRow'.1, hRow'.2⟩
        have hLocked :
            locked user (account user d) rest l =
              { l with
                session :=
                  (l.session.acquire user
                    (account user d)).write id } := by
          simp [Session.acquire, Session.write, hFrames,
            hHeld, locked, Frame.fresh]
        have hDone := hRow d row hOpened
        rw [hLocked] at hDone
        simp only [backend, plan, hLive]
        exact ⟨hFits.inv, hDone⟩

/- The two writes of an entry. -/
theorem wp_enter
    {Q : CreditTransaction → Knows Ω → Prop}
    {E : Exc → Knows Ω → Prop}
    {row object : CreditBalance}
    {fields : List BalanceField}
    {ledger : List CreditTransaction}
    {tx : CreditTransaction}
    (hSilent : Silent rest)
    (hAssign : object.assign fields row = object)
    (hRaise : ∀ e l', Unwinds rest l l' → E e l')
    (hEntered :
      object.check = .ok () → tx.check = .ok () →
        Q tx
          (entered user (some row, ledger) object tx rest
            l)) :
    (accounts repr α own inv guar hRefl).wp t
      (do
        query (.saveBalance user object fields)
        query (.createTransaction tx)
        pure tx)
      Q E (locked user (some row, ledger) rest l) := by
  have hLocked :
      Unwinds rest l (locked user (some row, ledger) rest l) :=
    ⟨⟨_, rfl⟩, rfl, rfl⟩
  apply Discipline.wp_bind
  apply Regime.wp_execute_open trivial rfl rfl
  · intro e _
    exact hRaise e _ hLocked.fail
  · intro d ns live _
    exact Regime.replyWp_of_none (fun _ => rfl)
  · intro d ns live hFits _
    have hView :
        (locked user (some row, ledger) rest
          l).session.view d = d := hSilent d
    have hAccount :
        account user d = (some row, ledger) :=
      hFits.held user _ (by simp [locked])
    have hStored : d.balances user = some row :=
      congrArg Prod.fst hAccount
    rw [hView]
    simp only [backend, plan, hStored, hAssign]
    cases hCheck : object.check with
    | error e => trivial
    | ok u =>
        simp only [checked, Regime.OpenWp]
        have hSaved :
            (locked user (some row, ledger) rest
                  l).session.acquire user
                ((accounts repr α own inv guar hRefl).frag user d) =
              (locked user (some row, ledger) rest
                l).session := by
          simp [Session.acquire, locked]
        rw [hSaved]
        refine ⟨hFits.inv, ?_⟩
        apply Discipline.wp_bind
        apply Regime.wp_execute_open trivial rfl rfl
        · intro e _
          exact hRaise e _ ⟨⟨_, rfl⟩, rfl, rfl⟩
        · intro d' ns' live' _
          exact Regime.replyWp_of_none (fun _ => rfl)
        · intro d' ns' live' hFits' _
          simp only [plan]
          cases hTx : tx.check with
          | error e => trivial
          | ok u' => exact ⟨hFits'.inv, hEntered hCheck hTx⟩

/-
  An entry that the database accepts: under the lock `row`
  becomes `object`, and `tx` is added to the ledger.
-/
structure Entry
    (user : UserId)
    (row object : CreditBalance)
    (tx : CreditTransaction) : Prop where
  live : row.isDeleted = false
  user : tx.user = user
  object : object.check = .ok ()
  tx : tx.check = .ok ()

/- The entry of a deduction. -/
structure Charges
    (user : UserId)
    (amount : Int)
    (description : String)
    (row object : CreditBalance)
    (tx : CreditTransaction) : Prop where
  entry : Entry user row object tx
  positive : 0 < amount
  covered : amount ≤ row.balance
  object : object = charge amount row
  tx : tx = chargeEntry user amount description row

/- The entry of an addition. -/
structure Deposits
    (user : UserId)
    (amount : Int)
    (description : String)
    (transactionType : TransactionType)
    (row object : CreditBalance)
    (tx : CreditTransaction) : Prop where
  entry : Entry user row object tx
  positive : 0 < amount
  object : object = deposit amount transactionType row
  tx :
    tx =
      depositEntry user amount description transactionType
        row

/- The service leaves an entry that satisfies `P`. -/
def Enters
    (user : UserId)
    (P :
      CreditBalance → CreditBalance →
        CreditTransaction → Prop)
    (rest : List (Frame Db UserId))
    (l : Knows Ω)
    (tx : CreditTransaction)
    (l' : Knows Ω) : Prop :=
  ∃ row object ledger,
    P row object tx ∧
      l' =
        entered user (some row, ledger) object tx rest l

theorem wp_deductCreditBody
    {amount : Int}
    {description : String}
    (hSilent : Silent rest)
    (hFrames : l.session.frames = Frame.fresh :: rest)
    (hHeld : l.session.held = fun _ => none) :
    (accounts repr α own inv guar hRefl).wp t
      (deductCreditBody user amount description)
      (Enters user (Charges user amount description) rest l)
      (fun _ => Unwinds rest l) l := by
  have hSelf : Unwinds rest l l :=
    ⟨⟨_, hFrames⟩, rfl, rfl⟩
  unfold deductCreditBody
  by_cases hAmount : amount ≤ 0
  · rw [if_pos hAmount]
    exact hSelf
  · rw [if_neg hAmount]
    apply Discipline.wp_bind
    apply wp_lockBalance hSilent hFrames hHeld
      (fun _ _ hUnwinds => hUnwinds)
    intro d row hOpened
    have hAccount :
        account user d = (some row, d.ledger user) := by
      rw [account, hOpened.found]
    by_cases hShort : row.balance < amount
    · rw [if_pos hShort]
      exact ⟨⟨_, rfl⟩, rfl, rfl⟩
    · rw [if_neg hShort, hAccount]
      apply wp_enter hSilent (charge_assign amount row)
        (fun _ _ hUnwinds => hUnwinds)
      intro hObject hTx
      have hCharges :
          Charges user amount description row
            (charge amount row)
            (chargeEntry user amount description row) :=
        ⟨⟨hOpened.live, rfl, hObject, hTx⟩, by omega,
          by omega, rfl, rfl⟩
      exact ⟨row, _, _, hCharges, rfl⟩

theorem wp_addCreditsBody
    {amount : Int}
    {description : String}
    {transactionType : TransactionType}
    (hSilent : Silent rest)
    (hFrames : l.session.frames = Frame.fresh :: rest)
    (hHeld : l.session.held = fun _ => none) :
    (accounts repr α own inv guar hRefl).wp t
      (addCreditsBody user amount description
        transactionType)
      (Enters user
        (Deposits user amount description transactionType)
        rest l)
      (fun _ => Unwinds rest l) l := by
  have hSelf : Unwinds rest l l :=
    ⟨⟨_, hFrames⟩, rfl, rfl⟩
  unfold addCreditsBody
  by_cases hAmount : amount ≤ 0
  · rw [if_pos hAmount]
    exact hSelf
  · rw [if_neg hAmount]
    apply Discipline.wp_bind
    apply wp_lockBalance hSilent hFrames hHeld
      (fun _ _ hUnwinds => hUnwinds)
    intro d row hOpened
    have hAccount :
        account user d = (some row, d.ledger user) := by
      rw [account, hOpened.found]
    rw [hAccount]
    apply wp_enter hSilent
      (deposit_assign amount transactionType row)
      (fun _ _ hUnwinds => hUnwinds)
    intro hObject hTx
    have hDeposits :
        Deposits user amount description transactionType row
          (deposit amount transactionType row)
          (depositEntry user amount description
            transactionType row) :=
      ⟨⟨hOpened.live, rfl, hObject, hTx⟩, by omega, rfl,
        rfl⟩
    exact ⟨row, _, _, hDeposits, rfl⟩

/-
  A change of committed data that is no concern of the
  connections' own data.
-/
structure Commitable
    (own : Tid → Db → Ω)
    (inv : Db → Prop)
    (guar : Tid → Db → Db → Prop)
    (t : Tid)
    (d d' : Db) : Prop where
  inv : inv d'
  guar : guar t d d'
  own : ∀ t', own t' d' = own t' d

/- A transaction of its own around an entry. -/
theorem wp_atomic_entry
    {body : Service CreditTransaction}
    {P :
      CreditBalance → CreditBalance →
        CreditTransaction → Prop}
    {Q : CreditTransaction → Knows Ω → Prop}
    {E : Exc → Knows Ω → Prop}
    (hIdle : l.session = Session.idle)
    (hRaise : ∀ e, E e l)
    (hEntry :
      ∀ row object tx, P row object tx →
        Entry user row object tx)
    (hBody :
      ∀ l₀ : Knows Ω,
        l₀.session = Session.begin Session.idle →
          (accounts repr α own inv guar hRefl).wp t body
            (Enters user P [] l₀)
            (fun _ => Unwinds [] l₀) l₀)
    (hCommit :
      ∀ d row object tx,
        inv d → d.balances user = some row →
          P row object tx →
            Commitable own inv guar t d
                (enter user object tx d) ∧
              Q tx
                ((accounts repr α own inv guar hRefl).committed t l
                  d (enter user object tx d) ())) :
    (accounts repr α own inv guar hRefl).wp t (atomic body) Q E
      l := by
  apply Regime.wp_atomic trivial (fun e _ => hRaise e)
  have hBodyWp :=
    hBody { l with session := l.session.begin }
      (by rw [hIdle])
  apply Discipline.wp_mono hBodyWp
  · rintro tx l' ⟨row, object, ledger, hP, rfl⟩
    refine ⟨_, trivial, rfl, rfl, ?_, ?_⟩
    · intro e _
      have hSame :
          { entered user (some row, ledger) object tx []
              { l with session := l.session.begin } with
            session := Session.idle } = l := by
        rw [← hIdle]
        rfl
      rw [hSame]
      exact hRaise e
    · intro d ns live hFits _
      have hAccount :
          account user d = (some row, ledger) :=
        hFits.held user _ (by simp [entered])
      have hFound : d.balances user = some row :=
        congrArg Prod.fst hAccount
      rcases hCommit d row object tx hFits.inv hFound hP with
        ⟨hCommitable, hDone⟩
      refine
        ⟨⟨hCommitable.inv, hCommitable.guar, ?_, ?_⟩,
          hDone⟩
      · intro t' _
        exact hCommitable.own t'
      · intro k hk
        have hNe : k ≠ user := by
          rintro rfl
          simp [entered] at hk
        exact
          enter_account_of_ne (hEntry row object tx hP).user
            hNe
  · intro e l' hUnwinds
    refine ⟨hUnwinds.frames, trivial, ?_⟩
    have hSame :
        { l' with session := Session.idle } = l := by
      rw [hUnwinds.own, hUnwinds.published, ← hIdle]
    rw [hSame]
    exact hRaise e

end Specifications

end SiteAnalysis.Credits
