import SiteAnalysis.Billing.Database

/-
  This file defines the credit services.

  Key definitions include:
    * `getOrCreateBalance`
    * `checkBalance`
    * `deductCredit`
    * `addCredits`
-/

------------------------------------------------------------
-- Services
------------------------------------------------------------

namespace SiteAnalysis.Credits

open Concurrency
open Relational
open Python
open Billing

/-
  `CreditBalance.objects.get_or_create(user=user)`: the
  insertion has a savepoint of its own, and the loser of a
  race reads the winner's row.
-/
def getOrCreateBalance
    (user : UserId) : Service CreditBalance :=
  (query (.getBalance user)).tryCatch fun
    | .doesNotExist _ =>
        (atomic (query (.createBalance user))).tryCatch fun
          | .database .integrityError m =>
              (query (.getBalance user)).tryCatch fun
                | .doesNotExist _ =>
                    raiseError (.database .integrityError m)
                | e => raiseError e
          | e => raiseError e
    | e => raiseError e

def insufficientCredits
    (required balance : Int) : Exc :=
  ErrorKind.insufficientCredits.error ""
    [("required", .int required), ("balance", .int balance)]

def invalidCreditAmount : Exc :=
  ErrorKind.invalidCreditAmount.error "" []

/- The check before the audit; it takes no lock. -/
def checkBalance
    (user : UserId)
    (required : Int) : Service Int := do
  let row ← getOrCreateBalance user
  if row.balance < required then
    raiseError (insufficientCredits required row.balance)
  else
    pure row.balance

/- `text or default` -/
def orDefault (text default : String) : String :=
  if text = "" then default else text

/- `deduct_credit` under its decorator. -/
def deductCreditBody
    (user : UserId)
    (amount : Int)
    (description : String) : Service CreditTransaction :=
  if amount ≤ 0 then
    raiseError invalidCreditAmount
  else do
    let row : CreditBalance ← query (.lockBalance user)
    if row.balance < amount then
      raiseError (insufficientCredits amount row.balance)
    else do
      let balance : CreditBalance :=
        { row with
          totalUsed := row.totalUsed + amount
          balance := row.balance - amount }
      let tx : CreditTransaction :=
        { user := user
          amount := -amount
          transactionType := .usage
          description :=
            orDefault description "Credit usage"
          balanceAfter := balance.balance }
      query
        (.saveBalance user balance [.totalUsed, .balance])
      query (.createTransaction tx)
      pure tx

def deductCredit
    (user : UserId)
    (amount : Int)
    (description : String) : Service CreditTransaction :=
  atomic (deductCreditBody user amount description)

/- `add_credits` under its decorator. -/
def addCreditsBody
    (user : UserId)
    (amount : Int)
    (description : String)
    (transactionType : TransactionType) :
    Service CreditTransaction :=
  if amount ≤ 0 then
    raiseError invalidCreditAmount
  else do
    let row : CreditBalance ← query (.lockBalance user)
    let balance : CreditBalance :=
      { row with
        totalPurchased :=
          if transactionType = .purchase then
            row.totalPurchased + amount
          else
            row.totalPurchased
        balance := row.balance + amount }
    let tx : CreditTransaction :=
      { user := user
        amount := amount
        transactionType := transactionType
        description :=
          orDefault description "Credit purchase"
        balanceAfter := balance.balance }
    query
      (.saveBalance user balance
        [.totalPurchased, .balance])
    query (.createTransaction tx)
    pure tx

def addCredits
    (user : UserId)
    (amount : Int)
    (description : String)
    (transactionType : TransactionType) :
    Service CreditTransaction :=
  atomic
    (addCreditsBody user amount description transactionType)

end SiteAnalysis.Credits
