import SiteAnalysis.Python.Requests

/-
  This file defines the exceptions that the services raise.

  Key definitions include:
    * `ErrorKind`
    * `ApplicationError`
    * `Exc`
    * `Exc.str`
-/

------------------------------------------------------------
-- Application Errors
------------------------------------------------------------

namespace SiteAnalysis

open Python

/- `ApplicationError` and its subclasses. -/
inductive ErrorKind
  | application
  | insufficientCredits
  | invalidCreditAmount
  | waveAPI
  | waveConfig
  | pageSpeedAPI
  | pageSpeedConfig
  | gtmetrixAPI
  | gtmetrixClient
  | gtmetrixConfig
  | gtmetrixTimeout
  | sslScan
  | pageFetch
  | robotsDisallowed
  | emailAlreadyRegistered
  | usernameAlreadyTaken
  | invalidToken
  | incorrectPassword
deriving DecidableEq

def ErrorKind.defaultMessage : ErrorKind → String
| .application => "An application error occurred."
| .insufficientCredits =>
    "You do not have enough credits for this operation."
| .invalidCreditAmount =>
    "Credit amount must be a positive integer."
| .waveAPI =>
    "The WAVE accessibility API request failed."
| .waveConfig => "WAVE API key is not configured."
| .pageSpeedAPI =>
    "The PageSpeed Insights API request failed."
| .pageSpeedConfig =>
    "PageSpeed Insights API key is not configured."
| .gtmetrixAPI => "The GTmetrix API request failed."
| .gtmetrixClient => "GTmetrix rejected the request."
| .gtmetrixConfig => "GTmetrix API key is not configured."
| .gtmetrixTimeout =>
    "The GTmetrix test did not finish in time."
| .sslScan => "The SSL/TLS scan could not be completed."
| .pageFetch => "Could not fetch the page for validation."
| .robotsDisallowed =>
    "Crawling this URL is disallowed by robots.txt."
| .emailAlreadyRegistered =>
    "A user with this email already exists."
| .usernameAlreadyTaken =>
    "A user with this username already exists."
| .invalidToken => "The token is invalid or has expired."
| .incorrectPassword =>
    "The current password is incorrect."

def ErrorKind.defaultStatus : ErrorKind → Nat
| .application => 400
| .insufficientCredits => 402
| .invalidCreditAmount => 400
| .waveAPI => 502
| .waveConfig => 503
| .pageSpeedAPI => 502
| .pageSpeedConfig => 503
| .gtmetrixAPI => 502
| .gtmetrixClient => 400
| .gtmetrixConfig => 503
| .gtmetrixTimeout => 504
| .sslScan => 502
| .pageFetch => 400
| .robotsDisallowed => 403
| .emailAlreadyRegistered => 409
| .usernameAlreadyTaken => 409
| .invalidToken => 400
| .incorrectPassword => 400

structure ApplicationError where
  kind : ErrorKind
  message : String
  extra : List (String × Json)
  statusCode : Nat

------------------------------------------------------------
-- Exceptions
------------------------------------------------------------

/- The subclasses of `django.db.Error` that are told apart. -/
inductive DatabaseKind
  | dataError
  | integrityError
  | databaseError
  | transactionManagementError
deriving DecidableEq

/- An exception on its way through a service. -/
inductive Exc
  | application (e : ApplicationError)
  | python (e : PyError)
  | doesNotExist (model : String)
  | database (kind : DatabaseKind) (message : String)
  | request (kind : RequestKind) (message : String)
  | other (message : String)

/- `str(exc)` -/
def Exc.str : Exc → String
| .application e => e.message
| .python e => e.message
| .doesNotExist model =>
    model ++ " matching query does not exist."
| .database _ m => m
| .request _ m => m
| .other m => m

/- `Kind(message, extra=extra)`; no message means the default. -/
def ErrorKind.error
    (kind : ErrorKind)
    (message : String)
    (extra : List (String × Json)) : Exc :=
  .application
    { kind := kind
      message :=
        if message = "" then kind.defaultMessage else message
      extra := extra
      statusCode := kind.defaultStatus }

/- A raised built-in exception. -/
def fromPython {α : Type} : Except PyError α → Except Exc α
| .ok a => .ok a
| .error e => .error (.python e)

theorem fromPython_eq_ok
    {α : Type}
    {x : Except PyError α}
    {a : α} :
    fromPython x = .ok a ↔ x = .ok a := by
  cases x <;> simp [fromPython]

/- Every error carries a message. -/
theorem error_str_ne_empty
    (kind : ErrorKind)
    (message : String)
    (extra : List (String × Json)) :
    (kind.error message extra).str ≠ "" := by
  by_cases hEmpty : message = ""
  · cases kind <;>
      simp [ErrorKind.error, Exc.str, hEmpty,
        ErrorKind.defaultMessage]
  · simp [ErrorKind.error, Exc.str, hEmpty]

end SiteAnalysis
