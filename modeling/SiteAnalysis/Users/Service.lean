import SiteAnalysis.Users.Database

/-
  This file defines the services of the accounts, the tasks
  of their worker, and the authentication by API key.

  What Django computes for them is given by a `Library`: the
  normal form of an address, the complaints of the password
  validators, the reading of a user's identifier from a reset
  link, and the check of a reset token.

  Key definitions include:
    * `Library`
    * `registerUser`
    * `sendVerificationEmail`
    * `getOrCreateApiKey`
    * `rotateApiKey`
    * `authenticate`
    * `confirmPasswordReset`
    * `changePassword`
-/

------------------------------------------------------------
-- Selectors
------------------------------------------------------------

namespace SiteAnalysis.Users

open Concurrency
open Relational
open Python

structure Library where
  normalizeEmail : String → String
  passwordErrors : String → Option User → List String
  decodeUid : String → Option String
  toUuid : String → Option UserId
  checkToken : Time → User → String → Bool

/- The lookup normalizes the address once more. -/
def getUserByEmail
    (lib : Library)
    (email : String) : Service (Option User) :=
  query (.findUserByEmail (lib.normalizeEmail email))

------------------------------------------------------------
-- API Keys
------------------------------------------------------------

/- `ApiKey(user=user).save()`, which generates the key. -/
def createApiKey
    (user : UserId) : Service ApiKey := do
  let key : String ← query .generateApiKey
  let row : ApiKey :=
    { user := user
      key := key
      isActive := true
      lastUsedAt := none
      isDeleted := false }
  query (.insertApiKey row)
  pure row

/-
  `ApiKey.objects.get_or_create(user=user)`: the insertion
  has a savepoint of its own, and the loser of a race reads
  the winner's row.
-/
def getOrCreateApiKey
    (user : UserId) : Service ApiKey := do
  let found : Option ApiKey ← query (.getApiKey user)
  match found with
  | some row => pure row
  | none =>
      (atomic (createApiKey user)).tryCatch fun
        | .database .integrityError m => do
            let winner : Option ApiKey ←
              query (.getApiKey user)
            match winner with
            | some row => pure row
            | none =>
                raiseError (.database .integrityError m)
        | e => raiseError e

/- `ApiKey.rotate` -/
def ApiKey.rotate
    (row : ApiKey) : Service ApiKey := do
  let key : String ← query .generateApiKey
  let rotated : ApiKey :=
    { row with
      key := key
      isActive := true }
  query (.saveApiKey rotated [.key, .isActive])
  pure rotated

def rotateApiKey
    (user : UserId) : Service ApiKey :=
  atomic do
    let row ← getOrCreateApiKey user
    row.rotate

/-
  `ApiKeyAuthentication.authenticate`; `none` falls through
  to the other authenticators.
-/
def authenticate
    (header : Option String)
    (now : Time) : Service (Option (User × ApiKey)) :=
  match header with
  | none => pure none
  | some key =>
      if key = "" then
        pure none
      else do
        let found : Option (ApiKey × User) ←
          query (.findApiKey key)
        match found with
        | none => raiseError (.other "Invalid API key.")
        | some (row, user) =>
            if !user.isActive then
              raiseError (.other "User account is inactive.")
            else do
              query (.touchApiKey row.user now)
              pure (some (user, row))

------------------------------------------------------------
-- Registration
------------------------------------------------------------

/- The validated data of a registration. -/
structure Registration where
  username : String
  email : String
  password : String
  firstName : String
  lastName : String

def weakPassword (messages : List String) : Exc :=
  ErrorKind.application.error
    "Password does not meet the security requirements."
    [("password", .arr (messages.map .str))]

def validatePasswordStrength
    (lib : Library)
    (password : String)
    (user : Option User) : Service Unit :=
  match lib.passwordErrors password user with
  | [] => pure ()
  | messages => raiseError (weakPassword messages)

/- The `INSERT` of a user. -/
def insertRow (row : User) : Service Unit := do
  query (.insertUser row)
  query (.enterIndex .username row)
  query (.enterIndex .email row)

/- The signal handler that provides the key of a new user. -/
def onUserCreated (user : UserId) : Service Unit := do
  let _ ← getOrCreateApiKey user
  pure ()

/- The row that `create_user` saves. -/
def Registration.user
    (input : Registration)
    (id : UserId)
    (email : String)
    (salt : Nat) : User where
  id := id
  username := input.username
  email := email
  password := ⟨input.password, salt⟩
  firstName := input.firstName
  lastName := input.lastName
  isActive := true
  isEmailVerified := false
  isDeleted := false
  deletedAt := none

def emailNotSet : Exc :=
  .python (.valueError "The email address must be set.")

/- `User.objects.create_user`; `id` is a fresh `uuid4`. -/
def createUser
    (lib : Library)
    (id : UserId)
    (email : String)
    (input : Registration) : Service User :=
  if email = "" then
    raiseError emailNotSet
  else do
    let salt : Nat ← query .makeSalt
    let user :=
      input.user id (lib.normalizeEmail email) salt
    insertRow user
    onUserCreated id
    pure user

def emailAlreadyRegistered (email : String) : Exc :=
  ErrorKind.emailAlreadyRegistered.error ""
    [("email", .str email)]

def usernameAlreadyTaken (username : String) : Exc :=
  ErrorKind.usernameAlreadyTaken.error ""
    [("username", .str username)]

/- The handler for the race on the unique constraints. -/
def onIntegrityError
    (lib : Library)
    (email username : String) : Service User := do
  let existing ← getUserByEmail lib email
  match existing with
  | some _ => raiseError (emailAlreadyRegistered email)
  | none => raiseError (usernameAlreadyTaken username)

/- The creation of the user, and the dispatch of its task. -/
def createAndNotify
    (lib : Library)
    (id : UserId)
    (email : String)
    (input : Registration) : Service User := do
  let user ←
    (createUser lib id email input).tryCatch fun
      | .database .integrityError _ =>
          onIntegrityError lib email input.username
      | e => raiseError e
  query (.delay user.id)
  pure user

/- `register_user` under its decorator. -/
def registerUserBody
    (lib : Library)
    (id : UserId)
    (input : Registration) : Service User := do
  let email := lib.normalizeEmail input.email
  let existing ← getUserByEmail lib email
  match existing with
  | some _ => raiseError (emailAlreadyRegistered email)
  | none => do
      let taken : Bool ←
        query (.existsUsername input.username)
      if taken then
        raiseError (usernameAlreadyTaken input.username)
      else do
        validatePasswordStrength lib input.password none
        createAndNotify lib id email input

def registerUser
    (lib : Library)
    (id : UserId)
    (input : Registration) : Service User :=
  atomic (registerUserBody lib id input)

/- Which of its two ends the task has come to. -/
inductive Delivery
  | sent
  | userMissing
deriving DecidableEq

def sendVerificationEmail
    (user : UserId) : Service Delivery := do
  let found : Option User ← query (.getUser user)
  match found with
  | none => pure .userMissing
  | some row => do
      query (.sendMail row.email)
      pure .sent

------------------------------------------------------------
-- Passwords
------------------------------------------------------------

def invalidToken : Exc :=
  ErrorKind.invalidToken.error "" []

def incorrectPassword : Exc :=
  ErrorKind.incorrectPassword.error "" []

/- `user.set_password(raw)`, and the save of the column. -/
def setPassword
    (user : User)
    (raw : String) : Service User := do
  let salt : Nat ← query .makeSalt
  let changed : User :=
    { user with password := ⟨raw, salt⟩ }
  query (.saveUser changed [.password])
  pure changed

/- `confirm_password_reset` under its decorator. -/
def confirmPasswordResetBody
    (lib : Library)
    (now : Time)
    (uid token newPassword : String) : Service User :=
  match lib.decodeUid uid with
  | none => raiseError invalidToken
  | some text =>
      match lib.toUuid text with
      -- a `ValidationError`, which is not a `ValueError`
      | none => raiseError (.other "is not a valid UUID.")
      | some id => do
          let found : Option User ← query (.lockUser id)
          match found with
          | none => raiseError invalidToken
          | some user =>
              if !lib.checkToken now user token then
                raiseError invalidToken
              else do
                validatePasswordStrength lib newPassword
                  (some user)
                setPassword user newPassword

def confirmPasswordReset
    (lib : Library)
    (now : Time)
    (uid token newPassword : String) : Service User :=
  atomic
    (confirmPasswordResetBody lib now uid token newPassword)

/- `change_password` under its decorator. -/
def changePasswordBody
    (lib : Library)
    (user : User)
    (currentPassword newPassword : String) : Service User :=
  if !user.checkPassword currentPassword then
    raiseError incorrectPassword
  else do
    validatePasswordStrength lib newPassword (some user)
    setPassword user newPassword

def changePassword
    (lib : Library)
    (user : User)
    (currentPassword newPassword : String) : Service User :=
  atomic
    (changePasswordBody lib user currentPassword newPassword)

end SiteAnalysis.Users
