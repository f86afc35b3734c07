import SiteAnalysis.Common.Columns
import SiteAnalysis.Relational.Backend
import SiteAnalysis.Relational.Table

/-
  This file defines the tables of the accounts, what the
  sources of random values have given out, the tasks that
  wait for a worker, and the statements that the services
  execute.

  An entry of a unique index is locked from the insertion of
  its row to the end of the transaction.  The API keys of two
  users never wait for each other: each new key is fresh.

  Key definitions include:
    * `User`
    * `ApiKey`
    * `Db`
    * `Statement`
    * `plan`
    * `reply`
    * `backend`

  Key theorems include:
    * `reply_cases`
-/

------------------------------------------------------------
-- Rows
------------------------------------------------------------

namespace SiteAnalysis.Users

open Concurrency
open Relational
open Python

/- The value of a fresh `uuid4`. -/
abbrev UserId := Nat

abbrev Time := Int

/-
  A password hash.  Hashing is ideal: exactly the hashed
  password passes the check, and the salt tells the hashes of
  one password apart.
-/
structure Password where
  raw : String
  salt : Nat
deriving DecidableEq

structure User where
  id : UserId
  username : String
  email : String
  password : Password
  firstName : String
  lastName : String
  isActive : Bool
  isEmailVerified : Bool
  isDeleted : Bool
  deletedAt : Option Time
deriving DecidableEq

/- The column `user` is unique and identifies the row. -/
structure ApiKey where
  user : UserId
  key : String
  isActive : Bool
  lastUsedAt : Option Time
  isDeleted : Bool
deriving DecidableEq

/-
  The tables, the keys and salts that have been generated,
  and the verification tasks that have been dispatched.
-/
structure Db where
  users : List User
  apiKeys : List ApiKey
  keys : List String
  salts : List Nat
  tasks : List UserId

/- A row that the default manager shows. -/
def liveUser (row : User) : Bool :=
  !row.isDeleted

def liveKey (row : ApiKey) : Bool :=
  !row.isDeleted

namespace Db

def find
    (d : Db)
    (user : UserId) : Option User :=
  Table.find User.id user d.users

def findKey
    (d : Db)
    (user : UserId) : Option ApiKey :=
  Table.find ApiKey.user user d.apiKeys

end Db

/- `user.check_password(raw)` -/
def User.checkPassword
    (user : User)
    (raw : String) : Bool :=
  user.password.raw = raw

------------------------------------------------------------
-- Partial Saves
------------------------------------------------------------

/- The columns of `User` that are saved by name. -/
inductive UserField
  | password
  | isActive
  | isDeleted
  | deletedAt
deriving DecidableEq

/- `UPDATE` of the listed columns from the object. -/
def User.assign
    (fields : List UserField)
    (object stored : User) : User :=
  { stored with
    password :=
      if .password ∈ fields then
        object.password
      else
        stored.password
    isActive :=
      if .isActive ∈ fields then
        object.isActive
      else
        stored.isActive
    isDeleted :=
      if .isDeleted ∈ fields then
        object.isDeleted
      else
        stored.isDeleted
    deletedAt :=
      if .deletedAt ∈ fields then
        object.deletedAt
      else
        stored.deletedAt }

/- The columns of `ApiKey` that are saved by name. -/
inductive KeyField
  | key
  | isActive
deriving DecidableEq

def ApiKey.assign
    (fields : List KeyField)
    (object stored : ApiKey) : ApiKey :=
  { stored with
    key :=
      if .key ∈ fields then object.key else stored.key
    isActive :=
      if .isActive ∈ fields then
        object.isActive
      else
        stored.isActive }

@[simp] theorem user_assign_id
    (fields : List UserField)
    (object stored : User) :
    (object.assign fields stored).id = stored.id := rfl

@[simp] theorem key_assign_user
    (fields : List KeyField)
    (object stored : ApiKey) :
    (object.assign fields stored).user = stored.user := rfl

/- What the columns of a user accept. -/
def User.check (row : User) : Except Exc Unit := do
  charColumn 150 row.username
  charColumn 254 row.email
  charColumn 150 row.firstName
  charColumn 150 row.lastName

------------------------------------------------------------
-- Statements
------------------------------------------------------------

/- The unique columns of `User`. -/
inductive UniqueField
  | username
  | email
deriving DecidableEq

def UniqueField.value :
    UniqueField → User → String
| .username, row => row.username
| .email, row => row.email

/- The rows and the entries of unique indexes. -/
inductive Lock
  | user (user : UserId)
  | unique (field : UniqueField) (value : String)
  | apiKey (user : UserId)
deriving DecidableEq

/- The row behind a lock. -/
def userBehind : Lock → Db → Option User
| .user user, d => d.find user
| _, _ => none

/-
  The queries of the services, the random values that they
  draw, and what they send to workers and to mail servers.
  The `INSERT` of a user enters the unique indexes one by
  one, each in a statement of its own.
-/
inductive Statement
  | findUserByEmail (email : String)
  | existsUsername (username : String)
  | getUser (user : UserId)
  | getAnyUser (user : UserId)
  | lockUser (user : UserId)
  | insertUser (row : User)
  | enterIndex (field : UniqueField) (row : User)
  | saveUser (object : User) (fields : List UserField)
  | getApiKey (user : UserId)
  | insertApiKey (row : ApiKey)
  | saveApiKey (object : ApiKey) (fields : List KeyField)
  | findApiKey (key : String)
  | touchApiKey (user : UserId) (now : Time)
  | generateApiKey
  | makeSalt
  | delay (user : UserId)
  | receive (user : UserId)
  | sendMail (recipient : String)

/-
  What a statement comes back with.  A `get` that raises
  `DoesNotExist` comes back with nothing.
-/
abbrev Statement.Answer : Statement → Type
| .findUserByEmail _ => Option User
| .existsUsername _ => Bool
| .getUser _ => Option User
| .getAnyUser _ => Option User
| .lockUser _ => Option User
| .insertUser _ => Unit
| .enterIndex _ _ => Unit
| .saveUser _ _ => Unit
| .getApiKey _ => Option ApiKey
| .insertApiKey _ => Unit
| .saveApiKey _ _ => Unit
| .findApiKey _ => Option (ApiKey × User)
| .touchApiKey _ _ => Unit
| .generateApiKey => String
| .makeSalt => Nat
| .delay _ => Unit
| .receive _ => Unit
| .sendMail _ => Unit

/-
  What the environment answers: a random token, a salt, or no
  more than that the call is done.
-/
inductive Reply
  | token (value : String)
  | salt (value : Nat)
  | done

def insertUser
    (row : User)
    (d : Db) : Db :=
  { d with users := d.users ++ [row] }

def updateUser
    (user : UserId)
    (f : User → User)
    (d : Db) : Db :=
  { d with users := Table.update User.id user f d.users }

def insertApiKey
    (row : ApiKey)
    (d : Db) : Db :=
  { d with apiKeys := d.apiKeys ++ [row] }

def updateApiKey
    (user : UserId)
    (f : ApiKey → ApiKey)
    (d : Db) : Db :=
  { d with
    apiKeys := Table.update ApiKey.user user f d.apiKeys }

/- Another row has the value of the unique column. -/
def Db.taken
    (d : Db)
    (field : UniqueField)
    (row : User) : Bool :=
  d.users.any
    (fun other =>
      other.id ≠ row.id ∧ field.value other = field.value row)

/-
  `ApiKey.objects.select_related("user")
  .get(key=key, is_active=True)`: the join shows the user
  whether deleted or not.
-/
def Db.authenticating
    (d : Db)
    (key : String) : Option (ApiKey × User) :=
  match
    d.apiKeys.find?
      (fun row => row.key = key ∧ row.isActive ∧ liveKey row)
    with
  | none => none
  | some row =>
      match d.find row.user with
      | none => none
      | some user => some (row, user)

def noRowUpdated : Exc :=
  .database .databaseError
    "Save with update_fields did not affect any rows."

def duplicateKey : Exc :=
  .database .integrityError
    "duplicate key value violates unique constraint"

/- What the database makes of each statement. -/
def plan :
    (q : Statement) → Db → Verdict Db Lock Exc q.Answer
| .findUserByEmail email, d =>
    .read
      (d.users.find?
        (fun row => row.email = email ∧ liveUser row))
| .existsUsername username, d =>
    .read
      (d.users.any
        (fun row => row.username = username ∧ liveUser row))
| .getUser user, d => .read ((d.find user).filter liveUser)
| .getAnyUser user, d => .read (d.find user)
| .lockUser user, d =>
    match (d.find user).filter liveUser with
    | some row => .done (some row) (some (.user user)) id
    | none => .read none
| .insertUser row, d =>
    match row.check with
    | .error e => .refuse e
    | .ok () =>
        match d.find row.id with
        | some _ => .refuse duplicateKey
        | none =>
            .done () (some (.user row.id)) (insertUser row)
| .enterIndex field row, d =>
    if d.taken field row then
      .refuse duplicateKey
    else
      .done () (some (.unique field (field.value row))) id
| .saveUser object fields, d =>
    match d.find object.id with
    | none => .refuse noRowUpdated
    | some _ =>
        .done () (some (.user object.id))
          (updateUser object.id (object.assign fields))
| .getApiKey user, d =>
    .read ((d.findKey user).filter liveKey)
| .insertApiKey row, d =>
    if
      d.apiKeys.any
        (fun other =>
          other.user = row.user ∨ other.key = row.key)
    then
      .refuse duplicateKey
    else
      .done () (some (.apiKey row.user)) (insertApiKey row)
| .saveApiKey object fields, d =>
    match d.findKey object.user with
    | none => .refuse noRowUpdated
    | some stored =>
        if
          d.apiKeys.any
            (fun other =>
              other.user ≠ object.user ∧
                other.key =
                  (object.assign fields stored).key)
        then
          .refuse duplicateKey
        else
          .done () (some (.apiKey object.user))
            (updateApiKey object.user (object.assign fields))
| .findApiKey key, d => .read (d.authenticating key)
| .touchApiKey user now, d =>
    match (d.findKey user).filter liveKey with
    | none => .read ()
    | some _ =>
        .done () (some (.apiKey user))
          (updateApiKey user
            (fun row => { row with lastUsedAt := some now }))
| _, _ => .outside

/- `API_KEY_PREFIX` -/
def apiKeyPrefix : String := "sk_"

/-
  The answers of the sources of random values, which never
  give out a value twice, of the broker and of the mail
  server.  A task that has been dispatched can be received at
  any time.
-/
def reply :
    (q : Statement) → Reply → Db → Option (q.Answer × Db)
| .generateApiKey, .token token, d =>
    if apiKeyPrefix ++ token ∈ d.keys then
      none
    else
      some
        (apiKeyPrefix ++ token,
          { d with keys := (apiKeyPrefix ++ token) :: d.keys })
| .makeSalt, .salt salt, d =>
    if salt ∈ d.salts then
      none
    else
      some (salt, { d with salts := salt :: d.salts })
| .delay user, .done, d =>
    some ((), { d with tasks := d.tasks ++ [user] })
| .receive user, .done, d =>
    if user ∈ d.tasks then some ((), d) else none
| .sendMail _, .done, d => some ((), d)
| _, _, _ => none

/- What an answer from outside adds to the data. -/
theorem reply_cases
    {q : Statement}
    {x : Reply}
    {a : q.Answer}
    {d d' : Db}
    (hReply : reply q x d = some (a, d')) :
    d' = d ∨
      (∃ key, d' = { d with keys := key :: d.keys }) ∨
        (∃ salt, d' = { d with salts := salt :: d.salts }) ∨
          ∃ user,
            d' = { d with tasks := d.tasks ++ [user] } := by
  unfold reply at hReply
  split at hReply
  · split at hReply <;> cases hReply
    exact Or.inr (Or.inl ⟨_, rfl⟩)
  · split at hReply <;> cases hReply
    exact Or.inr (Or.inr (Or.inl ⟨_, rfl⟩))
  · cases hReply
    exact Or.inr (Or.inr (Or.inr ⟨_, rfl⟩))
  · split at hReply <;> cases hReply
    exact Or.inl rfl
  · cases hReply
    exact Or.inl rfl
  · cases hReply

theorem users_of_reply
    {q : Statement}
    {x : Reply}
    {a : q.Answer}
    {d d' : Db}
    (hReply : reply q x d = some (a, d')) :
    d'.users = d.users := by
  rcases reply_cases hReply with
    rfl | ⟨_, rfl⟩ | ⟨_, rfl⟩ | ⟨_, rfl⟩ <;> rfl

theorem apiKeys_of_reply
    {q : Statement}
    {x : Reply}
    {a : q.Answer}
    {d d' : Db}
    (hReply : reply q x d = some (a, d')) :
    d'.apiKeys = d.apiKeys := by
  rcases reply_cases hReply with
    rfl | ⟨_, rfl⟩ | ⟨_, rfl⟩ | ⟨_, rfl⟩ <;> rfl

/- No key and no salt is forgotten. -/
theorem keys_of_reply
    {q : Statement}
    {x : Reply}
    {a : q.Answer}
    {d d' : Db}
    {key : String}
    (hReply : reply q x d = some (a, d'))
    (hMem : key ∈ d.keys) :
    key ∈ d'.keys := by
  rcases reply_cases hReply with
    rfl | ⟨_, rfl⟩ | ⟨_, rfl⟩ | ⟨_, rfl⟩
  · exact hMem
  · exact List.mem_cons_of_mem _ hMem
  · exact hMem
  · exact hMem

theorem salts_of_reply
    {q : Statement}
    {x : Reply}
    {a : q.Answer}
    {d d' : Db}
    {salt : Nat}
    (hReply : reply q x d = some (a, d'))
    (hMem : salt ∈ d.salts) :
    salt ∈ d'.salts := by
  rcases reply_cases hReply with
    rfl | ⟨_, rfl⟩ | ⟨_, rfl⟩ | ⟨_, rfl⟩
  · exact hMem
  · exact hMem
  · exact List.mem_cons_of_mem _ hMem
  · exact hMem

def backend :
    Backend Db Lock Statement Statement.Answer Reply Exc where
  aborted :=
    .database .transactionManagementError
      "You can't execute queries until the end of the block."
  plan := plan
  reply := reply

/- A program over the statements. -/
abbrev Service (α : Type) :=
  Prog (TxOp Statement) (TxOp.Res Statement.Answer) Exc α

/- One statement. -/
abbrev query (q : Statement) : Service q.Answer :=
  execute q

/- `raise` -/
abbrev raiseError {α : Type} (e : Exc) : Service α :=
  .raise e

end SiteAnalysis.Users
