import Mathlib.Data.List.Induction
import SiteAnalysis.Users.Service

/-
  This file defines the other services that write accounts:
  the verification of an address, the update of a profile and
  the soft deletion, over statements that also save the
  columns which these write.

  Each service saves the columns that it has changed by name,
  from an object that may be older than its row.

  Key definitions include:
    * `AccountField`
    * `AccountStatement`
    * `accounts`
    * `verifyEmail`
    * `updateProfile`
    * `softDelete`
    * `restore`
    * `AccountCall`

  Key theorems include:
    * `foldl_setField`
-/

------------------------------------------------------------
-- Columns
------------------------------------------------------------

namespace SiteAnalysis.Users

open Concurrency
open Relational
open Python

/- The columns of a name. -/
inductive NameField
  | firstName
  | lastName
deriving DecidableEq

/- The columns of a verification and of a profile. -/
inductive AccountField
  | isEmailVerified
  | name (field : NameField)
deriving DecidableEq

def NameField.value : NameField → User → String
| .firstName, row => row.firstName
| .lastName, row => row.lastName

/- `setattr(user, key, value)` -/
def User.setName
    (user : User) : NameField → String → User
| .firstName, value => { user with firstName := value }
| .lastName, value => { user with lastName := value }

/- `UPDATE` of the listed columns from the object. -/
def User.assignColumns
    (fields : List AccountField)
    (object stored : User) : User :=
  { stored with
    isEmailVerified :=
      if .isEmailVerified ∈ fields then
        object.isEmailVerified
      else
        stored.isEmailVerified
    firstName :=
      if .name .firstName ∈ fields then
        object.firstName
      else
        stored.firstName
    lastName :=
      if .name .lastName ∈ fields then
        object.lastName
      else
        stored.lastName }

@[simp] theorem user_assignColumns_id
    (fields : List AccountField)
    (object stored : User) :
    (object.assignColumns fields stored).id = stored.id :=
  rfl

------------------------------------------------------------
-- Statements
------------------------------------------------------------

/- The statements of the services, and one more `UPDATE`. -/
inductive AccountStatement
  | base (q : Statement)
  | saveColumns (object : User) (fields : List AccountField)

abbrev AccountStatement.Answer : AccountStatement → Type
| .base q => q.Answer
| .saveColumns _ _ => Unit

def accountPlan :
    (q : AccountStatement) → Db →
      Verdict Db Lock Exc q.Answer
| .base q, d => plan q d
| .saveColumns object fields, d =>
    match d.find object.id with
    | none => .refuse noRowUpdated
    | some stored =>
        match (object.assignColumns fields stored).check with
        | .error e => .refuse e
        | .ok () =>
            .done () (some (.user object.id))
              (updateUser object.id
                (object.assignColumns fields))

def accountReply :
    (q : AccountStatement) → Reply → Db →
      Option (q.Answer × Db)
| .base q, x, d => reply q x d
| .saveColumns _ _, _, _ => none

def accounts :
    Backend Db Lock AccountStatement AccountStatement.Answer
      Reply Exc where
  aborted := backend.aborted
  plan := accountPlan
  reply := accountReply

/- A program over these statements. -/
abbrev AccountService (α : Type) :=
  Prog (TxOp AccountStatement)
    (TxOp.Res AccountStatement.Answer) Exc α

/- The result of a statement of a service. -/
def baseResult :
    (o : TxOp Statement) →
      TxOp.Res AccountStatement.Answer (o.embed .base) →
        TxOp.Res Statement.Answer o :=
  TxOp.restrict (fun _ a => a)

/- A service over these statements. -/
abbrev ofService
    {α : Type}
    (p : Service α) : AccountService α :=
  p.embed (TxOp.embed .base) baseResult

/- One statement. -/
abbrev queryAccount
    (q : AccountStatement) : AccountService q.Answer :=
  execute q

------------------------------------------------------------
-- Services
------------------------------------------------------------

/- The library, with the reader of verification tokens. -/
structure AccountLibrary extends Library where
  readVerificationToken : Time → String → Option String

/- `EmailAlreadyVerifiedError()` -/
def emailAlreadyVerified : Exc :=
  .application
    { kind := .application
      message := "This email address is already verified."
      extra := []
      statusCode := 409 }

/- `verify_email` under its decorator. -/
def verifyEmailBody
    (lib : AccountLibrary)
    (now : Time)
    (token : String) : AccountService User :=
  match lib.readVerificationToken now token with
  | none => .raise invalidToken
  | some text =>
      match lib.toUuid text with
      -- a `ValidationError`, which is not a `ValueError`
      | none => .raise (.other "is not a valid UUID.")
      | some id => do
          let found : Option User ←
            queryAccount (.base (.lockUser id))
          match found with
          | none => .raise invalidToken
          | some user =>
              if user.isEmailVerified then
                .raise emailAlreadyVerified
              else do
                let verified : User :=
                  { user with isEmailVerified := true }
                queryAccount
                  (.saveColumns verified [.isEmailVerified])
                pure verified

def verifyEmail
    (lib : AccountLibrary)
    (now : Time)
    (token : String) : AccountService User :=
  atomic (verifyEmailBody lib now token)

/- The members of `allowed`. -/
def NameField.ofKey : String → Option NameField
| "first_name" => some .firstName
| "last_name" => some .lastName
| _ => none

/- One turn of the loop over the given fields. -/
def setField
    (state : User × List NameField)
    (given : String × Option String) :
    User × List NameField :=
  match NameField.ofKey given.1, given.2 with
  | some field, some value =>
      (state.1.setName field value, state.2 ++ [field])
  | _, _ => state

/- `update_profile` under its decorator. -/
def updateProfileBody
    (user : User)
    (fields : List (String × Option String)) :
    AccountService User :=
  let result := fields.foldl setField (user, [])
  if result.2 = [] then
    pure result.1
  else do
    queryAccount
      (.saveColumns result.1 (result.2.map .name))
    pure result.1

def updateProfile
    (user : User)
    (fields : List (String × Option String)) :
    AccountService User :=
  atomic (updateProfileBody user fields)

/- `BaseModel.soft_delete` -/
def User.softDelete
    (user : User)
    (now : Time) : AccountService User := do
  let deleted : User :=
    { user with
      isDeleted := true
      deletedAt := some now }
  queryAccount
    (.base (.saveUser deleted [.isDeleted, .deletedAt]))
  pure deleted

/- `BaseModel.restore` -/
def User.restore
    (user : User) : AccountService User := do
  let restored : User :=
    { user with
      isDeleted := false
      deletedAt := none }
  queryAccount
    (.base (.saveUser restored [.isDeleted, .deletedAt]))
  pure restored

------------------------------------------------------------
-- Given Fields
------------------------------------------------------------

/- The last value that is given for a column. -/
def givenName
    (fields : List (String × Option String))
    (field : NameField) : Option String :=
  fields.reverse.findSome?
    (fun given =>
      if NameField.ofKey given.1 = some field then
        given.2
      else
        none)

/- The row with the given names. -/
def User.rename
    (fields : List (String × Option String))
    (row : User) : User :=
  { row with
    firstName :=
      (givenName fields .firstName).getD row.firstName
    lastName :=
      (givenName fields .lastName).getD row.lastName }

theorem givenName_append
    (fields : List (String × Option String))
    (given : String × Option String)
    (field : NameField) :
    givenName (fields ++ [given]) field =
      (if NameField.ofKey given.1 = some field then
          given.2
        else
          none).or (givenName fields field) := by
  rw [givenName, List.reverse_append]
  simp only [List.reverse_singleton, List.singleton_append,
    List.findSome?_cons]
  split
  · rename_i value hValue
    rw [hValue]
    rfl
  · rename_i hNone
    rw [hNone]
    rfl

/- A field that is not given, or given as `None`. -/
theorem setField_skip
    {given : String × Option String}
    (state : User × List NameField)
    (hSkip :
      NameField.ofKey given.1 = none ∨ given.2 = none) :
    setField state given = state ∧
      ∀ fields field,
        givenName (fields ++ [given]) field =
          givenName fields field := by
  refine ⟨?_, ?_⟩
  · unfold setField
    rcases hSkip with hField | hValue
    · rw [hField]
    · rw [hValue]
      split
      · rename_i hSome
        cases hSome
      · rfl
  · intro fields field
    rw [givenName_append]
    rcases hSkip with hField | hValue
    · rw [hField]
      rfl
    · rw [hValue]
      split <;> rfl

/- What the loop over the given fields comes to. -/
theorem foldl_setField
    (fields : List (String × Option String))
    (user : User) :
    (fields.foldl setField (user, [])).1 =
        user.rename fields ∧
      ∀ field,
        field ∈ (fields.foldl setField (user, [])).2 ↔
          (givenName fields field).isSome := by
  induction fields using List.reverseRecOn with
  | nil => exact ⟨rfl, fun _ => by simp [givenName]⟩
  | append_singleton fields given ih =>
      rw [List.foldl_append]
      simp only [List.foldl_cons, List.foldl_nil]
      by_cases hSkip :
        NameField.ofKey given.1 = none ∨ given.2 = none
      · have hSame := setField_skip (user, []) hSkip
        rw [(setField_skip _ hSkip).1]
        simp only [User.rename, hSame.2]
        exact ih
      · rw [not_or] at hSkip
        rcases Option.ne_none_iff_exists'.mp hSkip.1 with
          ⟨name, hName⟩
        rcases Option.ne_none_iff_exists'.mp hSkip.2 with
          ⟨value, hValue⟩
        have hGiven :
            ∀ field,
              givenName (fields ++ [given]) field =
                if name = field then
                  some value
                else
                  givenName fields field := by
          intro field
          rw [givenName_append, hName, hValue]
          by_cases hEq : name = field
          · simp [hEq]
          · simp [hEq]
        have hSet :
            setField (fields.foldl setField (user, []))
                given =
              ((fields.foldl setField (user, [])).1.setName
                  name value,
                (fields.foldl setField (user, [])).2 ++
                  [name]) := by
          simp only [setField, hName, hValue]
        rw [hSet]
        refine ⟨?_, ?_⟩
        · rw [ih.1]
          cases name with
          | firstName =>
              simp [User.setName, User.rename, hGiven]
          | lastName =>
              simp [User.setName, User.rename, hGiven]
        · intro field
          rw [hGiven, List.mem_append, ih.2,
            List.mem_singleton]
          by_cases hEq : name = field
          · simp [hEq]
          · simp [hEq, Ne.symm hEq]

/- The names that are saved are the given ones. -/
theorem assign_foldl_setField
    (fields : List (String × Option String))
    (object row : User) :
    ((fields.foldl setField (object, [])).1.assignColumns
        ((fields.foldl setField (object, [])).2.map .name)
        row) =
      row.rename fields := by
  have hLoop := foldl_setField fields object
  have hMem :
      ∀ field,
        AccountField.name field ∈
            (fields.foldl setField (object, [])).2.map
              .name ↔
          (givenName fields field).isSome := by
    intro field
    rw [← hLoop.2 field]
    simp
  have hVerified :
      AccountField.isEmailVerified ∉
        (fields.foldl setField (object, [])).2.map .name := by
    simp
  rw [User.assignColumns, hLoop.1]
  simp only [hMem, hVerified, if_false, User.rename]
  cases hFirst : givenName fields .firstName <;>
    cases hLast : givenName fields .lastName <;> simp

end SiteAnalysis.Users
