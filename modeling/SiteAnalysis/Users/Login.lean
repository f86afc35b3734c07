import SiteAnalysis.Relational.Credit
import SiteAnalysis.Users.Statements

/-
  This file defines the login and the repeated verification
  email, and proves what the calls of all services write into
  the table of users.

  Key definitions include:
    * `authenticateUser`
    * `resendVerificationEmail`
    * `EntryCall`
    * `startEntries`
    * `PasswordOf`
    * `EmailOf`
    * `Traced`

  Key theorems include:
    * `executes_entry`
    * `conceals_users`
    * `keeps_traced`
-/

------------------------------------------------------------
-- Services
------------------------------------------------------------

namespace SiteAnalysis.Users

open Concurrency
open Relational
open Python

/- `InvalidCredentialsError()` -/
def invalidCredentials : Exc :=
  .application
    { kind := .application
      message := "Invalid email or password."
      extra := []
      statusCode := 401 }

/- `InactiveAccountError()` -/
def inactiveAccount : Exc :=
  .application
    { kind := .application
      message := "This account is inactive."
      extra := []
      statusCode := 403 }

/-
  `ModelBackend.authenticate`: without a user the password is
  hashed all the same, and an inactive user may not log in.
-/
def modelBackend
    (email password : String) : Service (Option User) := do
  let found : Option User ← query (.findUserByEmail email)
  match found with
  | none => do
      let _ : Nat ← query .makeSalt
      pure none
  | some user =>
      if user.checkPassword password && user.isActive then
        pure (some user)
      else
        pure none

/- `authenticate_user` -/
def authenticateUser
    (lib : Library)
    (email password : String) : Service User := do
  let email := lib.normalizeEmail email
  let found ← modelBackend email password
  match found with
  | none => do
      let existing ← getUserByEmail lib email
      match existing with
      | some user =>
          if !user.isActive then
            raiseError inactiveAccount
          else
            raiseError invalidCredentials
      | none => raiseError invalidCredentials
  | some user =>
      if !user.isActive then
        raiseError inactiveAccount
      else
        pure user

/- `resend_verification_email` -/
def resendVerificationEmail
    (lib : Library)
    (email : String) : Service Unit := do
  let found ← getUserByEmail lib email
  match found with
  | none => pure ()
  | some user =>
      if user.isActive && !user.isEmailVerified then
        query (.delay user.id)
      else
        pure ()

------------------------------------------------------------
-- Calls
------------------------------------------------------------

/- The calls of the other services, and the logins. -/
inductive EntryCall
  | serve (c : UserCall)
  | login (email password : String)
  | resend (email : String)

/- A login comes back with its user. -/
def EntryCall.program
    (lib : AccountLibrary) :
    Option EntryCall → AccountService (Option User)
| none => .ret none
| some (.serve c) => do
    let _ ← UserCall.program lib (some c)
    pure none
| some (.login email password) => do
    let user ←
      ofService
        (authenticateUser lib.toLibrary email password)
    pure (some user)
| some (.resend email) => do
    let _ ←
      ofService (resendVerificationEmail lib.toLibrary email)
    pure none

abbrev EntryWorld :=
  World (Store Db Lock) (TxOp AccountStatement)
    (TxOp.Res AccountStatement.Answer) Exc (Option User)

def startEntries
    (lib : AccountLibrary)
    (calls : Tid → Option EntryCall)
    (d : Db) : EntryWorld where
  shared := Store.quiet d
  threads := fun t =>
    .live (EntryCall.program lib (calls t))

/- The call of another service. -/
def EntryCall.served : Option EntryCall → Option UserCall
| some (.serve c) => some c
| _ => none

variable {lib : AccountLibrary} {d d' d'' : Db}
variable {call : Option EntryCall}
variable {calls : Tid → Option EntryCall}

theorem executes_entry
    (lib : AccountLibrary)
    (call : Option EntryCall) :
    Executes lib (EntryCall.served call) 0
      (EntryCall.program lib call) := by
  cases call with
  | none => exact executes_pure none
  | some call =>
      cases call with
      | serve c => exact (executes_userCall lib (some c)).map
      | login email password =>
          apply Executes.map
          apply executes_ofService
          apply Prog.Behaves.bind
          · apply executes_then
            · trivial
            intro found _
            cases found with
            | none =>
                apply executes_then
                · trivial
                · exact fun _ _ => executesBase_pure none
            | some user =>
                simp only
                split
                · exact executesBase_pure _
                · exact executesBase_pure _
          · intro found _
            cases found with
            | none =>
                apply executes_then
                · trivial
                intro existing _
                cases existing with
                | none => rfl
                | some user =>
                    simp only
                    split <;> rfl
            | some user =>
                simp only
                split
                · rfl
                · exact executesBase_pure _
      | resend email =>
          apply Executes.map
          apply executes_ofService
          apply executes_then
          · trivial
          intro found _
          cases found with
          | none => exact executesBase_pure ()
          | some user =>
              simp only
              split
              · exact
                  (Prog.behaves_execute (Or.inl trivial)).mono
                    (fun _ _ => trivial)
              · exact executesBase_pure ()

------------------------------------------------------------
-- Writes
------------------------------------------------------------

/- A row of the user has this password. -/
def PasswordOf
    (users : List User)
    (user : UserId)
    (raw : String) : Prop :=
  ∃ row ∈ users, row.id = user ∧ row.password.raw = raw

/- A row of the user has this address. -/
def EmailOf
    (users : List User)
    (user : UserId)
    (email : String) : Prop :=
  ∃ row ∈ users, row.id = user ∧ row.email = email

/- A password or an address is an old one, or the call's. -/
structure Traced
    (lib : AccountLibrary)
    (call : Option UserCall)
    (d d' : Db) : Prop where
  password :
    ∀ user raw, PasswordOf d'.users user raw →
      PasswordOf d.users user raw ∨
        ∃ c, call = some c ∧ c.Sets lib user raw
  email :
    ∀ user email, EmailOf d'.users user email →
      EmailOf d.users user email ∨
        ∃ c, call = some c ∧ c.Registers lib user email

variable {served : Option UserCall}

theorem traced_of_users
    (hUsers : d'.users = d.users) :
    Traced lib served d d' where
  password := by
    rw [hUsers]
    exact fun _ _ hHas => Or.inl hHas
  email := by
    rw [hUsers]
    exact fun _ _ hHas => Or.inl hHas

theorem traced_trans
    (hFirst : Traced lib served d d')
    (hSecond : Traced lib served d' d'') :
    Traced lib served d d'' where
  password := by
    intro user raw hHas
    rcases hSecond.password user raw hHas with hOld | hSet
    · exact hFirst.password user raw hOld
    · exact Or.inr hSet
  email := by
    intro user email hHas
    rcases hSecond.email user email hHas with hOld | hSet
    · exact hFirst.email user email hOld
    · exact Or.inr hSet

theorem traced_insertUser
    {row : User}
    (hUses : Uses lib served (.base (.insertUser row))) :
    Traced lib served d (insertUser row d) := by
  rcases hUses with ⟨_, c, hCall, hSets, hRegisters⟩
  refine ⟨?_, ?_⟩
  · rintro user raw ⟨row', hMem, rfl, rfl⟩
    rcases List.mem_append.mp hMem with hOld | hNew
    · exact Or.inl ⟨row', hOld, rfl, rfl⟩
    · rw [List.mem_singleton.mp hNew]
      exact Or.inr ⟨c, hCall, hSets⟩
  · rintro user email ⟨row', hMem, rfl, rfl⟩
    rcases List.mem_append.mp hMem with hOld | hNew
    · exact Or.inl ⟨row', hOld, rfl, rfl⟩
    · rw [List.mem_singleton.mp hNew]
      exact Or.inr ⟨c, hCall, hRegisters⟩

/- A row is rewritten under its address. -/
theorem traced_updateUser
    {id : UserId}
    {f : User → User}
    (hId : ∀ row, (f row).id = row.id)
    (hEmail : ∀ row, (f row).email = row.email)
    (hPassword :
      ∀ row, row.id = id →
        (f row).password = row.password ∨
          ∃ c, served = some c ∧
            c.Sets lib id (f row).password.raw) :
    Traced lib served d (updateUser id f d) := by
  refine ⟨?_, ?_⟩
  · rintro user raw ⟨row', hMem, rfl, rfl⟩
    rcases List.mem_map.mp hMem with ⟨row, hRow, rfl⟩
    split
    · rename_i hKey
      rcases hPassword row hKey with hSame | hSet
      · rw [hSame, hId]
        exact Or.inl ⟨row, hRow, rfl, rfl⟩
      · rw [hId, hKey]
        exact Or.inr hSet
    · exact Or.inl ⟨row, hRow, rfl, rfl⟩
  · rintro user email ⟨row', hMem, rfl, rfl⟩
    rcases List.mem_map.mp hMem with ⟨row, hRow, rfl⟩
    split
    · rw [hId, hEmail]
      exact Or.inl ⟨row, hRow, rfl, rfl⟩
    · exact Or.inl ⟨row, hRow, rfl, rfl⟩

/- The statements that leave the table of users alone. -/
def Aside : AccountStatement → Prop
| .base (.insertUser _) => False
| .base (.saveUser _ _) => False
| .base _ => True
| .saveColumns _ _ => False

theorem users_of_plan
    {q : AccountStatement}
    {a : q.Answer}
    {lock : Option Lock}
    {f : Db → Db}
    (hAside : Aside q)
    (hPlan : accountPlan q d = .done a lock f)
    (d' : Db) : (f d').users = d'.users := by
  cases q with
  | saveColumns object fields => exact hAside.elim
  | base q =>
      simp only [accountPlan] at hPlan
      cases q with
      | insertUser row => exact hAside.elim
      | saveUser object fields => exact hAside.elim
      | insertApiKey row =>
          simp only [plan] at hPlan
          split at hPlan
          · cases hPlan
          · cases hPlan
            rfl
      | saveApiKey object fields =>
          simp only [plan] at hPlan
          split at hPlan
          · cases hPlan
          · split at hPlan
            · cases hPlan
            · cases hPlan
              rfl
      | touchApiKey user now =>
          simp only [plan] at hPlan
          split at hPlan <;> cases hPlan <;> rfl
      | lockUser user =>
          simp only [plan] at hPlan
          split at hPlan <;> cases hPlan <;> rfl
      | enterIndex field row =>
          simp only [plan] at hPlan
          split at hPlan
          · cases hPlan
          · cases hPlan
            rfl
      | _ =>
          first
          | cases hPlan
            rfl
          | cases hPlan

theorem users_of_accountReply
    {q : AccountStatement}
    {x : Reply}
    {a : q.Answer}
    (hReply : accountReply q x d = some (a, d')) :
    d'.users = d.users := by
  cases q with
  | saveColumns object fields => cases hReply
  | base q => exact users_of_reply hReply

/- Only writes to the table of users are seen in it. -/
theorem conceals_users :
    accounts.Conceals Db.users Aside where
  plan := fun _ _ _ _ _ hAside hPlan d' =>
    users_of_plan hAside hPlan d'
  reply := fun _ _ _ _ _ hReply =>
    users_of_accountReply hReply

theorem traced_of_plan
    {q : AccountStatement}
    {a : q.Answer}
    {lock : Option Lock}
    {f : Db → Db}
    (hUses : Uses lib served q)
    (hPlan : accountPlan q d = .done a lock f)
    (d' : Db) : Traced lib served d' (f d') := by
  by_cases hAside : Aside q
  · exact traced_of_users (users_of_plan hAside hPlan d')
  · cases q with
    | saveColumns object fields =>
        simp only [accountPlan] at hPlan
        split at hPlan
        · cases hPlan
        · split at hPlan
          · cases hPlan
          · cases hPlan
            refine traced_updateUser ?_ ?_ ?_
            · exact fun _ => rfl
            · exact fun _ => rfl
            · exact fun _ _ => Or.inl rfl
    | base q =>
        simp only [accountPlan] at hPlan
        cases q with
        | insertUser row =>
            simp only [plan] at hPlan
            split at hPlan
            · cases hPlan
            · split at hPlan
              · cases hPlan
              · cases hPlan
                exact traced_insertUser hUses
        | saveUser object fields =>
            simp only [plan] at hPlan
            split at hPlan
            · cases hPlan
            · cases hPlan
              refine traced_updateUser ?_ ?_ ?_
              · exact fun _ => rfl
              · exact fun _ => rfl
              · intro row _
                by_cases hField : .password ∈ fields
                · refine Or.inr ?_
                  simpa [User.assign, hField] using
                    hUses.2 hField
                · exact Or.inl (if_neg hField)
        | _ => exact absurd trivial hAside

theorem keeps_traced
    (lib : AccountLibrary)
    (calls : Tid → Option EntryCall) :
    accounts.Keeps (fun _ => True)
      (fun t => Traced lib (EntryCall.served (calls t)))
      (fun t => Uses lib (EntryCall.served (calls t)))
      (fun _ _ => False) Looked where
  refl := fun _ _ => traced_of_users rfl
  trans := fun _ _ _ _ => traced_trans
  steadily := by
    intro t q d a lock f hUses _ hPlan
    refine ⟨looked_of_plan hPlan, ?_⟩
    intro d' _
    exact ⟨trivial, traced_of_plan hUses hPlan d'⟩
  instantly := fun _ _ _ _ _ _ hNever => hNever.elim
  reply := by
    intro t q x d a d' _ _ hReply
    exact
      ⟨looked_of_reply hReply, trivial,
        traced_of_users (users_of_accountReply hReply)⟩

end SiteAnalysis.Users
