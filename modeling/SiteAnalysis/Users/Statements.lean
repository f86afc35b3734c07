import SiteAnalysis.Relational.Heeding
import SiteAnalysis.Users.Revocation
import SiteAnalysis.Users.Registered
import SiteAnalysis.Users.Updates

/-
  This file proves which statements the services of the users
  execute, whatever they are answered.

  Key definitions include:
    * `UserCall`
    * `UserCall.Sets`
    * `UserCall.Registers`
    * `Uses`

  Key theorems include:
    * `looked_of_plan`
    * `uses_userCall`
-/

------------------------------------------------------------
-- Calls
------------------------------------------------------------

namespace SiteAnalysis.Users

open Concurrency
open Relational
open Python

/- The calls of all services. -/
inductive UserCall
  | mail (c : MailCall)
  | key (c : KeyCall)
  | account (c : AccountCall)

def UserCall.program
    (lib : AccountLibrary) :
    Option UserCall → AccountService Unit
| none => .ret ()
| some (.mail c) => do
    let _ ←
      ofService (MailCall.program lib.toLibrary (some c))
    pure ()
| some (.key c) => do
    let _ ← ofService (KeyCall.program (some c))
    pure ()
| some (.account c) => do
    let _ ← AccountCall.program lib (some c)
    pure ()

/-
  The call sets the password of the user, and the validators
  have accepted it.
-/
def UserCall.Sets
    (lib : AccountLibrary) :
    UserCall → UserId → String → Prop
| .mail (.register id input), user, raw =>
    user = id ∧ raw = input.password ∧
      lib.passwordErrors raw none = []
| .account (.change user' _ newPassword), user, raw =>
    user = user' ∧ raw = newPassword ∧
      ∃ row : User, row.id = user ∧
        lib.passwordErrors raw (some row) = []
| .account (.reset _ uid _ newPassword), user, raw =>
    lib.resets uid = some user ∧ raw = newPassword ∧
      ∃ row : User, row.id = user ∧
        lib.passwordErrors raw (some row) = []
| _, _, _ => False

/- The call registers the user under the address. -/
def UserCall.Registers
    (lib : AccountLibrary) :
    UserCall → UserId → String → Prop
| .mail (.register id input), user, email =>
    user = id ∧
      email =
        lib.normalizeEmail (lib.normalizeEmail input.email)
| _, _, _ => False

/- What a call, if any, executes. -/
def Uses
    (lib : AccountLibrary)
    (call : Option UserCall) : AccountStatement → Prop
| .base (.insertUser row) =>
    row.isActive = true ∧
      ∃ c, call = some c ∧
        c.Sets lib row.id row.password.raw ∧
          c.Registers lib row.id row.email
| .base (.saveUser object fields) =>
    .isActive ∉ fields ∧
      (.password ∈ fields →
        ∃ c, call = some c ∧
          c.Sets lib object.id object.password.raw)
| .base (.insertApiKey row) =>
    row.isActive = true ∧ row.isDeleted = false
| .base (.saveApiKey object fields) =>
    .isActive ∈ fields → object.isActive = true
| _ => True

variable {lib : AccountLibrary} {call : Option UserCall}

/- A row that the database shows has the identifier. -/
theorem looked_of_plan
    {q : AccountStatement}
    {d : Db}
    {a : q.Answer}
    {lock : Option Lock}
    {f : Db → Db}
    (hPlan : accountPlan q d = .done a lock f) :
    Looked q a := by
  cases q with
  | saveColumns object fields => trivial
  | base q =>
      simp only [accountPlan] at hPlan
      cases q with
      | getUser user =>
          cases hPlan
          exact fun row hFind => id_of_filter hFind
      | getAnyUser user =>
          cases hPlan
          exact fun row hFind => id_of_find hFind
      | lockUser user =>
          simp only [plan] at hPlan
          split at hPlan
          · rename_i row hFind
            cases hPlan
            intro row' hSame
            cases hSame
            exact id_of_filter hFind
          · cases hPlan
            exact fun row hNone => by cases hNone
      | _ => trivial

theorem looked_of_reply
    {q : AccountStatement}
    {x : Reply}
    {d d' : Db}
    {a : q.Answer}
    (hReply : accountReply q x d = some (a, d')) :
    Looked q a := by
  cases q with
  | saveColumns object fields => trivial
  | base q =>
      cases q with
      | getUser user => cases hReply
      | getAnyUser user => cases hReply
      | lockUser user => cases hReply
      | _ => trivial

------------------------------------------------------------
-- Programs
------------------------------------------------------------

variable {α : Type} {n : Nat}

/- With `n` frames open, only what the call uses. -/
abbrev Executes
    (lib : AccountLibrary)
    (call : Option UserCall)
    (n : Nat)
    (p : AccountService α) : Prop :=
  p.Behaves (Uses lib call) (fun _ => False) Looked n
    (fun _ => True) n

/- The same for the services of the other statements. -/
abbrev ExecutesBase
    (lib : AccountLibrary)
    (call : Option UserCall)
    (n : Nat)
    (p : Service α) : Prop :=
  p.Behaves (fun q => Uses lib call (.base q))
    (fun _ => False) (fun q a => Looked (.base q) a) n
    (fun _ => True) n

theorem executes_ofService
    {p : Service α}
    (hProg : ExecutesBase lib call n p) :
    Executes lib call n (ofService p) :=
  hProg.embed (fun _ hUses => hUses)
    (fun _ hNever => hNever) (fun _ _ hLooked => hLooked)

theorem executes_pure
    (a : α) : Executes lib call n (.ret a) :=
  ⟨rfl, trivial⟩

theorem executesBase_pure
    (a : α) : ExecutesBase lib call n (.ret a) :=
  ⟨rfl, trivial⟩

/- What is done with the result alone. -/
theorem Executes.map
    {β : Type}
    {p : AccountService α}
    {f : α → β}
    (hProg : Executes lib call n p) :
    Executes lib call n (p >>= fun a => pure (f a)) :=
  hProg.bind (fun a _ => executes_pure (f a))

theorem ExecutesBase.map
    {β : Type}
    {p : Service α}
    {f : α → β}
    (hProg : ExecutesBase lib call n p) :
    ExecutesBase lib call n (p >>= fun a => pure (f a)) :=
  hProg.bind (fun a _ => executesBase_pure (f a))

/- A statement, and what is done with its result. -/
theorem executes_then
    {q : Statement}
    {f : q.Answer → Service α}
    (hUses : Uses lib call (.base q))
    (hRest :
      ∀ a, Looked (.base q) a →
        ExecutesBase lib call n (f a)) :
    ExecutesBase lib call n
      ((query q : Service q.Answer) >>= f) := by
  have hQuery :
      (query q : Service q.Answer).Behaves
        (fun q => Uses lib call (.base q)) (fun _ => False)
        (fun q a => Looked (.base q) a) n
        (fun a => Looked (.base q) a) n :=
    Prog.behaves_execute (Or.inl hUses)
  exact hQuery.bind hRest

theorem executes_thenAccount
    {q : AccountStatement}
    {f : q.Answer → AccountService α}
    (hUses : Uses lib call q)
    (hRest :
      ∀ a, Looked q a → Executes lib call n (f a)) :
    Executes lib call n
      ((queryAccount q : AccountService q.Answer) >>= f) :=
  (Prog.behaves_execute (Or.inl hUses)).bind hRest

theorem executes_createApiKey
    (user : UserId) :
    ExecutesBase lib call n (createApiKey user) := by
  apply executes_then
  · trivial
  intro key _
  apply executes_then
  · exact ⟨rfl, rfl⟩
  · intro _ _
    exact executesBase_pure _

theorem executes_getOrCreateApiKey
    (user : UserId) :
    ExecutesBase lib call n (getOrCreateApiKey user) := by
  apply executes_then
  · trivial
  intro found _
  cases found with
  | some row => exact executesBase_pure row
  | none =>
      apply Prog.Behaves.handle
      · exact
          Prog.behaves_atomic (executes_createApiKey user)
      · exact fun row _ => executesBase_pure row
      intro e
      split
      · apply executes_then
        · trivial
        intro winner _
        cases winner with
        | some row => exact executesBase_pure row
        | none => rfl
      · rfl

theorem executes_rotateApiKey
    (user : UserId) :
    ExecutesBase lib call n (rotateApiKey user) := by
  apply Prog.behaves_atomic
  apply (executes_getOrCreateApiKey user).bind
  intro row _
  apply executes_then
  · trivial
  intro key _
  apply executes_then
  · exact fun _ => rfl
  · intro _ _
    exact executesBase_pure _

theorem executes_authenticate
    (header : Option String)
    (now : Time) :
    ExecutesBase lib call n (authenticate header now) := by
  unfold authenticate
  split
  · exact executesBase_pure none
  · split
    · exact executesBase_pure none
    · apply executes_then
      · trivial
      intro found _
      cases found with
      | none => rfl
      | some pair =>
          rcases pair with ⟨row, user⟩
          simp only
          split
          · rfl
          · apply executes_then
            · trivial
            · intro _ _
              exact executesBase_pure _

theorem executes_keyCall
    (c : KeyCall) :
    ExecutesBase lib call n (KeyCall.program (some c)) := by
  cases c with
  | getOrCreate user =>
      exact (executes_getOrCreateApiKey user).map
  | rotate user => exact (executes_rotateApiKey user).map
  | present header now =>
      exact (executes_authenticate header now).map

------------------------------------------------------------
-- Registrations
------------------------------------------------------------

/- A password that gets past the validators. -/
theorem behaves_validatePasswordStrength
    (password : String)
    (user : Option User) :
    (validatePasswordStrength lib.toLibrary password
        user).Behaves
      (fun q => Uses lib call (.base q)) (fun _ => False)
      (fun q a => Looked (.base q) a) n
      (fun _ => lib.passwordErrors password user = [])
      n := by
  unfold validatePasswordStrength
  split
  · rename_i hNone
    exact ⟨rfl, hNone⟩
  · rfl

theorem executes_insertRow
    {row : User}
    (hUses : Uses lib call (.base (.insertUser row))) :
    ExecutesBase lib call n (insertRow row) := by
  apply executes_then hUses
  intro _ _
  apply executes_then
  · trivial
  intro _ _
  apply (Prog.behaves_execute (Or.inl _)).mono
  · exact fun _ _ => trivial
  · trivial

theorem executes_createUser
    {id : UserId}
    {email : String}
    {input : Registration}
    (hUses :
      ∀ salt,
        Uses lib call
          (.base
            (.insertUser
              (input.user id (lib.normalizeEmail email)
                salt)))) :
    ExecutesBase lib call n
      (createUser lib.toLibrary id email input) := by
  unfold createUser
  split
  · rfl
  · apply executes_then
    · trivial
    intro salt _
    apply (executes_insertRow (hUses salt)).bind
    intro _ _
    apply Prog.Behaves.bind
    · exact (executes_getOrCreateApiKey id).map
    · exact fun _ _ => executesBase_pure _

theorem executes_onIntegrityError
    (email username : String) :
    ExecutesBase lib call n
      (onIntegrityError lib.toLibrary email username) := by
  apply executes_then
  · trivial
  intro existing _
  cases existing with
  | some row => rfl
  | none => rfl

theorem executes_registerUserBody
    {id : UserId}
    {input : Registration}
    (hCall : call = some (.mail (.register id input))) :
    ExecutesBase lib call n
      (registerUserBody lib.toLibrary id input) := by
  apply executes_then
  · trivial
  intro existing _
  cases existing with
  | some row => rfl
  | none =>
      apply executes_then
      · trivial
      intro taken _
      cases taken with
      | true => rfl
      | false =>
          apply
            (behaves_validatePasswordStrength
              input.password none).bind
          intro _ hNone
          apply Prog.Behaves.bind
          · apply Prog.Behaves.handle
            · apply executes_createUser
              intro salt
              exact
                ⟨rfl, _, hCall, ⟨rfl, rfl, hNone⟩, rfl,
                  rfl⟩
            · exact fun user _ => executesBase_pure user
            intro e
            split
            · exact executes_onIntegrityError _ _
            · rfl
          intro user _
          apply executes_then
          · trivial
          · exact fun _ _ => executesBase_pure user

theorem executes_mailCall
    (c : MailCall)
    (hCall : call = some (.mail c)) :
    ExecutesBase lib call n
      (MailCall.program lib.toLibrary (some c)) := by
  cases c with
  | register id input =>
      exact
        ExecutesBase.map
          (Prog.behaves_atomic
            (executes_registerUserBody hCall))
  | deliver user =>
      apply executes_then
      · trivial
      intro _ _
      apply ExecutesBase.map
      apply executes_then
      · trivial
      intro found _
      cases found with
      | none => exact executesBase_pure _
      | some row =>
          apply executes_then
          · trivial
          · exact fun _ _ => executesBase_pure _

------------------------------------------------------------
-- Accounts
------------------------------------------------------------

theorem executes_setPassword
    {row : User}
    {raw : String}
    {c : UserCall}
    (hCall : call = some c)
    (hSets : c.Sets lib row.id raw) :
    ExecutesBase lib call n (setPassword row raw) := by
  apply executes_then
  · trivial
  intro salt _
  apply executes_then
  · exact ⟨by simp, fun _ => ⟨c, hCall, hSets⟩⟩
  · exact fun _ _ => executesBase_pure _

theorem executes_changePasswordBody
    {row : User}
    {user : UserId}
    {currentPassword newPassword : String}
    (hCall :
      call =
        some
          (.account
            (.change user currentPassword newPassword)))
    (hId : row.id = user) :
    ExecutesBase lib call n
      (changePasswordBody lib.toLibrary row currentPassword
        newPassword) := by
  unfold changePasswordBody
  split
  · rfl
  · apply
      (behaves_validatePasswordStrength newPassword
        (some row)).bind
    intro _ hNone
    exact
      executes_setPassword hCall
        ⟨hId, rfl, row, rfl, hNone⟩

theorem executes_confirmPasswordResetBody
    {now : Time}
    {uid token newPassword : String}
    (hCall :
      call =
        some (.account (.reset now uid token newPassword))) :
    ExecutesBase lib call n
      (confirmPasswordResetBody lib.toLibrary now uid token
        newPassword) := by
  unfold confirmPasswordResetBody
  split
  · rfl
  · rename_i text hText
    split
    · rfl
    · rename_i user hUser
      have hResets : lib.resets uid = some user := by
        rw [AccountLibrary.resets, hText]
        exact hUser
      apply executes_then
      · trivial
      intro found hFound
      cases found with
      | none => rfl
      | some row =>
          have hId : row.id = user := hFound row rfl
          simp only
          split
          · rfl
          · apply
              (behaves_validatePasswordStrength newPassword
                (some row)).bind
            intro _ hNone
            apply executes_setPassword hCall
            rw [hId]
            exact ⟨hResets, rfl, row, hId, hNone⟩

theorem executes_verifyEmail
    (now : Time)
    (token : String) :
    Executes lib call n (verifyEmail lib now token) := by
  apply Prog.behaves_atomic
  unfold verifyEmailBody
  split
  · rfl
  · split
    · rfl
    · apply executes_thenAccount
      · trivial
      intro found _
      cases found with
      | none => rfl
      | some user =>
          simp only
          split
          · rfl
          · apply executes_thenAccount
            · trivial
            · exact fun _ _ => executes_pure _

theorem executes_updateProfile
    (user : User)
    (fields : List (String × Option String)) :
    Executes lib call n (updateProfile user fields) := by
  apply Prog.behaves_atomic
  unfold updateProfileBody
  simp only
  split
  · exact executes_pure _
  · apply executes_thenAccount
    · trivial
    · exact fun _ _ => executes_pure _

/- A request with the object that is loaded for it. -/
theorem executes_onLoaded
    {load : AccountService (Option User)}
    {user : UserId}
    {service : User → AccountService User}
    (hLoad :
      load.Behaves (Uses lib call) (fun _ => False) Looked n
        (fun found => ∀ row, found = some row → row.id = user)
        n)
    (hService :
      ∀ row, row.id = user →
        Executes lib call n (service row)) :
    Executes lib call n (onLoaded load service) := by
  apply hLoad.bind
  intro found hFound
  cases found with
  | none => exact executes_pure none
  | some row => exact (hService row (hFound row rfl)).map

theorem executes_accountCall
    (c : AccountCall)
    (hCall : call = some (.account c)) :
    Executes lib call n (AccountCall.program lib (some c)) := by
  have hUser :
      ∀ user,
        (queryAccount (.base (.getUser user)) :
            AccountService (Option User)).Behaves
          (Uses lib call) (fun _ => False) Looked n
          (fun found =>
            ∀ row, found = some row → row.id = user)
          n :=
    fun user =>
      Prog.behaves_execute
        (q := AccountStatement.base (.getUser user))
        (Or.inl trivial)
  cases c with
  | verify now token =>
      exact (executes_verifyEmail now token).map
  | profile user fields =>
      apply executes_onLoaded (hUser user)
      intro row _
      exact executes_updateProfile row fields
  | change user currentPassword newPassword =>
      apply executes_onLoaded (hUser user)
      intro row hId
      apply Prog.behaves_atomic
      apply executes_ofService
      exact executes_changePasswordBody hCall hId
  | reset now uid token newPassword =>
      apply Executes.map
      apply Prog.behaves_atomic
      apply executes_ofService
      exact executes_confirmPasswordResetBody hCall
  | softDelete user now =>
      apply executes_onLoaded (hUser user)
      intro row _
      apply executes_thenAccount
      · simp [Uses]
      · exact fun _ _ => executes_pure _
  | restore user =>
      have hAny :
          (queryAccount (.base (.getAnyUser user)) :
              AccountService (Option User)).Behaves
            (Uses lib call) (fun _ => False) Looked n
            (fun found =>
              ∀ row, found = some row → row.id = user)
            n :=
        Prog.behaves_execute
          (q := AccountStatement.base (.getAnyUser user))
          (Or.inl trivial)
      apply executes_onLoaded hAny
      intro row _
      apply executes_thenAccount
      · simp [Uses]
      · exact fun _ _ => executes_pure _

theorem executes_userCall
    (lib : AccountLibrary)
    (call : Option UserCall) :
    Executes lib call 0 (UserCall.program lib call) := by
  cases call with
  | none => exact executes_pure ()
  | some call =>
      cases call with
      | mail c =>
          exact
            (executes_ofService
              (executes_mailCall c rfl)).map
      | key c =>
          exact (executes_ofService (executes_keyCall c)).map
      | account c => exact (executes_accountCall c rfl).map

end SiteAnalysis.Users
