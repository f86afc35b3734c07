import SiteAnalysis.Relational.Confined
import SiteAnalysis.Users.Profiles
import SiteAnalysis.Users.Resets

/-
  This file verifies the services that write accounts, over
  every interleaving of any number of their calls.

  A call changes no column but its own, whatever it has read,
  and a verification verifies a user that nobody else has
  verified.

  Key definitions include:
    * `AccountCall`
    * `AccountCall.Writes`
    * `startAccounts`
    * `accountRegime`

  Key theorems include:
    * `confines_accounts`
    * `wp_verifyEmail`
    * `verified_accounts`
-/

------------------------------------------------------------
-- Calls
------------------------------------------------------------

namespace SiteAnalysis.Users

open Concurrency
open Relational
open Python

/- The calls; a request names the user that it loads. -/
inductive AccountCall
  | verify (now : Time) (token : String)
  | profile
      (user : UserId)
      (fields : List (String × Option String))
  | change
      (user : UserId)
      (currentPassword newPassword : String)
  | reset (now : Time) (uid token newPassword : String)
  | softDelete (user : UserId) (now : Time)
  | restore (user : UserId)

/- A service on the object that is loaded for the request. -/
def onLoaded
    (load : AccountService (Option User))
    (service : User → AccountService User) :
    AccountService (Option User) := do
  let found ← load
  match found with
  | none => pure none
  | some row => do
      let changed ← service row
      pure (some changed)

/-
  A call comes back with the user that it has changed; a
  request without a user, and an idle thread, with nothing.
-/
def AccountCall.program
    (lib : AccountLibrary) :
    Option AccountCall → AccountService (Option User)
| none => .ret none
| some (.verify now token) => do
    let user ← verifyEmail lib now token
    pure (some user)
| some (.profile user fields) =>
    onLoaded (queryAccount (.base (.getUser user)))
      (fun row => updateProfile row fields)
| some (.change user currentPassword newPassword) =>
    onLoaded (queryAccount (.base (.getUser user)))
      (fun row =>
        atomic
          (ofService
            (changePasswordBody lib.toLibrary row
              currentPassword newPassword)))
| some (.reset now uid token newPassword) => do
    let user ←
      atomic
        (ofService
          (confirmPasswordResetBody lib.toLibrary now uid
            token newPassword))
    pure (some user)
| some (.softDelete user now) =>
    onLoaded (queryAccount (.base (.getUser user)))
      (fun row => row.softDelete now)
| some (.restore user) =>
    onLoaded (queryAccount (.base (.getAnyUser user)))
      (fun row => row.restore)

abbrev AccountWorld :=
  World (Store Db Lock) (TxOp AccountStatement)
    (TxOp.Res AccountStatement.Answer) Exc (Option User)

def startAccounts
    (lib : AccountLibrary)
    (calls : Tid → Option AccountCall)
    (d : Db) : AccountWorld where
  shared := Store.quiet d
  threads := fun t =>
    .live (AccountCall.program lib (calls t))

------------------------------------------------------------
-- Writes
------------------------------------------------------------

/- The user whose address a token verifies. -/
def AccountLibrary.verifies
    (lib : AccountLibrary)
    (now : Time)
    (token : String) : Option UserId :=
  (lib.readVerificationToken now token).bind lib.toUuid

/- The user whom a reset link names. -/
def AccountLibrary.resets
    (lib : AccountLibrary)
    (uid : String) : Option UserId :=
  (lib.decodeUid uid).bind lib.toUuid

/- What a call makes of a row that it writes. -/
def AccountCall.Writes
    (lib : AccountLibrary) :
    AccountCall → User → User → Prop
| .verify now token, row, row' =>
    lib.verifies now token = some row.id ∧
      row' = { row with isEmailVerified := true }
| .profile user fields, row, row' =>
    user = row.id ∧ row' = row.rename fields
| .change user _ newPassword, row, row' =>
    user = row.id ∧
      ∃ salt, row' = { row with
        password := ⟨newPassword, salt⟩ }
| .reset _ uid _ newPassword, row, row' =>
    lib.resets uid = some row.id ∧
      ∃ salt, row' = { row with
        password := ⟨newPassword, salt⟩ }
| .softDelete user now, row, row' =>
    user = row.id ∧
      row' = { row with
        isDeleted := true
        deletedAt := some now }
| .restore user, row, row' =>
    user = row.id ∧
      row' = { row with
        isDeleted := false
        deletedAt := none }

/- A row is as it was, or the call has written it. -/
def Changed
    (lib : AccountLibrary)
    (call : Option AccountCall)
    (row row' : User) : Prop :=
  row' = row ∨ ∃ c, call = some c ∧ c.Writes lib row row'

/- Only the call has changed the users. -/
def ChangedUsers
    (lib : AccountLibrary)
    (call : Option AccountCall)
    (d d' : Db) : Prop :=
  List.Forall₂ (Changed lib call) d.users d'.users

variable {lib : AccountLibrary} {c : AccountCall}
variable {call : Option AccountCall}
variable {row row' row'' : User} {d d' d'' : Db}

theorem rename_rename
    (fields : List (String × Option String))
    (row : User) :
    (row.rename fields).rename fields =
      row.rename fields := by
  simp only [User.rename]
  cases givenName fields .firstName <;>
    cases givenName fields .lastName <;> rfl

theorem id_of_writes
    (hWrites : c.Writes lib row row') :
    row'.id = row.id := by
  cases c with
  | verify now token => rw [hWrites.2]
  | profile user fields =>
      rw [hWrites.2]
      rfl
  | change user currentPassword newPassword =>
      rcases hWrites.2 with ⟨salt, rfl⟩
      rfl
  | reset now uid token newPassword =>
      rcases hWrites.2 with ⟨salt, rfl⟩
      rfl
  | softDelete user now => rw [hWrites.2]
  | restore user => rw [hWrites.2]

/- A call that writes a row twice has written it. -/
theorem writes_trans
    (hFirst : c.Writes lib row row')
    (hSecond : c.Writes lib row' row'') :
    c.Writes lib row row'' := by
  cases c with
  | verify now token =>
      refine ⟨hFirst.1, ?_⟩
      rw [hSecond.2, hFirst.2]
  | profile user fields =>
      refine ⟨hFirst.1, ?_⟩
      rw [hSecond.2, hFirst.2, rename_rename]
  | change user currentPassword newPassword =>
      rcases hFirst with ⟨hId, _, rfl⟩
      rcases hSecond.2 with ⟨salt, rfl⟩
      exact ⟨hId, salt, rfl⟩
  | reset now uid token newPassword =>
      rcases hFirst with ⟨hId, _, rfl⟩
      rcases hSecond.2 with ⟨salt, rfl⟩
      exact ⟨hId, salt, rfl⟩
  | softDelete user now =>
      refine ⟨hFirst.1, ?_⟩
      rw [hSecond.2, hFirst.2]
  | restore user =>
      refine ⟨hFirst.1, ?_⟩
      rw [hSecond.2, hFirst.2]

theorem id_of_changed
    (hChanged : Changed lib call row row') :
    row'.id = row.id := by
  rcases hChanged with rfl | ⟨c, _, hWrites⟩
  · rfl
  · exact id_of_writes hWrites

theorem changed_trans
    (hFirst : Changed lib call row row')
    (hSecond : Changed lib call row' row'') :
    Changed lib call row row'' := by
  rcases hFirst with rfl | ⟨c, hCall, hWrites⟩
  · exact hSecond
  · rcases hSecond with rfl | ⟨c', hCall', hWrites'⟩
    · exact Or.inr ⟨c, hCall, hWrites⟩
    · rw [hCall] at hCall'
      cases hCall'
      exact Or.inr ⟨c, hCall, writes_trans hWrites hWrites'⟩

/- No call takes a verification back. -/
theorem verified_of_changed
    (hChanged : Changed lib call row row')
    (hVerified : row.isEmailVerified = true) :
    row'.isEmailVerified = true := by
  rcases hChanged with rfl | ⟨c, _, hWrites⟩
  · exact hVerified
  · cases c with
    | verify now token => rw [hWrites.2]
    | profile user fields =>
        rw [hWrites.2]
        exact hVerified
    | change user currentPassword newPassword =>
        rcases hWrites.2 with ⟨salt, rfl⟩
        exact hVerified
    | reset now uid token newPassword =>
        rcases hWrites.2 with ⟨salt, rfl⟩
        exact hVerified
    | softDelete user now =>
        rw [hWrites.2]
        exact hVerified
    | restore user =>
        rw [hWrites.2]
        exact hVerified

theorem changedUsers_refl
    (d : Db) : ChangedUsers lib call d d :=
  List.forall₂_same.mpr (fun _ _ => Or.inl rfl)

theorem changedUsers_of_users
    (hUsers : d'.users = d.users) :
    ChangedUsers lib call d d' := by
  rw [ChangedUsers, hUsers]
  exact List.forall₂_same.mpr (fun _ _ => Or.inl rfl)

theorem changedUsers_trans
    (hFirst : ChangedUsers lib call d d')
    (hSecond : ChangedUsers lib call d' d'') :
    ChangedUsers lib call d d'' := by
  unfold ChangedUsers at *
  generalize d.users = rows at *
  generalize d'.users = rows' at *
  generalize d''.users = rows'' at *
  induction hFirst generalizing rows'' with
  | nil => exact hSecond
  | cons hHead _ ih =>
      cases hSecond with
      | cons hHead' hTail' =>
          exact
            .cons (changed_trans hHead hHead')
              (ih _ hTail')

theorem changedUsers_update
    {id : UserId}
    {f : User → User}
    (d : Db)
    (hWrites :
      ∀ row, row.id = id → Changed lib call row (f row)) :
    ChangedUsers lib call d (updateUser id f d) := by
  change List.Forall₂ _ d.users (d.users.map _)
  rw [List.forall₂_map_right_iff, List.forall₂_same]
  intro row _
  split
  · rename_i hId
    exact hWrites row hId
  · exact Or.inl rfl

/- The row of a user, before and after. -/
theorem find_of_changedUsers
    {user : UserId}
    (hChanged : ChangedUsers lib call d d')
    (hFind : d.find user = some row) :
    ∃ row', d'.find user = some row' ∧
      Changed lib call row row' := by
  unfold ChangedUsers at hChanged
  unfold Db.find Table.find at *
  generalize d.users = rows at *
  generalize d'.users = rows' at *
  induction hChanged with
  | nil => cases hFind
  | @cons head head' tail tail' hHead _ ih =>
      have hId := id_of_changed hHead
      by_cases hUser : head.id = user
      · have hSame : head = row := by
          simpa [hUser] using hFind
        subst hSame
        refine ⟨head', ?_, hHead⟩
        simp [hId, hUser]
      · have hTail :
            tail.find? (fun r => User.id r = user) =
              some row := by
          simpa [hUser] using hFind
        rcases ih hTail with ⟨row', hFind', hRow⟩
        refine ⟨row', ?_, hRow⟩
        simpa [hId, hUser] using hFind'

------------------------------------------------------------
-- The Regime
------------------------------------------------------------

/-
  What is noted of a call: whom it is about to verify, and
  whom it has verified.
-/
structure AccountNote where
  seen : Option UserId
  verified : Option UserId

def AccountNote.fresh : AccountNote where
  seen := none
  verified := none

/- What a call knows. -/
abbrev AccountLocal :=
  Regime.Local Db Lock (Option User) Unit AccountNote

/-
  Whoever has been verified is, and no two calls have
  verified the same user.
-/
structure AccountInv
    (d : Db)
    (ns : Tid → AccountNote) : Prop where
  verified :
    ∀ t user, (ns t).verified = some user →
      ∃ row, d.find user = some row ∧
        row.isEmailVerified = true
  once :
    ∀ t t' user, (ns t).verified = some user →
      (ns t').verified = some user → t = t'

def noteAccount :
    (q : AccountStatement) → q.Answer → AccountNote →
      AccountNote
| .saveColumns object fields, _, n =>
    if .isEmailVerified ∈ fields then
      { n with seen := some object.id }
    else
      n
| _, _, n => n

def accountRegime
    (lib : AccountLibrary)
    (calls : Tid → Option AccountCall) :
    Regime accounts (Option User) (Option User) Unit
      AccountNote where
  ok := Machine.anyEvent
  frag := userBehind
  own := fun _ _ => ()
  inv := fun d ns _ => AccountInv d ns
  antitone := fun _ _ _ _ _ hInv => hInv
  guar := fun t d d' => ChangedUsers lib (calls t) d d'
  guar_refl := fun _ d => changedUsers_refl d
  shape := fun _ _ => True
  note := fun _ q a _ n => noteAccount q a n
  noteError := fun _ n => n
  inv_error := by
    intro t q d ns live hInv
    rw [Function.update_eq_self]
    exact hInv
  noteCommit := fun _ _ n => { n with verified := n.seen }
  noteLost := fun n => n

variable {ns : Tid → AccountNote} {t : Tid}
variable {calls : Tid → Option AccountCall}

/- Verified users stay verified. -/
theorem AccountInv.change
    (hInv : AccountInv d ns)
    (hChanged : ChangedUsers lib call d d') :
    AccountInv d' ns where
  verified := by
    intro t user hVerified
    rcases hInv.verified t user hVerified with
      ⟨row, hFind, hRow⟩
    rcases find_of_changedUsers hChanged hFind with
      ⟨row', hFind', hSame⟩
    exact ⟨row', hFind', verified_of_changed hSame hRow⟩
  once := hInv.once

/- A note that says the same of who has been verified. -/
theorem AccountInv.renote
    {n : AccountNote}
    (hInv : AccountInv d ns)
    (hSame : n.verified = (ns t).verified) :
    AccountInv d (Function.update ns t n) := by
  have hAll :
      ∀ t', (Function.update ns t n t').verified =
        (ns t').verified := by
    intro t'
    by_cases hEq : t' = t
    · rw [hEq, Function.update_self, hSame]
    · rw [Function.update_of_ne hEq]
  refine ⟨?_, ?_⟩
  · intro t' user hVerified
    rw [hAll] at hVerified
    exact hInv.verified t' user hVerified
  · intro t₁ t₂ user hFirst hSecond
    rw [hAll] at hFirst hSecond
    exact hInv.once t₁ t₂ user hFirst hSecond

/- A user is verified for the first time. -/
theorem AccountInv.verify
    {user : UserId}
    (hInv : AccountInv d ns)
    (hFind : d.find user = some row)
    (hNot : row.isEmailVerified = false)
    (hFind' : d'.find user = some row')
    (hVerified : row'.isEmailVerified = true)
    (hChanged : ChangedUsers lib call d d') :
    AccountInv d'
      (Function.update ns t ⟨some user, some user⟩) := by
  have hOther :
      ∀ t', (ns t').verified ≠ some user := by
    intro t' hOld
    rcases hInv.verified t' user hOld with
      ⟨old, hOldFind, hOldVerified⟩
    rw [hFind] at hOldFind
    cases hOldFind
    rw [hNot] at hOldVerified
    cases hOldVerified
  have hNext := hInv.change hChanged
  refine ⟨?_, ?_⟩
  · intro t' other hNoted
    by_cases hSame : t' = t
    · subst hSame
      rw [Function.update_self] at hNoted
      cases hNoted
      exact ⟨row', hFind', hVerified⟩
    · rw [Function.update_of_ne hSame] at hNoted
      exact hNext.verified t' other hNoted
  · intro t₁ t₂ other hFirst hSecond
    by_cases hSame₁ : t₁ = t
    · by_cases hSame₂ : t₂ = t
      · rw [hSame₁, hSame₂]
      · rw [hSame₁, Function.update_self] at hFirst
        rw [Function.update_of_ne hSame₂] at hSecond
        cases hFirst
        exact absurd hSecond (hOther t₂)
    · rw [Function.update_of_ne hSame₁] at hFirst
      by_cases hSame₂ : t₂ = t
      · rw [hSame₂, Function.update_self] at hSecond
        cases hSecond
        exact absurd hFirst (hOther t₁)
      · rw [Function.update_of_ne hSame₂] at hSecond
        exact hInv.once t₁ t₂ other hFirst hSecond

------------------------------------------------------------
-- Confined Calls
------------------------------------------------------------

/- The statements of a call that verifies nobody. -/
def Permitted
    (lib : AccountLibrary)
    (c : AccountCall) : AccountStatement → Prop
| .base (.getUser _) => True
| .base (.getAnyUser _) => True
| .base (.lockUser _) => True
| .base .makeSalt => True
| .base (.saveUser object fields) =>
    ∀ row, row.id = object.id →
      c.Writes lib row (object.assign fields row)
| .saveColumns object fields =>
    .isEmailVerified ∉ fields ∧
      ∀ row, row.id = object.id →
        c.Writes lib row (object.assignColumns fields row)
| _ => False

/- A row that is read has the identifier asked for. -/
def Looked :
    (q : AccountStatement) → q.Answer → Prop
| .base (.getUser user), found =>
    ∀ row, found = some row → row.id = user
| .base (.getAnyUser user), found =>
    ∀ row, found = some row → row.id = user
| .base (.lockUser user), found =>
    ∀ row, found = some row → row.id = user
| _, _ => True

theorem id_of_find
    {user : UserId}
    (hFind : d.find user = some row) :
    row.id = user :=
  Table.key_of_find hFind

theorem id_of_filter
    {user : UserId}
    (hFind : (d.find user).filter liveUser = some row) :
    row.id = user := by
  rw [Option.filter_eq_some_iff] at hFind
  exact id_of_find hFind.1

/- A save takes the lock of its row. -/
theorem frag_of_update
    {id : UserId}
    {f : User → User}
    {k : Lock}
    (hKeeps : ∀ row, row.id = id → (f row).id = row.id)
    (hOther : some (Lock.user id) ≠ some k) :
    userBehind k (updateUser id f d) = userBehind k d := by
  cases k with
  | unique field value => rfl
  | apiKey user => rfl
  | user user =>
      apply Table.find_update_of_ne
      · intro row hId
        rw [hKeeps row hId, hId]
      · rintro rfl
        exact hOther rfl

theorem confines_accounts
    (lib : AccountLibrary)
    (hCall : calls t = some c) :
    (accountRegime lib calls).Confines t (Permitted lib c)
      Looked (ChangedUsers lib (some c)) where
  refl := changedUsers_refl
  trans := fun _ _ _ => changedUsers_trans
  plan := by
    intro q d a lock f hAllowed hPlan
    cases q with
    | saveColumns object fields =>
        refine ⟨trivial, ?_⟩
        simp only [accounts, accountPlan] at hPlan
        split at hPlan
        · cases hPlan
        · split at hPlan
          · cases hPlan
          · cases hPlan
            intro d'
            refine ⟨?_, ?_⟩
            · apply changedUsers_update
              intro row hId
              exact Or.inr ⟨c, rfl, hAllowed.2 row hId⟩
            · intro k hOther
              exact frag_of_update (fun _ _ => rfl) hOther
    | base q =>
        cases q with
        | getUser user =>
            cases hPlan
            exact
              ⟨fun row hFind => id_of_filter hFind,
                fun d' =>
                  ⟨changedUsers_refl d', fun _ _ => rfl⟩⟩
        | getAnyUser user =>
            cases hPlan
            exact
              ⟨fun row hFind => id_of_find hFind,
                fun d' =>
                  ⟨changedUsers_refl d', fun _ _ => rfl⟩⟩
        | lockUser user =>
            simp only [accounts, accountPlan, plan] at hPlan
            split at hPlan
            · rename_i row hFind
              cases hPlan
              refine
                ⟨?_, fun d' =>
                  ⟨changedUsers_refl d', fun _ _ => rfl⟩⟩
              intro row' hSame
              cases hSame
              exact id_of_filter hFind
            · cases hPlan
              refine
                ⟨?_, fun d' =>
                  ⟨changedUsers_refl d', fun _ _ => rfl⟩⟩
              intro row' hSame
              cases hSame
        | saveUser object fields =>
            refine ⟨trivial, ?_⟩
            simp only [accounts, accountPlan, plan] at hPlan
            split at hPlan
            · cases hPlan
            · cases hPlan
              intro d'
              refine ⟨?_, ?_⟩
              · apply changedUsers_update
                intro row hId
                exact Or.inr ⟨c, rfl, hAllowed row hId⟩
              · intro k hOther
                exact frag_of_update (fun _ _ => rfl) hOther
        | makeSalt => cases hPlan
        | findUserByEmail email => exact hAllowed.elim
        | existsUsername username => exact hAllowed.elim
        | insertUser row => exact hAllowed.elim
        | enterIndex field row => exact hAllowed.elim
        | getApiKey user => exact hAllowed.elim
        | insertApiKey row => exact hAllowed.elim
        | saveApiKey object fields => exact hAllowed.elim
        | findApiKey key => exact hAllowed.elim
        | touchApiKey user now => exact hAllowed.elim
        | generateApiKey => exact hAllowed.elim
        | delay user => exact hAllowed.elim
        | receive user => exact hAllowed.elim
        | sendMail recipient => exact hAllowed.elim
  reply := by
    intro q x d a d' hAllowed hReply
    cases q with
    | saveColumns object fields => cases hReply
    | base q =>
        have hUsers := users_of_reply hReply
        refine ⟨?_, changedUsers_of_users hUsers, ?_⟩
        · cases q with
          | getUser user => cases hReply
          | getAnyUser user => cases hReply
          | lockUser user => cases hReply
          | _ => trivial
        · intro k
          cases k with
          | unique field value => rfl
          | apiKey user => rfl
          | user user =>
              change Db.find _ _ = Db.find _ _
              rw [Db.find, hUsers]
              rfl
  shape := fun _ _ => trivial
  note := by
    intro q a d n hAllowed
    cases q with
    | base q => rfl
    | saveColumns object fields =>
        exact if_neg hAllowed.1
  error := fun _ _ _ => rfl
  inv := fun _ _ _ _ hSmall hInv => hInv.change hSmall
  guar := by
    intro d d' hSmall
    change ChangedUsers lib (calls t) d d'
    rw [hCall]
    exact hSmall
  own := fun _ _ _ => rfl

------------------------------------------------------------
-- Straight Services
------------------------------------------------------------

variable {α : Type}

/- A program of the statements of a call. -/
abbrev StraightFor
    (lib : AccountLibrary)
    (c : AccountCall)
    (p : AccountService α) : Prop :=
  p.Straight (Regime.Queries (Permitted lib c))
    (Regime.Results Looked)

/- The same for the services of the passwords. -/
abbrev StraightBase
    (lib : AccountLibrary)
    (c : AccountCall)
    (p : Service α) : Prop :=
  p.Straight
    (Regime.Queries (fun q => Permitted lib c (.base q)))
    (Regime.Results (fun q a => Looked (.base q) a))

theorem straight_ofService
    {p : Service α}
    (hProg : StraightBase lib c p) :
    StraightFor lib c (ofService p) := by
  apply Prog.Straight.embed hProg
  · intro o hOp
    cases o with
    | query q => exact hOp
    | begin => exact hOp.elim
    | commit => exact hOp.elim
    | rollback => exact hOp.elim
  · intro o a hTrusted
    cases o with
    | query q => exact hTrusted
    | begin => trivial
    | commit => trivial
    | rollback => trivial

/- The call sets the password of the user. -/
def SetsPassword
    (lib : AccountLibrary)
    (c : AccountCall)
    (user : UserId)
    (raw : String) : Prop :=
  ∀ row salt, row.id = user →
    c.Writes lib row { row with password := ⟨raw, salt⟩ }

theorem straight_setPassword
    {raw : String}
    (hSets : SetsPassword lib c row.id raw) :
    StraightBase lib c (setPassword row raw) := by
  apply Prog.straight_perform
  · trivial
  · intro salt _
    apply Prog.straight_perform
    · intro row' hId
      simpa [User.assign] using hSets row' salt hId
    · intro _ _
      trivial

theorem straight_validatePasswordStrength
    (password : String)
    (user : Option User) :
    StraightBase lib c
      (validatePasswordStrength lib.toLibrary password
        user) := by
  unfold validatePasswordStrength
  split <;> trivial

theorem straight_changePasswordBody
    {currentPassword newPassword : String}
    (hSets : SetsPassword lib c row.id newPassword) :
    StraightBase lib c
      (changePasswordBody lib.toLibrary row currentPassword
        newPassword) := by
  unfold changePasswordBody
  split
  · trivial
  · apply
      (straight_validatePasswordStrength newPassword
        (some row)).bind
    intro _
    exact straight_setPassword hSets

theorem straight_confirmPasswordResetBody
    {now : Time}
    {uid token newPassword : String}
    (hSets :
      ∀ user, lib.resets uid = some user →
        SetsPassword lib c user newPassword) :
    StraightBase lib c
      (confirmPasswordResetBody lib.toLibrary now uid token
        newPassword) := by
  unfold confirmPasswordResetBody
  split
  · trivial
  · rename_i text hText
    split
    · trivial
    · rename_i user hUser
      have hResets : lib.resets uid = some user := by
        rw [AccountLibrary.resets, hText]
        exact hUser
      apply Prog.straight_perform
      · trivial
      · intro found hFound
        cases found with
        | none => trivial
        | some row =>
            have hId : row.id = user := hFound row rfl
            simp only
            split
            · trivial
            · apply
                (straight_validatePasswordStrength
                  newPassword (some row)).bind
              intro _
              apply straight_setPassword
              rw [hId]
              exact hSets user hResets

theorem straight_updateProfileBody
    {user : UserId}
    (fields : List (String × Option String))
    (hId : row.id = user) :
    StraightFor lib (.profile user fields)
      (updateProfileBody row fields) := by
  unfold updateProfileBody
  simp only
  split
  · trivial
  · apply Prog.straight_perform
    · refine ⟨by simp, ?_⟩
      intro stored hStored
      refine ⟨?_, assign_foldl_setField fields row stored⟩
      rw [hStored, (foldl_setField fields row).1]
      exact hId.symm
    · intro _ _
      trivial

------------------------------------------------------------
-- Calls That Verify Nobody
------------------------------------------------------------

variable {l : AccountLocal}

/- The transaction of such a call. -/
theorem wp_confined
    {body : AccountService α}
    (hCall : calls t = some c)
    (hBody : StraightFor lib c body)
    (hRest : Regime.Resting () .fresh l) :
    (accountRegime lib calls).wp t (atomic body)
      (fun _ _ => True) (fun _ _ => True) l := by
  apply Discipline.wp_mono
    (Regime.wp_atomic_straight
      (confines_accounts lib hCall) hBody
      (fun _ => rfl) hRest)
  · exact fun _ _ _ => trivial
  · exact fun _ _ _ => trivial

/- A statement of such a call at rest. -/
theorem wp_statement
    {q : AccountStatement}
    (hCall : calls t = some c)
    (hAllowed : Permitted lib c q)
    (hRest : Regime.Resting () .fresh l) :
    (accountRegime lib calls).wp t (queryAccount q)
      (fun a l' => Looked q a ∧ Regime.Resting () .fresh l')
      (fun _ _ => True) l := by
  apply Discipline.wp_mono
    (Regime.wp_execute_confined
      (confines_accounts lib hCall) hAllowed hRest)
  · exact fun _ _ hDone => hDone
  · exact fun _ _ _ => trivial

/- A request with the object that is loaded for it. -/
theorem wp_onLoaded
    {load : AccountService (Option User)}
    {service : User → AccountService User}
    {user : UserId}
    (hLoad :
      (accountRegime lib calls).wp t load
        (fun found l' =>
          (∀ row, found = some row → row.id = user) ∧
            Regime.Resting () .fresh l')
        (fun _ _ => True) l)
    (hService :
      ∀ row (l' : AccountLocal), row.id = user →
        Regime.Resting () .fresh l' →
          (accountRegime lib calls).wp t (service row)
            (fun _ _ => True) (fun _ _ => True) l') :
    (accountRegime lib calls).wp t (onLoaded load service)
      (fun _ _ => True) (fun _ _ => True) l := by
  apply Discipline.wp_bind
  apply Discipline.wp_mono hLoad
  · rintro found l' ⟨hFound, hRest⟩
    cases found with
    | none => exact trivial
    | some row =>
        apply Discipline.wp_bind
        apply Discipline.wp_mono
          (hService row l' (hFound row rfl) hRest)
        · exact fun _ _ _ => trivial
        · exact fun _ _ _ => trivial
  · exact fun _ _ _ => trivial

/- A save of an object at rest. -/
theorem wp_saveAtRest
    {object result : User}
    {fields : List UserField}
    (hCall : calls t = some c)
    (hWrites :
      ∀ row, row.id = object.id →
        c.Writes lib row (object.assign fields row))
    (hRest : Regime.Resting () .fresh l) :
    (accountRegime lib calls).wp t
      (do
        queryAccount (.base (.saveUser object fields))
        pure result)
      (fun _ _ => True) (fun _ _ => True) l := by
  apply Discipline.wp_bind
  apply Discipline.wp_mono
    (wp_statement (q := .base (.saveUser object fields)) hCall
      hWrites hRest)
  · exact fun _ _ _ => trivial
  · exact fun _ _ _ => trivial

theorem wp_confinedCall
    (hCall : calls t = some c)
    (hOther : ∀ now token, c ≠ .verify now token)
    (hRest : Regime.Resting () .fresh l) :
    (accountRegime lib calls).wp t
      (AccountCall.program lib (some c))
      (fun _ _ => True) (fun _ _ => True) l := by
  cases c with
  | verify now token => exact absurd rfl (hOther now token)
  | profile user fields =>
      apply
        wp_onLoaded
          (wp_statement (q := .base (.getUser user)) hCall
            trivial hRest)
      intro row l' hId hRest'
      exact
        wp_confined hCall
          (straight_updateProfileBody fields hId) hRest'
  | change user currentPassword newPassword =>
      apply
        wp_onLoaded
          (wp_statement (q := .base (.getUser user)) hCall
            trivial hRest)
      intro row l' hId hRest'
      apply wp_confined hCall _ hRest'
      apply straight_ofService
      apply straight_changePasswordBody
      intro stored salt hStored
      exact ⟨by rw [hStored, hId], salt, rfl⟩
  | reset now uid token newPassword =>
      apply Discipline.wp_bind
      apply Discipline.wp_mono
        (wp_confined hCall
          (straight_ofService
            (straight_confirmPasswordResetBody ?_)) hRest)
      · exact fun _ _ _ => trivial
      · exact fun _ _ _ => trivial
      · intro user hResets stored salt hStored
        exact ⟨by rw [hResets, hStored], salt, rfl⟩
  | softDelete user now =>
      apply
        wp_onLoaded
          (wp_statement (q := .base (.getUser user)) hCall
            trivial hRest)
      intro row l' hId hRest'
      apply wp_saveAtRest hCall _ hRest'
      intro stored hStored
      refine ⟨?_, ?_⟩
      · rw [hStored]
        exact hId.symm
      · simp [User.assign]
  | restore user =>
      apply
        wp_onLoaded
          (wp_statement (q := .base (.getAnyUser user)) hCall
            trivial hRest)
      intro row l' hId hRest'
      apply wp_saveAtRest hCall _ hRest'
      intro stored hStored
      refine ⟨?_, ?_⟩
      · rw [hStored]
        exact hId.symm
      · simp [User.assign]

------------------------------------------------------------
-- Verifications
------------------------------------------------------------

variable {now : Time} {token : String}

/- The `UPDATE` of a verification. -/
abbrev setVerified (row : User) : Db → Db :=
  updateUser row.id
    (User.assignColumns [.isEmailVerified]
      { row with isEmailVerified := true })

theorem changedUsers_setVerified
    (hVerifies : lib.verifies now token = some row.id)
    (d : Db) :
    ChangedUsers lib (some (.verify now token)) d
      (setVerified row d) := by
  apply changedUsers_update
  intro stored hStored
  refine Or.inr ⟨_, rfl, ?_, ?_⟩
  · rw [hVerifies, hStored]
  · simp [User.assignColumns]

theorem find_setVerified
    (hFind : d.find row.id = some row) :
    (setVerified row d).find row.id =
      some { row with isEmailVerified := true } := by
  have hKeys :
      ∀ stored : User, stored.id = row.id →
        (User.assignColumns [.isEmailVerified]
            { row with isEmailVerified := true }
            stored).id =
          row.id :=
    fun _ hKey => hKey
  change Table.find _ _ (Table.update _ _ _ _) = _
  rw [Table.find_update_self hKeys]
  change (d.find row.id).map _ = _
  rw [hFind]
  simp [User.assignColumns]

theorem frag_setVerified
    {k : Lock}
    (hOther : k ≠ .user row.id) :
    userBehind k (setVerified row d) = userBehind k d := by
  apply frag_of_update
  · exact fun _ _ => rfl
  · intro hSame
    cases hSame
    exact hOther rfl

/- The verification of a locked user is ready to commit. -/
theorem concludes_of_verified
    (hCall : calls t = some (.verify now token))
    (hVerifies : lib.verifies now token = some row.id)
    (hNot : row.isEmailVerified = false)
    (hSession :
      l.session = lockedSession row (setVerified row))
    (hNote : l.note = ⟨some row.id, none⟩) :
    ∃ fr,
      (accountRegime lib calls).Concludes t ()
        ⟨some row.id, none⟩
        (fun l' => l'.note.verified = some row.id) l fr := by
  have hHeld :
      l.session.held (.user row.id) = some (some row) := by
    simp [hSession, lockedSession]
  refine
    ⟨⟨setVerified row, [.user row.id], false⟩, ?_, rfl, rfl,
      hNote, ?_⟩
  · rw [hSession]
    rfl
  · intro d ns live hFits
    have hFind : d.find row.id = some row :=
      hFits.held _ _ hHeld
    have hChanged :
        ChangedUsers lib (calls t) d (setVerified row d) := by
      rw [hCall]
      exact changedUsers_setVerified hVerifies d
    refine
      ⟨⟨?_, hChanged, fun _ _ => rfl, ?_⟩, ?_⟩
    · exact
        hFits.inv.verify hFind hNot (find_setVerified hFind)
          rfl hChanged
    · intro k hFree
      apply frag_setVerified
      rintro rfl
      apply hFree
      rw [hHeld]
      exact Option.some_ne_none _
    · intro l' hRest
      rw [hRest.note]
      rfl

/- The column is saved. -/
theorem wp_saveVerified
    (hCall : calls t = some (.verify now token))
    (hVerifies : lib.verifies now token = some row.id)
    (hNot : row.isEmailVerified = false)
    (hSession : l.session = lockedSession row id)
    (hNote : l.note = .fresh) :
    (accountRegime lib calls).wp t
      (queryAccount
        (.saveColumns { row with isEmailVerified := true }
          [.isEmailVerified]))
      (fun _ l' =>
        ∃ fr,
          (accountRegime lib calls).Concludes t ()
            ⟨some row.id, none⟩
            (fun l'' => l''.note.verified = some row.id) l'
            fr)
      (fun _ l' => Regime.Abandons () .fresh l') l := by
  have hFrames :
      l.session.frames = [⟨id, [.user row.id], false⟩] := by
    rw [hSession]
    rfl
  have hHeld :
      l.session.held (.user row.id) = some (some row) := by
    simp [hSession, lockedSession]
  have hAbandons : Regime.Abandons () .fresh l :=
    ⟨⟨_, hFrames⟩, rfl, hNote⟩
  apply Regime.wp_execute_open trivial hFrames rfl
  · intro e _
    exact hAbandons.fail
  · intro d ns live _ x a d' _ hReply
    cases hReply
  · intro d ns live hFits _
    have hFind : d.find row.id = some row :=
      hFits.held _ _ hHeld
    have hView : l.session.view d = d := by
      rw [hSession]
      rfl
    simp only [accounts, accountPlan, hView, hFind]
    split
    · trivial
    · refine ⟨?_, ?_⟩
      · apply hFits.inv.renote
        rw [hFits.note, hNote]
        rfl
      · refine
          concludes_of_verified hCall hVerifies hNot ?_ ?_
        · simp only [Session.acquire, hFrames, hHeld,
            Option.isSome_some, if_true]
          simp only [Session.write, hSession, lockedSession]
          rfl
        · change
            noteAccount
                (.saveColumns
                  { row with isEmailVerified := true }
                  [.isEmailVerified]) () l.note =
              _
          rw [hNote]
          rfl

theorem wp_verifyEmailBody
    (hCall : calls t = some (.verify now token))
    (hSession :
      l.session =
        (Session.idle : Session Db Lock (Option User)).begin)
    (hNote : l.note = .fresh) :
    (accountRegime lib calls).wp t
      (verifyEmailBody lib now token)
      (fun user l' =>
        lib.verifies now token = some user.id ∧
          ∃ fr n,
            (accountRegime lib calls).Concludes t () n
              (fun l'' =>
                l''.note.verified = some user.id) l' fr)
      (fun _ l' => Regime.Abandons () .fresh l') l := by
  have hFrames : l.session.frames = [⟨id, [], false⟩] := by
    rw [hSession]
    rfl
  have hAbandons : Regime.Abandons () .fresh l :=
    ⟨⟨_, hFrames⟩, rfl, hNote⟩
  unfold verifyEmailBody
  split
  · exact hAbandons
  · rename_i text hText
    split
    · exact hAbandons
    · rename_i user hUser
      have hVerifies : lib.verifies now token = some user := by
        rw [AccountLibrary.verifies, hText]
        exact hUser
      apply Discipline.wp_bind
      apply Regime.wp_execute_open trivial hFrames rfl
      · intro e _
        exact hAbandons.fail
      · intro d ns live _ x a d' _ hReply
        cases hReply
      · intro d ns live hFits _
        have hView : l.session.view d = d := by
          rw [hSession]
          rfl
        have hKept :
            AccountInv d (Function.update ns t l.note) :=
          Regime.inv_same hFits.inv hFits.note
        simp only [accounts, accountPlan, plan, hView]
        cases hFind : (d.find user).filter liveUser with
        | none =>
            refine ⟨hKept, ?_⟩
            exact
              ⟨⟨⟨id, [], false⟩, by rw [hSession]; rfl⟩, rfl,
                hNote⟩
        | some row =>
            rw [Option.filter_eq_some_iff] at hFind
            have hId : row.id = user := id_of_find hFind.1
            subst hId
            refine ⟨hKept, ?_⟩
            have hLocked :
                (l.session.acquire (.user row.id)
                    (d.find row.id)).write id =
                  lockedSession row id := by
              rw [hSession, hFind.1]
              rfl
            change
              (accountRegime lib calls).wp t _ _ _
                { l with
                  session :=
                    (l.session.acquire (.user row.id)
                      (d.find row.id)).write id }
            rw [hLocked]
            simp only
            split
            · exact ⟨⟨_, rfl⟩, rfl, hNote⟩
            · rename_i hNot
              apply Discipline.wp_bind
              refine
                Discipline.wp_mono
                  (wp_saveVerified hCall hVerifies
                    (by simpa using hNot) rfl hNote) ?_ ?_
              · rintro _ l' ⟨fr, hConcludes⟩
                exact ⟨hVerifies, fr, _, hConcludes⟩
              · intro _ l' hAbandons'
                exact hAbandons'

theorem wp_verifyEmail
    (hCall : calls t = some (.verify now token))
    (hRest : Regime.Resting () .fresh l) :
    (accountRegime lib calls).wp t
      (verifyEmail lib now token)
      (fun user l' =>
        lib.verifies now token = some user.id ∧
          l'.note.verified = some user.id)
      (fun _ _ => True) l := by
  apply Regime.wp_atomic_rest trivial hRest
  · exact fun _ _ _ _ => trivial
  · intro l₀ hSession _ hNote
    apply Discipline.wp_mono
      (wp_verifyEmailBody hCall hSession hNote)
    · rintro user l' ⟨hVerifies, fr, n, hConcludes⟩
      refine
        ⟨trivial, fr, n,
          ⟨hConcludes.frames, hConcludes.intact,
            hConcludes.own, hConcludes.note, ?_⟩,
          fun _ _ _ _ => trivial⟩
      intro d ns live hFits
      have hPublish := hConcludes.publish d ns live hFits
      exact
        ⟨hPublish.1, fun l'' hRest'' =>
          ⟨hVerifies, hPublish.2 l'' hRest''⟩⟩
    · intro e l' hAbandons
      exact ⟨trivial, _, hAbandons, fun _ _ => trivial⟩

------------------------------------------------------------
-- Verification
------------------------------------------------------------

/- What is known of a verification that has returned. -/
def Verifies
    (lib : AccountLibrary)
    (calls : Tid → Option AccountCall)
    (t : Tid)
    (a : Option User)
    (n : AccountNote) : Prop :=
  ∀ now token user, calls t = some (.verify now token) →
    a = some user →
      lib.verifies now token = some user.id ∧
        n.verified = some user.id

/- Every call is verified. -/
theorem verified_accounts
    (lib : AccountLibrary)
    (calls : Tid → Option AccountCall)
    (d : Db) :
    (accountRegime lib calls).Verified
      (fun t a l => Verifies lib calls t a l.note)
      (fun _ _ _ => True) d (fun _ => .fresh)
      (startAccounts lib calls d) where
  quiet := rfl
  inv := by
    refine ⟨?_, ?_⟩
    · intro t user hVerified
      cases hVerified
    · intro t t' user hVerified
      cases hVerified
  threads := by
    intro t
    refine ⟨_, rfl, ?_⟩
    have hRest :
        Regime.Resting () AccountNote.fresh
          ((accountRegime lib calls).start t d .fresh) :=
      ⟨rfl, rfl, rfl⟩
    cases hCall : calls t with
    | none =>
        intro now token user hVerify
        rw [hCall] at hVerify
        cases hVerify
    | some c =>
        by_cases hVerify :
          ∃ now token, c = .verify now token
        · rcases hVerify with ⟨now, token, rfl⟩
          apply Discipline.wp_bind
          apply Discipline.wp_mono
            (wp_verifyEmail hCall hRest)
          · intro user l' hVerified _ _ other hSame hEq
            rw [hCall] at hSame
            cases hSame
            cases hEq
            exact hVerified
          · exact fun _ _ _ => trivial
        · apply Discipline.wp_mono
            (wp_confinedCall hCall _ hRest)
          · intro a l' _ now token user hOther
            rw [hCall] at hOther
            exact
              absurd ⟨now, token, Option.some.inj hOther⟩
                hVerify
          · exact fun _ _ _ => trivial
          · intro now token hEq
            exact hVerify ⟨now, token, hEq⟩
  ret := fun _ _ _ _ => trivial
  raise := fun _ _ _ _ => trivial
  lose := by
    intro w ls t hHolds _ _
    refine ⟨?_, trivial⟩
    change AccountInv _ (Function.update _ t (ls t).note)
    rw [Function.update_eq_self]
    exact hHolds.1.1

end SiteAnalysis.Users
