import SiteAnalysis.Relational.Fresh
import SiteAnalysis.Relational.Rest
import SiteAnalysis.Users.Service

/-
  This file verifies the confirmation of password resets,
  over every interleaving of any number of calls.

  A token is bound to the password hash that it was made for.
  The call locks the row before it checks the token, so that
  the hash is still the stored one when the call commits, and
  what it commits is a hash that was never stored before.

  Key definitions include:
    * `ResetCall`
    * `startResets`
    * `Binds`
    * `resetRegime`

  Key theorems include:
    * `wp_setPassword`
    * `wp_confirmPasswordResetBody`
    * `verified_resets`
-/

------------------------------------------------------------
-- Calls
------------------------------------------------------------

namespace SiteAnalysis.Users

open Concurrency
open Relational
open Python

/- A request to confirm a password reset. -/
structure ResetCall where
  now : Time
  uid : String
  token : String
  newPassword : String

abbrev ResetWorld :=
  World (Store Db Lock) (TxOp Statement)
    (TxOp.Res Statement.Answer) Exc (Option User)

/- An idle thread comes back with nothing. -/
def ResetCall.program
    (lib : Library) :
    Option ResetCall → Service (Option User)
| none => .ret none
| some call => do
    let user ←
      confirmPasswordReset lib call.now call.uid call.token
        call.newPassword
    pure (some user)

def startResets
    (lib : Library)
    (calls : Tid → Option ResetCall)
    (d : Db) : ResetWorld where
  shared := Store.quiet d
  threads := fun t => .live (ResetCall.program lib (calls t))

/- The call of the thread has returned the user. -/
def Accepted
    (w : ResetWorld)
    (t : Tid) : Prop :=
  ∃ user, w.threads t = .live (.ret (some user))

/- The password hash of an account. -/
abbrev Credential := UserId × Password

/- The credential is the stored one of its account. -/
def Db.Stored
    (d : Db)
    (credential : Credential) : Prop :=
  ∃ row, d.find credential.1 = some row ∧
    row.password = credential.2

/-
  A token only passes the check against the credential that
  it was made for.
-/
def Binds
    (lib : Library)
    (bound : String → Credential) : Prop :=
  ∀ now user token, lib.checkToken now user token = true →
    (user.id, user.password) = bound token

/- The salts of all stored hashes have been generated. -/
def Db.Salted (d : Db) : Prop :=
  ∀ credential, d.Stored credential →
    credential.2.salt ∈ d.salts

------------------------------------------------------------
-- The Regime
------------------------------------------------------------

/-
  What is noted of a call: the salts that it has drawn, the
  credential that it has locked, and whether it has
  committed.
-/
structure ResetNote where
  salts : List Nat
  locked : Option Credential
  accepted : Bool

def ResetNote.fresh : ResetNote where
  salts := []
  locked := none
  accepted := false

def passwords : Freshness Db ResetNote Credential where
  stored := fun d credential => d.Stored credential
  drawn := fun d credential => credential.2.salt ∈ d.salts
  mine := fun n credential => credential.2.salt ∈ n.salts

/-
  Every stored hash has left the hands of the call that drew
  its salt, and no two calls have a salt in common.
-/
structure ResetInv
    (d : Db)
    (ns : Tid → ResetNote) : Prop where
  stored :
    ∀ credential, d.Stored credential →
      passwords.Spent credential d ns
  drawn : ∀ t, ∀ salt ∈ (ns t).salts, salt ∈ d.salts
  apart :
    ∀ t t' salt, salt ∈ (ns t).salts →
      salt ∈ (ns t').salts → t' = t

/-
  What a call knows when it performs an operation: at the
  commit, that the locked credential is still stored and is
  about to be replaced.
-/
structure ResetShape
    (l : Regime.Local Db Lock (Option User) Unit ResetNote)
    (o : TxOp Statement) : Prop where
  working : l.note.accepted = false
  frames :
    ∀ fr ∈ l.session.frames, ∀ d,
      passwords.Allows l.note d (fr.pending d)
  inside : ∀ q, o = .query q → l.session.frames ≠ []
  locked :
    o = .commit →
      ∃ id row, l.note.locked = some (id, row.password) ∧
        l.session.held (.user id) = some (some row) ∧
          ∀ fr ∈ l.session.frames, ∀ d hash,
            (fr.pending d).Stored (id, hash) →
              hash.salt ∈ l.note.salts

def noteReset :
    (q : Statement) → q.Answer → ResetNote → ResetNote
| .lockUser id, some row, n =>
    { n with locked := some (id, row.password) }
| .makeSalt, salt, n => { n with salts := salt :: n.salts }
| _, _, n => n

def resetRegime :
    Regime backend (Option User) (Option User) Unit
      ResetNote where
  ok := Machine.anyEvent
  frag := userBehind
  own := fun _ _ => ()
  inv := fun d ns _ => ResetInv d ns
  antitone := fun _ _ _ _ _ hInv => hInv
  guar := fun _ _ _ => True
  guar_refl := fun _ _ => trivial
  shape := fun l o => ∀ o', o = some o' → ResetShape l o'
  note := fun _ q a _ n => noteReset q a n
  noteError := fun _ n => n
  inv_error := by
    intro t q d ns live hInv
    rw [Function.update_eq_self]
    exact hInv
  noteCommit := fun _ _ n =>
    { n with
      salts := []
      accepted := true }
  noteLost := fun n => n

------------------------------------------------------------
-- Data
------------------------------------------------------------

variable {d : Db} {ns : Tid → ResetNote} {t : Tid}
variable {n n' : ResetNote}

/- A note with the same salts. -/
theorem ResetInv.update
    (hInv : ResetInv d ns)
    (hSalts : ∀ salt ∈ n.salts, salt ∈ (ns t).salts) :
    ResetInv d (Function.update ns t n) := by
  have hOld :
      ∀ t' salt,
        salt ∈ (Function.update ns t n t').salts →
          salt ∈ (ns t').salts := by
    intro t' salt hMem
    by_cases hSame : t' = t
    · subst hSame
      rw [Function.update_self] at hMem
      exact hSalts salt hMem
    · rw [Function.update_of_ne hSame] at hMem
      exact hMem
  refine ⟨?_, ?_, ?_⟩
  · intro credential hStored
    have hSpent := hInv.stored credential hStored
    exact
      ⟨hSpent.1, fun t' hMine => hSpent.2 t' (hOld t' _ hMine)⟩
  · intro t' salt hMem
    exact hInv.drawn t' salt (hOld t' salt hMem)
  · intro t₁ t₂ salt hMem₁ hMem₂
    exact
      hInv.apart t₁ t₂ salt (hOld t₁ salt hMem₁)
        (hOld t₂ salt hMem₂)

/- A new salt is drawn. -/
theorem ResetInv.draw
    {salt : Nat}
    (hInv : ResetInv d ns)
    (hFresh : salt ∉ d.salts)
    (hNote : n.salts = salt :: (ns t).salts) :
    ResetInv { d with salts := salt :: d.salts }
      (Function.update ns t n) := by
  have hCases :
      ∀ t' s, s ∈ (Function.update ns t n t').salts →
        s ∈ (ns t').salts ∨ t' = t ∧ s = salt := by
    intro t' s hMem
    by_cases hSame : t' = t
    · subst hSame
      rw [Function.update_self, hNote] at hMem
      rcases List.mem_cons.mp hMem with hNew | hOld
      · exact Or.inr ⟨rfl, hNew⟩
      · exact Or.inl hOld
    · rw [Function.update_of_ne hSame] at hMem
      exact Or.inl hMem
  refine ⟨?_, ?_, ?_⟩
  · intro credential hStored
    have hSpent := hInv.stored credential hStored
    refine ⟨List.mem_cons_of_mem _ hSpent.1, ?_⟩
    intro t' hMine
    rcases hCases t' _ hMine with hOld | ⟨_, hNew⟩
    · exact hSpent.2 t' hOld
    · apply hFresh
      rw [← hNew]
      exact hSpent.1
  · intro t' s hMem
    rcases hCases t' s hMem with hOld | ⟨_, hNew⟩
    · exact List.mem_cons_of_mem _ (hInv.drawn t' s hOld)
    · rw [hNew]
      exact List.mem_cons_self
  · intro t₁ t₂ s hMem₁ hMem₂
    rcases hCases t₁ s hMem₁ with hOld₁ | ⟨hSame₁, hNew₁⟩
    · rcases hCases t₂ s hMem₂ with hOld₂ | ⟨_, hNew₂⟩
      · exact hInv.apart t₁ t₂ s hOld₁ hOld₂
      · exact
          absurd (hInv.drawn t₁ s hOld₁) (hNew₂ ▸ hFresh)
    · rcases hCases t₂ s hMem₂ with hOld₂ | ⟨hSame₂, _⟩
      · exact
          absurd (hInv.drawn t₂ s hOld₂) (hNew₁ ▸ hFresh)
      · exact hSame₂.trans hSame₁.symm

/- The write of a new password hash. -/
def setHash
    (user : User) : Db → Db :=
  updateUser user.id (user.assign [.password])

theorem find_setHash_self
    (user : User) :
    (setHash user d).find user.id =
      (d.find user.id).map (user.assign [.password]) :=
  Table.find_update_self (fun _ hKey => hKey)

theorem find_setHash_of_ne
    {user : User}
    {id : UserId}
    (hNe : id ≠ user.id) :
    (setHash user d).find id = d.find id :=
  Table.find_update_of_ne (fun _ hKey => hKey) hNe

/- A hash is stored as before, or it is the new one. -/
theorem stored_setHash
    {user : User}
    {credential : Credential}
    (hStored : (setHash user d).Stored credential) :
    credential.1 ≠ user.id ∧ d.Stored credential ∨
      credential = (user.id, user.password) ∧
        ∃ row, d.find user.id = some row := by
  rcases hStored with ⟨row, hFind, hPassword⟩
  by_cases hSame : credential.1 = user.id
  · right
    rw [hSame, find_setHash_self, Option.map_eq_some_iff]
      at hFind
    rcases hFind with ⟨old, hOld, rfl⟩
    refine ⟨Prod.ext hSame ?_, old, hOld⟩
    rw [← hPassword]
    rfl
  · rw [find_setHash_of_ne hSame] at hFind
    exact Or.inl ⟨hSame, row, hFind, hPassword⟩

theorem allows_setHash
    {user : User}
    (hMine : user.password.salt ∈ n.salts) :
    passwords.Allows n d (setHash user d) where
  stored := by
    intro credential hStored
    rcases stored_setHash hStored with
      ⟨_, hOld⟩ | ⟨hNew, _⟩
    · exact Or.inl hOld
    · rw [hNew]
      exact Or.inr hMine
  drawn := fun _ hDrawn => hDrawn

/- The hash leaves the hands of the call that stores it. -/
theorem ResetInv.setHash
    {user : User}
    (hInv : ResetInv d ns)
    (hMine : user.password.salt ∈ (ns t).salts)
    (hSalts : n.salts = []) :
    ResetInv (setHash user d) (Function.update ns t n) := by
  have hCleared :
      ResetInv d (Function.update ns t n) := by
    apply hInv.update
    rw [hSalts]
    intro salt hMem
    cases hMem
  refine ⟨?_, hCleared.drawn, hCleared.apart⟩
  intro credential hStored
  rcases stored_setHash hStored with ⟨_, hOld⟩ | ⟨rfl, _⟩
  · exact hCleared.stored credential hOld
  · refine ⟨hInv.drawn t _ hMine, ?_⟩
    intro t' hMine'
    by_cases hSame : t' = t
    · subst hSame
      simp only [passwords, Function.update_self, hSalts]
        at hMine'
      cases hMine'
    · rw [Function.update_of_ne hSame] at hMine'
      exact hSame (hInv.apart t t' _ hMine hMine')

------------------------------------------------------------
-- The Call
------------------------------------------------------------

variable {lib : Library} {call : ResetCall}
variable {l : Regime.Local Db Lock (Option User) Unit ResetNote}

/- The row is locked, and `p` is pending. -/
def lockedSession
    (row : User)
    (p : Db → Db) : Session Db Lock (Option User) where
  frames := [⟨p, [.user row.id], false⟩]
  held :=
    Function.update (fun _ => none) (.user row.id)
      (some (some row))

/- The operation is not the last one. -/
theorem resetShape_of
    {o : TxOp Statement}
    (hWorking : l.note.accepted = false)
    (hFrames :
      ∀ fr ∈ l.session.frames, ∀ d,
        passwords.Allows l.note d (fr.pending d))
    (hInside : ∀ q, o = .query q → l.session.frames ≠ [])
    (hCommit : o ≠ .commit) :
    resetRegime.shape l (some o) := by
  intro o' hSame
  cases hSame
  exact
    ⟨hWorking, hFrames, hInside,
      fun hEq => absurd hEq hCommit⟩

/- The call is bound to be rolled back. -/
structure Failing
    (l : Regime.Local Db Lock (Option User) Unit
      ResetNote) : Prop where
  frames :
    ∃ fr, l.session.frames = [fr] ∧
      ∀ d, passwords.Allows l.note d (fr.pending d)
  working : l.note.accepted = false

/- A failing call is ready to roll back. -/
theorem Failing.rollback
    (hFailing : Failing l) :
    resetRegime.shape l (some .rollback) ∧
      ∃ n', Regime.Abandons () n' l ∧
        ∀ l' : Regime.Local Db Lock (Option User) Unit
            ResetNote,
          Regime.Resting () n' l' →
            l'.note.accepted = false := by
  rcases hFailing.frames with ⟨fr, hFrames, hAllows⟩
  refine ⟨?_, l.note, ⟨⟨fr, hFrames⟩, rfl, rfl⟩, ?_⟩
  · apply resetShape_of hFailing.working
    · intro fr' hMem
      rw [hFrames, List.mem_singleton] at hMem
      rw [hMem]
      exact hAllows
    · intro q hEq
      cases hEq
    · intro hEq
      cases hEq
  · intro l' hRest
    rw [hRest.note]
    exact hFailing.working

/- A query of the call fails. -/
theorem failing_of_fail
    {fr : Frame Db Lock}
    (hFrames : l.session.frames = [fr])
    (hAllows : ∀ d, passwords.Allows l.note d (fr.pending d))
    (hWorking : l.note.accepted = false) :
    Failing { l with session := l.session.fail } where
  frames := by
    refine ⟨{ fr with broken := true }, ?_, hAllows⟩
    simp [Session.fail, hFrames]
  working := hWorking

/- A call in a transaction with nothing pending. -/
theorem failing_of_quiet
    {locks : List Lock}
    {broken : Bool}
    (hFrames : l.session.frames = [⟨id, locks, broken⟩])
    (hWorking : l.note.accepted = false) :
    Failing l where
  frames := ⟨_, hFrames, fun d => passwords.allows_refl l.note d⟩
  working := hWorking

/- What a call knows when it has changed the password. -/
abbrev Replaces
    (t : Tid)
    (row : User)
    (l : Regime.Local Db Lock (Option User) Unit
      ResetNote) : Prop :=
  resetRegime.shape l (some .commit) ∧
    ∃ fr n',
      resetRegime.Concludes t () n'
          (fun l' =>
            l'.note.accepted = true ∧
              l'.note.locked = some (row.id, row.password))
          l fr ∧
        n'.accepted = false

/- The write is pending under the lock. -/
theorem replaces_of_saved
    {row changed : User}
    (hId : changed.id = row.id)
    (hSession :
      l.session = lockedSession row (setHash changed))
    (hNote :
      l.note =
        ⟨[changed.password.salt],
          some (row.id, row.password), false⟩) :
    Replaces t row l := by
  have hFrames :
      l.session.frames =
        [⟨setHash changed, [.user row.id], false⟩] := by
    rw [hSession]
    rfl
  have hHeld :
      l.session.held (.user row.id) = some (some row) := by
    simp [hSession, lockedSession]
  have hMine : changed.password.salt ∈ l.note.salts := by
    rw [hNote]
    exact List.mem_singleton.mpr rfl
  refine ⟨?_, ⟨setHash changed, [.user row.id], false⟩,
    l.note, ⟨hFrames, rfl, rfl, rfl, ?_⟩, ?_⟩
  · intro o hSame
    cases hSame
    refine ⟨?_, ?_, ?_, ?_⟩
    · rw [hNote]
    · intro fr hMem d
      rw [hFrames, List.mem_singleton] at hMem
      rw [hMem]
      exact allows_setHash hMine
    · intro q hEq
      cases hEq
    · intro _
      refine ⟨row.id, row, ?_, hHeld, ?_⟩
      · rw [hNote]
      · intro fr hMem d hash hStored
        rw [hFrames, List.mem_singleton] at hMem
        rw [hMem] at hStored
        rcases stored_setHash hStored with
          ⟨hNe, _⟩ | ⟨hNew, _⟩
        · exact absurd hId.symm hNe
        · have hHash : hash = changed.password :=
            congrArg Prod.snd hNew
          rw [hHash]
          exact hMine
  · intro d ns live hFits
    refine ⟨⟨?_, trivial, fun _ _ => rfl, ?_⟩, ?_⟩
    · apply hFits.inv.setHash _ rfl
      rw [hFits.note]
      exact hMine
    · intro k hFree
      cases k with
      | apiKey user => rfl
      | unique field value => rfl
      | user id =>
          apply find_setHash_of_ne
          intro hSame
          apply hFree
          rw [hSame, hId, hHeld]
          exact Option.some_ne_none _
    · intro l' hRest
      rw [hRest.note]
      refine ⟨rfl, ?_⟩
      rw [hNote]
      rfl
  · rw [hNote]

/- The new hash is saved. -/
theorem wp_saveHash
    (row : User)
    {changed : User}
    (hId : changed.id = row.id)
    (hSession : l.session = lockedSession row id)
    (hNote :
      l.note =
        ⟨[changed.password.salt],
          some (row.id, row.password), false⟩) :
    resetRegime.wp t (query (.saveUser changed [.password]))
      (fun _ l' => Replaces t row l')
      (fun _ l' => Failing l') l := by
  have hFrames :
      l.session.frames = [⟨id, [.user row.id], false⟩] := by
    rw [hSession]
    rfl
  have hWorking : l.note.accepted = false := by
    rw [hNote]
  have hHeld :
      l.session.held (.user row.id) = some (some row) := by
    simp [hSession, lockedSession]
  apply Regime.wp_execute_open _ hFrames rfl
  · intro e _
    exact
      failing_of_fail hFrames
        (fun d => passwords.allows_refl _ d) hWorking
  · intro d ns live _ x a d' _ hReply
    cases hReply
  · intro d ns live hFits _
    have hFind : d.find row.id = some row :=
      hFits.held _ _ hHeld
    have hView : l.session.view d = d := by
      rw [hSession]
      rfl
    simp only [backend, plan, hView, hId, hFind]
    refine ⟨Regime.inv_same hFits.inv hFits.note, ?_⟩
    refine replaces_of_saved hId ?_ ?_
    · simp only [Session.acquire, hFrames, hHeld,
        Option.isSome_some, if_true]
      simp only [Session.write, hSession, lockedSession,
        setHash, hId]
      rfl
    · exact hNote
  · apply resetShape_of hWorking
    · intro fr hMem d
      rw [hFrames, List.mem_singleton] at hMem
      rw [hMem]
      exact passwords.allows_refl _ _
    · intro q _
      rw [hFrames]
      exact List.cons_ne_nil _ _
    · intro hEq
      cases hEq

/- The salt is drawn, and the hash is saved. -/
theorem wp_setPassword
    {row : User}
    {raw : String}
    (hSession : l.session = lockedSession row id)
    (hNote :
      l.note = ⟨[], some (row.id, row.password), false⟩) :
    resetRegime.wp t (setPassword row raw)
      (fun _ l' => Replaces t row l')
      (fun _ l' => Failing l') l := by
  apply Discipline.wp_bind
  have hFrames :
      l.session.frames = [⟨id, [.user row.id], false⟩] := by
    rw [hSession]
    rfl
  have hWorking : l.note.accepted = false := by
    rw [hNote]
  apply Regime.wp_execute_open _ hFrames rfl
  · intro e _
    exact
      failing_of_fail hFrames
        (fun d => passwords.allows_refl _ d) hWorking
  · intro d ns live hFits x salt d' _ hReply
    cases x with
    | token value => cases hReply
    | done => cases hReply
    | salt value =>
        simp only [backend, reply] at hReply
        split at hReply
        · cases hReply
        · rename_i hFresh
          cases hReply
          refine ⟨⟨?_, trivial, fun _ _ => rfl, ?_⟩, ?_⟩
          · apply hFits.inv.draw hFresh
            rw [hFits.note]
            rfl
          · intro k _
            cases k <;> rfl
          · apply Discipline.wp_bind
            refine
              Discipline.wp_mono
                (wp_saveHash row rfl hSession ?_) ?_ ?_
            · change noteReset .makeSalt salt l.note = _
              rw [hNote]
              rfl
            · intro _ l' hReplaces
              exact hReplaces
            · intro _ l' hFailing
              exact hFailing
  · intro d ns live _ _
    trivial
  · apply resetShape_of hWorking
    · intro fr hMem d
      rw [hFrames, List.mem_singleton] at hMem
      rw [hMem]
      exact passwords.allows_refl _ _
    · intro q _
      rw [hFrames]
      exact List.cons_ne_nil _ _
    · intro hEq
      cases hEq

/- The token is checked once the row is locked. -/
theorem wp_checkAndSet
    {bound : String → Credential}
    {row : User}
    (hBinds : Binds lib bound)
    (hSession : l.session = lockedSession row id)
    (hNote :
      l.note = ⟨[], some (row.id, row.password), false⟩) :
    resetRegime.wp t
      (if !lib.checkToken call.now row call.token then
        raiseError invalidToken
      else do
        validatePasswordStrength lib call.newPassword
          (some row)
        setPassword row call.newPassword)
      (fun _ l' =>
        ∃ row', bound call.token = (row'.id, row'.password) ∧
          Replaces t row' l')
      (fun _ l' => Failing l') l := by
  have hFrames :
      l.session.frames = [⟨id, [.user row.id], false⟩] := by
    rw [hSession]
    rfl
  have hFailing : Failing l :=
    failing_of_quiet hFrames (by rw [hNote])
  by_cases hCheck :
    lib.checkToken call.now row call.token = true
  · rw [hCheck]
    apply Discipline.wp_bind
    unfold validatePasswordStrength
    split
    · change
        resetRegime.wp t (setPassword row call.newPassword) _
          _ l
      refine
        Discipline.wp_mono (wp_setPassword hSession hNote) ?_
          ?_
      · intro _ l' hReplaces
        exact
          ⟨row, (hBinds _ row _ hCheck).symm, hReplaces⟩
      · intro _ l' hFailing'
        exact hFailing'
    · exact hFailing
  · rw [Bool.not_eq_true] at hCheck
    rw [hCheck]
    exact hFailing

theorem wp_confirmPasswordResetBody
    {bound : String → Credential}
    (hBinds : Binds lib bound)
    (hSession :
      l.session =
        (Session.idle : Session Db Lock (Option User)).begin)
    (hNote : l.note = .fresh) :
    resetRegime.wp t
      (confirmPasswordResetBody lib call.now call.uid
        call.token call.newPassword)
      (fun _ l' =>
        ∃ row, bound call.token = (row.id, row.password) ∧
          Replaces t row l')
      (fun _ l' => Failing l') l := by
  have hFrames : l.session.frames = [⟨id, [], false⟩] := by
    rw [hSession]
    rfl
  have hWorking : l.note.accepted = false := by
    rw [hNote]
    rfl
  have hFailing : Failing l :=
    failing_of_quiet hFrames hWorking
  unfold confirmPasswordResetBody
  split
  · exact hFailing
  · split
    · exact hFailing
    · rename_i user _
      apply Discipline.wp_bind
      apply Regime.wp_execute_open _ hFrames rfl
      · intro e _
        exact
          failing_of_fail hFrames
            (fun d => passwords.allows_refl _ d) hWorking
      · intro d ns live _ x a d' _ hReply
        cases hReply
      · intro d ns live hFits _
        have hView : l.session.view d = d := by
          rw [hSession]
          rfl
        have hKept :
            ∀ n, n.salts = l.note.salts →
              ResetInv d (Function.update ns t n) := by
          intro n hSalts
          apply hFits.inv.update
          rw [hFits.note, hSalts]
          exact fun _ hMem => hMem
        simp only [backend, plan, hView]
        cases hFind : (d.find user).filter liveUser with
        | none =>
            refine ⟨hKept _ rfl, ?_⟩
            exact
              failing_of_quiet (by rw [hSession]; rfl)
                hWorking
        | some row =>
            rw [Option.filter_eq_some_iff] at hFind
            have hId : row.id = user :=
              Table.key_of_find hFind.1
            subst hId
            refine ⟨hKept _ rfl, ?_⟩
            apply wp_checkAndSet hBinds
            · change
                (l.session.acquire (.user row.id)
                    (d.find row.id)).write id =
                  lockedSession row id
              rw [hSession, hFind.1]
              rfl
            · change
                noteReset (.lockUser row.id) (some row)
                    l.note =
                  _
              rw [hNote]
              rfl
      · apply resetShape_of hWorking
        · intro fr hMem d
          rw [hFrames, List.mem_singleton] at hMem
          rw [hMem]
          exact passwords.allows_refl _ _
        · intro q _
          rw [hFrames]
          exact List.cons_ne_nil _ _
        · intro hEq
          cases hEq

------------------------------------------------------------
-- Verification
------------------------------------------------------------

variable {calls : Tid → Option ResetCall}
variable {bound : String → Credential}

/-
  What is known of a call that has returned: it has committed
  under the credential of its token.
-/
structure Returned
    (calls : Tid → Option ResetCall)
    (bound : String → Credential)
    (t : Tid)
    (a : Option User)
    (n : ResetNote) : Prop where
  some :
    a ≠ none →
      n.accepted = true ∧
        ∃ call, calls t = some call ∧
          n.locked = some (bound call.token)
  none : a = none → n.accepted = false

theorem wp_resetProgram
    (hBinds : Binds lib bound)
    (hRest : Regime.Resting () .fresh l) :
    resetRegime.wp t (ResetCall.program lib (calls t))
      (fun a l' => Returned calls bound t a l'.note)
      (fun _ l' => l'.note.accepted = false) l := by
  have hWorking : l.note.accepted = false := by
    rw [hRest.note]
    rfl
  cases hCall : calls t with
  | none =>
      exact
        ⟨fun hSome => absurd rfl hSome, fun _ => hWorking⟩
  | some call =>
      apply Discipline.wp_bind
      apply Regime.wp_atomic_rest _ hRest
      · intro e l' hRest' _
        rw [hRest'.note]
        rfl
      · intro l₀ hSession _ hNote
        refine
          Discipline.wp_mono
            (wp_confirmPasswordResetBody hBinds hSession
              hNote) ?_ ?_
        · rintro user l' ⟨row, hBound, hReplaces⟩
          rcases hReplaces with
            ⟨hShape, fr, n', hConcludes, hUndone⟩
          refine ⟨hShape, fr, n', ?_, ?_⟩
          · refine
              ⟨hConcludes.frames, hConcludes.intact,
                hConcludes.own, hConcludes.note, ?_⟩
            intro d ns live hFits
            have hPublish :=
              hConcludes.publish d ns live hFits
            refine ⟨hPublish.1, ?_⟩
            intro l'' hRest''
            have hDone := hPublish.2 l'' hRest''
            refine ⟨fun _ => ⟨hDone.1, call, hCall, ?_⟩, ?_⟩
            · rw [hDone.2, hBound]
            · intro hNone
              cases hNone
          · intro e l'' _ hRest''
            rw [hRest''.note]
            exact hUndone
        · intro e l' hFailing
          exact hFailing.rollback
      · apply resetShape_of hWorking
        · intro fr hMem
          rw [hRest.session] at hMem
          cases hMem
        · intro q hEq
          cases hEq
        · intro hEq
          cases hEq

theorem verified_resets
    (calls : Tid → Option ResetCall)
    (hBinds : Binds lib bound)
    (hSalted : d.Salted) :
    resetRegime.Verified
      (fun t a l => Returned calls bound t a l.note)
      (fun _ _ l => l.note.accepted = false) d
      (fun _ => .fresh) (startResets lib calls d) where
  quiet := rfl
  inv := by
    refine ⟨?_, ?_, ?_⟩
    · intro credential hStored
      refine ⟨hSalted credential hStored, ?_⟩
      intro t hMine
      cases hMine
    · intro t salt hMem
      cases hMem
    · intro t t' salt hMem
      cases hMem
  threads := fun t =>
    ⟨_, rfl, wp_resetProgram hBinds ⟨rfl, rfl, rfl⟩⟩
  ret := fun _ _ _ _ _ hNone => by cases hNone
  raise := fun _ _ _ _ _ hNone => by cases hNone
  lose := by
    intro w ls t hHolds _ _
    refine ⟨?_, fun _ hNone => by cases hNone⟩
    change ResetInv _ (Function.update _ t (ls t).note)
    rw [Function.update_eq_self]
    exact hHolds.1.1

end SiteAnalysis.Users
