import SiteAnalysis.Users.Accounts

/-
  This file proves that no update of an account is lost to an
  update of other columns, and that an address is verified
  once and for all.

  Key definitions include:
    * `Written`

  Key theorems include:
    * `accounts_write_own_columns`
    * `accounts_verified_once`
-/

------------------------------------------------------------
-- Updates
------------------------------------------------------------

namespace SiteAnalysis.Users

open Concurrency
open Relational
open Python

variable {lib : AccountLibrary} {d : Db}
variable {calls : Tid → Option AccountCall}
variable {w w' : AccountWorld}

/- One of the calls has written the row. -/
def Written
    (lib : AccountLibrary)
    (calls : Tid → Option AccountCall)
    (row row' : User) : Prop :=
  ∃ t c, calls t = some c ∧ c.Writes lib row row'

/- A step changes what its call writes. -/
theorem changedUsers_of_next
    {e : Event (Choice Exc Reply)}
    (hReach :
      accounts.machine.Reaches Machine.anyEvent
        (startAccounts lib calls d) w)
    (hNext : accounts.machine.next w e = some w') :
    ChangedUsers lib (calls e.thread) w.shared.committed
      w'.shared.committed :=
  (verified_accounts lib calls d).guar_of_event hReach
    trivial hNext

theorem written_of_changed
    {t : Tid}
    {row row' : User}
    (hChanged : Changed lib (calls t) row row') :
    Relation.ReflTransGen (Written lib calls) row row' := by
  rcases hChanged with rfl | ⟨c, hCall, hWrites⟩
  · exact .refl
  · exact .single ⟨t, c, hCall, hWrites⟩

/- Rows that are related one by one, and related again. -/
theorem forall₂_trans
    {α : Type}
    {r : α → α → Prop}
    {rows rows' rows'' : List α}
    (hFirst :
      List.Forall₂ (Relation.ReflTransGen r) rows rows')
    (hSecond :
      List.Forall₂ (Relation.ReflTransGen r) rows' rows'') :
    List.Forall₂ (Relation.ReflTransGen r) rows rows'' := by
  induction hFirst generalizing rows'' with
  | nil => exact hSecond
  | cons hHead _ ih =>
      cases hSecond with
      | cons hHead' hTail' =>
          exact .cons (hHead.trans hHead') (ih hTail')

/- The rows of a run. -/
theorem written_of_reaches
    (hStart :
      accounts.machine.Reaches Machine.anyEvent
        (startAccounts lib calls d) w)
    (hReach :
      accounts.machine.Reaches Machine.anyEvent w w') :
    List.Forall₂
      (Relation.ReflTransGen (Written lib calls))
      w.shared.committed.users w'.shared.committed.users := by
  induction hReach with
  | refl => exact List.forall₂_same.mpr (fun _ _ => .refl)
  | tail hBefore hStep ih =>
      rcases hStep with ⟨e, _, hNext⟩
      apply forall₂_trans ih
      apply
        (changedUsers_of_next (hStart.trans hBefore)
          hNext).imp
      intro row row' hChanged
      exact written_of_changed hChanged

/-
  A step changes the rows that its call names, in the columns
  of the call and to the call's values, whatever the call has
  loaded.  So in every run each row is what the writes of the
  calls, one after the other, have made of it.
-/
theorem accounts_write_own_columns
    (lib : AccountLibrary)
    (calls : Tid → Option AccountCall)
    (d : Db) :
    (∀ (w w' : AccountWorld) e,
        accounts.machine.Reaches Machine.anyEvent
            (startAccounts lib calls d) w →
          accounts.machine.next w e = some w' →
            ChangedUsers lib (calls e.thread)
              w.shared.committed w'.shared.committed) ∧
      ∀ w w' : AccountWorld,
        accounts.machine.Reaches Machine.anyEvent
            (startAccounts lib calls d) w →
          accounts.machine.Reaches Machine.anyEvent w w' →
            List.Forall₂
              (Relation.ReflTransGen (Written lib calls))
              w.shared.committed.users
              w'.shared.committed.users :=
  ⟨fun _ _ _ hReach hNext =>
      changedUsers_of_next hReach hNext,
    fun _ _ hReach hLater =>
      written_of_reaches hReach hLater⟩

------------------------------------------------------------
-- Two Updates of One Account
------------------------------------------------------------

def applicant : User where
  id := 0
  username := "a"
  email := "a@b.io"
  password := ⟨"Old12345!", 0⟩
  firstName := "A"
  lastName := "B"
  isActive := true
  isEmailVerified := false
  isDeleted := false
  deletedAt := none

def oneApplicant : Db where
  users := [applicant]
  apiKeys := []
  keys := []
  salts := [0]
  tasks := []

/- Every token is made for the account 0. -/
def accountLibrary : AccountLibrary where
  normalizeEmail := fun email => email
  passwordErrors := fun _ _ => []
  decodeUid := some
  toUuid := fun _ => some 0
  checkToken := fun _ _ _ => false
  readVerificationToken := fun _ token => some token

/- Two verifications, and the update of a name. -/
def threeCalls : Tid → Option AccountCall
| 0 => some (.verify 1 "token")
| 1 => some (.profile 0 [("first_name", some "New")])
| 2 => some (.verify 2 "token")
| _ => none

/-
  The profile is loaded before the verification, and saved
  after it; both are there in the end.
-/
theorem accounts_write_own_columns_staleProfile :
    ∃ w : AccountWorld,
      w.shared.committed.users =
          [{ applicant with
            isEmailVerified := true
            firstName := "New" }] ∧
        List.Forall₂
          (Relation.ReflTransGen
            (Written accountLibrary threeCalls))
          oneApplicant.users w.shared.committed.users := by
  have hRun :
      ∃ w : AccountWorld,
        accounts.machine.Reaches Machine.anyEvent
            (startAccounts accountLibrary threeCalls
              oneApplicant) w ∧
          w.shared.committed.users =
            [{ applicant with
              isEmailVerified := true
              firstName := "New" }] :=
    ⟨_,
      Machine.reaches_of_replay
        [.step 1 .proceed, .step 0 .proceed,
          .step 0 .proceed, .step 0 .proceed,
          .step 0 .proceed, .step 1 .proceed,
          .step 1 .proceed, .step 1 .proceed]
        rfl,
      rfl⟩
  rcases hRun with ⟨w, hReach, hUsers⟩
  refine ⟨w, hUsers, ?_⟩
  exact
    (accounts_write_own_columns accountLibrary threeCalls
      oneApplicant).2 _ w .refl hReach

------------------------------------------------------------
-- Verifications
------------------------------------------------------------

/- A verification that has returned. -/
def HasVerified
    (w : AccountWorld)
    (t : Tid)
    (user : User) : Prop :=
  w.threads t = .live (.ret (some user))

/- What the calls that have returned have noted. -/
theorem noted_of_reaches
    (hReach :
      accounts.machine.Reaches Machine.anyEvent
        (startAccounts lib calls d) w) :
    ∃ ns, AccountInv w.shared.committed ns ∧
      ∀ t a, w.threads t = .live (.ret a) →
        Verifies lib calls t a (ns t) := by
  have hVerified := verified_accounts lib calls d
  rcases
    Discipline.sound_of_reaches hVerified.final
      hVerified.losable hVerified.sound hReach with
    ⟨ls, hSound, _⟩
  refine
    ⟨fun t => (ls t).note,
      (hSound.holds hVerified.final).1.1, ?_⟩
  intro t a hRet
  exact hSound.live t _ hRet

/-
  Of the verifications of one user at most one returns; its
  user is verified then, and stays so in all that follows.
-/
theorem accounts_verified_once
    (lib : AccountLibrary)
    (calls : Tid → Option AccountCall)
    (d : Db) :
    (∀ (w : AccountWorld) t t' now now' token token' user
        user',
        accounts.machine.Reaches Machine.anyEvent
            (startAccounts lib calls d) w →
          calls t = some (.verify now token) →
            calls t' = some (.verify now' token') →
              lib.verifies now token =
                  lib.verifies now' token' →
                HasVerified w t user →
                  HasVerified w t' user' → t = t') ∧
      ∀ (w w' : AccountWorld) t now token user,
        accounts.machine.Reaches Machine.anyEvent
            (startAccounts lib calls d) w →
          accounts.machine.Reaches Machine.anyEvent w w' →
            calls t = some (.verify now token) →
              HasVerified w t user →
                ∃ row,
                  w'.shared.committed.find user.id =
                      some row ∧
                    row.isEmailVerified = true := by
  refine ⟨?_, ?_⟩
  · intro w t t' now now' token token' user user' hReach
      hCall hCall' hSame hRet hRet'
    rcases noted_of_reaches hReach with ⟨ns, hInv, hNoted⟩
    have hFirst := hNoted t _ hRet now token user hCall rfl
    have hSecond :=
      hNoted t' _ hRet' now' token' user' hCall' rfl
    apply hInv.once t t' user.id hFirst.2
    rw [hSecond.2, ← hFirst.1, hSame, hSecond.1]
  · intro w w' t now token user hReach hLater hCall hRet
    have hRet' : HasVerified w' t user := by
      rw [HasVerified,
        Machine.threads_of_head_none hLater (by
          rw [hRet]
          rfl)]
      exact hRet
    rcases noted_of_reaches (hReach.trans hLater) with
      ⟨ns, hInv, hNoted⟩
    have hDone := hNoted t _ hRet' now token user hCall rfl
    exact hInv.verified t user.id hDone.2

/- The second verification never returns. -/
theorem accounts_verified_once_twoTokens :
    ∃ w : AccountWorld,
      accounts.machine.Reaches Machine.anyEvent
          (startAccounts accountLibrary threeCalls
            oneApplicant) w ∧
        HasVerified w 0
            { applicant with isEmailVerified := true } ∧
          ∀ w' : AccountWorld,
            accounts.machine.Reaches Machine.anyEvent w w' →
              ∀ user, ¬ HasVerified w' 2 user := by
  have hRun :
      ∃ w : AccountWorld,
        accounts.machine.Reaches Machine.anyEvent
            (startAccounts accountLibrary threeCalls
              oneApplicant) w ∧
          HasVerified w 0
            { applicant with isEmailVerified := true } :=
    ⟨_,
      Machine.reaches_of_replay
        [.step 0 .proceed, .step 0 .proceed,
          .step 0 .proceed, .step 0 .proceed]
        rfl,
      rfl⟩
  rcases hRun with ⟨w, hReach, hFirst⟩
  refine ⟨w, hReach, hFirst, ?_⟩
  intro w' hLater user hSecond
  have hStill :
      HasVerified w' 0
        { applicant with isEmailVerified := true } := by
    rw [HasVerified,
      Machine.threads_of_head_none hLater (by
        rw [hFirst]
        rfl)]
    exact hFirst
  have hSame : (0 : Tid) = 2 :=
    (accounts_verified_once accountLibrary threeCalls
        oneApplicant).1 w' 0 2 1 2 "token" "token" _ user
      (hReach.trans hLater) rfl rfl rfl hStill hSecond
  cases hSame

end SiteAnalysis.Users
