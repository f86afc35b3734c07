import SiteAnalysis.Users.Login

/-
  This file proves whose password a login accepts, over every
  interleaving with the calls of all other services.

  A password is only written by a transaction that its call
  publishes as it returns, so a password that nobody has come
  back with yet is never accepted, and one that is no longer
  stored is only accepted if it is set again.

  Key definitions include:
    * `Credited`
    * `Found`

  Key theorems include:
    * `settles_entry`
    * `credited_of_run`
    * `logins_are_owed_to_finished_calls`
-/

------------------------------------------------------------
-- Transactions
------------------------------------------------------------

namespace SiteAnalysis.Users

open Concurrency
open Relational
open Python

/- The calls that set a password. -/
def UserCall.Owes : UserCall → Prop
| .mail (.register _ _) => True
| .account (.change _ _ _) => True
| .account (.reset _ _ _ _) => True
| _ => False

variable {lib : AccountLibrary} {c : UserCall}
variable {calls : Tid → Option EntryCall}
variable {user : UserId}

theorem owes_of_sets
    {raw : String}
    (hSets : c.Sets lib user raw) : c.Owes := by
  cases c with
  | mail c =>
      cases c with
      | register id input => trivial
      | deliver user => exact hSets.elim
  | key c => exact hSets.elim
  | account c =>
      cases c with
      | change user currentPassword newPassword => trivial
      | reset now uid token newPassword => trivial
      | _ => exact hSets.elim

theorem owes_of_registers
    {email : String}
    (hRegisters : c.Registers lib user email) :
    c.Owes := by
  cases c with
  | mail c =>
      cases c with
      | register id input => trivial
      | deliver user => exact hRegisters.elim
  | key c => exact hRegisters.elim
  | account c => exact hRegisters.elim

/- Such a call publishes its transaction as it returns. -/
theorem settles_entry
    (lib : AccountLibrary)
    (hOwes : c.Owes) :
    (EntryCall.program lib (some (.serve c))).Settles Aside
      Looked 0 := by
  apply Prog.Settles.map
  cases c with
  | mail c =>
      cases c with
      | register id input =>
          have hBody :
              ExecutesBase lib
                (some (.mail (.register id input))) 1
                (registerUserBody lib.toLibrary id input) :=
            executes_registerUserBody rfl
          have hSettles :
              (registerUser lib.toLibrary id input).Settles
                (fun q => Aside (.base q))
                (fun q a => Looked (.base q) a) 0 :=
            Prog.settles_atomic hBody
          have hCall := hSettles.map (f := MailAnswer.registered)
          exact
            (hCall.embed (fun _ hAside => hAside)
              (fun _ _ hLooked => hLooked)).map
      | deliver user => exact hOwes.elim
  | key c => exact hOwes.elim
  | account c =>
      refine Prog.Settles.map ?_
      cases c with
      | change user currentPassword newPassword =>
          refine
            Prog.settles_then
              (q := AccountStatement.base (.getUser user))
              trivial ?_
          intro found hFound
          cases found with
          | none => trivial
          | some row =>
              refine Prog.Settles.map ?_
              exact
                Prog.settles_atomic
                  (executes_ofService
                    (executes_changePasswordBody rfl
                      (hFound row rfl)))
      | reset now uid token newPassword =>
          refine Prog.Settles.map ?_
          exact
            Prog.settles_atomic
              (executes_ofService
                (executes_confirmPasswordResetBody rfl))
      | _ => exact hOwes.elim

------------------------------------------------------------
-- Runs
------------------------------------------------------------

/-
  Whatever the table has that it did not have, it has from a
  call that has returned since.
-/
structure Credited
    (lib : AccountLibrary)
    (calls : Tid → Option EntryCall)
    (w : EntryWorld)
    (returned : Tid → Prop)
    (users : List User) : Prop where
  password :
    ∀ user raw, PasswordOf users user raw →
      PasswordOf w.shared.committed.users user raw ∨
        ∃ t c, returned t ∧ ¬ w.Returned t ∧
          calls t = some (.serve c) ∧ c.Sets lib user raw
  email :
    ∀ user email, EmailOf users user email →
      EmailOf w.shared.committed.users user email ∨
        ∃ t c, returned t ∧ ¬ w.Returned t ∧
          calls t = some (.serve c) ∧
            c.Registers lib user email

theorem call_of_served
    {call : Option EntryCall}
    (hServed : EntryCall.served call = some c) :
    call = some (.serve c) := by
  cases call with
  | none => cases hServed
  | some call =>
      cases call with
      | serve c' =>
          cases hServed
          rfl
      | login email password => cases hServed
      | resend email => cases hServed

variable {w w' : EntryWorld} {d : Db}

/- The threads that are to have returned first. -/
abbrev OwesAt
    (calls : Tid → Option EntryCall)
    (t : Tid) : Prop :=
  ∃ c, EntryCall.served (calls t) = some c ∧ c.Owes

/- What is known of every world of a run. -/
structure Entered
    (lib : AccountLibrary)
    (calls : Tid → Option EntryCall)
    (w : EntryWorld) : Prop where
  heeding :
    Backend.Heeding (fun _ => True)
      (fun t => Traced lib (EntryCall.served (calls t)))
      (fun t => Uses lib (EntryCall.served (calls t)))
      (fun _ _ => False) Looked w
  settled :
    Backend.Settled Aside Looked (OwesAt calls) w

theorem credited_self
    (returned : Tid → Prop) :
    Credited lib calls w returned
      w.shared.committed.users where
  password := fun _ _ hHas => Or.inl hHas
  email := fun _ _ hHas => Or.inl hHas

theorem credited_mono
    {returned returned' : Tid → Prop}
    {users : List User}
    (hMore : ∀ t, returned t → returned' t)
    (hCredited : Credited lib calls w returned users) :
    Credited lib calls w returned' users where
  password := by
    intro user raw hHas
    rcases hCredited.password user raw hHas with
      hOld | ⟨t, c, hReturned, hRest⟩
    · exact Or.inl hOld
    · exact Or.inr ⟨t, c, hMore t hReturned, hRest⟩
  email := by
    intro user email hHas
    rcases hCredited.email user email hHas with
      hOld | ⟨t, c, hReturned, hRest⟩
    · exact Or.inl hOld
    · exact Or.inr ⟨t, c, hMore t hReturned, hRest⟩

/- The change of a thread that returns. -/
theorem credited_traced
    {returned : Tid → Prop}
    {t : Tid}
    {d d' : Db}
    (hNew : ¬ w.Returned t)
    (hTraced :
      Traced lib (EntryCall.served (calls t)) d d')
    (hOwes : OwesAt calls t → returned t)
    (hCredited : Credited lib calls w returned d.users) :
    Credited lib calls w returned d'.users where
  password := by
    intro user raw hHas
    rcases hTraced.password user raw hHas with
      hOld | ⟨c, hServed, hSets⟩
    · exact hCredited.password user raw hOld
    · refine
        Or.inr
          ⟨t, c, hOwes ⟨c, hServed, owes_of_sets hSets⟩,
            hNew, call_of_served hServed, hSets⟩
  email := by
    intro user email hHas
    rcases hTraced.email user email hHas with
      hOld | ⟨c, hServed, hRegisters⟩
    · exact hCredited.email user email hOld
    · refine
        Or.inr
          ⟨t, c,
            hOwes ⟨c, hServed, owes_of_registers hRegisters⟩,
            hNew, call_of_served hServed, hRegisters⟩

theorem entered_start
    (lib : AccountLibrary)
    (calls : Tid → Option EntryCall)
    (d : Db) :
    Entered lib calls (startEntries lib calls d) where
  heeding := by
    apply Backend.heeding_of_quiet rfl trivial
    intro t p hLive
    cases hLive
    exact executes_entry lib (calls t)
  settled := by
    rintro t p ⟨c, hServed, hOwes⟩ hLive
    have hCall := call_of_served hServed
    change
      Thread.live (EntryCall.program lib (calls t)) = _
      at hLive
    rw [hCall] at hLive
    cases hLive
    exact settles_entry lib hOwes

/- What is credited in a run that starts anywhere. -/
theorem credited_of_run
    (hEntered : Entered lib calls w)
    (hReach :
      accounts.machine.Reaches Machine.anyEvent w w') :
    Entered lib calls w' ∧
      Credited lib calls w w'.Returned
        w'.shared.committed.users := by
  have hMono :
      ∀ returned returned' users,
        (∀ t, returned t → returned' t) →
          Credited lib calls w returned users →
            Credited lib calls w returned' users :=
    fun _ _ _ hMore hCredited => credited_mono hMore hCredited
  have hBoth :=
    Backend.credited_of_reaches (keeps_traced lib calls)
      conceals_users hMono hEntered.heeding hEntered.settled
      hReach
      (fun _ _ _ _ hNew hTraced hOwes hCredited =>
        credited_traced hNew hTraced hOwes hCredited)
      (credited_self _)
  exact
    ⟨⟨Backend.heeding_of_reaches (keeps_traced lib calls)
          hEntered.heeding hReach,
        hBoth.1⟩,
      hBoth.2⟩

------------------------------------------------------------
-- Logins
------------------------------------------------------------

variable {email password : String}

/- The rows by which a login can be answered. -/
def Found
    (P : User → Prop) :
    (q : AccountStatement) → q.Answer → Prop
| .base (.findUserByEmail email), found =>
    ∀ row, found = some row →
      row.email = email ∧ row.isDeleted = false ∧ P row
| _, _ => True

/- A login is a program of statements. -/
theorem queries_login
    (lib : AccountLibrary)
    (email password : String) :
    (EntryCall.program lib
        (some (.login email password))).Conforms
      (fun o => ∃ q, o = .query q) := by
  have hQuery :
      ∀ q : Statement,
        (query q : Service q.Answer).Conforms
          (fun o => ∃ q, o = .query q) :=
    fun q => Prog.conforms_perform ⟨q, rfl⟩
  have hBase :
      (authenticateUser lib.toLibrary email
          password).Conforms
        (fun o => ∃ q, o = .query q) := by
    apply Prog.Conforms.bind
    · apply (hQuery (.findUserByEmail _)).bind
      intro found
      cases found with
      | none =>
          apply (hQuery .makeSalt).bind
          exact fun _ => trivial
      | some user =>
          simp only
          split <;> trivial
    · intro found
      cases found with
      | none =>
          apply (hQuery (.findUserByEmail _)).bind
          intro existing
          cases existing with
          | none => trivial
          | some user =>
              simp only
              split <;> trivial
      | some user =>
          simp only
          split <;> trivial
  apply Prog.Conforms.bind
  · apply hBase.embed
    rintro o ⟨q, rfl⟩
    exact ⟨_, rfl⟩
  · exact fun _ => trivial

/- The user with whom a login comes back. -/
theorem accepted_of_observes
    {P : User → Prop}
    {row : User}
    (hObserves :
      (EntryCall.program lib
          (some (.login email password))).Observes
        (Found P) (some row)) :
    row.email = lib.normalizeEmail email ∧
      row.password.raw = password ∧ row.isActive = true ∧
        row.isDeleted = false ∧ P row := by
  rcases Prog.observes_bind hObserves with
    ⟨user, hService, hUser⟩
  cases hUser
  have hBase :
      (authenticateUser lib.toLibrary email
          password).Observes
        (fun q a => Found P (.base q) a) row :=
    Prog.observes_embed hService (fun _ _ hSeen => hSeen)
  rcases Prog.observes_bind hBase with
    ⟨found, hBackend, hRest⟩
  cases found with
  | none =>
      rcases Prog.observes_bind hRest with
        ⟨existing, _, hRaises⟩
      cases existing with
      | none => exact hRaises.elim
      | some user =>
          simp only at hRaises
          split at hRaises <;> exact hRaises.elim
  | some user =>
      have hSame : user = row := by
        simp only at hRest
        split at hRest
        · exact hRest.elim
        · exact hRest
      subst hSame
      rcases Prog.observes_bind hBackend with
        ⟨answer, hQuery, hChecked⟩
      have hFound := Prog.observes_execute hQuery
      cases answer with
      | none =>
          rcases Prog.observes_bind hChecked with
            ⟨_, _, hNone⟩
          cases hNone
      | some stored =>
          simp only at hChecked
          split at hChecked
          · rename_i hCheck
            cases hChecked
            rcases hFound user rfl with
              ⟨hEmail, hLive, hRow⟩
            rw [Bool.and_eq_true] at hCheck
            refine ⟨hEmail, ?_, hCheck.2, hLive, hRow⟩
            simpa [User.checkPassword] using hCheck.1
          · cases hChecked

/- A login that has begun at rest is answered by the table. -/
theorem found_of_answers
    {P : User → Prop}
    {q : AccountStatement}
    {a : q.Answer}
    {d : Db}
    (hRows : ∀ row ∈ d.users, P row)
    (hAnswers : accounts.Answers q a d) : Found P q a := by
  cases q with
  | saveColumns object fields => trivial
  | base q =>
      cases q with
      | findUserByEmail email =>
          rcases hAnswers with
            ⟨lock, f, hPlan⟩ | ⟨x, d', hReply⟩
          · intro row hFound
            have hFind :
                d.users.find?
                    (fun row =>
                      row.email = email ∧ liveUser row) =
                  a := by
              cases hPlan
              rfl
            rw [hFound] at hFind
            have hRow := List.find?_some hFind
            simp only [decide_eq_true_eq] at hRow
            refine ⟨hRow.1, ?_, ?_⟩
            · simpa [liveUser] using hRow.2
            · exact hRows row (List.mem_of_find?_eq_some hFind)
          · cases hReply
      | _ => trivial

/-
  Whatever is registered, verified, changed, reset, deleted
  and restored, and however it interleaves: a login that
  begins at some point and succeeds has given the address and
  the password of an active user who is not deleted.  The
  password was stored for the user at that point, or a
  registration, a change or a reset has set it that has
  returned since; the same is true of the address.
-/
theorem logins_are_owed_to_finished_calls
    (lib : AccountLibrary)
    (calls : Tid → Option EntryCall)
    (d : Db)
    (w w' : EntryWorld)
    (t : Tid)
    (email password : String)
    (user : User)
    (hReach :
      accounts.machine.Reaches Machine.anyEvent
        (startEntries lib calls d) w)
    (hLater :
      accounts.machine.Reaches Machine.anyEvent w w')
    (hCall : calls t = some (.login email password))
    (hBegins :
      w.threads t = (startEntries lib calls d).threads t)
    (hRet : w'.threads t = .live (.ret (some user))) :
    user.email = lib.normalizeEmail email ∧
      user.password.raw = password ∧
        user.isActive = true ∧ user.isDeleted = false ∧
          (PasswordOf w.shared.committed.users user.id
              password ∨
            ∃ t' c, w'.Returned t' ∧ ¬ w.Returned t' ∧
              calls t' = some (.serve c) ∧
                c.Sets lib user.id password) ∧
            (EmailOf w.shared.committed.users user.id
                user.email ∨
              ∃ t' c, w'.Returned t' ∧ ¬ w.Returned t' ∧
                calls t' = some (.serve c) ∧
                  c.Registers lib user.id user.email) := by
  have hEntered :=
    (credited_of_run (entered_start lib calls d) hReach).1
  have hThread :
      w.threads t =
        .live
          (EntryCall.program lib
            (some (.login email password))) := by
    rw [hBegins, ← hCall]
    rfl
  have hQueries := queries_login lib email password
  have hAuto : w.shared.frames t = [] := by
    apply List.length_eq_zero_iff.mp
    exact
      Backend.frames_of_queries accounts.aborted hQueries
        (hEntered.heeding.threads t _ hThread)
  have hSeen :
      ∀ v q b,
        accounts.machine.Reaches Machine.anyEvent w v →
          accounts.machine.Reaches Machine.anyEvent v w' →
            accounts.Answers q b v.shared.committed →
              Found
                (fun row =>
                  ∃ users,
                    Credited lib calls w w'.Returned users ∧
                      row ∈ users)
                q b := by
    intro v q b hBefore hAfter hAnswers
    have hCredited := (credited_of_run hEntered hBefore).2
    have hStill :=
      credited_mono
        (fun _ hHas =>
          Backend.returned_of_reaches hAfter hHas)
        hCredited
    exact
      found_of_answers (fun _ hRow => ⟨_, hStill, hRow⟩)
        hAnswers
  have hObserves :=
    Backend.observes_of_reaches hLater hThread hQueries hAuto
      hSeen hRet
  rcases accepted_of_observes hObserves with
    ⟨hEmail, hPassword, hActive, hLive, users, hCredited,
      hMem⟩
  refine ⟨hEmail, hPassword, hActive, hLive, ?_, ?_⟩
  · exact
      hCredited.password user.id password
        ⟨user, hMem, rfl, hPassword⟩
  · exact
      hCredited.email user.id user.email
        ⟨user, hMem, rfl, rfl⟩

------------------------------------------------------------
-- A New Password
------------------------------------------------------------

/- A change of the password, and a login with the new one. -/
def changeAndLogin : Tid → Option EntryCall
| 0 =>
    some
      (.serve
        (.account (.change 0 "Old12345!" "New12345!")))
| 1 => some (.login "a@b.io" "New12345!")
| _ => none

/- The login succeeds, so the change has returned. -/
theorem logins_are_owed_to_finished_calls_newPassword :
    ∃ w : EntryWorld,
      w.threads 1 =
          .live
            (.ret
              (some
                { applicant with
                  password := ⟨"New12345!", 1⟩ })) ∧
        ∃ t c, w.Returned t ∧
          changeAndLogin t = some (.serve c) ∧
            c.Sets accountLibrary 0 "New12345!" := by
  have hRun :
      ∃ w : EntryWorld,
        accounts.machine.Reaches Machine.anyEvent
            (startEntries accountLibrary changeAndLogin
              oneApplicant) w ∧
          w.threads 1 =
            .live
              (.ret
                (some
                  { applicant with
                    password := ⟨"New12345!", 1⟩ })) :=
    ⟨_,
      Machine.reaches_of_replay
        [.step 0 .proceed, .step 0 .proceed,
          .step 0 (.reply (.salt 1)), .step 0 .proceed,
          .step 0 .proceed, .step 1 .proceed]
        rfl,
      rfl⟩
  rcases hRun with ⟨w, hReach, hRet⟩
  have hLogin :=
    logins_are_owed_to_finished_calls accountLibrary
      changeAndLogin oneApplicant _ w 1 "a@b.io" "New12345!" _
      Machine.Reaches.refl hReach rfl rfl hRet
  refine ⟨w, hRet, ?_⟩
  rcases hLogin.2.2.2.2.1 with hStored | hSet
  · rcases hStored with ⟨row, hMem, _, hRaw⟩
    have hRow : row = applicant := List.mem_singleton.mp hMem
    rw [hRow] at hRaw
    exact absurd hRaw (by decide)
  · rcases hSet with ⟨t, c, hReturned, _, hCall, hSets⟩
    exact ⟨t, c, hReturned, hCall, hSets⟩

end SiteAnalysis.Users
