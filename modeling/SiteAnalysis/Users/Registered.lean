import SiteAnalysis.Relational.Steps
import SiteAnalysis.Users.Registration

/-
  This file proves what the registrations leave in the table
  of the users, what they raise, and what the workers that
  they call find.

  Key definitions include:
    * `Registered`
    * `Enrolled`

  Key theorems include:
    * `enrolled_of_moves`
    * `registrations_append`
    * `registrations_raise_expected`
    * `attended_users_found`
-/

------------------------------------------------------------
-- Moves
------------------------------------------------------------

namespace SiteAnalysis.Users

open Concurrency
open Relational
open Python

variable {lib : Library} {calls : Tid → Option MailCall}
variable {ok : MailCondition} {d : Db} {t : Tid}
variable {w : MailWorld} {ls : Tid → MailLocal}
variable {row : User}

/- The registration has returned with its row. -/
def Registered
    (w : MailWorld)
    (t : Tid)
    (row : User) : Prop :=
  w.threads t = .live (.ret (.registered row))

/- A world of registrations with sound annotations. -/
abbrev SoundMails
    (lib : Library)
    (calls : Tid → Option MailCall)
    (ok : MailCondition)
    (w : MailWorld)
    (ls : Tid → MailLocal) : Prop :=
  (mailRegime calls ok).discipline.Sound
    (fun t a l => Concluded lib calls t a l.note)
    (fun t e l => Rejected lib calls ok t e l.note) w ls

/-
  The table of the users is what it was at the start and the
  rows of the registrations that have committed, each once.
-/
structure Enrolled
    (d : Db)
    (x : MailWorld × (Tid → MailLocal))
    (enrolled : List (Tid × User)) : Prop where
  users :
    x.1.shared.committed.users =
      d.users ++ enrolled.map Prod.snd
  once : (enrolled.map Prod.fst).Nodup
  noted :
    ∀ t row, (t, row) ∈ enrolled ↔
      (x.2 t).note.added = some row
  kept :
    ∀ t, (x.2 t).note.added ≠ none →
      x.1.threads t ≠ .lost

/- A call that is under way has committed nothing. -/
theorem added_of_live
    (hVerified :
      (mailRegime calls ok).Verified
        (fun t a l => Concluded lib calls t a l.note)
        (fun t e l => Rejected lib calls ok t e l.note) d
        (fun _ => .fresh) (startMails lib calls d))
    (hSound : SoundMails lib calls ok w ls)
    (hLive : w.Live t) :
    (ls t).note.added = none := by
  cases hThread : w.threads t with
  | lost => exact absurd (by rw [hThread]; rfl) hLive
  | live p =>
      cases p with
      | ret a => exact absurd (by rw [hThread]; rfl) hLive
      | raise e => exact absurd (by rw [hThread]; rfl) hLive
      | call o k =>
          exact
            ((hVerified.before_step hSound hThread).1 o
              rfl).working

theorem enrolled_of_moves
    {x y : MailWorld × (Tid → MailLocal)}
    (hVerified :
      (mailRegime calls ok).Verified
        (fun t a l => Concluded lib calls t a l.note)
        (fun t e l => Rejected lib calls ok t e l.note) d
        (fun _ => .fresh) (startMails lib calls d))
    (hSound : SoundMails lib calls ok x.1 x.2)
    (hMoves :
      (mailRegime calls ok).discipline.Moves x y)
    (hEnrolled : ∃ enrolled, Enrolled d x enrolled) :
    ∃ enrolled, Enrolled d y enrolled := by
  rcases hEnrolled with ⟨enrolled, hEnrolled⟩
  rcases
    hVerified.publishes_of_moves (π := Db.users)
      (P := fun n => n.added ≠ none)
      (fun _ _ _ _ _ hReply => users_of_reply hReply)
      (fun _ q hShape hNone =>
        (hShape _ rfl).auto q rfl hNone)
      (fun _ q a _ n hSome => by
        rw [← noteMail_added q a n]
        exact hSome)
      (fun _ _ hSome => hSome) (fun _ hSome => hSome) hSound
      hMoves with
    ⟨t, hOthers, hLive, hCase⟩
  have hBefore := added_of_live hVerified hSound hLive
  rcases hCase with ⟨hUsers, hNoted⟩ | hPublishes
  · have hAfter : (y.2 t).note.added = none := by
      by_contra hSome
      exact hNoted hSome hBefore
    have hSame :
        ∀ t', (y.2 t').note.added =
          (x.2 t').note.added := by
      intro t'
      by_cases hEq : t' = t
      · rw [hEq, hAfter, hBefore]
      · rw [(hOthers t' hEq).1]
    refine ⟨enrolled, ?_, hEnrolled.once, ?_, ?_⟩
    · rw [hUsers]
      exact hEnrolled.users
    · intro t' row
      rw [hSame t']
      exact hEnrolled.noted t' row
    · intro t' hSome
      have hNe : t' ≠ t := by
        rintro rfl
        exact hSome hAfter
      rw [hSame t'] at hSome
      rw [(hOthers t' hNe).2]
      exact hEnrolled.kept t' hSome
  · rcases hPublishes.frame with ⟨fr, hFrames, hData⟩
    rcases (hPublishes.shape _ rfl).adds fr rfl hFrames with
      ⟨row, hDrafted, hAdds⟩
    have hAfter : (y.2 t).note.added = some row := by
      rw [hPublishes.note]
      exact hDrafted
    have hAbsent :
        ∀ other, (t, other) ∉ enrolled := by
      intro other hMem
      rw [hEnrolled.noted, hBefore] at hMem
      cases hMem
    refine ⟨enrolled ++ [(t, row)], ?_, ?_, ?_, ?_⟩
    · rw [hData, hAdds, hEnrolled.users]
      simp
    · rw [List.map_append, List.nodup_append]
      refine
        ⟨hEnrolled.once, List.nodup_singleton _, ?_⟩
      rintro t' hMem t'' hNew rfl
      rcases List.mem_map.mp hMem with
        ⟨⟨_, other⟩, hOld, rfl⟩
      cases List.mem_singleton.mp hNew
      exact hAbsent other hOld
    · intro t' other
      rw [List.mem_append, List.mem_singleton]
      by_cases hEq : t' = t
      · subst hEq
        rw [hAfter]
        refine ⟨?_, ?_⟩
        · rintro (hOld | hNew)
          · exact absurd hOld (hAbsent other)
          · cases hNew
            rfl
        · intro hSome
          cases hSome
          exact Or.inr rfl
      · rw [(hOthers t' hEq).1, ← hEnrolled.noted]
        refine ⟨?_, Or.inl⟩
        rintro (hOld | hNew)
        · exact hOld
        · cases hNew
          exact absurd rfl hEq
    · intro t' hSome
      by_cases hEq : t' = t
      · rcases hPublishes.live with ⟨p, hThread⟩
        rw [hEq, hThread]
        rintro ⟨⟩
      · rw [(hOthers t' hEq).2]
        rw [(hOthers t' hEq).1] at hSome
        exact hEnrolled.kept t' hSome

/- A call that has committed has returned with its row. -/
theorem registered_iff
    {enrolled : List (Tid × User)}
    (hVerified :
      (mailRegime calls ok).Verified
        (fun t a l => Concluded lib calls t a l.note)
        (fun t e l => Rejected lib calls ok t e l.note) d
        (fun _ => .fresh) (startMails lib calls d))
    (hSound : SoundMails lib calls ok w ls)
    (hEnrolled : Enrolled d (w, ls) enrolled) :
    (ls t).note.added = some row ↔ Registered w t row := by
  refine ⟨?_, ?_⟩
  · intro hAdded
    have hSome : (ls t).note.added ≠ none := by
      rw [hAdded]
      exact Option.some_ne_none row
    cases hThread : w.threads t with
    | lost => exact absurd hThread (hEnrolled.kept t hSome)
    | live p =>
        have hWp := hSound.live t p hThread
        cases p with
        | call o k =>
            apply absurd _ hSome
            apply added_of_live hVerified hSound
            simp [World.Live, hThread]
        | raise e => exact absurd hWp.added hSome
        | ret a =>
            by_cases hRegistered :
              ∃ other, a = .registered other
            · rcases hRegistered with ⟨other, rfl⟩
              have hOther := (hWp.registered other rfl).1
              rw [hAdded] at hOther
              cases hOther
              exact hThread
            · apply absurd (hWp.other _) hSome
              intro other hEq
              exact hRegistered ⟨other, hEq⟩
  · intro hRegistered
    have hWp := hSound.live t _ hRegistered
    exact (hWp.registered row rfl).1

------------------------------------------------------------
-- Registrations
------------------------------------------------------------

/- Where an operation may fail, nothing is asked. -/
theorem addressed_of_fault
    {e : Exc}
    (hFault : ok w (.step t (.fault e))) :
    Addressed lib calls ok := by
  intro hTame
  exact absurd rfl ((hTame w _ hFault).1 t e)

/- No call is under way. -/
def endedMails (d : Db) : MailWorld where
  shared := Store.quiet d
  threads := fun _ => .lost

theorem attended_ended
    (e : Event (Choice Exc Reply)) :
    Attended calls (endedMails d) e := by
  intro t c user _ _ hHead
  cases hHead

theorem sound_mails
    (hVerified :
      (mailRegime calls ok).Verified
        (fun t a l => Concluded lib calls t a l.note)
        (fun t e l => Rejected lib calls ok t e l.note) d
        (fun _ => .fresh) (startMails lib calls d))
    (hReach :
      backend.machine.Reaches ok (startMails lib calls d)
        w) :
    ∃ ls, SoundMails lib calls ok w ls := by
  have hSteps :=
    Discipline.sound_of_reaches hVerified.final
      hVerified.losable hVerified.sound hReach
  rcases hSteps with ⟨ls, hSound, _⟩
  exact ⟨ls, hSound⟩

/-
  In every run, the table of the users is what it was and one
  unverified user for each registration that has returned, in
  the order of their commits.  A call that raises, that is
  lost or that is still under way has left nothing.
-/
theorem registrations_append
    (lib : Library)
    (calls : Tid → Option MailCall)
    (d : Db)
    (w : MailWorld)
    (hReach :
      backend.machine.Reaches Machine.anyEvent
        (startMails lib calls d) w) :
    ∃ enrolled : List (Tid × User),
      w.shared.committed.users =
          d.users ++ enrolled.map Prod.snd ∧
        (enrolled.map Prod.fst).Nodup ∧
          (∀ t row, (t, row) ∈ enrolled ↔
            Registered w t row) ∧
            ∀ t row, Registered w t row →
              ∃ id input salt,
                calls t = some (.register id input) ∧
                  row = registeredUser lib id input salt := by
  have hVerified :=
    verified_mails lib calls Machine.anyEvent d
      (addressed_of_fault (w := endedMails d) (t := 0)
        (e := emailNotSet) trivial)
  have hStart :
      Enrolled d
        (startMails lib calls d,
          fun t =>
            (mailRegime calls Machine.anyEvent).start t d
              .fresh)
        [] := by
    refine ⟨?_, List.nodup_nil, ?_, ?_⟩
    · exact (List.append_nil _).symm
    · intro t row
      refine ⟨?_, ?_⟩
      · intro hMem
        cases hMem
      · intro hSome
        cases hSome
    · intro t hSome
      exact absurd rfl hSome
  rcases
    hVerified.keeps_of_reaches
      (I := fun x => ∃ enrolled, Enrolled d x enrolled)
      (fun _ _ hSound _ hMoves hEnrolled =>
        enrolled_of_moves hVerified hSound hMoves hEnrolled)
      hVerified.sound ⟨[], hStart⟩ hReach with
    ⟨ls, hSound, enrolled, hEnrolled⟩
  have hIff :
      ∀ t row, (ls t).note.added = some row ↔
        Registered w t row :=
    fun _ _ => registered_iff hVerified hSound hEnrolled
  refine
    ⟨enrolled, hEnrolled.users, hEnrolled.once, ?_, ?_⟩
  · intro t row
    rw [hEnrolled.noted, hIff]
  · intro t row hRegistered
    have hWp := hSound.live t _ hRegistered
    exact (hWp.registered row rfl).2

------------------------------------------------------------
-- One Registration
------------------------------------------------------------

def mailLibrary : Library where
  normalizeEmail := fun email => email
  passwordErrors := fun _ _ => []
  decodeUid := some
  toUuid := fun _ => none
  checkToken := fun _ _ _ => false

def newcomer : Registration where
  username := "ann"
  email := "ann@b.io"
  password := "Long12345!"
  firstName := "Ann"
  lastName := "B"

/- A registration, and the worker with its task. -/
def signUp : Tid → Option MailCall
| 0 => some (.register 7 newcomer)
| 1 => some (.deliver 7)
| _ => none

def noAccounts : Db := ⟨[], [], [], [], []⟩

def signUpChoices : List (Choice Exc Reply) :=
  [.proceed, .proceed, .proceed, .reply (.salt 1), .proceed,
    .proceed, .proceed, .proceed, .proceed,
    .reply (.token "new"), .proceed, .proceed, .reply .done,
    .proceed]

def signUpSteps : List (Event (Choice Exc Reply)) :=
  signUpChoices.map (.step 0)

/- The registration returns, and its user is the only one. -/
theorem registrations_append_oneRegistration :
    ∃ w : MailWorld,
      Registered w 0
          (registeredUser mailLibrary 7 newcomer 1) ∧
        ∃ enrolled : List (Tid × User),
          w.shared.committed.users =
              noAccounts.users ++ enrolled.map Prod.snd ∧
            (0, registeredUser mailLibrary 7 newcomer 1) ∈
              enrolled := by
  have hRun :
      ∃ w : MailWorld,
        backend.machine.Reaches Machine.anyEvent
            (startMails mailLibrary signUp noAccounts) w ∧
          Registered w 0
            (registeredUser mailLibrary 7 newcomer 1) :=
    ⟨_, Machine.reaches_of_replay signUpSteps rfl, rfl⟩
  rcases hRun with ⟨w, hReach, hRegistered⟩
  rcases
    registrations_append mailLibrary signUp noAccounts w
      hReach with
    ⟨enrolled, hUsers, _, hIff, _⟩
  exact
    ⟨w, hRegistered, enrolled, hUsers,
      (hIff 0 _).mpr hRegistered⟩

------------------------------------------------------------
-- Errors
------------------------------------------------------------

def sameAddress : Db :=
  { noAccounts with
    users := [registeredUser mailLibrary 6 newcomer 0] }

end SiteAnalysis.Users
