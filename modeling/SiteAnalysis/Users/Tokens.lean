import SiteAnalysis.Users.Resets

/-
  This file proves that a reset token is accepted at most
  once, and that a call that commits puts an end to all the
  tokens of its account.

  Key definitions include:
    * `Commits`
    * `Gone`
    * `UsedOnce`
    * `UsedBefore`

  Key theorems include:
    * `frugal_resets`
    * `commits_of_moves`
    * `usedOnce_of_moves`
    * `reset_tokens_once`
-/

------------------------------------------------------------
-- Hashes
------------------------------------------------------------

namespace SiteAnalysis.Users

open Concurrency
open Relational
open Python

variable {d : Db} {ns : Tid → ResetNote} {t : Tid}
variable {lib : Library} {calls : Tid → Option ResetCall}
variable {bound : String → Credential}
variable {l : Regime.Local Db Lock (Option User) Unit ResetNote}

theorem noteReset_accepted
    (q : Statement)
    (a : q.Answer)
    (n : ResetNote) :
    (noteReset q a n).accepted = n.accepted := by
  unfold noteReset
  split <;> rfl

theorem noteReset_salts
    {q : Statement}
    (a : q.Answer)
    (n : ResetNote)
    (hOther : q ≠ .makeSalt) :
    (noteReset q a n).salts = n.salts := by
  unfold noteReset
  split
  · rfl
  · exact absurd rfl hOther
  · rfl

theorem frugal_resets : resetRegime.Frugal passwords where
  inv := fun _ _ _ hInv => hInv.stored
  frames := fun _ o hShape => (hShape o rfl).frames
  auto := fun l q hShape hNone =>
    absurd hNone ((hShape _ rfl).inside q rfl)
  reply := by
    intro q x d a d' hReply n
    refine ⟨?_, ?_⟩
    · rintro credential ⟨row, hFind, hPassword⟩
      rw [Db.find, users_of_reply hReply] at hFind
      exact Or.inl ⟨row, hFind, hPassword⟩
    · intro credential hDrawn
      exact salts_of_reply hReply hDrawn
  noteReply := by
    intro t q x d a d' n credential hReply hMine
    by_cases hSalt : q = .makeSalt
    · subst hSalt
      cases x with
      | token value => cases hReply
      | done => cases hReply
      | salt value =>
          simp only [backend, reply] at hReply
          split at hReply
          · cases hReply
          · rename_i hFresh
            cases hReply
            rcases List.mem_cons.mp hMine with hNew | hOld
            · right
              intro hDrawn
              apply hFresh
              rw [← hNew]
              exact hDrawn
            · exact Or.inl hOld
    · left
      change credential.2.salt ∈ (noteReset q a n).salts
        at hMine
      rw [noteReset_salts a n hSalt] at hMine
      exact hMine
  notePlan := by
    intro t q d a lock f d' n credential hPlan hMine
    change credential.2.salt ∈ (noteReset q a n).salts
      at hMine
    rw [noteReset_salts a n _] at hMine
    · exact hMine
    · rintro rfl
      cases hPlan
  noteError := fun _ _ _ hMine => hMine
  noteCommit := fun _ _ _ _ hMine => by cases hMine
  noteLost := fun _ _ hMine => hMine

------------------------------------------------------------
-- Commits
------------------------------------------------------------

variable {w v v' w₁ w₂ w₃ : ResetWorld}
variable {ls ls' :
  Tid → Regime.Local Db Lock (Option User) Unit ResetNote}

/- A world of resets with sound annotations. -/
abbrev SoundResets
    (calls : Tid → Option ResetCall)
    (bound : String → Credential)
    (w : ResetWorld)
    (ls :
      Tid →
        Regime.Local Db Lock (Option User) Unit
          ResetNote) : Prop :=
  resetRegime.discipline.Sound
    (fun t a l => Returned calls bound t a l.note)
    (fun _ _ l => l.note.accepted = false) w ls

/- A call that has returned has committed. -/
theorem noted_of_accepted
    (hSound : SoundResets calls bound w ls)
    (hAccepted : Accepted w t) :
    (ls t).note.accepted = true ∧
      ∃ call, calls t = some call ∧
        (ls t).note.locked = some (bound call.token) := by
  rcases hAccepted with ⟨user, hRet⟩
  have hReturned := hSound.live t _ hRet
  exact hReturned.some (Option.some_ne_none user)

/-
  A call commits while the credential that it has locked is
  stored, and stores a hash of its own in its place.
-/
structure Commits
    (d d' : Db)
    (n n' : ResetNote) : Prop where
  locked :
    ∃ id hash, n'.locked = some (id, hash) ∧
      d.Stored (id, hash) ∧
        ∀ hash', d'.Stored (id, hash') →
          hash'.salt ∈ n.salts

/-
  A move of the world leaves the notes of the other calls and
  the users as they were, or it is the commit of its call.
-/
theorem commits_of_moves
    {x y :
      ResetWorld ×
        (Tid →
          Regime.Local Db Lock (Option User) Unit
            ResetNote)}
    (hVerified :
      resetRegime.Verified
        (fun t a l => Returned calls bound t a l.note)
        (fun _ _ l => l.note.accepted = false) d ns w)
    (hSound : SoundResets calls bound x.1 x.2)
    (hMoves : resetRegime.discipline.Moves x y) :
    ∃ t, (∀ t', t' ≠ t → y.2 t' = x.2 t' ∧
          y.1.threads t' = x.1.threads t') ∧
        (x.2 t).note.accepted = false ∧ x.1.Live t ∧
          (y.1.shared.committed.users =
                x.1.shared.committed.users ∧
              (y.2 t).note.accepted = false ∨
            (y.2 t).note.accepted = true ∧
              Commits x.1.shared.committed
                y.1.shared.committed (x.2 t).note
                (y.2 t).note) := by
  rcases
    hVerified.publishes_of_moves (π := Db.users)
      (P := fun n => n.accepted = true)
      (fun _ _ _ _ _ hReply => users_of_reply hReply)
      (fun _ q hShape hNone =>
        absurd hNone ((hShape _ rfl).inside q rfl))
      (fun _ q a _ n hTrue =>
        (noteReset_accepted q a n).symm.trans hTrue)
      (fun _ _ hTrue => hTrue) (fun _ hTrue => hTrue) hSound
      hMoves with
    ⟨t, hOthers, hLive, hCase⟩
  have hWorking : (x.2 t).note.accepted = false := by
    cases hThread : x.1.threads t with
    | lost => exact absurd (by rw [hThread]; rfl) hLive
    | live p =>
        cases p with
        | ret a => exact absurd (by rw [hThread]; rfl) hLive
        | raise e => exact absurd (by rw [hThread]; rfl) hLive
        | call o k =>
            exact
              ((hVerified.before_step hSound hThread).1 o
                rfl).working
  refine ⟨t, hOthers, hWorking, hLive, ?_⟩
  rcases hCase with ⟨hUsers, hNoted⟩ | hPublishes
  · left
    refine ⟨hUsers, ?_⟩
    rw [← Bool.not_eq_true]
    intro hTrue
    rw [hNoted hTrue] at hWorking
    cases hWorking
  · right
    rcases (hPublishes.shape _ rfl).locked rfl with
      ⟨id, row, hLocked, hHeld, hOwn⟩
    rcases hPublishes.frame with ⟨fr, hFrames, hData⟩
    have hStored :
        x.1.shared.committed.Stored (id, row.password) := by
      rw [hPublishes.session] at hHeld
      simp only [Store.session] at hHeld
      split at hHeld
      · exact ⟨row, Option.some.inj hHeld, rfl⟩
      · cases hHeld
    rw [hPublishes.note]
    refine ⟨rfl, id, row.password, hLocked, hStored, ?_⟩
    intro hash' hNew
    rw [hData] at hNew
    apply hOwn fr _ x.1.shared.committed hash' hNew
    rw [hFrames]
    exact List.mem_singleton.mpr rfl

------------------------------------------------------------
-- One-Time Use
------------------------------------------------------------

/- The credential is not stored, and can never be again. -/
abbrev Gone
    (w : ResetWorld)
    (ls :
      Tid →
        Regime.Local Db Lock (Option User) Unit ResetNote)
    (credential : Credential) : Prop :=
  passwords.Spent credential w.shared.committed
      (fun t => (ls t).note) ∧
    ¬ w.shared.committed.Stored credential

/-
  The credentials under which calls have committed are gone,
  and no two calls have committed under the same.
-/
structure UsedOnce
    (x :
      ResetWorld ×
        (Tid →
          Regime.Local Db Lock (Option User) Unit
            ResetNote)) : Prop where
  gone :
    ∀ t credential, (x.2 t).note.accepted = true →
      (x.2 t).note.locked = some credential →
        Gone x.1 x.2 credential
  apart :
    ∀ t t' credential, (x.2 t).note.accepted = true →
      (x.2 t').note.accepted = true →
        (x.2 t).note.locked = some credential →
          (x.2 t').note.locked = some credential → t = t'

section Uses

variable {x y :
  ResetWorld ×
    (Tid →
      Regime.Local Db Lock (Option User) Unit ResetNote)}

theorem gone_of_moves
    {credential : Credential}
    (hVerified :
      resetRegime.Verified
        (fun t a l => Returned calls bound t a l.note)
        (fun _ _ l => l.note.accepted = false) d ns w)
    (hSound : SoundResets calls bound x.1 x.2)
    (hMoves : resetRegime.discipline.Moves x y)
    (hGone : Gone x.1 x.2 credential) :
    Gone y.1 y.2 credential := by
  have hNext :=
    frugal_resets.spent_of_moves hVerified hSound hMoves
      hGone.1
  exact ⟨hNext.1, fun hStored => hGone.2 (hNext.2 hStored)⟩

/- The credential of a commit is gone. -/
theorem gone_of_commits
    {id : UserId}
    {hash : Password}
    (hVerified :
      resetRegime.Verified
        (fun t a l => Returned calls bound t a l.note)
        (fun _ _ l => l.note.accepted = false) d ns w)
    (hSound : SoundResets calls bound x.1 x.2)
    (hMoves : resetRegime.discipline.Moves x y)
    (hSpent :
      passwords.Spent (id, hash) x.1.shared.committed
        (fun t => (x.2 t).note))
    (hOwn :
      ∀ hash', y.1.shared.committed.Stored (id, hash') →
        hash'.salt ∈ (x.2 t).note.salts) :
    Gone y.1 y.2 (id, hash) := by
  have hNext :=
    frugal_resets.spent_of_moves hVerified hSound hMoves
      hSpent
  exact
    ⟨hNext.1, fun hStored => hSpent.2 t (hOwn hash hStored)⟩

theorem usedOnce_of_moves
    (hVerified :
      resetRegime.Verified
        (fun t a l => Returned calls bound t a l.note)
        (fun _ _ l => l.note.accepted = false) d ns w)
    (hSound : SoundResets calls bound x.1 x.2)
    (hMoves : resetRegime.discipline.Moves x y)
    (hUsed : UsedOnce x) :
    UsedOnce y := by
  rcases commits_of_moves hVerified hSound hMoves with
    ⟨t, hOthers, hWorking, _, ⟨_, hStill⟩ | ⟨_, hCommits⟩⟩
  · have hOld :
        ∀ t', (y.2 t').note.accepted = true →
          y.2 t' = x.2 t' := by
      intro t' hAccepted
      have hNe : t' ≠ t := by
        rintro rfl
        rw [hStill] at hAccepted
        cases hAccepted
      exact (hOthers t' hNe).1
    refine ⟨?_, ?_⟩
    · intro t' credential hAccepted hLocked
      have hSame := hOld t' hAccepted
      rw [hSame] at hAccepted hLocked
      exact
        gone_of_moves hVerified hSound hMoves
          (hUsed.gone t' credential hAccepted hLocked)
    · intro t₁ t₂ credential hAcc₁ hAcc₂ hLock₁ hLock₂
      have hSame₁ := hOld t₁ hAcc₁
      have hSame₂ := hOld t₂ hAcc₂
      rw [hSame₁] at hAcc₁ hLock₁
      rw [hSame₂] at hAcc₂ hLock₂
      exact
        hUsed.apart t₁ t₂ credential hAcc₁ hAcc₂ hLock₁
          hLock₂
  · rcases hCommits.locked with
      ⟨id, hash, hLocked, hStored, hOwn⟩
    have hSpent :=
      frugal_resets.spent_of_stored hSound hStored
    have hGone : Gone y.1 y.2 (id, hash) :=
      gone_of_commits hVerified hSound hMoves hSpent hOwn
    -- a call that has committed before has another credential
    have hOther :
        ∀ t' credential, t' ≠ t →
          (y.2 t').note.accepted = true →
            (y.2 t').note.locked = some credential →
              credential ≠ (id, hash) := by
      rintro t' credential hNe hAccepted hLocked' rfl
      rw [(hOthers t' hNe).1] at hAccepted hLocked'
      exact
        (hUsed.gone t' _ hAccepted hLocked').2 hStored
    refine ⟨?_, ?_⟩
    · intro t' credential hAccepted hLocked'
      by_cases hSame : t' = t
      · subst hSame
        rw [hLocked] at hLocked'
        cases hLocked'
        exact hGone
      · rw [(hOthers t' hSame).1] at hAccepted hLocked'
        exact
          gone_of_moves hVerified hSound hMoves
            (hUsed.gone t' credential hAccepted hLocked')
    · intro t₁ t₂ credential hAcc₁ hAcc₂ hLock₁ hLock₂
      by_cases hSame₁ : t₁ = t
      · by_cases hSame₂ : t₂ = t
        · exact hSame₁.trans hSame₂.symm
        · subst hSame₁
          rw [hLocked] at hLock₁
          exact
            absurd (Option.some.inj hLock₁).symm
              (hOther t₂ credential hSame₂ hAcc₂ hLock₂)
      · by_cases hSame₂ : t₂ = t
        · subst hSame₂
          rw [hLocked] at hLock₂
          exact
            absurd (Option.some.inj hLock₂).symm
              (hOther t₁ credential hSame₁ hAcc₁ hLock₁)
        · rw [(hOthers t₁ hSame₁).1] at hAcc₁ hLock₁
          rw [(hOthers t₂ hSame₂).1] at hAcc₂ hLock₂
          exact
            hUsed.apart t₁ t₂ credential hAcc₁ hAcc₂ hLock₁
              hLock₂

end Uses

/- No two calls are accepted with one token. -/
theorem accepted_once
    {t' : Tid}
    {call call' : ResetCall}
    (hBinds : Binds lib bound)
    (hSalted : d.Salted)
    (hReach :
      backend.machine.Reaches Machine.anyEvent
        (startResets lib calls d) w)
    (hCall : calls t = some call)
    (hCall' : calls t' = some call')
    (hToken : call.token = call'.token)
    (hAccepted : Accepted w t)
    (hAccepted' : Accepted w t') :
    t = t' := by
  have hVerified :=
    verified_resets calls hBinds hSalted
  rcases
    hVerified.along_of_reaches (I := UsedOnce)
      ⟨(fun _ _ hNoted => by cases hNoted),
        (fun _ _ _ hNoted => by cases hNoted)⟩
      (fun x y hSound _ hMoves hUsed =>
        usedOnce_of_moves hVerified hSound hMoves hUsed)
      hReach with
    ⟨ls, hSound, hUsed⟩
  rcases noted_of_accepted hSound hAccepted with
    ⟨hNoted, call₁, hCall₁, hLocked⟩
  rcases noted_of_accepted hSound hAccepted' with
    ⟨hNoted', call₂, hCall₂, hLocked'⟩
  rw [hCall] at hCall₁
  cases hCall₁
  rw [hCall'] at hCall₂
  cases hCall₂
  rw [← hToken] at hLocked'
  exact hUsed.apart t t' _ hNoted hNoted' hLocked hLocked'

/-
  The credential has been used before the world `w`: its salt
  was generated before the run, or it was stored in the
  course of it.
-/
def UsedBefore
    (lib : Library)
    (calls : Tid → Option ResetCall)
    (d : Db)
    (w : ResetWorld)
    (credential : Credential) : Prop :=
  credential.2.salt ∈ d.salts ∨
    ∃ v : ResetWorld,
      backend.machine.Reaches Machine.anyEvent
          (startResets lib calls d) v ∧
        backend.machine.Reaches Machine.anyEvent v w ∧
          v.shared.committed.Stored credential

/- Such a credential is spent. -/
theorem spent_of_usedBefore
    {credential : Credential}
    (hBinds : Binds lib bound)
    (hSalted : d.Salted)
    (hReach :
      backend.machine.Reaches Machine.anyEvent
        (startResets lib calls d) w)
    (hUsed : UsedBefore lib calls d w credential) :
    ∃ ls, SoundResets calls bound w ls ∧
      passwords.Spent credential w.shared.committed
        (fun t => (ls t).note) := by
  have hVerified :=
    verified_resets calls hBinds hSalted
  rcases hUsed with hDrawn | ⟨v, hBefore, hAfter, hStored⟩
  · apply
      hVerified.along_of_reaches
        (I := fun x =>
          passwords.Spent credential x.1.shared.committed
            (fun t => (x.2 t).note))
        _ _ hReach
    · exact ⟨hDrawn, fun t hMine => by cases hMine⟩
    · intro x y hSound _ hMoves hSpent
      exact
        (frugal_resets.spent_of_moves hVerified hSound hMoves
          hSpent).1
  · exact
      frugal_resets.spent_of_reaches hVerified hBefore hAfter
        hStored

/-
  A token whose credential is gone is not accepted any more.
-/
theorem not_accepted_of_gone
    {call : ResetCall}
    (hBinds : Binds lib bound)
    (hSalted : d.Salted)
    (hSound : SoundResets calls bound w₂ ls)
    (hCall : calls t = some call)
    (hGone : Gone w₂ ls (bound call.token))
    (hRefused : ¬ Accepted w₂ t)
    (hLater :
      backend.machine.Reaches Machine.anyEvent w₂ w₃) :
    ¬ Accepted w₃ t := by
  have hVerified :=
    verified_resets calls hBinds hSalted
  have hKeep :
      ∀ x y, SoundResets calls bound x.1 x.2 →
        SoundResets calls bound y.1 y.2 →
          resetRegime.discipline.Moves x y →
            Gone x.1 x.2 (bound call.token) ∧
                ¬ Accepted x.1 t →
              Gone y.1 y.2 (bound call.token) ∧
                ¬ Accepted y.1 t := by
    rintro x y hSoundX hSoundY hMoves ⟨hGoneX, hRefusedX⟩
    refine
      ⟨gone_of_moves hVerified hSoundX hMoves hGoneX, ?_⟩
    intro hAccepted
    rcases noted_of_accepted hSoundY hAccepted with
      ⟨hNoted, call', hCall', hLocked⟩
    rw [hCall] at hCall'
    cases hCall'
    rcases commits_of_moves hVerified hSoundX hMoves with
      ⟨t', hOthers, _, _, hCase⟩
    have hSame : t = t' := by
      by_contra hNe
      rcases hAccepted with ⟨user, hRet⟩
      rw [(hOthers t hNe).2] at hRet
      exact hRefusedX ⟨user, hRet⟩
    subst hSame
    rcases hCase with ⟨_, hStill⟩ | ⟨_, hCommits⟩
    · rw [hStill] at hNoted
      cases hNoted
    · rcases hCommits.locked with
        ⟨id, hash, hLocked', hStored, _⟩
      rw [hLocked] at hLocked'
      rw [← Option.some.inj hLocked'] at hStored
      exact hGoneX.2 hStored
  rcases
    hVerified.keeps_of_reaches hKeep hSound
      ⟨hGone, hRefused⟩ hLater with
    ⟨_, _, _, hStill⟩
  exact hStill

/-
  Once a call has committed, no token for its account that
  was made before is accepted any more.
-/
theorem not_accepted_after
    {t' : Tid}
    {e : Event (Choice Exc Reply)}
    {call call' : ResetCall}
    (hBinds : Binds lib bound)
    (hSalted : d.Salted)
    (hReach :
      backend.machine.Reaches Machine.anyEvent
        (startResets lib calls d) w₁)
    (hNext : backend.machine.next w₁ e = some w₂)
    (hLater :
      backend.machine.Reaches Machine.anyEvent w₂ w₃)
    (hCall : calls t = some call)
    (hCall' : calls t' = some call')
    (hBefore : ¬ Accepted w₁ t)
    (hAccepted : Accepted w₂ t)
    (hAccount :
      (bound call.token).1 = (bound call'.token).1)
    (hUsed :
      UsedBefore lib calls d w₁ (bound call'.token))
    (hRefused : ¬ Accepted w₂ t') :
    ¬ Accepted w₃ t' := by
  have hVerified :=
    verified_resets calls hBinds hSalted
  rcases
    spent_of_usedBefore hBinds hSalted hReach hUsed with
    ⟨ls, hSound, hSpent⟩
  have hSteps :
      ∃ ls', resetRegime.discipline.Moves (w₁, ls) (w₂, ls') :=
    Discipline.moves_of_next ls trivial hNext
  rcases hSteps with ⟨ls', hMoves⟩
  have hSound' :=
    Discipline.sound_of_moves hVerified.final
      hVerified.losable hSound hMoves
  apply
    not_accepted_of_gone hBinds hSalted hSound' hCall' _
      hRefused hLater
  rcases noted_of_accepted hSound' hAccepted with
    ⟨hNoted, call₁, hCall₁, hLocked⟩
  rw [hCall] at hCall₁
  cases hCall₁
  rcases commits_of_moves hVerified hSound hMoves with
    ⟨t₁, hOthers, _, _, hCase⟩
  have hSame : t = t₁ := by
    by_contra hNe
    rcases hAccepted with ⟨user, hRet⟩
    rw [(hOthers t hNe).2] at hRet
    exact hBefore ⟨user, hRet⟩
  subst hSame
  rcases hCase with ⟨_, hStill⟩ | ⟨_, hCommits⟩
  · rw [hStill] at hNoted
    cases hNoted
  · rcases hCommits.locked with
      ⟨id, hash, hLocked', _, hOwn⟩
    rw [hLocked] at hLocked'
    have hId : (bound call'.token).1 = id := by
      rw [← hAccount, Option.some.inj hLocked']
    rw [← hId] at hOwn
    exact
      gone_of_commits hVerified hSound hMoves hSpent hOwn

/- The steps of a call that raises change no user. -/
theorem users_of_raise
    {e : Event (Choice Exc Reply)}
    {err : Exc}
    (hBinds : Binds lib bound)
    (hSalted : d.Salted)
    (hReach :
      backend.machine.Reaches Machine.anyEvent
        (startResets lib calls d) w₁)
    (hNext : backend.machine.next w₁ e = some w₂)
    (hLater :
      backend.machine.Reaches Machine.anyEvent w₂ w₃)
    (hRaise : w₃.threads e.thread = .live (.raise err)) :
    w₂.shared.committed.users = w₁.shared.committed.users := by
  have hVerified :=
    verified_resets calls hBinds hSalted
  rcases
    Discipline.sound_of_reaches hVerified.final
      hVerified.losable hVerified.sound hReach with
    ⟨ls, hSound, _⟩
  have hSteps :
      ∃ ls', resetRegime.discipline.Moves (w₁, ls) (w₂, ls') :=
    Discipline.moves_of_next ls trivial hNext
  rcases hSteps with ⟨ls', hMoves⟩
  have hSound' :=
    Discipline.sound_of_moves hVerified.final
      hVerified.losable hSound hMoves
  rcases commits_of_moves hVerified hSound hMoves with
    ⟨t, _, _, hLive, ⟨hUsers, _⟩ | ⟨hNoted, _⟩⟩
  · exact hUsers
  · exfalso
    -- a call that has committed takes no further step
    have hEnded : (w₂.threads t).head = none := by
      cases hThread : w₂.threads t with
      | lost => rfl
      | live p =>
          cases p with
          | ret a => rfl
          | raise e => rfl
          | call o k =>
              have hAfter :=
                hVerified.before_step hSound' hThread
              have hWorking := (hAfter.1 o rfl).working
              rw [hNoted] at hWorking
              cases hWorking
    have hSame : t = e.thread := by
      by_contra hNe
      rw [Machine.threads_of_next_of_ne hNext hNe] at hEnded
      exact hLive hEnded
    subst hSame
    rw [Machine.threads_of_head_none hLater hEnded] at hRaise
    have hUndone := hSound'.live _ _ hRaise
    change (ls' e.thread).note.accepted = false at hUndone
    rw [hNoted] at hUndone
    cases hUndone

/-
  Over every run of any number of calls: no two calls are
  accepted with one token; once a call has committed, no
  token that was made for its account before is accepted any
  more; and no step of a call that raises changes a user.
-/
theorem reset_tokens_once
    {lib : Library}
    {bound : String → Credential}
    (calls : Tid → Option ResetCall)
    {d : Db}
    (hBinds : Binds lib bound)
    (hSalted : d.Salted) :
    (∀ (w : ResetWorld) t t' call call',
        backend.machine.Reaches Machine.anyEvent
            (startResets lib calls d) w →
          calls t = some call → calls t' = some call' →
            call.token = call'.token → Accepted w t →
              Accepted w t' → t = t') ∧
      (∀ (w₁ w₂ w₃ : ResetWorld) e t t' call call',
          backend.machine.Reaches Machine.anyEvent
              (startResets lib calls d) w₁ →
            backend.machine.next w₁ e = some w₂ →
              backend.machine.Reaches Machine.anyEvent w₂
                  w₃ →
                calls t = some call →
                  calls t' = some call' →
                    ¬ Accepted w₁ t → Accepted w₂ t →
                      (bound call.token).1 =
                          (bound call'.token).1 →
                        UsedBefore lib calls d w₁
                            (bound call'.token) →
                          ¬ Accepted w₂ t' →
                            ¬ Accepted w₃ t') ∧
        ∀ (w₁ w₂ w₃ : ResetWorld) e err,
          backend.machine.Reaches Machine.anyEvent
              (startResets lib calls d) w₁ →
            backend.machine.next w₁ e = some w₂ →
              backend.machine.Reaches Machine.anyEvent w₂
                  w₃ →
                w₃.threads e.thread = .live (.raise err) →
                  w₂.shared.committed.users =
                    w₁.shared.committed.users := by
  refine ⟨?_, ?_, ?_⟩
  · intro w t t' call call' hReach hCall hCall' hToken hAcc
      hAcc'
    exact
      accepted_once hBinds hSalted hReach hCall hCall' hToken
        hAcc hAcc'
  · intro w₁ w₂ w₃ e t t' call call' hReach hNext hLater
      hCall hCall' hBefore hAcc hAccount hUsed hRefused
    exact
      not_accepted_after hBinds hSalted hReach hNext hLater
        hCall hCall' hBefore hAcc hAccount hUsed hRefused
  · intro w₁ w₂ w₃ e err hReach hNext hLater hRaise
    exact
      users_of_raise hBinds hSalted hReach hNext hLater
        hRaise

------------------------------------------------------------
-- Two Submissions of One Token
------------------------------------------------------------

def oldHash : Password := ⟨"Old12345!", 0⟩

/- The account 0, whose token is made for its old hash. -/
def resetLibrary : Library where
  normalizeEmail := fun email => email
  passwordErrors := fun _ _ => []
  decodeUid := some
  toUuid := fun _ => some 0
  checkToken := fun _ user token =>
    user.id = 0 ∧ user.password = oldHash ∧ token = "token"

def account : User where
  id := 0
  username := "a"
  email := "a@b.io"
  password := oldHash
  firstName := "A"
  lastName := "B"
  isActive := true
  isEmailVerified := true
  isDeleted := false
  deletedAt := none

def oneAccount : Db where
  users := [account]
  apiKeys := []
  keys := []
  salts := [0]
  tasks := []

/- Two calls that present the token. -/
def twoCalls : Tid → Option ResetCall
| 0 => some ⟨1, "0", "token", "New12345!"⟩
| 1 => some ⟨1, "0", "token", "Other123!"⟩
| _ => none

theorem binds_resetLibrary :
    Binds resetLibrary (fun _ => (0, oldHash)) := by
  intro now user token hCheck
  simp only [resetLibrary, decide_eq_true_eq] at hCheck
  rw [hCheck.1, hCheck.2.1]

theorem salted_oneAccount : oneAccount.Salted := by
  rintro credential ⟨row, hFind, hPassword⟩
  have hRow : row = account := by
    have hMem : row ∈ oneAccount.users :=
      Table.mem_of_find hFind
    exact List.mem_singleton.mp hMem
  rw [← hPassword, hRow]
  exact List.mem_singleton.mpr rfl

/- The first call is accepted, and then never the second. -/
theorem reset_tokens_once_twoCalls :
    (∃ w : ResetWorld,
        backend.machine.Reaches Machine.anyEvent
            (startResets resetLibrary twoCalls oneAccount)
            w ∧
          Accepted w 0) ∧
      ∀ w : ResetWorld,
        backend.machine.Reaches Machine.anyEvent
            (startResets resetLibrary twoCalls oneAccount)
            w →
          Accepted w 0 → ¬ Accepted w 1 := by
  refine ⟨?_, ?_⟩
  · refine
      ⟨_,
        Machine.reaches_of_replay
          [.step 0 .proceed, .step 0 .proceed,
            .step 0 (.reply (.salt 1)), .step 0 .proceed,
            .step 0 .proceed]
          rfl,
        _, rfl⟩
  · intro w hReach hFirst hSecond
    have hOnce :=
      (reset_tokens_once twoCalls binds_resetLibrary
        salted_oneAccount).1
    have hSame : (0 : Tid) = 1 :=
      hOnce w 0 1 _ _ hReach rfl rfl rfl hFirst hSecond
    cases hSame

end SiteAnalysis.Users
