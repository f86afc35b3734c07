import SiteAnalysis.Users.Keys

/-
  This file proves that at every moment at most one key
  stands for a user, and that a key that a rotation has
  replaced stays revoked.

  Key definitions include:
    * `Db.Authenticates`
    * `HasRotated`
    * `Granted`

  Key theorems include:
    * `frugal_keys`
    * `replaced_of_rotated`
    * `granted_of_presented`
    * `api_keys_stay_revoked`
-/

------------------------------------------------------------
-- Keys
------------------------------------------------------------

namespace SiteAnalysis.Users

open Concurrency
open Relational
open Python

variable {d : Db} {ns : Tid → KeyNote} {t : Tid}
variable {n : KeyNote} {user : UserId}
variable {calls : Tid → Option KeyCall}

/- A request with the key is answered as the user. -/
def Db.Authenticates
    (d : Db)
    (key : String)
    (user : UserId) : Prop :=
  ∃ row owner, row ∈ d.apiKeys ∧ row.key = key ∧
    row.isActive = true ∧ liveKey row = true ∧
      row.user = user ∧ d.find user = some owner ∧
        owner.isActive = true

/- Only a key that the user holds authenticates the user. -/
theorem holds_of_authenticates
    {key : String}
    (hIssued : d.Issued)
    (hAuth : d.Authenticates key user) :
    d.Holds key user := by
  rcases hAuth with ⟨row, _, hMem, hKey, _, _, hUser, _⟩
  refine ⟨row, ?_, hKey⟩
  rw [← hUser]
  exact Table.find_of_mem hIssued.keyed hMem

/- A request that finds its key is answered as the owner. -/
theorem authenticates_of_found
    {key : String}
    {row : ApiKey}
    {owner : User}
    (hFound : d.authenticating key = some (row, owner))
    (hActive : owner.isActive = true) :
    d.Authenticates key owner.id := by
  unfold Db.authenticating at hFound
  split at hFound
  · cases hFound
  · rename_i row' hRow
    split at hFound
    · cases hFound
    · rename_i owner' hOwner
      cases hFound
      have hSelected := List.find?_some hRow
      simp only [decide_eq_true_eq] at hSelected
      have hId : owner.id = row.user :=
        Table.key_of_find hOwner
      refine
        ⟨row, owner, List.mem_of_find?_eq_some hRow,
          hSelected.1, hSelected.2.1, hSelected.2.2,
          hId.symm, ?_, hActive⟩
      rw [hId]
      exact hOwner

theorem noteKey_committed
    (q : Statement)
    (a : q.Answer)
    (n : KeyNote) :
    (noteKey q a n).committed = n.committed := by
  unfold noteKey
  split <;> rfl

theorem noteKey_keys
    {q : Statement}
    (a : q.Answer)
    (n : KeyNote)
    (hOther : q ≠ .generateApiKey) :
    (noteKey q a n).keys = n.keys := by
  unfold noteKey
  split
  · exact absurd rfl hOther
  · rfl

theorem frugal_keys
    (calls : Tid → Option KeyCall) :
    (keyRegime calls).Frugal issued where
  inv := fun _ _ _ hInv v hStored =>
    ⟨hInv.issued.drawn v.1 v.2 hStored,
      hInv.spent v.1 v.2 hStored⟩
  frames := fun _ o hShape => (hShape o rfl).frames
  auto := fun _ q hShape hNone d a lock f =>
    (hShape _ rfl).auto q d a lock f rfl hNone
  reply := by
    intro q x d a d' hReply n
    refine ⟨?_, ?_⟩
    · rintro v ⟨row, hFind, hKey⟩
      rw [Db.findKey, apiKeys_of_reply hReply] at hFind
      exact Or.inl ⟨row, hFind, hKey⟩
    · intro v hDrawn
      exact keys_of_reply hReply hDrawn
  noteReply := by
    intro t q x d a d' n v hReply hMine
    by_cases hKey : q = .generateApiKey
    · subst hKey
      cases x with
      | salt value => cases hReply
      | done => cases hReply
      | token value =>
          simp only [backend, reply] at hReply
          split at hReply
          · cases hReply
          · rename_i hFresh
            cases hReply
            rcases List.mem_cons.mp hMine with hNew | hOld
            · right
              intro hDrawn
              apply hFresh
              rw [← hNew]
              exact hDrawn
            · exact Or.inl hOld
    · left
      change v.1 ∈ (noteKey q a n).keys at hMine
      rw [noteKey_keys a n hKey] at hMine
      exact hMine
  notePlan := by
    intro t q d a lock f d' n v hPlan hMine
    change v.1 ∈ (noteKey q a n).keys at hMine
    rw [noteKey_keys a n _] at hMine
    · exact hMine
    · rintro rfl
      cases hPlan
  noteError := fun _ _ _ hMine => hMine
  noteCommit := fun _ _ _ _ hMine => by cases hMine
  noteLost := fun _ _ hMine => hMine

------------------------------------------------------------
-- Rotations
------------------------------------------------------------

variable {w v w₁ w₂ w₃ : KeyWorld}

/- The call of the thread has returned a key. -/
def HasRotated
    (w : KeyWorld)
    (t : Tid) : Prop :=
  ∃ row, w.threads t = .live (.ret (.key row))

/-
  A key that the user held before the rotation returned is
  not held by the user after.
-/
theorem replaced_of_rotated
    {key : String}
    (hIssued : d.Issued)
    (hReach :
      backend.machine.Reaches Machine.anyEvent
        (startKeys calls d) w₁)
    (hLater :
      backend.machine.Reaches Machine.anyEvent w₁ w₂)
    (hCall : calls t = some (.rotate user))
    (hBefore : ¬ HasRotated w₁ t)
    (hAfter : HasRotated w₂ t)
    (hHolds : w₁.shared.committed.Holds key user) :
    ¬ w₂.shared.committed.Holds key user := by
  have hVerified := verified_keys calls hIssued
  have hFrugal := frugal_keys calls
  rcases
    Discipline.sound_of_reaches hVerified.final
      hVerified.losable hVerified.sound hReach with
    ⟨ls, hSound, _⟩
  have hSpent :=
    hFrugal.spent_of_stored (v := (key, user)) hSound hHolds
  rcases hAfter with ⟨row, hRet⟩
  -- a rotation that has not returned has not committed
  have hWorking : (ls t).note.committed = false := by
    cases hThread : w₁.threads t with
    | lost =>
        rw [Machine.threads_of_head_none hLater
          (by rw [hThread]; rfl), hThread] at hRet
        cases hRet
    | live p =>
        cases p with
        | ret a =>
            exfalso
            apply hBefore
            rw [Machine.threads_of_head_none hLater
              (by rw [hThread]; rfl)] at hRet
            exact ⟨row, hRet⟩
        | raise e =>
            rw [Machine.threads_of_head_none hLater
              (by rw [hThread]; rfl), hThread] at hRet
            cases hRet
        | call o k =>
            have hStep :=
              hVerified.before_step hSound hThread
            exact (hStep.1 o rfl).working
  have hKeep :
      ∀ x y,
        (keyRegime calls).discipline.Sound
            (fun t _ l => Settled calls t l)
            (fun _ _ _ => True) x.1 x.2 →
          (keyRegime calls).discipline.Sound
              (fun t _ l => Settled calls t l)
              (fun _ _ _ => True) y.1 y.2 →
            (keyRegime calls).discipline.Moves x y →
              issued.Spent (key, user) x.1.shared.committed
                    (fun t => (x.2 t).note) ∧
                  ((x.2 t).note.committed = true →
                    ¬ x.1.shared.committed.Holds key user) →
                issued.Spent (key, user)
                    y.1.shared.committed
                    (fun t => (y.2 t).note) ∧
                  ((y.2 t).note.committed = true →
                    ¬ y.1.shared.committed.Holds key
                        user) := by
    rintro x y hSoundX _ hMoves ⟨hSpentX, hGone⟩
    have hNext :=
      hFrugal.spent_of_moves hVerified hSoundX hMoves hSpentX
    refine ⟨hNext.1, ?_⟩
    intro hCommitted hStill
    by_cases hOld : (x.2 t).note.committed = true
    · exact hGone hOld (hNext.2 hStill)
    · have hPublishes :=
        hVerified.publishes_of_noted
          (P := fun n => n.committed = true)
          (fun _ q a _ n hTrue =>
            (noteKey_committed q a n).symm.trans hTrue)
          (fun _ _ hTrue => hTrue) (fun _ hTrue => hTrue)
          hSoundX hMoves hOld hCommitted
      rcases hPublishes.frame with ⟨fr, hFrames, hData⟩
      have hTarget : (x.2 t).own = some user := by
        rw [hPublishes.own]
        change KeyCall.target (calls t) = some user
        rw [hCall]
        rfl
      rw [hData] at hStill
      have hMine :=
        (hPublishes.shape _ rfl).replaced user fr rfl hTarget
          hFrames _ key hStill
      exact hSpentX.2 t hMine
  rcases
    hVerified.keeps_of_reaches
      (I := fun x =>
        issued.Spent (key, user) x.1.shared.committed
            (fun t => (x.2 t).note) ∧
          ((x.2 t).note.committed = true →
            ¬ x.1.shared.committed.Holds key user))
      hKeep hSound
      ⟨hSpent, fun hTrue => by
        rw [hWorking] at hTrue
        cases hTrue⟩
      hLater with
    ⟨ls', hSound', _, hGone⟩
  apply hGone
  have hSettled := hSound'.live t _ hRet
  apply hSettled
  rw [hCall]
  exact Option.some_ne_none user

------------------------------------------------------------
-- Requests
------------------------------------------------------------

/- What follows the lookup of a presented key. -/
def onFound
    (now : Time)
    (found : Option (ApiKey × User)) : Service KeyAnswer :=
  match found with
  | none => raiseError (.other "Invalid API key.")
  | some (row, user) =>
      if !user.isActive then
        raiseError (.other "User account is inactive.")
      else do
        query (.touchApiKey row.user now)
        pure (.request (some (user, row)))

theorem program_present
    {key : String}
    {now : Time}
    (hKey : key ≠ "") :
    KeyCall.program (some (.present (some key) now)) =
      (query (.findApiKey key)).bind (onFound now) := by
  simp only [KeyCall.program, authenticate, hKey, if_false]
  change
    Prog.handle (Prog.handle _ _ _) _ _ = Prog.handle _ _ _
  rw [Prog.handle_handle]
  congr 1
  funext found
  cases found with
  | none => rfl
  | some pair =>
      rcases pair with ⟨row, user⟩
      cases hActive : user.isActive with
      | false =>
          simp only [onFound, hActive]
          rfl
      | true =>
          simp only [onFound, hActive, Bool.not_true,
            Bool.false_eq_true, if_false]
          change
            Prog.handle (Prog.handle _ _ _) _ _ =
              Prog.handle _ _ _
          rw [Prog.handle_handle]
          rfl

/-
  A request that is answered as a user had a key of that user
  at some moment since the world `w`.
-/
def Granted
    (key : String)
    (w v : KeyWorld)
    (a : KeyAnswer) : Prop :=
  ∀ user row, a = .request (some (user, row)) →
    ∃ v', backend.machine.Reaches Machine.anyEvent w v' ∧
      backend.machine.Reaches Machine.anyEvent v' v ∧
        v'.shared.committed.Authenticates key user.id

/- What is left of the request is granted in that way. -/
abbrev Grants
    (key : String)
    (w v : KeyWorld)
    (p : Service KeyAnswer) : Prop :=
  p.Heeds (fun _ => True) (fun _ _ => True) (Granted key w v)

/- After its lookup the request knows the owner of the key. -/
theorem grants_of_lookup
    {key : String}
    (now : Time)
    {r : Except Exc (Option (ApiKey × User))}
    (hSince :
      backend.machine.Reaches Machine.anyEvent w v)
    (hLater :
      backend.machine.Reaches Machine.anyEvent v w₁)
    (hFound :
      ∀ found, r = .ok found →
        found = v.shared.committed.authenticating key) :
    Grants key w w₁
      ((Prog.ofExcept r).bind (onFound now)) := by
  cases r with
  | error e => trivial
  | ok found =>
      have hSame := hFound found rfl
      change Grants key w w₁ (onFound now found)
      cases found with
      | none => trivial
      | some pair =>
          rcases pair with ⟨row, user⟩
          cases hActive : user.isActive with
          | false =>
              simp only [onFound, hActive]
              trivial
          | true =>
              simp only [onFound, hActive, Bool.not_true,
                Bool.false_eq_true, if_false]
              refine ⟨trivial, ?_⟩
              intro r _
              cases r with
              | error e => trivial
              | ok u =>
                  intro user' row' hAnswer
                  cases hAnswer
                  exact
                    ⟨v, hSince, hLater,
                      authenticates_of_found hSame.symm
                        hActive⟩

/- What has been granted stays so. -/
theorem granted_mono
    {key : String}
    {a : KeyAnswer}
    (hGranted : Granted key w v a)
    (hLater :
      backend.machine.Reaches Machine.anyEvent v w₁) :
    Granted key w w₁ a := by
  intro user row hAnswer
  rcases hGranted user row hAnswer with
    ⟨v', hSince, hUntil, hAuth⟩
  exact ⟨v', hSince, hUntil.trans hLater, hAuth⟩

/- The answer of a lookup outside a transaction. -/
theorem found_of_exec
    {key : String}
    {c : Choice Exc Reply}
    {s s' : Store Db Lock}
    {r : Except Exc (Statement.findApiKey key).Answer}
    (hFrames : s.frames t = [])
    (hExec :
      backend.machine.exec t (.query (.findApiKey key)) c s =
        some (r, s')) :
    ∀ found, r = .ok found →
      found = s.committed.authenticating key := by
  have hView : s.view t = s.committed := by
    simp [Store.view, hFrames]
  intro found hOk
  have hAnswered := Backend.answered_of_exec hExec
  cases hAnswered with
  | fault e => cases hOk
  | refuse e hPlan => cases hOk
  | aborted hBroken => cases hOk
  | miss e hPlan => cases hOk
  | reply x a d hReply => cases hReply
  | done a f hPlan =>
      cases hOk
      rw [hView] at hPlan
      cases hPlan
      rfl
  | locked a k f hPlan hFree => cases hPlan

/-
  A request that has not begun in the world `w` is only ever
  answered as a user whose key it presents after `w`.
-/
theorem granted_of_presented
    {key : String}
    {now : Time}
    {user : User}
    {row : ApiKey}
    (hIssued : d.Issued)
    (hReach :
      backend.machine.Reaches Machine.anyEvent
        (startKeys calls d) w)
    (hLater :
      backend.machine.Reaches Machine.anyEvent w v)
    (hStart :
      w.threads t =
        .live
          (KeyCall.program
            (some (.present (some key) now))))
    (hAnswer :
      v.threads t = .live (.ret (.request (some (user, row)))))
    :
    ∃ v', backend.machine.Reaches Machine.anyEvent w v' ∧
      backend.machine.Reaches Machine.anyEvent v' v ∧
        v'.shared.committed.Authenticates key user.id := by
  have hVerified := verified_keys calls hIssued
  by_cases hKey : key = ""
  · subst hKey
    rw [Machine.threads_of_head_none hLater
      (by rw [hStart]; rfl), hStart] at hAnswer
    cases hAnswer
  · rw [program_present hKey] at hStart
    have hStages :
        backend.machine.Reaches Machine.anyEvent w v ∧
          (v.threads t =
              .live
                ((query (.findApiKey key)).bind
                  (onFound now)) ∨
            v.threads t = .lost ∨
              ∃ p, v.threads t = .live p ∧
                Grants key w v p) := by
      apply hLater.invariant
        (P := fun v =>
          backend.machine.Reaches Machine.anyEvent w v ∧
            (v.threads t =
                .live
                  ((query (.findApiKey key)).bind
                    (onFound now)) ∨
              v.threads t = .lost ∨
                ∃ p, v.threads t = .live p ∧
                  Grants key w v p))
        ⟨.refl, Or.inl hStart⟩
      rintro v₁ e v₂ ⟨hSince, hStage⟩ _ hNext
      have hStep :
          backend.machine.Reaches Machine.anyEvent v₁ v₂ :=
        Machine.Reaches.refl.tail trivial hNext
      refine ⟨hSince.trans hStep, ?_⟩
      by_cases hSame : t = e.thread
      · subst hSame
        cases e with
        | lose t' =>
            rcases Machine.next_lose_inv hNext with
              ⟨o, k, _, rfl⟩
            right
            left
            exact World.put_threads_self _ _ _ _
        | step t' c =>
            rcases Machine.next_step_inv hNext with
              ⟨o, k, r, s, hThread, hExec, rfl⟩
            right
            right
            refine ⟨k r, World.put_threads_self _ _ _ _, ?_⟩
            rcases hStage with hFirst | hLost | ⟨p, hLive, hP⟩
            · -- the lookup itself
              change v₁.threads t' = _ at hFirst
              rw [hFirst] at hThread
              cases hThread
              rcases
                Discipline.sound_of_reaches hVerified.final
                  hVerified.losable hVerified.sound
                  (hReach.trans hSince) with
                ⟨ls, hSound, _⟩
              have hBefore :=
                hVerified.before_step hSound hFirst
              have hFrames : v₁.shared.frames t' = [] := by
                have hNone :=
                  (hBefore.1 _ rfl).outside key rfl
                rw [hBefore.2] at hNone
                exact hNone
              have hGrants :=
                grants_of_lookup now hSince hStep
                  (found_of_exec hFrames hExec)
              cases r <;> exact hGrants
            · change v₁.threads t' = _ at hLost
              rw [hThread] at hLost
              cases hLost
            · change v₁.threads t' = _ at hLive
              rw [hThread] at hLive
              cases hLive
              refine Prog.Heeds.mono (hP.2 r ?_) ?_
              · intro a _
                trivial
              · intro a hGranted
                exact granted_mono hGranted hStep
      · rw [Machine.threads_of_next_of_ne hNext hSame]
        rcases hStage with hFirst | hLost | ⟨p, hLive, hP⟩
        · exact Or.inl hFirst
        · exact Or.inr (Or.inl hLost)
        · refine Or.inr (Or.inr ⟨p, hLive, hP.mono ?_⟩)
          intro a hGranted
          exact granted_mono hGranted hStep
    rcases hStages.2 with hFirst | hLost | ⟨p, hLive, hP⟩
    · rw [hFirst] at hAnswer
      cases hAnswer
    · rw [hLost] at hAnswer
      cases hAnswer
    · rw [hLive] at hAnswer
      cases hAnswer
      exact hP user row rfl

------------------------------------------------------------
-- Revocation
------------------------------------------------------------

/- The tables keep their keys in order throughout a run. -/
theorem issued_of_reaches
    (hIssued : d.Issued)
    (hReach :
      backend.machine.Reaches Machine.anyEvent
        (startKeys calls d) w) :
    w.shared.committed.Issued := by
  rcases
    (verified_keys calls hIssued).inv_of_reaches hReach with
    ⟨ns, hInv⟩
  exact hInv.issued

/- A key that the user has lost is gone for everyone. -/
theorem not_holds_after
    {key : String}
    (hIssued : d.Issued)
    (hReach₁ :
      backend.machine.Reaches Machine.anyEvent
        (startKeys calls d) w₁)
    (hReach₂ :
      backend.machine.Reaches Machine.anyEvent w₁ w₂)
    (hReach₃ :
      backend.machine.Reaches Machine.anyEvent w₂ w₃)
    (hHolds : w₁.shared.committed.Holds key user)
    (hLost : ¬ w₂.shared.committed.Holds key user)
    (user' : UserId) :
    ¬ w₃.shared.committed.Holds key user' := by
  have hVerified := verified_keys calls hIssued
  have hFrugal := frugal_keys calls
  by_cases hSame : user' = user
  · subst hSame
    exact
      hFrugal.gone_of_reaches (v := (key, user')) hVerified
        hReach₁ hReach₂ hReach₃ hHolds hLost
  · -- the key was another user's before and stays unstored
    rcases
      Discipline.sound_of_reaches hVerified.final
        hVerified.losable hVerified.sound hReach₁ with
      ⟨ls, hSound, _⟩
    have hSpent :=
      hFrugal.spent_of_stored (v := (key, user)) hSound
        hHolds
    have hAbsent :
        ¬ w₁.shared.committed.Holds key user' := by
      intro hOther
      exact
        hSame
          ((issued_of_reaches hIssued hReach₁).unique key
            user' user hOther hHolds)
    rcases
      hFrugal.absent_of_reaches (v := (key, user')) hVerified
        hSound hSpent hAbsent (hReach₂.trans hReach₃) with
      ⟨_, _, _, hGone⟩
    exact hGone

/-
  Over every run of any number of calls: at most one key
  authenticates a user; no key ever authenticates two users;
  a key that the user held before a rotation authenticates
  nobody once the rotation has returned; and a request is
  only answered as a user whose key it presents after it has
  begun.
-/
theorem api_keys_stay_revoked
    (calls : Tid → Option KeyCall)
    {d : Db}
    (hIssued : d.Issued) :
    (∀ (w : KeyWorld) key key' user,
        backend.machine.Reaches Machine.anyEvent
            (startKeys calls d) w →
          w.shared.committed.Authenticates key user →
            w.shared.committed.Authenticates key' user →
              key = key') ∧
      (∀ (w w' : KeyWorld) key user user',
          backend.machine.Reaches Machine.anyEvent
              (startKeys calls d) w →
            backend.machine.Reaches Machine.anyEvent w w' →
              w.shared.committed.Authenticates key user →
                w'.shared.committed.Authenticates key
                    user' →
                  user = user') ∧
        (∀ (w₁ w₂ w₃ : KeyWorld) t key user,
            backend.machine.Reaches Machine.anyEvent
                (startKeys calls d) w₁ →
              backend.machine.Reaches Machine.anyEvent w₁
                  w₂ →
                backend.machine.Reaches Machine.anyEvent w₂
                    w₃ →
                  calls t = some (.rotate user) →
                    ¬ HasRotated w₁ t → HasRotated w₂ t →
                      w₁.shared.committed.Holds key user →
                        ∀ user',
                          ¬ w₃.shared.committed.Authenticates
                              key user') ∧
          ∀ (w₁ w₂ : KeyWorld) t key now user row,
            backend.machine.Reaches Machine.anyEvent
                (startKeys calls d) w₁ →
              backend.machine.Reaches Machine.anyEvent w₁
                  w₂ →
                w₁.threads t =
                    .live
                      (KeyCall.program
                        (some
                          (.present (some key) now))) →
                  w₂.threads t =
                      .live
                        (.ret
                          (.request (some (user, row)))) →
                    ∃ v,
                      backend.machine.Reaches
                          Machine.anyEvent w₁ v ∧
                        backend.machine.Reaches
                            Machine.anyEvent v w₂ ∧
                          v.shared.committed.Authenticates
                            key user.id := by
  refine ⟨?_, ?_, ?_, ?_⟩
  · intro w key key' user hReach hAuth hAuth'
    have hIssued' := issued_of_reaches hIssued hReach
    rcases holds_of_authenticates hIssued' hAuth with
      ⟨row, hFind, rfl⟩
    rcases holds_of_authenticates hIssued' hAuth' with
      ⟨row', hFind', rfl⟩
    rw [hFind] at hFind'
    rw [Option.some.inj hFind']
  · intro w w' key user user' hReach hLater hAuth hAuth'
    have hHolds :=
      holds_of_authenticates
        (issued_of_reaches hIssued hReach) hAuth
    have hHolds' :=
      holds_of_authenticates
        (issued_of_reaches hIssued (hReach.trans hLater))
        hAuth'
    by_cases hStill : w'.shared.committed.Holds key user
    · exact
        (issued_of_reaches hIssued
          (hReach.trans hLater)).unique key user user' hStill
          hHolds'
    · exact
        absurd hHolds'
          (not_holds_after hIssued hReach hLater .refl hHolds
            hStill user')
  · intro w₁ w₂ w₃ t key user hReach₁ hReach₂ hReach₃ hCall
      hBefore hAfter hHolds user' hAuth
    have hLost :=
      replaced_of_rotated hIssued hReach₁ hReach₂ hCall
        hBefore hAfter hHolds
    have hIssued₃ :=
      issued_of_reaches hIssued
        ((hReach₁.trans hReach₂).trans hReach₃)
    exact
      not_holds_after hIssued hReach₁ hReach₂ hReach₃ hHolds
        hLost user' (holds_of_authenticates hIssued₃ hAuth)
  · intro w₁ w₂ t key now user row hReach hLater hStart
      hAnswer
    exact
      granted_of_presented hIssued hReach hLater hStart
        hAnswer

------------------------------------------------------------
-- A Rotation
------------------------------------------------------------

def holder : User where
  id := 0
  username := "a"
  email := "a@b.io"
  password := ⟨"Old12345!", 0⟩
  firstName := "A"
  lastName := "B"
  isActive := true
  isEmailVerified := true
  isDeleted := false
  deletedAt := none

def oldKey : ApiKey where
  user := 0
  key := "sk_old"
  isActive := true
  lastUsedAt := none
  isDeleted := false

def oneKey : Db where
  users := [holder]
  apiKeys := [oldKey]
  keys := ["sk_old"]
  salts := [0]
  tasks := []

/- A rotation, and a request that presents the old key. -/
def rotateAndPresent : Tid → Option KeyCall
| 0 => some (.rotate 0)
| 1 => some (.present (some "sk_old") 5)
| _ => none

theorem issued_oneKey : oneKey.Issued := by
  have hOnly :
      ∀ key user, oneKey.Holds key user →
        key = "sk_old" ∧ user = 0 := by
    rintro key user ⟨row, hFind, rfl⟩
    have hRow : row = oldKey :=
      List.mem_singleton.mp (Table.mem_of_find hFind)
    have hUser : row.user = user := Table.key_of_find hFind
    rw [hRow] at hUser ⊢
    exact ⟨rfl, hUser.symm⟩
  refine ⟨List.nodup_singleton _, ?_, ?_⟩
  · intro key user user' hHolds hHolds'
    rw [(hOnly key user hHolds).2, (hOnly key user' hHolds').2]
  · intro key user hHolds
    rw [(hOnly key user hHolds).1]
    exact List.mem_singleton.mpr rfl

/-
  The old key authenticates the user, the rotation returns,
  and the request never authenticates from then on.
-/
theorem api_keys_stay_revoked_oneRotation :
    oneKey.Authenticates "sk_old" 0 ∧
      ∃ w : KeyWorld,
        backend.machine.Reaches Machine.anyEvent
            (startKeys rotateAndPresent oneKey) w ∧
          HasRotated w 0 ∧
            ∀ w' : KeyWorld,
              backend.machine.Reaches Machine.anyEvent w
                  w' →
                ∀ user,
                  ¬ w'.shared.committed.Authenticates
                      "sk_old" user := by
  refine ⟨⟨oldKey, holder, List.mem_singleton.mpr rfl, rfl,
    rfl, rfl, rfl, rfl, rfl⟩, ?_⟩
  have hRun :
      ∃ w : KeyWorld,
        backend.machine.Reaches Machine.anyEvent
            (startKeys rotateAndPresent oneKey) w ∧
          HasRotated w 0 :=
    ⟨_,
      Machine.reaches_of_replay
        [.step 0 .proceed, .step 0 .proceed,
          .step 0 (.reply (.token "new")), .step 0 .proceed,
          .step 0 .proceed]
        rfl,
      _, rfl⟩
  rcases hRun with ⟨w, hReach, hRotated⟩
  refine ⟨w, hReach, hRotated, ?_⟩
  intro w' hLater user
  have hRevoked :=
    (api_keys_stay_revoked rotateAndPresent
      issued_oneKey).2.2.1
  apply
    hRevoked (startKeys rotateAndPresent oneKey) w w' 0
      "sk_old" 0 .refl hReach hLater rfl _ hRotated
      ⟨oldKey, rfl, rfl⟩
  rintro ⟨row, hRet⟩
  cases hRet

end SiteAnalysis.Users
