import SiteAnalysis.Users.Drafts

/-
  This file verifies the registrations and the delivery of
  the verification emails, over every interleaving of any
  number of both.

  Key definitions include:
    * `Hurt`
    * `Refused`
    * `Concluded`
    * `Rejected`

  Key theorems include:
    * `wp_getOrCreateKey`
    * `wp_createUser`
    * `wp_onIntegrityError`
    * `wp_registerUserBody`
    * `concludes_of_working`
    * `verified_mails`
-/

------------------------------------------------------------
-- API Keys
------------------------------------------------------------

namespace SiteAnalysis.Users

open Concurrency
open Relational
open Python

variable {d d' : Db} {ns : Tid → MailNote} {t : Tid}
variable {calls : Tid → Option MailCall}
variable {ok : MailCondition} {live : Tid → Prop}
variable {n : MailNote} {lib : Library}
variable {draft : Option User} {depth : Nat}
variable {l : MailLocal}

theorem inside_getApiKey
    (user : UserId) : Inside (.getApiKey user) :=
  inside_of_read (q := .getApiKey user)
    (fun d => (d.findKey user).filter liveKey)
    (fun _ => rfl) (fun _ _ => rfl)

theorem inside_findUserByEmail
    (email : String) : Inside (.findUserByEmail email) :=
  inside_of_read (q := .findUserByEmail email)
    (fun d =>
      d.users.find?
        (fun row => row.email = email ∧ liveUser row))
    (fun _ => rfl) (fun _ _ => rfl)

theorem inside_existsUsername
    (username : String) : Inside (.existsUsername username) :=
  inside_of_read (q := .existsUsername username)
    (fun d =>
      d.users.any
        (fun row => row.username = username ∧ liveUser row))
    (fun _ => rfl) (fun _ _ => rfl)

theorem not_refuses_of_read
    {q : Statement}
    {e : Exc}
    {P : Prop}
    (hTame : Tame ok)
    (hRefuses : Refuses ok q l e)
    (hNever : ∀ d, backend.plan q d ≠ .refuse e) : P := by
  rcases hRefuses hTame with ⟨d, _, hPlan⟩
  exact absurd hPlan (hNever _)

/- The key is generated and its row inserted. -/
theorem wp_createKey
    {user : UserId}
    {Q : ApiKey → MailLocal → Prop}
    {E : Exc → MailLocal → Prop}
    (hWorking : Working draft depth l)
    (hDone : ∀ a l', Working draft depth l' → Q a l')
    (hFail :
      ∀ e l', Spoilt draft depth l' →
        (Tame ok → e = duplicateKey) → E e l') :
    (mailRegime calls ok).wp t (createApiKey user) Q E
      l := by
  apply Discipline.wp_bind
  apply wp_inside _ hWorking
  · intro key l' hWorking'
    apply Discipline.wp_bind
    apply wp_inside (inside_insertApiKey _) hWorking'
    · intro _ l'' hWorking''
      exact hDone _ l'' hWorking''
    · intro e l'' hSpoilt hRefuses
      apply hFail e l'' hSpoilt
      intro hTame
      rcases hRefuses hTame with ⟨d, _, hPlan⟩
      simp only [backend, plan] at hPlan
      split at hPlan
      · cases hPlan
        rfl
      · cases hPlan
  · intro e l' hSpoilt hRefuses
    apply hFail e l' hSpoilt
    intro hTame
    exact
      not_refuses_of_read hTame hRefuses
        (fun _ hPlan => by cases hPlan)
  · exact
      inside_of_outside (q := .generateApiKey)
        (fun _ => rfl) (fun _ _ => rfl)

/- The savepoint takes a failed insertion back. -/
theorem wp_savepointKey
    {user : UserId}
    {Q : ApiKey → MailLocal → Prop}
    {E : Exc → MailLocal → Prop}
    (hWorking : Working draft (depth + 1) l)
    (hDone : ∀ a l', Working draft (depth + 1) l' → Q a l')
    (hFail :
      ∀ e l', Working draft (depth + 1) l' →
        (Tame ok → e = duplicateKey) → E e l') :
    (mailRegime calls ok).wp t (atomic (createApiKey user)) Q
      E l := by
  apply Regime.wp_inner
  · apply hWorking.shape
    intro hEq
    cases hEq
  · intro e hFaults
    apply hFail e l hWorking
    intro hTame
    exact absurd hFaults (not_faults hTame)
  · apply wp_createKey hWorking.begin
    · intro a l' hWorking'
      rcases hWorking'.nested with
        ⟨fr, outer, rest, hFrames⟩
      refine ⟨outer, rest, fr, ?_, hFrames, ?_, ?_, ?_⟩
      · apply mailShape_open _ hFrames
          (Or.inr (List.cons_ne_nil _ _))
        rw [hWorking'.note]
      · apply hWorking'.intact
        rw [hFrames]
        exact List.mem_cons_self
      · intro e hFaults
        apply hFail e _ hWorking'.spoilt.rollback
        intro hTame
        exact absurd hFaults (not_faults hTame)
      · exact hDone a _ hWorking'.merge
    · intro e l' hSpoilt hDuplicate
      refine ⟨?_, hFail e _ hSpoilt.rollback hDuplicate⟩
      apply hSpoilt.shape
      intro hEq
      cases hEq

/- What is known when a statement of a creation fails. -/
structure Hurt
    (ok : MailCondition)
    (draft : Option User)
    (depth : Nat)
    (e : Exc)
    (l : MailLocal) : Prop where
  spoilt : Spoilt draft depth l
  tame :
    Tame ok →
      Working draft depth l ∧
        ∃ m, e = .database .integrityError m

theorem hurt_of_never
    {e : Exc}
    {q : Statement}
    {l' : MailLocal}
    (hSpoilt : Spoilt draft depth l')
    (hRefuses : Refuses ok q l e)
    (hNever : ∀ d, backend.plan q d ≠ .refuse e) :
    Hurt ok draft depth e l' where
  spoilt := hSpoilt
  tame := fun hTame =>
    not_refuses_of_read hTame hRefuses hNever

/- The key is provided, or the savepoint is taken back. -/
theorem wp_getOrCreateKey
    {user : UserId}
    {Q : ApiKey → MailLocal → Prop}
    {E : Exc → MailLocal → Prop}
    (hWorking : Working draft (depth + 1) l)
    (hDone : ∀ a l', Working draft (depth + 1) l' → Q a l')
    (hFail :
      ∀ e l', Hurt ok draft (depth + 1) e l' → E e l') :
    (mailRegime calls ok).wp t (getOrCreateApiKey user) Q E
      l := by
  apply Discipline.wp_bind
  apply wp_inside (inside_getApiKey user) hWorking
  · intro found l' hWorking'
    cases found with
    | some row => exact hDone row l' hWorking'
    | none =>
        apply Discipline.wp_tryCatch
        apply wp_savepointKey hWorking' hDone
        intro e l'' hWorking'' hDuplicate
        split
        · rename_i m
          apply Discipline.wp_bind
          apply wp_inside (inside_getApiKey user) hWorking''
          · intro winner l₃ hWorking₃
            cases winner with
            | some row => exact hDone row l₃ hWorking₃
            | none =>
                apply hFail
                exact
                  ⟨hWorking₃.spoilt,
                    fun _ => ⟨hWorking₃, m, rfl⟩⟩
          · intro e l₃ hSpoilt hRefuses
            apply hFail
            exact
              hurt_of_never hSpoilt hRefuses
                (fun _ hPlan => by cases hPlan)
        · rename_i hOther
          apply hFail
          refine ⟨hWorking''.spoilt, ?_⟩
          intro hTame
          exact absurd (hDuplicate hTame) (hOther _)
  · intro e l' hSpoilt hRefuses
    apply hFail
    exact
      hurt_of_never hSpoilt hRefuses
        (fun _ hPlan => by cases hPlan)

------------------------------------------------------------
-- Registrations
------------------------------------------------------------

variable {id : UserId} {input : Registration}
variable {email : String}

/- The columns and the values of an admitted row are free. -/
theorem not_refuses_of_admits
    {row : User}
    {field : UniqueField}
    {e : Exc}
    {P : Prop}
    (hTame : Tame ok)
    (hWorking : Working (some row) 1 l)
    (hRefuses : Refuses ok (.enterIndex field row) l e) :
    P := by
  rcases hRefuses hTame with ⟨d, hAdmits, hPlan⟩
  have hOld : d.taken field row = false := hAdmits
  have hFree :
      (l.session.view d).taken field row = false := by
    rw [Db.taken, hWorking.view]
    simpa [Db.taken] using hOld
  simp only [backend, plan, hFree] at hPlan
  cases hPlan

/- The row is inserted and entered into the indexes. -/
theorem wp_insertRow
    {row : User}
    {Q : Unit → MailLocal → Prop}
    {E : Exc → MailLocal → Prop}
    (hWorking : Working none 1 l)
    (hDone : ∀ l', Working (some row) 1 l' → Q () l')
    (hFail : ∀ draft e l', Hurt ok draft 1 e l' → E e l') :
    (mailRegime calls ok).wp t (insertRow row) Q E l := by
  apply Discipline.wp_bind
  apply wp_insertUser hWorking
  · intro l₁ hWorking₁
    apply Discipline.wp_bind
    apply wp_inside (inside_enterIndex .username row)
      hWorking₁
    · intro _ l₂ hWorking₂
      apply wp_inside (inside_enterIndex .email row)
        hWorking₂
      · intro _ l₃ hWorking₃
        exact hDone l₃ hWorking₃
      · intro e l₃ hSpoilt hRefuses
        apply hFail (some row)
        refine ⟨hSpoilt, ?_⟩
        intro hTame
        exact not_refuses_of_admits hTame hWorking₂ hRefuses
    · intro e l₂ hSpoilt hRefuses
      apply hFail (some row)
      refine ⟨hSpoilt, ?_⟩
      intro hTame
      exact not_refuses_of_admits hTame hWorking₁ hRefuses
  · intro e l₁ hSpoilt hRefuses
    apply hFail none
    refine ⟨hSpoilt, ?_⟩
    intro hTame
    rcases hRefuses hTame with
      ⟨d, ⟨hCheck, hNone⟩, hPlan⟩
    have hFind : (l.session.view d).find row.id = none := by
      rw [Db.find, hWorking.view]
      simpa [Db.find] using hNone
    simp only [backend, plan, hCheck, hFind] at hPlan
    cases hPlan

/- The user and its key are created. -/
theorem wp_createUser
    {Q : User → MailLocal → Prop}
    {E : Exc → MailLocal → Prop}
    (hWorking : Working none 1 l)
    (hEmail : Tame ok → email ≠ "")
    (hDone :
      ∀ salt l',
        Working
            (some
              (input.user id (lib.normalizeEmail email)
                salt)) 1 l' →
          Q (input.user id (lib.normalizeEmail email) salt)
            l')
    (hFail : ∀ draft e l', Hurt ok draft 1 e l' → E e l') :
    (mailRegime calls ok).wp t (createUser lib id email input)
      Q E l := by
  unfold createUser
  split
  · rename_i hEmpty
    apply hFail none
    refine ⟨hWorking.spoilt, ?_⟩
    intro hTame
    exact absurd hEmpty (hEmail hTame)
  · apply Discipline.wp_bind
    apply wp_inside _ hWorking
    · intro salt l₁ hWorking₁
      apply Discipline.wp_bind
      apply wp_insertRow hWorking₁
      · intro l₂ hWorking₂
        apply Discipline.wp_bind
        apply Discipline.wp_bind
        apply wp_getOrCreateKey hWorking₂
        · intro _ l₃ hWorking₃
          exact hDone salt l₃ hWorking₃
        · intro e l₃ hHurt
          exact hFail _ e l₃ hHurt
      · exact hFail
    · intro e l₁ hSpoilt hRefuses
      apply hFail none
      exact
        hurt_of_never hSpoilt hRefuses
          (fun _ hPlan => by cases hPlan)
    · exact
        inside_of_outside (q := .makeSalt) (fun _ => rfl)
          (fun _ _ => rfl)

/- A transaction that is rolled back. -/
structure Doomed (l : MailLocal) : Prop where
  frames : ∃ fr, l.session.frames = [fr]
  added : l.note.added = none
  missing : l.note.missing = false

theorem Spoilt.doomed
    (hSpoilt : Spoilt draft 1 l) :
    Doomed l := by
  refine ⟨?_, ?_, ?_⟩
  · rcases hSpoilt.frames with ⟨fr, rest, hFrames⟩
    have hSize := hSpoilt.size
    rw [hFrames] at hSize
    have hRest : rest = [] := by simpa using hSize
    exact ⟨fr, by rw [hFrames, hRest]⟩
  · rw [hSpoilt.note]
  · rw [hSpoilt.note]

theorem Doomed.fail
    (hDoomed : Doomed l) :
    Doomed { l with session := l.session.fail } where
  frames := by
    rcases hDoomed.frames with ⟨fr, hFrames⟩
    exact
      ⟨{ fr with broken := true },
        by simp [Session.fail, hFrames]⟩
  added := hDoomed.added
  missing := hDoomed.missing

theorem Doomed.shape
    {o : TxOp Statement}
    (hDoomed : Doomed l)
    (hCommit : o ≠ .commit) :
    (mailRegime calls ok).shape l (some o) := by
  rcases hDoomed.frames with ⟨fr, hFrames⟩
  exact mailShape_open hDoomed.added hFrames (Or.inl hCommit)

/- What a registration leaves when it raises. -/
structure Refused
    (lib : Library)
    (ok : MailCondition)
    (input : Registration)
    (e : Exc)
    (l : MailLocal) : Prop where
  doomed : Doomed l
  expected : Tame ok → Expected lib input e

/-
  The handler reads once more, which in a broken transaction
  it cannot.
-/
theorem wp_onIntegrityError
    {e : Exc}
    {Q : User → MailLocal → Prop}
    {E : Exc → MailLocal → Prop}
    (hHurt : Hurt ok draft 1 e l)
    (hFail :
      ∀ e l', Refused lib ok input e l' → E e l') :
    (mailRegime calls ok).wp t
      (onIntegrityError lib (lib.normalizeEmail input.email)
        input.username) Q E l := by
  have hEmail :
      ∀ l', Doomed l' →
        E
          (emailAlreadyRegistered
            (lib.normalizeEmail input.email)) l' :=
    fun l' hDoomed =>
      hFail _ l' ⟨hDoomed, fun _ => Or.inl rfl⟩
  have hUsername :
      ∀ l', Doomed l' →
        E (usernameAlreadyTaken input.username) l' :=
    fun l' hDoomed =>
      hFail _ l' ⟨hDoomed, fun _ => Or.inr (Or.inl rfl)⟩
  apply Discipline.wp_bind
  by_cases hTame : Tame ok
  · apply
      wp_inside (inside_findUserByEmail _)
        (hHurt.tame hTame).1
    · intro found l' hWorking
      cases found with
      | some row => exact hEmail l' hWorking.spoilt.doomed
      | none => exact hUsername l' hWorking.spoilt.doomed
    · intro e' l' hSpoilt hRefuses
      exact
        not_refuses_of_read hTame hRefuses
          (fun _ hPlan => by cases hPlan)
  · have hDoomed := hHurt.spoilt.doomed
    rcases hDoomed.frames with ⟨fr, hFrames⟩
    apply Regime.wp_execute_frame _ hFrames
    · intro e'
      apply hFail
      exact
        ⟨hDoomed.fail, fun hTrue => absurd hTrue hTame⟩
    · intro d ns live _ x a d' _ hReply
      cases hReply
    · intro _ d ns live hFits _
      have hStill :
          Doomed
            { l with session := l.session.write id } := by
        refine ⟨?_, hDoomed.added, hDoomed.missing⟩
        exact
          ⟨{ fr with pending := id ∘ fr.pending },
            by simp [Session.write, hFrames]⟩
      refine
        ⟨Regime.inv_same hFits.inv hFits.note, ?_⟩
      change
        (mailRegime calls ok).wp t _ Q E
          { l with session := l.session.write id }
      split
      · exact hEmail _ hStill
      · exact hUsername _ hStill
    · apply hDoomed.shape
      intro hEq
      cases hEq

/- A created user, or a registration that is refused. -/
theorem wp_createAndNotify
    {Q : User → MailLocal → Prop}
    {E : Exc → MailLocal → Prop}
    (hWorking : Working none 1 l)
    (hEmail :
      Tame ok → lib.normalizeEmail input.email ≠ "")
    (hDone :
      ∀ salt l',
        Working (some (registeredUser lib id input salt)) 1
            l' →
          Q (registeredUser lib id input salt) l')
    (hFail :
      ∀ e l', Refused lib ok input e l' → E e l') :
    (mailRegime calls ok).wp t
      (createAndNotify lib id
        (lib.normalizeEmail input.email) input) Q E l := by
  have hNotify :
      ∀ salt l',
        Working (some (registeredUser lib id input salt)) 1
            l' →
          (mailRegime calls ok).wp t
            (do
              query
                (.delay (registeredUser lib id input salt).id)
              pure (registeredUser lib id input salt))
            Q E l' := by
    intro salt l' hWorking'
    apply Discipline.wp_bind
    apply wp_inside _ hWorking'
    · intro _ l'' hWorking''
      exact hDone salt l'' hWorking''
    · intro e l'' hSpoilt hRefuses
      apply hFail
      refine ⟨hSpoilt.doomed, ?_⟩
      intro hTame
      exact
        not_refuses_of_read hTame hRefuses
          (fun _ hPlan => by cases hPlan)
    · exact
        inside_of_outside (q := .delay _) (fun _ => rfl)
          (fun _ _ => rfl)
  apply Discipline.wp_bind
  apply Discipline.wp_tryCatch
  apply wp_createUser hWorking hEmail
  · exact hNotify
  · intro draft e l' hHurt
    split
    · apply Discipline.wp_mono
        (wp_onIntegrityError (Q := fun _ _ => False) hHurt
          hFail)
      · intro _ _ hFalse
        exact hFalse.elim
      · intro e' l'' hRaise
        exact hRaise
    · rename_i hOther
      apply hFail
      refine ⟨hHurt.spoilt.doomed, ?_⟩
      intro hTame
      rcases (hHurt.tame hTame).2 with ⟨m, hEq⟩
      exact absurd hEq (hOther m)

/- A registration that may commit, or one that is refused. -/
theorem wp_registerUserBody
    (hWorking : Working none 1 l)
    (hEmail :
      Tame ok → lib.normalizeEmail input.email ≠ "") :
    (mailRegime calls ok).wp t
      (registerUserBody lib id input)
      (fun row l' =>
        ∃ salt, row = registeredUser lib id input salt ∧
          Working (some row) 1 l')
      (fun e l' => Refused lib ok input e l') l := by
  have hRefused :
      ∀ e l', Spoilt none 1 l' →
        (Tame ok → Expected lib input e) →
          Refused lib ok input e l' :=
    fun e l' hSpoilt hExpected =>
      ⟨hSpoilt.doomed, hExpected⟩
  apply Discipline.wp_bind
  apply wp_inside (inside_findUserByEmail _) hWorking
  · intro found l₁ hWorking₁
    cases found with
    | some row =>
        exact
          hRefused _ _ hWorking₁.spoilt (fun _ => Or.inl rfl)
    | none =>
        apply Discipline.wp_bind
        apply wp_inside (inside_existsUsername _) hWorking₁
        · intro taken l₂ hWorking₂
          cases taken with
          | true =>
              exact
                hRefused _ _ hWorking₂.spoilt
                  (fun _ => Or.inr (Or.inl rfl))
          | false =>
              apply Discipline.wp_bind
              unfold validatePasswordStrength
              split
              · apply
                  wp_createAndNotify hWorking₂ hEmail
                · intro salt l₃ hWorking₃
                  exact ⟨salt, rfl, hWorking₃⟩
                · intro e l₃ hRaise
                  exact hRaise
              · rename_i hWeak
                apply hRefused _ _ hWorking₂.spoilt
                intro _
                exact Or.inr (Or.inr ⟨hWeak, rfl⟩)
        · intro e l₂ hSpoilt hRefuses
          apply hRefused e l₂ hSpoilt
          intro hTame
          exact
            not_refuses_of_read hTame hRefuses
              (fun _ hPlan => by cases hPlan)
  · intro e l₁ hSpoilt hRefuses
    apply hRefused e l₁ hSpoilt
    intro hTame
    exact
      not_refuses_of_read hTame hRefuses
        (fun _ hPlan => by cases hPlan)

------------------------------------------------------------
-- Calls at Rest
------------------------------------------------------------

theorem mailShape_rest
    {o : TxOp Statement}
    (hRest : Regime.Resting () n l)
    (hAdded : n.added = none)
    (hAuto :
      ∀ q, o = .query q → ∀ d a lock f,
        backend.plan q d = .done a lock f →
          (f d).users = d.users) :
    (mailRegime calls ok).shape l (some o) := by
  intro o' hSame
  cases hSame
  refine ⟨?_, fun q hQuery _ => hAuto q hQuery, ?_⟩
  · rw [hRest.note]
    exact hAdded
  · intro fr _ hOne
    rw [hRest.session] at hOne
    cases hOne

/- A transaction in which the row of a call is pending. -/
theorem concludes_of_working
    (ok : MailCondition)
    {row : User}
    {done : MailLocal → Prop}
    (hWorking : Working (some row) 1 l)
    (hCall : calls t = some (.register row.id input))
    (hRow : liveUser row = true)
    (hDone :
      ∀ l', Regime.Resting () ⟨some row, some row, false⟩ l' →
        done l') :
    (mailRegime calls ok).shape l (some .commit) ∧
      ∃ fr,
        (mailRegime calls ok).Concludes t ()
          ⟨some row, none, false⟩ done l fr := by
  rcases hWorking.spoilt.doomed.frames with ⟨fr, hFrames⟩
  have hAdds :
      ∀ d, (fr.pending d).users = d.users ++ [row] := by
    intro d
    have hStack := hWorking.stack
    rw [hFrames] at hStack
    cases hStack with
    | outermost fr hAdds => exact hAdds d
    | savepoint fr rest _ _ hNil => cases hNil
  refine ⟨?_, fr, hFrames, ?_, rfl, hWorking.note, ?_⟩
  · intro o hSame
    cases hSame
    refine ⟨?_, ?_, ?_⟩
    · rw [hWorking.note]
    · intro q hQuery
      cases hQuery
    · intro fr' _ hOne
      rw [hFrames] at hOne
      cases hOne
      exact ⟨row, by rw [hWorking.note], hAdds⟩
  · apply hWorking.intact
    rw [hFrames]
    exact List.mem_cons_self
  · intro d ns live hFits
    have hNone : d.find row.id = none :=
      hFits.held _ none (hWorking.held row rfl)
    refine ⟨⟨?_, trivial, fun _ _ => rfl, ?_⟩, hDone⟩
    · exact
        hFits.inv.add hFits.live hCall hNone hRow (hAdds d)
          rfl rfl
    · intro k hFree
      cases k with
      | unique field value => rfl
      | apiKey user => rfl
      | user user =>
          have hNe : row.id ≠ user := by
            rintro rfl
            apply hFree
            rw [hWorking.held row rfl]
            exact Option.some_ne_none _
          change Db.find _ _ = Db.find _ _
          rw [Db.find, hAdds, Table.find_append_of_ne hNe]
          rfl

/- What is known of a call that has returned. -/
structure Concluded
    (lib : Library)
    (calls : Tid → Option MailCall)
    (t : Tid)
    (a : MailAnswer)
    (n : MailNote) : Prop where
  registered :
    ∀ row, a = .registered row →
      n.added = some row ∧
        ∃ id input salt,
          calls t = some (.register id input) ∧
            row = registeredUser lib id input salt
  other : (∀ row, a ≠ .registered row) → n.added = none
  missing :
    a = .delivered .userMissing →
      n.missing = true ∧
        ∃ user, calls t = some (.deliver user)

/- A registration has committed. -/
theorem concluded_of_registered
    {salt : Nat}
    (hCall : calls t = some (.register id input))
    (hRest :
      Regime.Resting ()
        ⟨some (registeredUser lib id input salt),
          some (registeredUser lib id input salt), false⟩
        l) :
    Concluded lib calls t
      (.registered (registeredUser lib id input salt))
      l.note where
  registered := by
    intro row hEq
    cases hEq
    rw [hRest.note]
    exact ⟨rfl, id, input, salt, hCall, rfl⟩
  other := fun hOther => absurd rfl (hOther _)
  missing := fun hEq => by cases hEq

/- What is known of a call that has raised an error. -/
structure Rejected
    (lib : Library)
    (calls : Tid → Option MailCall)
    (ok : MailCondition)
    (t : Tid)
    (e : Exc)
    (n : MailNote) : Prop where
  added : n.added = none
  expected :
    Tame ok →
      ∀ id input, calls t = some (.register id input) →
        Expected lib input e

/- In a tame run every address is something. -/
abbrev Addressed
    (lib : Library)
    (calls : Tid → Option MailCall)
    (ok : MailCondition) : Prop :=
  Tame ok →
    ∀ t id input, calls t = some (.register id input) →
      lib.normalizeEmail input.email ≠ ""

theorem wp_registration
    (hAddressed : Addressed lib calls ok)
    (hCall : calls t = some (.register id input))
    (hRest : Regime.Resting () .fresh l) :
    (mailRegime calls ok).wp t
      (MailCall.program lib (some (.register id input)))
      (fun a l' => Concluded lib calls t a l'.note)
      (fun e l' => Rejected lib calls ok t e l'.note) l := by
  apply Discipline.wp_bind
  apply Regime.wp_atomic_rest _ hRest
  · intro e l' hRest' hFaults
    refine ⟨?_, ?_⟩
    · rw [hRest'.note]
      rfl
    · intro hTame
      exact absurd hFaults (not_faults hTame)
  · intro l₀ hSession _ hNote
    have hWorking : Working none 1 l₀ := by
      refine ⟨⟨?_, ?_, ?_, hNote⟩, ?_⟩
      · rw [hSession]
        apply Stack.outermost
        intro d
        exact (List.append_nil _).symm
      · rw [hSession]
        rfl
      · intro row hRow
        cases hRow
      · intro fr hMem
        rw [hSession] at hMem
        cases List.mem_singleton.mp hMem
        rfl
    apply Discipline.wp_mono
      (wp_registerUserBody hWorking
        (fun hTame => hAddressed hTame t id input hCall))
    · rintro row l' ⟨salt, rfl, hWorking'⟩
      have hReady :=
        concludes_of_working ok hWorking' hCall rfl
          (fun l'' hRest'' =>
            concluded_of_registered hCall hRest'')
      rcases hReady with ⟨hShape, fr, hConcludes⟩
      refine ⟨hShape, fr, _, hConcludes, ?_⟩
      intro e l'' hFaults hRest''
      refine ⟨by rw [hRest''.note], ?_⟩
      intro hTame
      exact absurd hFaults (not_faults hTame)
    · intro e l' hRefused
      have hDoomed := hRefused.doomed
      refine ⟨?_, l'.note, ⟨hDoomed.frames, rfl, rfl⟩, ?_⟩
      · apply hDoomed.shape
        intro hEq
        cases hEq
      · intro l'' hRest''
        refine ⟨?_, ?_⟩
        · rw [hRest''.note]
          exact hDoomed.added
        · intro hTame id' input' hCall'
          rw [hCall] at hCall'
          cases hCall'
          exact hRefused.expected hTame
  · apply mailShape_rest hRest rfl
    intro q hQuery
    cases hQuery

/- A worker has ended. -/
theorem concluded_of_delivered
    {user : UserId}
    {delivery : Delivery}
    (hCall : calls t = some (.deliver user))
    (hAdded : n.added = none)
    (hMissing : delivery = .userMissing → n.missing = true) :
    Concluded lib calls t (.delivered delivery) n where
  registered := fun row hEq => by cases hEq
  other := fun _ => hAdded
  missing := by
    intro hEq
    cases hEq
    exact ⟨hMissing rfl, user, hCall⟩

theorem rejected_of_delivered
    {user : UserId}
    {e : Exc}
    (hCall : calls t = some (.deliver user))
    (hAdded : n.added = none) :
    Rejected lib calls ok t e n where
  added := hAdded
  expected := by
    intro _ id input hOther
    rw [hCall] at hOther
    cases hOther

/- The mail is sent at rest. -/
theorem wp_sendMail
    {recipient : String}
    {Q : Delivery → MailLocal → Prop}
    {E : Exc → MailLocal → Prop}
    (hRest : Regime.Resting () .fresh l)
    (hDone :
      ∀ l', Regime.Resting () .fresh l' → Q .sent l')
    (hFail :
      ∀ e l', Regime.Resting () .fresh l' → E e l') :
    (mailRegime calls ok).wp t
      (do
        query (.sendMail recipient)
        pure .sent)
      Q E l := by
  apply Discipline.wp_bind
  apply Regime.wp_execute_rest _ hRest
  · intro e l' hRest' _
    exact hFail e l' hRest'
  · intro d ns live hRests x a d' _ hReply
    exact
      ⟨publishable_of_reply hRests.inv hRests.note hReply,
        hDone⟩
  · intro d ns live _ _
    trivial
  · apply mailShape_rest hRest rfl
    intro q hQuery d a lock f hPlan
    cases hQuery
    cases hPlan

/- A worker looks its user up. -/
theorem wp_getUser
    {user : UserId}
    {Q : Option User → MailLocal → Prop}
    {E : Exc → MailLocal → Prop}
    (hCall : calls t = some (.deliver user))
    (hRest : Regime.Resting () .fresh l)
    (hFound :
      ∀ row l', Regime.Resting () .fresh l' →
        Q (some row) l')
    (hMissing :
      ∀ l', Regime.Resting () ⟨none, none, true⟩ l' →
        Q none l')
    (hFail :
      ∀ e l', Regime.Resting () .fresh l' → E e l') :
    (mailRegime calls ok).wp t (query (.getUser user)) Q E
      l := by
  apply Regime.wp_execute_rest _ hRest
  · intro e l' hRest' _
    exact hFail e l' hRest'
  · intro d ns live _ x a d' _ hReply
    cases hReply
  · intro d ns live hRests hPermits
    simp only [backend, plan]
    cases hFind : (d.find user).filter liveUser with
    | some row =>
        refine ⟨?_, fun l' => hFound row l'⟩
        apply Regime.publishable_refl
        exact Regime.inv_same hRests.inv hRests.note
    | none =>
        refine ⟨?_, fun l' => hMissing l'⟩
        apply Regime.publishable_refl
        apply hRests.inv.miss hCall hFind
        · intro hAttended t' input' hRegister
          rcases hPermits with
            ⟨w, ls, _, _, _, hLive, hHead, hOk⟩
          rw [← hLive]
          exact
            hAttended w _ hOk t .proceed user rfl hCall
              hHead t' input' hRegister
        · rw [hRests.note]
          rfl
  · apply mailShape_rest hRest rfl
    intro q hQuery d a lock f hPlan
    cases hQuery
    cases hPlan
    rfl

theorem wp_delivery
    {user : UserId}
    (hCall : calls t = some (.deliver user))
    (hRest : Regime.Resting () .fresh l) :
    (mailRegime calls ok).wp t
      (MailCall.program lib (some (.deliver user)))
      (fun a l' => Concluded lib calls t a l'.note)
      (fun e l' => Rejected lib calls ok t e l'.note) l := by
  have hRejected :
      ∀ e (l' : MailLocal), Regime.Resting () .fresh l' →
        Rejected lib calls ok t e l'.note := by
    intro e l' hRest'
    apply rejected_of_delivered hCall
    rw [hRest'.note]
    rfl
  apply Discipline.wp_bind
  apply Regime.wp_execute_rest _ hRest
  · intro e l' hRest' _
    exact hRejected e l' hRest'
  · intro d ns live hRests x a d' _ hReply
    refine
      ⟨publishable_of_reply hRests.inv hRests.note hReply,
        ?_⟩
    intro l₁ hRest₁
    apply Discipline.wp_bind
    apply Discipline.wp_bind
    apply wp_getUser hCall hRest₁
    · intro row l₂ hRest₂
      apply wp_sendMail hRest₂
      · intro l₃ hRest₃
        apply concluded_of_delivered hCall
        · rw [hRest₃.note]
          rfl
        · intro hEq
          cases hEq
      · exact hRejected
    · intro l₂ hRest₂
      apply concluded_of_delivered hCall
      · rw [hRest₂.note]
      · intro _
        rw [hRest₂.note]
    · exact hRejected
  · intro d ns live _ _
    trivial
  · apply mailShape_rest hRest rfl
    intro q hQuery d a lock f hPlan
    cases hQuery
    cases hPlan

------------------------------------------------------------
-- Verification
------------------------------------------------------------

/- Every call is verified. -/
theorem verified_mails
    (lib : Library)
    (calls : Tid → Option MailCall)
    (ok : MailCondition)
    (d : Db)
    (hAddressed : Addressed lib calls ok) :
    (mailRegime calls ok).Verified
      (fun t a l => Concluded lib calls t a l.note)
      (fun t e l => Rejected lib calls ok t e l.note) d
      (fun _ => .fresh) (startMails lib calls d) where
  quiet := rfl
  inv := by
    refine ⟨?_, ?_⟩
    · intro t row hRow
      cases hRow
    · intro _ t user _ hMissing
      cases hMissing
  threads := by
    intro t
    refine ⟨_, rfl, ?_⟩
    have hRest :
        Regime.Resting () MailNote.fresh
          ((mailRegime calls ok).start t d .fresh) :=
      ⟨rfl, rfl, rfl⟩
    cases hCall : calls t with
    | none =>
        refine ⟨?_, fun _ => rfl, ?_⟩
        · intro row hEq
          cases hEq
        · intro hEq
          cases hEq
    | some call =>
        cases call with
        | register id input =>
            exact wp_registration hAddressed hCall hRest
        | deliver user => exact wp_delivery hCall hRest
  ret := fun _ _ _ _ _ hNone => by cases hNone
  raise := fun _ _ _ _ _ hNone => by cases hNone
  lose := by
    intro w ls t hHolds _ _
    refine ⟨?_, fun _ hNone => by cases hNone⟩
    change
      MailInv _ _ _ (Function.update _ t (ls t).note) _
    rw [Function.update_eq_self]
    apply (mailRegime calls ok).antitone _ _ _ _ _
      hHolds.1.1
    exact fun t' hLive => hLive.2

end SiteAnalysis.Users
