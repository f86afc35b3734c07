import SiteAnalysis.Relational.Rest
import SiteAnalysis.Users.Service

/-
  This file defines the world of the registrations and of the
  delivery of the verification emails, with any number of
  both, and proves the rules of their statements.

  A registration has its row pending in the outermost frame
  of its transaction, whatever savepoints are open above it.
  What a run needs to end well is a condition on its steps:
  that nothing stands in the way of an insertion, or that a
  worker comes after the registration of its user.

  Key definitions include:
    * `MailCall`
    * `startMails`
    * `Attended`
    * `Unobstructed`
    * `mailRegime`
    * `Working`
    * `Refuses`

  Key theorems include:
    * `MailInv.add`
    * `MailInv.miss`
    * `wp_inside`
    * `wp_insertUser`
-/

------------------------------------------------------------
-- Calls
------------------------------------------------------------

namespace SiteAnalysis.Users

open Concurrency
open Relational
open Python

/- A registration, or a worker with the task of a user. -/
inductive MailCall
  | register (id : UserId) (input : Registration)
  | deliver (user : UserId)

/- What a call comes back with; an idle thread with nothing. -/
inductive MailAnswer
  | nothing
  | registered (user : User)
  | delivered (delivery : Delivery)

abbrev MailWorld :=
  World (Store Db Lock) (TxOp Statement)
    (TxOp.Res Statement.Answer) Exc MailAnswer

/- The condition on the steps of a run. -/
abbrev MailCondition :=
  MailWorld → Event (Choice Exc Reply) → Prop

def MailCall.program
    (lib : Library) :
    Option MailCall → Service MailAnswer
| none => .ret .nothing
| some (.register id input) => do
    let user ← registerUser lib id input
    pure (.registered user)
| some (.deliver user) => do
    query (.receive user)
    let delivery ← sendVerificationEmail user
    pure (.delivered delivery)

def startMails
    (lib : Library)
    (calls : Tid → Option MailCall)
    (d : Db) : MailWorld where
  shared := Store.quiet d
  threads := fun t => .live (MailCall.program lib (calls t))

/-
  A worker only looks a user up once its registration has
  ended.
-/
def Attended
    (calls : Tid → Option MailCall) : MailCondition :=
  fun w e =>
    ∀ t c user, e = .step t c →
      calls t = some (.deliver user) →
        (w.threads t).head = some (.query (.getUser user)) →
          ∀ t' input,
            calls t' = some (.register user input) →
              ¬ w.Live t'

/-
  A row that is inserted fits its columns, and no other row,
  deleted or not, has its identifier or one of its values.
-/
def Db.Admits
    (d : Db) : Statement → Prop
| .insertUser row =>
    row.check = .ok () ∧ d.find row.id = none
| .enterIndex field row => d.taken field row = false
| _ => True

/- No operation fails, and every insertion is admitted. -/
def Unobstructed : MailCondition :=
  fun w e =>
    (∀ t err, e ≠ .step t (.fault err)) ∧
      ∀ t q, e = .step t .proceed →
        (w.threads t).head = some (.query q) →
          w.shared.committed.Admits q

/- What a registration may raise. -/
def Expected
    (lib : Library)
    (input : Registration)
    (e : Exc) : Prop :=
  e = emailAlreadyRegistered
        (lib.normalizeEmail input.email) ∨
    e = usernameAlreadyTaken input.username ∨
      lib.passwordErrors input.password none ≠ [] ∧
        e =
          weakPassword
            (lib.passwordErrors input.password none)

/-
  The row of a registration.  The address is normalized by
  the service and again by the manager.
-/
def registeredUser
    (lib : Library)
    (id : UserId)
    (input : Registration)
    (salt : Nat) : User :=
  input.user id
    (lib.normalizeEmail (lib.normalizeEmail input.email))
    salt

------------------------------------------------------------
-- The Regime
------------------------------------------------------------

/-
  What is noted of a call: the row that it has inserted, the
  row that it has committed, and whether it has missed its
  user.
-/
structure MailNote where
  drafted : Option User
  added : Option User
  missing : Bool

def MailNote.fresh : MailNote where
  drafted := none
  added := none
  missing := false

/- What a call knows. -/
abbrev MailLocal :=
  Regime.Local Db Lock (Option User) Unit MailNote

/-
  Rows that have been committed stay.  Where workers come
  after the registrations, a user that was missed is not
  registered any more.
-/
structure MailInv
    (calls : Tid → Option MailCall)
    (ok : MailCondition)
    (d : Db)
    (ns : Tid → MailNote)
    (live : Tid → Prop) : Prop where
  added :
    ∀ t row, (ns t).added = some row →
      d.find row.id = some row ∧ liveUser row = true ∧
        ∃ input, calls t = some (.register row.id input)
  missing :
    (∀ w e, ok w e → Attended calls w e) →
      ∀ t user, calls t = some (.deliver user) →
        (ns t).missing = true →
          ∀ t' input,
            calls t' = some (.register user input) →
              ¬ live t' ∧ (ns t').added = none

/-
  What a call knows when it performs an operation: when it
  commits, that its row is added.
-/
structure MailShape
    (l : MailLocal)
    (o : TxOp Statement) : Prop where
  working : l.note.added = none
  auto :
    ∀ q, o = .query q → l.session.frames = [] →
      ∀ d a lock f, backend.plan q d = .done a lock f →
        (f d).users = d.users
  adds :
    ∀ fr, o = .commit → l.session.frames = [fr] →
      ∃ row, l.note.drafted = some row ∧
        ∀ d, (fr.pending d).users = d.users ++ [row]

def noteMail :
    (q : Statement) → q.Answer → MailNote → MailNote
| .insertUser row, _, n => { n with drafted := some row }
| .getUser _, none, n => { n with missing := true }
| _, _, n => n

theorem noteMail_added
    (q : Statement)
    (a : q.Answer)
    (n : MailNote) :
    (noteMail q a n).added = n.added := by
  unfold noteMail
  split <;> rfl

def mailRegime
    (calls : Tid → Option MailCall)
    (ok : MailCondition) :
    Regime backend MailAnswer (Option User) Unit
      MailNote where
  ok := ok
  frag := userBehind
  own := fun _ _ => ()
  inv := MailInv calls ok
  antitone := by
    intro d ns live live' hSub hInv
    refine ⟨hInv.added, ?_⟩
    intro hAttended t user hCall hMissing t' input hCall'
    have hOld :=
      hInv.missing hAttended t user hCall hMissing t' input
        hCall'
    exact ⟨fun hLive => hOld.1 (hSub t' hLive), hOld.2⟩
  guar := fun _ _ _ => True
  guar_refl := fun _ _ => trivial
  shape := fun l o => ∀ o', o = some o' → MailShape l o'
  note := fun _ q a _ n => noteMail q a n
  noteError := fun _ n => n
  inv_error := by
    intro t q d ns live hInv
    rw [Function.update_eq_self]
    exact hInv
  noteCommit := fun _ _ n => { n with added := n.drafted }
  noteLost := fun n => n

variable {d d' : Db} {ns : Tid → MailNote} {t : Tid}
variable {calls : Tid → Option MailCall}
variable {ok : MailCondition} {live : Tid → Prop}
variable {n : MailNote} {lib : Library}

/- A note that says the same of what has been committed. -/
theorem MailInv.renote
    (hInv : MailInv calls ok d ns live)
    (hAdded : n.added = (ns t).added)
    (hMissing : n.missing = (ns t).missing) :
    MailInv calls ok d (Function.update ns t n) live := by
  have hSame :
      ∀ t', (Function.update ns t n t').added =
            (ns t').added ∧
          (Function.update ns t n t').missing =
            (ns t').missing := by
    intro t'
    by_cases hEq : t' = t
    · subst hEq
      rw [Function.update_self]
      exact ⟨hAdded, hMissing⟩
    · rw [Function.update_of_ne hEq]
      exact ⟨rfl, rfl⟩
  refine ⟨?_, ?_⟩
  · intro t' row hRow
    rw [(hSame t').1] at hRow
    exact hInv.added t' row hRow
  · intro hAttended t₁ user hCall hMissed t₂ input hCall'
    rw [(hSame t₁).2] at hMissed
    rw [(hSame t₂).1]
    exact
      hInv.missing hAttended t₁ user hCall hMissed t₂ input
        hCall'

/- The users are all that counts. -/
theorem MailInv.of_users
    (hInv : MailInv calls ok d ns live)
    (hUsers : d'.users = d.users) :
    MailInv calls ok d' ns live := by
  refine ⟨?_, hInv.missing⟩
  intro t row hRow
  rw [Db.find, hUsers]
  exact hInv.added t row hRow

/- A registration commits its row. -/
theorem MailInv.add
    {row : User}
    {input : Registration}
    (hInv : MailInv calls ok d ns live)
    (hLive : live t)
    (hCall : calls t = some (.register row.id input))
    (hNone : d.find row.id = none)
    (hRow : liveUser row = true)
    (hUsers : d'.users = d.users ++ [row])
    (hAdded : n.added = some row)
    (hMissing : n.missing = false) :
    MailInv calls ok d' (Function.update ns t n) live := by
  refine ⟨?_, ?_⟩
  · intro t' other hOther
    by_cases hSame : t' = t
    · subst hSame
      rw [Function.update_self, hAdded] at hOther
      cases hOther
      refine ⟨?_, hRow, input, hCall⟩
      rw [Db.find, hUsers]
      exact Table.find_append_self hNone
    · rw [Function.update_of_ne hSame] at hOther
      have hOld := hInv.added t' other hOther
      refine ⟨?_, hOld.2⟩
      have hNe : row.id ≠ other.id := by
        intro hEq
        rw [hEq, hOld.1] at hNone
        cases hNone
      rw [Db.find, hUsers, Table.find_append_of_ne hNe]
      exact hOld.1
  · intro hAttended t₁ user hDeliver hMissed t₂ input'
      hRegister
    by_cases hSame : t₁ = t
    · subst hSame
      rw [Function.update_self, hMissing] at hMissed
      cases hMissed
    · rw [Function.update_of_ne hSame] at hMissed
      have hOld :=
        hInv.missing hAttended t₁ user hDeliver hMissed t₂
          input' hRegister
      have hNe : t₂ ≠ t := by
        rintro rfl
        exact hOld.1 hLive
      rw [Function.update_of_ne hNe]
      exact hOld

/- A worker misses its user after the registration. -/
theorem MailInv.miss
    {user : UserId}
    (hInv : MailInv calls ok d ns live)
    (hCall : calls t = some (.deliver user))
    (hNone : (d.find user).filter liveUser = none)
    (hEnded :
      (∀ w e, ok w e → Attended calls w e) →
        ∀ t' input,
          calls t' = some (.register user input) →
            ¬ live t')
    (hAdded : n.added = (ns t).added) :
    MailInv calls ok d (Function.update ns t n) live := by
  have hSame :
      ∀ t', (Function.update ns t n t').added =
        (ns t').added := by
    intro t'
    by_cases hEq : t' = t
    · subst hEq
      rw [Function.update_self]
      exact hAdded
    · rw [Function.update_of_ne hEq]
  refine ⟨?_, ?_⟩
  · intro t' row hRow
    rw [hSame t'] at hRow
    exact hInv.added t' row hRow
  · intro hAttended t₁ other hDeliver hMissed t₂ input
      hRegister
    rw [hSame t₂]
    by_cases hEq : t₁ = t
    · subst hEq
      rw [hCall] at hDeliver
      cases hDeliver
      refine ⟨hEnded hAttended t₂ input hRegister, ?_⟩
      cases hAddedCase : (ns t₂).added with
      | none => rfl
      | some row =>
          exfalso
          rcases hInv.added t₂ row hAddedCase with
            ⟨hFind, hRow, input', hRegister'⟩
          rw [hRegister] at hRegister'
          cases hRegister'
          rw [hFind] at hNone
          simp [hRow] at hNone
    · rw [Function.update_of_ne hEq] at hMissed
      exact
        hInv.missing hAttended t₁ other hDeliver hMissed t₂
          input hRegister

------------------------------------------------------------
-- Open Transactions
------------------------------------------------------------

variable {draft : Option User} {depth : Nat}
variable {l : MailLocal}
variable {fr fr' : Frame Db Lock} {rest : List (Frame Db Lock)}

/- The lock of the row of a user. -/
def Lock.isUser : Lock → Bool
| .user _ => true
| _ => false

/- The change adds the drafted row, if there is one. -/
def Adds
    (draft : Option User)
    (p : Db → Db) : Prop :=
  ∀ d, (p d).users = d.users ++ draft.toList

/- The draft is pending in the outermost frame. -/
inductive Stack
    (draft : Option User) : List (Frame Db Lock) → Prop
  | outermost
      (fr : Frame Db Lock)
      (hAdds : Adds draft fr.pending) :
      Stack draft [fr]
  | savepoint
      (fr : Frame Db Lock)
      (rest : List (Frame Db Lock))
      (hKeeps : Adds none fr.pending)
      (hLocks : ∀ k ∈ fr.locks, k.isUser = false)
      (hRest : Stack draft rest) :
      Stack draft (fr :: rest)

/- The innermost frame may change what it has pending. -/
theorem Stack.head
    (hStack : Stack draft (fr :: rest))
    (hPending :
      ∀ d, (fr'.pending d).users = (fr.pending d).users)
    (hLocks :
      ∀ k ∈ fr'.locks, k ∈ fr.locks ∨ k.isUser = false) :
    Stack draft (fr' :: rest) := by
  cases hStack with
  | outermost fr hAdds =>
      apply Stack.outermost
      intro d
      rw [hPending d]
      exact hAdds d
  | savepoint fr rest hKeeps hNone hRest =>
      apply Stack.savepoint _ _ _ _ hRest
      · intro d
        rw [hPending d]
        exact hKeeps d
      · intro k hMem
        rcases hLocks k hMem with hOld | hNew
        · exact hNone k hOld
        · exact hNew

theorem Stack.view
    {frames : List (Frame Db Lock)}
    (hStack : Stack draft frames) :
    (frames.foldr (fun fr d => fr.pending d) d).users =
      d.users ++ draft.toList := by
  induction hStack with
  | outermost fr hAdds => exact hAdds d
  | savepoint fr rest hKeeps _ _ ih =>
      rw [List.foldr_cons, hKeeps, ih]
      simp

/- A transaction in which the draft is pending. -/
structure Standing
    (draft : Option User)
    (depth : Nat)
    (l : MailLocal) : Prop where
  stack : Stack draft l.session.frames
  size : l.session.frames.length = depth
  held :
    ∀ row, draft = some row →
      l.session.held (.user row.id) = some none
  note : l.note = ⟨draft, none, false⟩

/- No frame of it is broken. -/
structure Working
    (draft : Option User)
    (depth : Nat)
    (l : MailLocal) : Prop
    extends Standing draft depth l where
  intact : ∀ fr ∈ l.session.frames, fr.broken = false

/- Only its innermost frame may be broken. -/
structure Spoilt
    (draft : Option User)
    (depth : Nat)
    (l : MailLocal) : Prop
    extends Standing draft depth l where
  intact : ∀ fr ∈ l.session.frames.tail, fr.broken = false

theorem Working.spoilt
    (hWorking : Working draft depth l) :
    Spoilt draft depth l where
  toStanding := hWorking.toStanding
  intact := fun fr hMem =>
    hWorking.intact fr (List.mem_of_mem_tail hMem)

theorem Standing.frames
    (hStanding : Standing draft depth l) :
    ∃ fr rest, l.session.frames = fr :: rest := by
  cases hFrames : l.session.frames with
  | nil =>
      have hStack := hStanding.stack
      rw [hFrames] at hStack
      cases hStack
  | cons fr rest => exact ⟨fr, rest, rfl⟩

theorem Standing.nested
    (hStanding : Standing draft (depth + 2) l) :
    ∃ fr outer rest,
      l.session.frames = fr :: outer :: rest := by
  have hSize := hStanding.size
  rcases hStanding.frames with ⟨fr, rest, hFrames⟩
  rw [hFrames] at hSize
  cases rest with
  | nil => simp at hSize
  | cons outer rest => exact ⟨fr, outer, rest, hFrames⟩

theorem Standing.view
    (hStanding : Standing draft depth l) :
    (l.session.view d).users = d.users ++ draft.toList :=
  hStanding.stack.view

theorem Working.fail
    (hWorking : Working draft depth l) :
    Spoilt draft depth
      { l with session := l.session.fail } := by
  rcases hWorking.frames with ⟨fr, rest, hFrames⟩
  have hFail :
      l.session.fail =
        { l.session with
          frames := { fr with broken := true } :: rest } := by
    simp [Session.fail, hFrames]
  have hStack := hWorking.stack
  have hSize := hWorking.size
  have hIntact := hWorking.intact
  rw [hFrames] at hStack hSize hIntact
  rw [hFail]
  refine ⟨⟨?_, hSize, hWorking.held, hWorking.note⟩, ?_⟩
  · exact
      hStack.head (fun _ => rfl) (fun _ hMem => Or.inl hMem)
  · intro fr' hMem
    exact hIntact fr' (List.mem_cons_of_mem _ hMem)

theorem Working.write
    {f : Db → Db}
    (hWorking : Working draft depth l)
    (hKeeps : Adds none f) :
    Working draft depth
      { l with session := l.session.write f } := by
  rcases hWorking.frames with ⟨fr, rest, hFrames⟩
  have hWrite :
      l.session.write f =
        { l.session with
          frames :=
            { fr with pending := f ∘ fr.pending } :: rest } := by
    simp [Session.write, hFrames]
  have hStack := hWorking.stack
  have hSize := hWorking.size
  have hIntact := hWorking.intact
  rw [hFrames] at hStack hSize hIntact
  rw [hWrite]
  refine ⟨⟨?_, hSize, hWorking.held, hWorking.note⟩, ?_⟩
  · refine hStack.head ?_ (fun _ hMem => Or.inl hMem)
    intro d
    change (f (fr.pending d)).users = _
    rw [hKeeps]
    simp
  · intro fr' hMem
    rcases List.mem_cons.mp hMem with rfl | hOld
    · exact hIntact fr List.mem_cons_self
    · exact hIntact fr' (List.mem_cons_of_mem _ hOld)

theorem Working.acquire
    {k : Lock}
    {v : Option User}
    (hWorking : Working draft depth l)
    (hLock : k.isUser = false) :
    Working draft depth
      { l with session := l.session.acquire k v } := by
  rcases hWorking.frames with ⟨fr, rest, hFrames⟩
  have hStack := hWorking.stack
  have hSize := hWorking.size
  have hIntact := hWorking.intact
  rw [hFrames] at hStack hSize hIntact
  cases hCase : (l.session.held k).isSome with
  | true =>
      have hAcquire : l.session.acquire k v = l.session := by
        simp [Session.acquire, hFrames, hCase]
      rw [hAcquire]
      exact hWorking
  | false =>
      have hAcquire :
          l.session.acquire k v =
            { frames :=
                { fr with locks := k :: fr.locks } :: rest
              held :=
                Function.update l.session.held k
                  (some v) } := by
        simp [Session.acquire, hFrames, hCase]
      rw [hAcquire]
      refine ⟨⟨?_, hSize, ?_, hWorking.note⟩, ?_⟩
      · refine hStack.head (fun _ => rfl) ?_
        intro k' hMem
        rcases List.mem_cons.mp hMem with rfl | hOld
        · exact Or.inr hLock
        · exact Or.inl hOld
      · intro row hDraft
        have hNe : Lock.user row.id ≠ k := by
          rintro rfl
          cases hLock
        change Function.update _ _ _ _ = _
        rw [Function.update_of_ne hNe]
        exact hWorking.held row hDraft
      · intro fr' hMem
        rcases List.mem_cons.mp hMem with rfl | hOld
        · exact hIntact fr List.mem_cons_self
        · exact hIntact fr' (List.mem_cons_of_mem _ hOld)

theorem Working.begin
    (hWorking : Working draft depth l) :
    Working draft (depth + 1)
      { l with session := l.session.begin } := by
  refine
    ⟨⟨?_, ?_, hWorking.held, hWorking.note⟩, ?_⟩
  · apply Stack.savepoint _ _ _ _ hWorking.stack
    · intro d
      exact (List.append_nil _).symm
    · intro k hMem
      cases hMem
  · exact congrArg Nat.succ hWorking.size
  · intro fr hMem
    rcases List.mem_cons.mp hMem with rfl | hOld
    · rfl
    · exact hWorking.intact fr hOld

/- A savepoint is dropped. -/
theorem Spoilt.rollback
    (hSpoilt : Spoilt draft (depth + 2) l) :
    Working draft (depth + 1)
      { l with session := l.session.rollback } := by
  rcases hSpoilt.frames with ⟨fr, rest, hFrames⟩
  have hStack := hSpoilt.stack
  have hSize := hSpoilt.size
  have hIntact := hSpoilt.intact
  rw [hFrames] at hStack hSize hIntact
  cases hStack with
  | outermost fr hAdds => simp at hSize
  | savepoint fr rest hKeeps hLocks hRest =>
      cases rest with
      | nil => cases hRest
      | cons outer rest =>
          have hRollback :
              l.session.rollback =
                { frames := outer :: rest
                  held := fun k =>
                    if k ∈ fr.locks then
                      none
                    else
                      l.session.held k } := by
            simp [Session.rollback, hFrames]
          rw [hRollback]
          refine ⟨⟨hRest, ?_, ?_, hSpoilt.note⟩, hIntact⟩
          · simpa using hSize
          · intro row hDraft
            have hNot : Lock.user row.id ∉ fr.locks := by
              intro hMem
              have hUser := hLocks _ hMem
              cases hUser
            change (if _ then _ else _) = _
            rw [if_neg hNot]
            exact hSpoilt.held row hDraft

/- A savepoint is merged. -/
theorem Working.merge
    (hWorking : Working draft (depth + 2) l) :
    Working draft (depth + 1)
      { l with session := l.session.merge } := by
  rcases hWorking.frames with ⟨fr, rest, hFrames⟩
  have hStack := hWorking.stack
  have hSize := hWorking.size
  have hIntact := hWorking.intact
  rw [hFrames] at hStack hSize hIntact
  cases hStack with
  | outermost fr hAdds => simp at hSize
  | savepoint fr rest hKeeps hLocks hRest =>
      cases rest with
      | nil => cases hRest
      | cons outer rest =>
          have hMerge :
              l.session.merge =
                { l.session with
                  frames := outer.absorb fr :: rest } := by
            simp [Session.merge, hFrames]
          rw [hMerge]
          refine
            ⟨⟨?_, ?_, hWorking.held, hWorking.note⟩, ?_⟩
          · apply hRest.head
            · intro d
              change (fr.pending (outer.pending d)).users = _
              rw [hKeeps]
              simp
            · intro k hMem
              rcases List.mem_append.mp hMem with
                hNew | hOld
              · exact Or.inr (hLocks k hNew)
              · exact Or.inl hOld
          · simpa using hSize
          · intro fr' hMem
            rcases List.mem_cons.mp hMem with rfl | hOld
            · exact hIntact outer (by simp)
            · exact hIntact fr' (by simp [hOld])

------------------------------------------------------------
-- Statements
------------------------------------------------------------

/- A run in which nothing stands in the way. -/
def Tame (ok : MailCondition) : Prop :=
  ∀ w e, ok w e → Unobstructed w e

/- A statement that leaves the users and the notes alone. -/
structure Inside (q : Statement) : Prop where
  plan :
    ∀ d a lock f, backend.plan q d = .done a lock f →
      Adds none f ∧ ∀ k, lock = some k → k.isUser = false
  miss : ∀ d e, backend.plan q d ≠ .miss e
  note : ∀ a n, noteMail q a n = n

theorem adds_none_of_users
    {f : Db → Db}
    (hUsers : ∀ d, (f d).users = d.users) : Adds none f := by
  intro d
  rw [hUsers]
  exact (List.append_nil _).symm

theorem inside_of_read
    {q : Statement}
    (answer : Db → q.Answer)
    (hRead : ∀ d, backend.plan q d = .read (answer d))
    (hNote : ∀ a n, noteMail q a n = n) : Inside q where
  plan := by
    intro d a lock f hPlan
    rw [hRead] at hPlan
    cases hPlan
    refine ⟨adds_none_of_users (fun _ => rfl), ?_⟩
    intro k hLock
    cases hLock
  miss := by
    intro d e hMiss
    rw [hRead] at hMiss
    cases hMiss
  note := hNote

theorem inside_of_outside
    {q : Statement}
    (hOutside : ∀ d, backend.plan q d = .outside)
    (hNote : ∀ a n, noteMail q a n = n) : Inside q where
  plan := by
    intro d a lock f hPlan
    rw [hOutside] at hPlan
    cases hPlan
  miss := by
    intro d e hMiss
    rw [hOutside] at hMiss
    cases hMiss
  note := hNote

theorem inside_enterIndex
    (field : UniqueField)
    (row : User) : Inside (.enterIndex field row) where
  plan := by
    intro d a lock f hPlan
    simp only [backend, plan] at hPlan
    split at hPlan
    · cases hPlan
    · cases hPlan
      refine ⟨adds_none_of_users (fun _ => rfl), ?_⟩
      intro k hLock
      cases hLock
      rfl
  miss := by
    intro d e hMiss
    simp only [backend, plan] at hMiss
    split at hMiss <;> cases hMiss
  note := fun _ _ => rfl

theorem inside_insertApiKey
    (row : ApiKey) : Inside (.insertApiKey row) where
  plan := by
    intro d a lock f hPlan
    simp only [backend, plan] at hPlan
    split at hPlan
    · cases hPlan
    · cases hPlan
      refine ⟨adds_none_of_users (fun _ => rfl), ?_⟩
      intro k hLock
      cases hLock
      rfl
  miss := by
    intro d e hMiss
    simp only [backend, plan] at hMiss
    split at hMiss <;> cases hMiss
  note := fun _ _ => rfl

/- Why a statement has failed in a tame run. -/
abbrev Refuses
    (ok : MailCondition)
    (q : Statement)
    (l : MailLocal)
    (e : Exc) : Prop :=
  Tame ok →
    ∃ d, d.Admits q ∧
      backend.plan q (l.session.view d) = .refuse e

/- An operation that is not the commit. -/
theorem mailShape_open
    {o : TxOp Statement}
    (hAdded : l.note.added = none)
    (hFrames : l.session.frames = fr :: rest)
    (hCommit : o ≠ .commit ∨ rest ≠ []) :
    (mailRegime calls ok).shape l (some o) := by
  intro o' hSame
  cases hSame
  refine ⟨hAdded, ?_, ?_⟩
  · intro q _ hNone
    rw [hFrames] at hNone
    cases hNone
  · intro fr' hEq hOne
    rw [hFrames] at hOne
    rcases hCommit with hOther | hNested
    · exact absurd hEq hOther
    · cases hOne
      exact absurd rfl hNested

theorem Standing.shape
    {o : TxOp Statement}
    (hStanding : Standing draft depth l)
    (hCommit : o ≠ .commit) :
    (mailRegime calls ok).shape l (some o) := by
  rcases hStanding.frames with ⟨fr, rest, hFrames⟩
  apply mailShape_open _ hFrames (Or.inl hCommit)
  rw [hStanding.note]

/- No operation of a tame run fails by itself. -/
theorem not_faults
    {o : TxOp Statement}
    {e : Exc}
    (hTame : Tame ok) :
    ¬ (mailRegime calls ok).Faults t o l e := by
  rintro ⟨d, ns, live, _, ⟨w, ls, _, _, _, _, _, hOk⟩⟩
  exact (hTame w _ hOk).1 t e rfl

/- A statement of a tame run only fails if it is refused. -/
theorem refuses_of_fails
    {q : Statement}
    {e : Exc}
    (hFails : (mailRegime calls ok).Fails t q l e) :
    Refuses ok q l e := by
  intro hTame
  rcases hFails with hFaults | hRefused
  · exact absurd hFaults (not_faults hTame)
  · rcases hRefused with
      ⟨d, ns, live, _, ⟨w, ls, _, hData, _, _, hHead, hOk⟩,
        hPlan⟩
    refine ⟨d, ?_, hPlan⟩
    rw [← hData]
    exact (hTame w _ hOk).2 t q rfl hHead

/- The answer of an outside party leaves the users alone. -/
theorem publishable_of_reply
    {q : Statement}
    {x : Reply}
    {a : q.Answer}
    (hInv : MailInv calls ok d ns live)
    (hNote : ns t = n)
    (hReply : backend.reply q x d = some (a, d')) :
    (mailRegime calls ok).Publishable t ns live
      (fun _ => False) d d' n where
  inv := by
    apply Regime.inv_same _ hNote
    exact hInv.of_users (users_of_reply hReply)
  guar := trivial
  own := fun _ _ => rfl
  frag := by
    intro k _
    cases k with
    | user u =>
        change Table.find _ _ _ = Table.find _ _ _
        rw [users_of_reply hReply]
    | unique field value => rfl
    | apiKey u => rfl

/- The rule of such a statement in the transaction. -/
theorem wp_inside
    {q : Statement}
    {Q : q.Answer → MailLocal → Prop}
    {E : Exc → MailLocal → Prop}
    (hInside : Inside q)
    (hWorking : Working draft depth l)
    (hDone : ∀ a l', Working draft depth l' → Q a l')
    (hFail :
      ∀ e l', Spoilt draft depth l' → Refuses ok q l e →
        E e l') :
    (mailRegime calls ok).wp t (query q) Q E l := by
  rcases hWorking.frames with ⟨fr, rest, hFrames⟩
  have hIntact : fr.broken = false := by
    apply hWorking.intact
    rw [hFrames]
    exact List.mem_cons_self
  apply Regime.wp_execute_open _ hFrames hIntact
  · intro e hFails
    exact hFail e _ hWorking.fail (refuses_of_fails hFails)
  · intro d ns live hFits x a d' _ hReply
    have hSame :
        (mailRegime calls ok).note t q a d' l.note =
          l.note :=
      hInside.note a l.note
    rw [hSame]
    refine
      ⟨publishable_of_reply hFits.inv hFits.note hReply, ?_⟩
    apply hDone
    exact
      ⟨⟨hWorking.stack, hWorking.size, hWorking.held,
        hWorking.note⟩, hWorking.intact⟩
  · intro d ns live hFits _
    have hKept :
        ∀ a,
          (mailRegime calls ok).inv d
            (Function.update ns t
              ((mailRegime calls ok).note t q a d l.note))
            live := by
      intro a
      have hSame :
          (mailRegime calls ok).note t q a d l.note =
            l.note :=
        hInside.note a l.note
      rw [hSame]
      exact Regime.inv_same hFits.inv hFits.note
    have hNoted :
        ∀ a {s : Session Db Lock (Option User)},
          Working draft depth { l with session := s } →
            Working draft depth
              { l with
                session := s
                note :=
                  (mailRegime calls ok).note t q a d
                    l.note } := by
      intro a s hThen
      have hSame :
          (mailRegime calls ok).note t q a d l.note =
            l.note :=
        hInside.note a l.note
      rw [hSame]
      exact hThen
    cases hPlan : backend.plan q (l.session.view d) with
    | refuse e => trivial
    | outside => trivial
    | miss e => exact absurd hPlan (hInside.miss _ e)
    | done a lock f =>
        have hQuiet := hInside.plan _ a lock f hPlan
        cases lock with
        | none =>
            exact
              ⟨hKept a,
                hDone a _
                  (hNoted a (hWorking.write hQuiet.1))⟩
        | some k =>
            refine ⟨hKept a, hDone a _ (hNoted a ?_)⟩
            exact
              (hWorking.acquire (hQuiet.2 k rfl)).write
                hQuiet.1
  · apply hWorking.shape
    intro hEq
    cases hEq

/- A row is pending, and its lock is held. -/
theorem Working.insert
    {row : User}
    (hWorking : Working none 1 l)
    (hFree :
      ∀ v, l.session.held (.user row.id) = some v →
        v = none) :
    Working (some row) 1
      { l with
        session :=
          (l.session.acquire (.user row.id) none).write
            (insertUser row)
        note := ⟨some row, none, false⟩ } := by
  rcases hWorking.frames with ⟨fr, rest, hFrames⟩
  have hStack := hWorking.stack
  have hSize := hWorking.size
  have hIntact := hWorking.intact
  rw [hFrames] at hStack hSize hIntact
  cases hStack with
  | savepoint fr rest _ _ hRest =>
      cases rest with
      | nil => cases hRest
      | cons outer rest => simp at hSize
  | outermost fr hAdds =>
      have hSession :
          ∃ locks held,
            (l.session.acquire (.user row.id) none).write
                (insertUser row) =
              ⟨[⟨insertUser row ∘ fr.pending, locks,
                fr.broken⟩], held⟩ ∧
              held (.user row.id) = some none := by
        cases hCase : l.session.held (.user row.id) with
        | none =>
            refine
              ⟨.user row.id :: fr.locks,
                Function.update l.session.held
                  (.user row.id) (some none), ?_, ?_⟩
            · simp [Session.acquire, Session.write, hFrames,
                hCase]
            · exact Function.update_self _ _ _
        | some v =>
            refine ⟨fr.locks, l.session.held, ?_, ?_⟩
            · simp [Session.acquire, Session.write, hFrames,
                hCase]
            · rw [hCase, hFree v hCase]
      rcases hSession with ⟨locks, held, hSession, hHeld⟩
      rw [hSession]
      refine ⟨⟨?_, rfl, ?_, rfl⟩, ?_⟩
      · apply Stack.outermost
        intro d
        change (fr.pending d).users ++ [row] = _
        rw [hAdds]
        simp
      · intro other hOther
        cases hOther
        exact hHeld
      · intro other hMem
        rw [List.mem_singleton] at hMem
        rw [hMem]
        exact hIntact fr List.mem_cons_self

/- A row is inserted, and its lock is held. -/
theorem wp_insertUser
    {row : User}
    {Q : Unit → MailLocal → Prop}
    {E : Exc → MailLocal → Prop}
    (hWorking : Working none 1 l)
    (hDone : ∀ l', Working (some row) 1 l' → Q () l')
    (hFail :
      ∀ e l', Spoilt none 1 l' →
        Refuses ok (.insertUser row) l e → E e l') :
    (mailRegime calls ok).wp t (query (.insertUser row)) Q E
      l := by
  rcases hWorking.frames with ⟨fr, rest, hFrames⟩
  have hRest : rest = [] := by
    have hSize := hWorking.size
    rw [hFrames] at hSize
    simpa using hSize
  subst hRest
  have hIntact : fr.broken = false := by
    apply hWorking.intact
    rw [hFrames]
    exact List.mem_cons_self
  have hAdds : Adds none fr.pending := by
    have hStack := hWorking.stack
    rw [hFrames] at hStack
    cases hStack with
    | outermost fr hAdds => exact hAdds
    | savepoint fr rest _ _ hNil => cases hNil
  apply Regime.wp_execute_open _ hFrames hIntact
  · intro e hFails
    exact hFail e _ hWorking.fail (refuses_of_fails hFails)
  · intro d ns live _ x a d' _ hReply
    cases hReply
  · intro d ns live hFits _
    have hFind :
        (l.session.view d).find row.id =
          d.find row.id := by
      rw [Db.find, hWorking.view]
      simp [Db.find]
    simp only [backend, plan]
    split
    · trivial
    · split
      · trivial
      · rename_i hNone
        rw [hFind] at hNone
        refine ⟨?_, ?_⟩
        · apply hFits.inv.renote
          · rw [hFits.note]
            rfl
          · rw [hFits.note]
            rfl
        · apply hDone
          have hNote :
              (mailRegime calls ok).note t
                  (.insertUser row) () d l.note =
                ⟨some row, none, false⟩ := by
            change noteMail (.insertUser row) () l.note = _
            rw [hWorking.note]
            rfl
          have hBehind :
              (mailRegime calls ok).frag (.user row.id) d =
                none :=
            hNone
          rw [hNote, hBehind]
          apply hWorking.insert
          intro v hHeld
          rw [← hBehind]
          exact (hFits.held _ v hHeld).symm
  · apply hWorking.shape
    intro hEq
    cases hEq

end SiteAnalysis.Users
