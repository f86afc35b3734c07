import SiteAnalysis.Relational.Rest

/-
  This file defines the proof rules for programs that run one
  after another on the same data.

  While one of them is at work all the others have ended, so
  that its connection knows the committed data.  Every
  statement can still fail, and the connection can be lost at
  any operation.

  Key definitions include:
    * `Backend.soleWorld`
    * `Serial`
    * `Serial.regime`
    * `Serial.Inside`

  Key theorems include:
    * `Serial.wp_execute_sole`
    * `Serial.wp_execute_inside`
    * `Serial.wp_atomic_sole`
    * `Serial.verified`
    * `Serial.outcome_of_reaches`
-/

------------------------------------------------------------
-- One Program at Work
------------------------------------------------------------

namespace Relational

open Concurrency

/- One program at work on the data; the others have ended. -/
def Backend.soleWorld
    {δ κ Q : Type}
    {A : Q → Type}
    {ρ ε α : Type}
    (B : Backend δ κ Q A ρ ε)
    (p : Prog (TxOp Q) (TxOp.Res A) ε α)
    (d : δ) :
    World (Store δ κ) (TxOp Q) (TxOp.Res A) ε α where
  shared := Store.quiet d
  threads := fun t =>
    .live (if t = 0 then p else .raise B.aborted)

/-
  What is proved of a run of one program: the condition on
  the events of the run, an invariant of the committed data
  and of what is noted, what is noted while the program has
  operations to perform, and how it is noted that a query has
  returned, a transaction has been committed and the
  connection is lost.
-/
structure Serial
    {δ κ Q : Type}
    {A : Q → Type}
    {ρ ε : Type}
    (B : Backend δ κ Q A ρ ε)
    (α N : Type) where
  ok :
    World (Store δ κ) (TxOp Q) (TxOp.Res A) ε α →
      Event (Choice ε ρ) → Prop
  inv : δ → N → Prop
  atWork : N → Prop
  note : (q : Q) → A q → δ → N → N
  noteCommit : δ → N → N
  noteLost : N → N
  lost : ∀ d n, atWork n → inv d n → inv d (noteLost n)

namespace Serial

variable {δ κ N Q₀ : Type} {A : Q₀ → Type}
variable {ρ ε α β : Type} {B : Backend δ κ Q₀ A ρ ε}

/- The connection's own part is the whole of the data. -/
def regime
    (S : Serial B α N) : Regime B α Unit (Option δ) N where
  ok := S.ok
  frag := fun _ _ => ()
  own := fun t d => if t = 0 then some d else none
  inv := fun d ns _ => S.inv d (ns 0)
  antitone := fun _ _ _ _ _ hInv => hInv
  guar := fun _ _ _ => True
  guar_refl := fun _ _ => trivial
  shape := fun l o =>
    o ≠ none → l.own = none ∨ S.atWork l.note
  note := fun _ q a d n => S.note q a d n
  noteError := fun _ n => n
  inv_error := by
    intro t q d ns live hInv
    rw [Function.update_eq_self]
    exact hInv
  noteCommit := fun _ d n => S.noteCommit d n
  noteLost := S.noteLost

variable {S : Serial B α N} {d d' : δ} {n n' : N}
variable {l : Regime.Local δ κ Unit (Option δ) N}

/- The connection is between transactions on known data. -/
abbrev Outside
    (d : δ)
    (n : N)
    (l : Regime.Local δ κ Unit (Option δ) N) : Prop :=
  Regime.Resting (some d) n l

/- A transaction on known data with known writes. -/
structure Inside
    (d : δ)
    (p : δ → δ)
    (n : N)
    (l : Regime.Local δ κ Unit (Option δ) N) : Prop where
  frames :
    ∃ fr, l.session.frames = [fr] ∧ fr.pending = p ∧
      fr.broken = false
  own : l.own = some d
  note : l.note = n

/- A change that keeps the invariant is published. -/
theorem publishable
    {ns : Tid → N}
    {live : Tid → Prop}
    {mine : κ → Prop}
    (hInv : S.inv d' n) :
    S.regime.Publishable 0 ns live mine d d' n where
  inv := by
    simp only [regime, Function.update_self]
    exact hInv
  guar := trivial
  own := by
    intro t' hNe
    simp [regime, hNe]
  frag := fun _ _ => rfl

/- What the program knows at its start. -/
theorem outside_start :
    Outside d n (S.regime.start 0 d n) :=
  ⟨rfl, rfl, rfl⟩

------------------------------------------------------------
-- Rules
------------------------------------------------------------

section Rules

variable [DecidableEq κ]
variable {E : ε → Regime.Local δ κ Unit (Option δ) N → Prop}

/- The weakest precondition of the program at work. -/
abbrev wp
    (S : Serial B α N)
    (p : Prog (TxOp Q₀) (TxOp.Res A) ε β)
    (Q : β → Regime.Local δ κ Unit (Option δ) N → Prop)
    (E : ε → Regime.Local δ κ Unit (Option δ) N → Prop)
    (l : Regime.Local δ κ Unit (Option δ) N) : Prop :=
  S.regime.wp 0 p Q E l

/- A locking write adds to the innermost frame. -/
theorem frames_acquire_write
    {s : Session δ κ Unit}
    {fr : Frame δ κ}
    (k : κ)
    (v : Unit)
    (f : δ → δ)
    (hFrames : s.frames = [fr]) :
    ∃ locks,
      ((s.acquire k v).write f).frames =
        [{ fr with
            pending := f ∘ fr.pending
            locks := locks }] := by
  unfold Session.acquire
  simp only [hFrames]
  split
  · refine ⟨fr.locks, ?_⟩
    simp [Session.write, hFrames]
  · refine ⟨k :: fr.locks, ?_⟩
    simp [Session.write]

/- How a statement outside a transaction can fail. -/
inductive Failed
    (S : Serial B α N)
    (q : Q₀)
    (d : δ)
    (e : ε) : Choice ε ρ → Prop
  | fault : Failed S q d e (.fault e)
  | refuse
      (hPlan : B.plan q d = .refuse e) :
      Failed S q d e .proceed
  | miss
      (hPlan : B.plan q d = .miss e) :
      Failed S q d e .proceed

/- A statement outside a transaction. -/
theorem wp_execute_failed
    {q : Q₀}
    {Q : A q → Regime.Local δ κ Unit (Option δ) N → Prop}
    (hWork : S.atWork n)
    (hRest : Outside d n l)
    (hRaise :
      ∀ e l' c, Outside d n l' → S.Failed q d e c →
        (∃ ns live,
          S.regime.Permits 0 (.query q) c d ns live) →
        E e l')
    (hReply :
      ∀ x a d',
        (∃ ns live,
          S.regime.Permits 0 (.query q) (.reply x) d ns
            live) →
        B.reply q x d = some (a, d') →
          S.inv d' (S.note q a d' n) ∧
            ∀ l', Outside d' (S.note q a d' n) l' → Q a l')
    (hDone :
      ∀ a lock f,
        (∃ ns live,
          S.regime.Permits 0 (.query q) .proceed d ns
            live) →
        B.plan q d = .done a lock f →
          S.inv (f d) (S.note q a (f d) n) ∧
            ∀ l', Outside (f d) (S.note q a (f d) n) l' →
              Q a l') :
    S.wp (execute q) Q E l := by
  have hData :
      ∀ d₁ ns live, S.regime.Rests 0 (some d) n d₁ ns live →
        d₁ = d := by
    intro d₁ ns live hRests
    have hOwn := hRests.own
    simp only [regime, if_true] at hOwn
    exact Option.some.inj hOwn
  have hView : ∀ d₁, l.session.view d₁ = d₁ := by
    intro d₁
    rw [hRest.session]
    rfl
  apply Regime.wp_execute_rest _ hRest
  · rintro e l' hRest' (hFaults | hRefused)
    · rcases hFaults with ⟨d₁, ns, live, hFits, hPermits⟩
      have hSame :=
        hData d₁ ns live
          ⟨hFits.inv, hFits.own.trans hRest.own,
            hFits.note.trans hRest.note, hFits.live⟩
      subst hSame
      exact
        hRaise e l' _ hRest' Failed.fault
          ⟨ns, live, hPermits⟩
    · rcases hRefused with
        ⟨d₁, ns, live, hFits, hPermits, hPlan⟩
      have hSame :=
        hData d₁ ns live
          ⟨hFits.inv, hFits.own.trans hRest.own,
            hFits.note.trans hRest.note, hFits.live⟩
      subst hSame
      rw [hView] at hPlan
      exact
        hRaise e l' _ hRest' (Failed.refuse hPlan)
          ⟨ns, live, hPermits⟩
  · intro d₁ ns live hRests x a d' hPermits hAnswer
    have hSame := hData d₁ ns live hRests
    subst hSame
    have hReplied :=
      hReply x a d' ⟨ns, live, hPermits⟩ hAnswer
    exact ⟨publishable hReplied.1, hReplied.2⟩
  · intro d₁ ns live hRests hPermits
    have hSame := hData d₁ ns live hRests
    subst hSame
    cases hCase : B.plan q d₁ with
    | refuse e => trivial
    | outside => trivial
    | miss e =>
        intro l' hRest'
        exact
          hRaise e l' _ hRest' (Failed.miss hCase)
            ⟨ns, live, hPermits⟩
    | done a lock f =>
        have hDone' :=
          hDone a lock f ⟨ns, live, hPermits⟩ hCase
        exact ⟨publishable hDone'.1, hDone'.2⟩
  · intro _
    exact Or.inr (hRest.note ▸ hWork)

/- The same rule where it does not matter what has failed. -/
theorem wp_execute_sole
    {q : Q₀}
    {Q : A q → Regime.Local δ κ Unit (Option δ) N → Prop}
    (hWork : S.atWork n)
    (hRest : Outside d n l)
    (hRaise :
      ∀ e l' c, Outside d n l' →
        (∃ ns live,
          S.regime.Permits 0 (.query q) c d ns live) →
        E e l')
    (hReply :
      ∀ x a d',
        (∃ ns live,
          S.regime.Permits 0 (.query q) (.reply x) d ns
            live) →
        B.reply q x d = some (a, d') →
          S.inv d' (S.note q a d' n) ∧
            ∀ l', Outside d' (S.note q a d' n) l' → Q a l')
    (hDone :
      ∀ a lock f,
        (∃ ns live,
          S.regime.Permits 0 (.query q) .proceed d ns
            live) →
        B.plan q d = .done a lock f →
          S.inv (f d) (S.note q a (f d) n) ∧
            ∀ l', Outside (f d) (S.note q a (f d) n) l' →
              Q a l') :
    S.wp (execute q) Q E l :=
  wp_execute_failed hWork hRest
    (fun e l' c hRest' _ hPermits =>
      hRaise e l' c hRest' hPermits)
    hReply hDone

/- A statement inside a transaction. -/
theorem wp_execute_inside
    {q : Q₀}
    {p : δ → δ}
    {Q : A q → Regime.Local δ κ Unit (Option δ) N → Prop}
    (hWork : S.atWork n)
    (hInside : Inside d p n l)
    (hInv : S.inv d n)
    (hRaise :
      ∀ e l', Regime.Abandons (some d) n l' → E e l')
    (hInner : ∀ x d', B.reply q x d' = none)
    (hDone :
      ∀ a lock f, B.plan q (p d) = .done a lock f →
        S.note q a d n = n ∧
          ∀ l', Inside d (f ∘ p) n l' → Q a l') :
    S.wp (execute q) Q E l := by
  rcases hInside.frames with
    ⟨fr, hFrames, hPending, hIntact⟩
  have hAbandons : Regime.Abandons (some d) n l :=
    ⟨⟨fr, hFrames⟩, hInside.own, hInside.note⟩
  apply Regime.wp_execute_open _ hFrames hIntact
  · intro e _
    exact hRaise e _ hAbandons.fail
  · intro d₁ ns live _
    exact Regime.replyWp_of_none (hInner · d₁)
  · intro d₁ ns live hFits _
    have hOwn := hFits.own
    rw [hInside.own] at hOwn
    simp only [regime, if_true] at hOwn
    have hSame := Option.some.inj hOwn
    subst hSame
    have hView : l.session.view d₁ = p d₁ := by
      simp [Session.view, hFrames, hPending]
    rw [hView]
    have hNs : ns 0 = n := hFits.note.trans hInside.note
    have hNoted :
        ∀ a, S.note q a d₁ n = n →
          S.regime.inv d₁
            (Function.update ns 0
              (S.regime.note 0 q a d₁ l.note))
            live := by
      intro a hSame
      simp only [regime, Function.update_self, hInside.note,
        hSame]
      exact hInv
    cases hCase : B.plan q (p d₁) with
    | refuse e => trivial
    | outside => trivial
    | miss e =>
        exact
          hRaise e _ ⟨⟨fr, hFrames⟩, hInside.own,
            hInside.note⟩
    | done a lock f =>
        have hDone' := hDone a lock f hCase
        cases lock with
        | none =>
            refine ⟨hNoted a hDone'.1, hDone'.2 _ ?_⟩
            refine ⟨?_, hInside.own, ?_⟩
            · refine
                ⟨{ fr with pending := f ∘ fr.pending }, ?_,
                  ?_, hIntact⟩
              · simp [Session.write, hFrames]
              · simp [hPending]
            · simp only [regime, hInside.note]
              exact hDone'.1
        | some k =>
            refine ⟨hNoted a hDone'.1, hDone'.2 _ ?_⟩
            refine ⟨?_, hInside.own, ?_⟩
            · rcases
                frames_acquire_write k (S.regime.frag k d₁) f
                  hFrames with
                ⟨locks, hAfter⟩
              refine ⟨_, hAfter, ?_, hIntact⟩
              simp [hPending]
            · simp only [regime, hInside.note]
              exact hDone'.1
  · intro _
    exact Or.inr (hInside.note ▸ hWork)

/- A transaction. -/
theorem wp_atomic_sole
    {body : Prog (TxOp Q₀) (TxOp.Res A) ε β}
    {Q : β → Regime.Local δ κ Unit (Option δ) N → Prop}
    (hWork : S.atWork n)
    (hRest : Outside d n l)
    (hRaise : ∀ e l', Outside d n l' → E e l')
    (hBody :
      ∀ l₀, Inside d id n l₀ →
        S.wp body
          (fun a l' => ∃ p, Inside d p n l' ∧
            S.inv (p d) (S.noteCommit (p d) n) ∧
              ∀ l'', Outside (p d) (S.noteCommit (p d) n)
                l'' → Q a l'')
          (fun _ => Regime.Abandons (some d) n) l₀) :
    S.wp (atomic body) Q E l := by
  apply Regime.wp_atomic_rest _ hRest
  · intro e l' hRest' _
    exact hRaise e l' hRest'
  · intro l₀ hSession hOwn hNote
    have hInside : Inside d id n l₀ := by
      refine ⟨⟨Frame.fresh, ?_, rfl, rfl⟩, hOwn, hNote⟩
      rw [hSession]
      rfl
    apply Discipline.wp_mono (hBody l₀ hInside)
    · rintro a l' ⟨p, hInside', hInv, hDone⟩
      rcases hInside'.frames with
        ⟨fr, hFrames, hPending, hIntact⟩
      refine
        ⟨fun _ => Or.inr (hInside'.note ▸ hWork), fr, n, ?_,
          fun e l'' _ hRest' => hRaise e l'' hRest'⟩
      refine
        ⟨hFrames, hIntact, hInside'.own, hInside'.note, ?_⟩
      intro d₁ ns live hFits
      have hOwn' := hFits.own
      rw [hInside'.own] at hOwn'
      simp only [regime, if_true] at hOwn'
      have hSame := Option.some.inj hOwn'
      subst hSame
      rw [hPending]
      exact ⟨publishable hInv, hDone⟩
    · intro e l' hAbandons
      refine
        ⟨fun _ => Or.inr (hAbandons.note ▸ hWork), n,
          hAbandons, ?_⟩
      intro l'' hRest'
      exact hRaise e l'' hRest'
  · intro _
    exact Or.inr (hRest.note ▸ hWork)

end Rules

------------------------------------------------------------
-- Runs
------------------------------------------------------------

variable [DecidableEq κ]
variable {p : Prog (TxOp Q₀) (TxOp.Res A) ε α}
variable {Q : α → Regime.Local δ κ Unit (Option δ) N → Prop}
variable {E : ε → Regime.Local δ κ Unit (Option δ) N → Prop}
variable {w : World (Store δ κ) (TxOp Q₀) (TxOp.Res A) ε α}

/- A program that is verified from the data it starts on. -/
theorem verified
    (hInv : S.inv d n)
    (hWp : ∀ l, Outside d n l → S.wp p Q E l) :
    S.regime.Verified (fun t a l => t = 0 → Q a l)
      (fun t e l => t = 0 → E e l) d (fun _ => n)
      (B.soleWorld p d) where
  quiet := rfl
  inv := hInv
  threads := by
    intro t
    refine ⟨_, rfl, ?_⟩
    by_cases hZero : t = 0
    · subst hZero
      rw [if_pos rfl]
      apply Discipline.wp_mono (hWp _ outside_start)
      · intro a l hRet _
        exact hRet
      · intro e l hRaise _
        exact hRaise
    · rw [if_neg hZero]
      intro hSame
      exact absurd hSame hZero
  ret := fun _ _ _ _ hNone => absurd rfl hNone
  raise := fun _ _ _ _ hNone => absurd rfl hNone
  lose := by
    intro w ls t hHolds hLive _
    have hShape := hHolds.2 t hLive
    have hOwn := (hHolds.1.2 t).2
    refine ⟨?_, fun hNone => absurd rfl hNone⟩
    by_cases hZero : t = 0
    · subst hZero
      have hAtWork : S.atWork (ls 0).note := by
        rcases hShape with hNone | hWork
        · rw [hNone] at hOwn
          simp [regime] at hOwn
        · exact hWork
      simp only [regime, Function.update_self]
      exact S.lost _ _ hAtWork hHolds.1.1
    · have hInv' := hHolds.1.1
      simp only [regime,
        Function.update_of_ne (Ne.symm hZero)]
      exact hInv'

/- What is noted of a lost connection. -/
theorem note_of_lost
    {P : N → Prop}
    (hP : ∀ n, P (S.noteLost n))
    (hInv : S.inv d n)
    (hWp : ∀ l, Outside d n l → S.wp p Q E l)
    (hReach :
      B.machine.Reaches S.ok (B.soleWorld p d) w) :
    ∃ ls,
      S.regime.discipline.Sound (fun t a l => t = 0 → Q a l)
        (fun t e l => t = 0 → E e l) w ls ∧
        (w.threads 0 = .lost → P (ls 0).note) := by
  have hVerified := verified hInv hWp
  induction hReach with
  | refl =>
      refine ⟨_, hVerified.sound, ?_⟩
      intro hLost
      cases hLost
  | tail _ hStep ih =>
      rcases ih with ⟨ls, hSound, hNote⟩
      rcases hStep with ⟨e, hOk, hNext⟩
      cases e with
      | step t c =>
          rcases Machine.next_step_inv hNext with
            ⟨o, k, r, s, hThread, hExec, rfl⟩
          refine
            ⟨_,
              Discipline.sound_of_moves hVerified.final
                hVerified.losable hSound
                (Discipline.Moves.step hThread hOk hExec),
              ?_⟩
          by_cases hZero : 0 = t
          · subst hZero
            intro hLost
            simp at hLost
          · rw [World.put_threads_of_ne _ _ _ hZero,
              Function.update_of_ne hZero]
            exact hNote
      | lose t =>
          rcases Machine.next_lose_inv hNext with
            ⟨o, k, hThread, rfl⟩
          refine
            ⟨_,
              Discipline.sound_of_moves hVerified.final
                hVerified.losable hSound
                (Discipline.Moves.lose hThread hOk),
              ?_⟩
          by_cases hZero : 0 = t
          · subst hZero
            intro _
            simp only [Function.update_self]
            exact hP _
          · rw [World.put_threads_of_ne _ _ _ hZero,
              Function.update_of_ne hZero]
            exact hNote

/-
  The invariant holds throughout a run, with a note that says
  how the run has ended, if it has.
-/
theorem outcome_of_reaches
    (hInv : S.inv d n)
    (hWp : ∀ l, Outside d n l → S.wp p Q E l)
    (hReach :
      B.machine.Reaches S.ok (B.soleWorld p d) w) :
    ∃ n', S.inv w.shared.committed n' ∧
      (∀ a, w.threads 0 = .live (.ret a) →
        ∃ l, Q a l ∧ l.note = n') ∧
      (∀ e, w.threads 0 = .live (.raise e) →
        ∃ l, E e l ∧ l.note = n') ∧
      (w.threads 0 = .lost → ∃ m, n' = S.noteLost m) ∧
      (w.Live 0 → S.atWork n') := by
  rcases
    note_of_lost (P := fun n' => ∃ m, n' = S.noteLost m)
      (fun m => ⟨m, rfl⟩) hInv hWp hReach with
    ⟨ls, hSound, hLost⟩
  have hHolds := hSound.holds (verified hInv hWp).final
  refine
    ⟨(ls 0).note, hHolds.1.1, ?_, ?_, hLost, ?_⟩
  · intro a hThread
    exact ⟨ls 0, hSound.live 0 _ hThread rfl, rfl⟩
  · intro e hThread
    exact ⟨ls 0, hSound.live 0 _ hThread rfl, rfl⟩
  · intro hLive
    have hOwn := (hHolds.1.2 0).2
    rcases hHolds.2 0 hLive with hNone | hWork
    · rw [hNone] at hOwn
      simp [regime] at hOwn
    · exact hWork

/-
  What is noted of an answer, and of everything after it, is
  noted at the end.
-/
theorem noted_of_reply
    {P : N → Prop}
    {x : ρ}
    {u u' : World (Store δ κ) (TxOp Q₀) (TxOp.Res A) ε α}
    (hInv : S.inv d n)
    (hWp : ∀ l, Outside d n l → S.wp p Q E l)
    (hAnswer :
      ∀ q a d' n', B.reply q x u.shared.committed =
        some (a, d') → P (S.note q a d' n'))
    (hNote : ∀ q a d' n', P n' → P (S.note q a d' n'))
    (hCommit : ∀ d' n', P n' → P (S.noteCommit d' n'))
    (hLost : ∀ n', P n' → P (S.noteLost n'))
    (hReach :
      B.machine.Reaches S.ok (B.soleWorld p d) u)
    (hOk : S.ok u (.step 0 (.reply x)))
    (hNext :
      B.machine.next u (.step 0 (.reply x)) = some u')
    (hLater : B.machine.Reaches S.ok u' w) :
    ∃ ls,
      S.regime.discipline.Sound (fun t a l => t = 0 → Q a l)
        (fun t e l => t = 0 → E e l) w ls ∧
        P (ls 0).note := by
  have hVerified := verified hInv hWp
  rcases
    Discipline.sound_of_reaches hVerified.final
      hVerified.losable hVerified.sound hReach with
    ⟨ls, hSound, _⟩
  rcases Machine.next_step_inv hNext with
    ⟨o, k, r, s, hThread, hExec, rfl⟩
  have hSound' :=
    Discipline.sound_of_moves hVerified.final
      hVerified.losable hSound
      (Discipline.Moves.step hThread hOk hExec)
  apply
    hVerified.note_of_reaches (I := fun _ n' => P n') _ _ _
      hSound' _ hLater
  · intro _ _ _ _ _ hP
    exact hP
  · intro s d' n' o r hP
    cases o with
    | begin => exact hP
    | rollback => exact hP
    | commit =>
        cases r with
        | error e => exact hP
        | ok a =>
            simp only [Regime.noteAfter,
              Regime.noteCommitted]
            split
            · exact hCommit _ _ hP
            · exact hP
    | query q =>
        cases r with
        | error e => exact hP
        | ok a => exact hNote _ _ _ _ hP
  · intro _ n' hP
    exact hLost n' hP
  · rw [Function.update_self]
    cases o with
    | begin => cases hExec
    | commit => cases hExec
    | rollback => cases hExec
    | query q =>
        simp only [Backend.machine] at hExec
        split at hExec
        · rename_i a d' hReply
          cases hExec
          exact hAnswer q a d' _ hReply
        · cases hExec

end Serial

end Relational
