import SiteAnalysis.Concurrency.Discipline
import SiteAnalysis.Relational.Backend

/-
  This file defines the proof rules for programs that share a
  transactional store.

  A regime names the fragment of the data behind every lock,
  the part of the data that only one connection writes, what
  is noted of every connection, an invariant of the committed
  data and the notes, and what a connection guarantees of the
  changes that it commits.  Under a regime a connection knows
  its session, its own part of the data, what is noted of it,
  and whether it has changed committed data at all.

  Key definitions include:
    * `Regime`
    * `Regime.plain`
    * `Regime.Local`
    * `Regime.discipline`
    * `Regime.Fits`
    * `Regime.Publishable`
    * `Regime.Verified`

  Key theorems include:
    * `Regime.wp_query_open`
    * `Regime.wp_query_broken`
    * `Regime.wp_execute_frame`
    * `Regime.wp_query_auto`
    * `Regime.wp_close`
    * `Regime.wp_atomic`
    * `Regime.wp_savepoint`
    * `Regime.Verified.inv_of_reaches`
    * `Regime.Verified.guar_of_event`
    * `Regime.Verified.along_of_reaches`
    * `Regime.Verified.unpublished_of_raise`
-/

------------------------------------------------------------
-- Regimes
------------------------------------------------------------

namespace Relational

open Concurrency

/- What a connection knows. -/
structure Regime.Local (δ κ φ Ω N : Type) where
  session : Session δ κ φ
  own : Ω
  note : N
  published : Prop

/-
  The condition on the events of a run, the data behind the
  locks, the data of one connection, the invariant of the
  committed data and the notes (a connection that ends never
  breaks it), the guarantee of every connection, what is
  known of a connection by the operation it is about to
  perform, and how it is noted that a query has returned or
  failed, a transaction has been committed and a connection
  is lost.
-/
structure Regime
    {δ κ Q : Type}
    {A : Q → Type}
    {ρ ε : Type}
    (B : Backend δ κ Q A ρ ε)
    (α φ Ω N : Type) where
  ok :
    World (Store δ κ) (TxOp Q) (TxOp.Res A) ε α →
      Event (Choice ε ρ) → Prop
  frag : κ → δ → φ
  own : Tid → δ → Ω
  inv : δ → (Tid → N) → (Tid → Prop) → Prop
  antitone :
    ∀ d ns live live', (∀ t, live' t → live t) →
      inv d ns live → inv d ns live'
  guar : Tid → δ → δ → Prop
  guar_refl : ∀ t d, guar t d d
  shape : Regime.Local δ κ φ Ω N → Option (TxOp Q) → Prop
  note : Tid → (q : Q) → A q → δ → N → N
  noteError : Q → N → N
  inv_error :
    ∀ t q d ns live, inv d ns live →
      inv d (Function.update ns t (noteError q (ns t))) live
  noteCommit : Tid → δ → N → N
  noteLost : N → N

namespace Regime

variable {δ κ φ Ω N Q₀ : Type} {A : Q₀ → Type}
variable {ρ ε α β : Type}
variable {B : Backend δ κ Q₀ A ρ ε}

/- A regime in which nothing is noted. -/
def plain
    (B : Backend δ κ Q₀ A ρ ε)
    (α : Type)
    (frag : κ → δ → φ)
    (own : Tid → δ → Ω)
    (inv : δ → Prop)
    (guar : Tid → δ → δ → Prop)
    (hRefl : ∀ t d, guar t d d) :
    Regime B α φ Ω Unit where
  ok := Machine.anyEvent
  frag := frag
  own := own
  inv := fun d _ _ => inv d
  antitone := fun _ _ _ _ _ hInv => hInv
  guar := guar
  guar_refl := hRefl
  shape := fun _ _ => True
  note := fun _ _ _ _ n => n
  noteError := fun _ n => n
  inv_error := fun _ _ _ _ _ hInv => hInv
  noteCommit := fun _ _ n => n
  noteLost := fun n => n

/- What a connection knows before it has done anything. -/
def start
    (R : Regime B α φ Ω N)
    (t : Tid)
    (d : δ)
    (n : N) : Local δ κ φ Ω N where
  session := Session.idle
  own := R.own t d
  note := n
  published := False

/- What is noted of a connection after a query. -/
def noteQuery
    (R : Regime B α φ Ω N)
    (t : Tid)
    (q : Q₀)
    (d : δ)
    (n : N) : Except ε (A q) → N
| .ok a => R.note t q a d n
| .error _ => R.noteError q n

/-
  What is noted of a connection after a commit on `s`, which
  is noted when it ends the transaction.
-/
def noteCommitted
    (R : Regime B α φ Ω N)
    (t : Tid)
    (s : Store δ κ)
    (d : δ)
    (n : N) : Except ε Unit → N
| .ok _ =>
    if (s.frames t).length = 1 then
      R.noteCommit t d n
    else
      n
| .error _ => n

/- What is noted of a connection after an operation. -/
def noteAfter
    (R : Regime B α φ Ω N)
    (t : Tid)
    (s : Store δ κ)
    (d : δ)
    (n : N) :
    (o : TxOp Q₀) → Except ε (TxOp.Res A o) → N
| .query q, r => R.noteQuery t q d n r
| .commit, r => R.noteCommitted t s d n r
| _, _ => n

/- What a connection knows after a step from `s` to `s'`. -/
def after
    (R : Regime B α φ Ω N)
    (t : Tid)
    (n : N)
    (s s' : Store δ κ)
    (l : Local δ κ φ Ω N) : Local δ κ φ Ω N where
  session := s'.session R.frag t
  own := R.own t s'.committed
  note := n
  published := l.published ∨ s'.committed ≠ s.committed

/- A note that is not changed. -/
theorem inv_same
    {R : Regime B α φ Ω N}
    {t : Tid}
    {ns : Tid → N}
    {live : Tid → Prop}
    {n : N}
    {d : δ}
    (hInv : R.inv d ns live)
    (hNote : ns t = n) :
    R.inv d (Function.update ns t n) live := by
  rw [← hNote, Function.update_eq_self]
  exact hInv

/- What holds of the committed data when `l` is known. -/
structure Fits
    (R : Regime B α φ Ω N)
    (t : Tid)
    (l : Local δ κ φ Ω N)
    (d : δ)
    (ns : Tid → N)
    (live : Tid → Prop) : Prop where
  inv : R.inv d ns live
  own : R.own t d = l.own
  note : ns t = l.note
  live : live t
  held : ∀ k v, l.session.held k = some v → R.frag k d = v

/-
  A change of the committed data by a connection that holds
  the locks `mine` and of which then `n` is noted.
-/
structure Publishable
    (R : Regime B α φ Ω N)
    (t : Tid)
    (ns : Tid → N)
    (live : Tid → Prop)
    (mine : κ → Prop)
    (d d' : δ)
    (n : N) : Prop where
  inv : R.inv d' (Function.update ns t n) live
  guar : R.guar t d d'
  own : ∀ t', t' ≠ t → R.own t' d' = R.own t' d
  frag : ∀ k, ¬ mine k → R.frag k d' = R.frag k d

/- A step that the other connections do not notice. -/
structure Kept
    (R : Regime B α φ Ω N)
    (t : Tid)
    (ns : Tid → N)
    (live : Tid → Prop)
    (n : N)
    (s s' : Store δ κ) : Prop where
  inv :
    R.inv s'.committed (Function.update ns t n) live
  guar : R.guar t s.committed s'.committed
  others :
    ∀ t', t' ≠ t →
      s'.session R.frag t' = s.session R.frag t' ∧
        R.own t' s'.committed = R.own t' s.committed

variable {R : Regime B α φ Ω N}
variable {s s' : Store δ κ} {t : Tid}
variable {ns : Tid → N} {live : Tid → Prop} {n : N}

theorem kept_of_private
    (hInv : R.inv s.committed (Function.update ns t n) live)
    (hPrivate : Store.Private t s s') :
    R.Kept t ns live n s s' where
  inv := by rw [hPrivate.committed]; exact hInv
  guar := by
    rw [hPrivate.committed]
    exact R.guar_refl t _
  others := fun t' hNe =>
    ⟨hPrivate.session_eq hNe, by rw [hPrivate.committed]⟩

theorem kept_publish
    {fr : Frame δ κ}
    (hPublish :
      R.Publishable t ns live (fun k => s.locks k = some t)
        s.committed (fr.pending s.committed) n) :
    R.Kept t ns live n s (s.publish t fr) where
  inv := hPublish.inv
  guar := hPublish.guar
  others := fun t' hNe =>
    ⟨Store.session_publish_of_ne hPublish.frag hNe,
      hPublish.own t' hNe⟩

/- A statement outside a transaction. -/
theorem kept_write
    {f : δ → δ}
    {mine : κ → Prop}
    (hAuto : s.frames t = [])
    (hFree : ∀ k, mine k → s.Available t k)
    (hPublish :
      R.Publishable t ns live mine s.committed
        (f s.committed) n) :
    R.Kept t ns live n s (s.write t f) := by
  have hCommitted :
      (s.write t f).committed = f s.committed := by
    simp [Store.write, hAuto]
  refine ⟨?_, ?_, ?_⟩
  · rw [hCommitted]
    exact hPublish.inv
  · rw [hCommitted]
    exact hPublish.guar
  · intro t' hNe
    rw [hCommitted]
    refine ⟨?_, hPublish.own t' hNe⟩
    apply Store.session_write_of_ne hAuto _ hNe
    intro k t'' hOther hLock
    apply hPublish.frag
    intro hMine
    rcases hFree k hMine with hNone | hOwn
    · rw [hNone] at hLock
      cases hLock
    · rw [hOwn] at hLock
      exact hOther (Option.some.inj hLock).symm

/- The answer of a party outside the database. -/
theorem kept_reply
    {d : δ}
    (hPublish :
      R.Publishable t ns live (fun _ => False) s.committed d
        n) :
    R.Kept t ns live n s { s with committed := d } where
  inv := hPublish.inv
  guar := hPublish.guar
  others := by
    intro t' hNe
    refine ⟨?_, hPublish.own t' hNe⟩
    simp only [Store.session, Session.mk.injEq, true_and]
    funext k
    simp only [hPublish.frag k id]

/- The current data fits what the connection knows. -/
theorem fits_of_session
    {l : Local δ κ φ Ω N}
    (hInv : R.inv s.committed ns live)
    (hSession : s.session R.frag t = l.session)
    (hOwn : R.own t s.committed = l.own)
    (hNote : ns t = l.note)
    (hLive : live t) :
    R.Fits t l s.committed ns live where
  inv := hInv
  own := hOwn
  note := hNote
  live := hLive
  held := by
    intro k v hHeld
    rw [← hSession] at hHeld
    simp only [Store.session] at hHeld
    split at hHeld
    · exact Option.some.inj hHeld
    · cases hHeld

/- A lock that the session does not list is not held. -/
theorem not_held_of_session
    {l : Local δ κ φ Ω N}
    {k : κ}
    (hSession : s.session R.frag t = l.session)
    (hNone : l.session.held k = none) :
    s.locks k ≠ some t := by
  intro hLock
  rw [← hSession] at hNone
  simp [Store.session, hLock] at hNone

/- A private step changes the session and the note only. -/
theorem after_private
    {l : Local δ κ φ Ω N}
    (hPrivate : Store.Private t s s')
    (hOwn : R.own t s.committed = l.own) :
    R.after t n s s' l =
      { l with
        session := s'.session R.frag t
        note := n } := by
  simp [after, hPrivate.committed, hOwn]

/- A step after which nothing is noted. -/
theorem kept_private_of_fits
    {l : Local δ κ φ Ω N}
    (hFits : R.Fits t l s.committed ns live)
    (hPrivate : Store.Private t s s') :
    R.Kept t ns live l.note s s' :=
  kept_of_private (inv_same hFits.inv hFits.note) hPrivate

/- A query that has failed. -/
theorem kept_error_of_fits
    {q : Q₀}
    {l : Local δ κ φ Ω N}
    (hFits : R.Fits t l s.committed ns live)
    (hPrivate : Store.Private t s s') :
    R.Kept t ns live (R.noteError q l.note) s s' := by
  apply kept_of_private _ hPrivate
  rw [← hFits.note]
  exact R.inv_error t q _ ns live hFits.inv

------------------------------------------------------------
-- Rules for Operations
------------------------------------------------------------

variable [DecidableEq κ]

/- The discipline of a regime. -/
def discipline
    (R : Regime B α φ Ω N) :
    Discipline B.machine α (Local δ κ φ Ω N) where
  ok := R.ok
  inv := fun s ls live =>
    R.inv s.committed (fun t => (ls t).note) live ∧
      ∀ t,
        (ls t).session = s.session R.frag t ∧
          (ls t).own = R.own t s.committed
  antitone := fun _ _ _ _ hSub hInv =>
    ⟨R.antitone _ _ _ _ hSub hInv.1, hInv.2⟩
  shape := R.shape
  guar := fun t s s' => R.guar t s.committed s'.committed
  next := fun t o r s s' l =>
    R.after t (R.noteAfter t s s'.committed l.note o r) s s'
      l
  lose := fun t s s' l =>
    R.after t (R.noteLost l.note) s s' l

/- The weakest precondition under a regime. -/
abbrev wp
    (R : Regime B α φ Ω N)
    (t : Tid)
    (p : Prog (TxOp Q₀) (TxOp.Res A) ε β)
    (Q : β → Local δ κ φ Ω N → Prop)
    (E : ε → Local δ κ φ Ω N → Prop)
    (l : Local δ κ φ Ω N) : Prop :=
  R.discipline.wp t p Q E l

/- A world in which the run may perform the operation. -/
structure Permits
    (R : Regime B α φ Ω N)
    (t : Tid)
    (o : TxOp Q₀)
    (c : Choice ε ρ)
    (d : δ)
    (ns : Tid → N)
    (live : Tid → Prop) : Prop where
  world :
    ∃ w ls,
      R.discipline.Holds w ls ∧ w.shared.committed = d ∧
        (fun t => (ls t).note) = ns ∧ w.Live = live ∧
          (w.threads t).head = some o ∧ R.ok w (.step t c)

/- What the answer of an outside party asks. -/
def ReplyWp
    (R : Regime B α φ Ω N)
    (t : Tid)
    (q : Q₀)
    (l : Local δ κ φ Ω N)
    (d : δ)
    (ns : Tid → N)
    (live : Tid → Prop)
    (done : A q → Local δ κ φ Ω N → Prop) : Prop :=
  ∀ x a d', R.Permits t (.query q) (.reply x) d ns live →
    B.reply q x d = some (a, d') →
    R.Publishable t ns live (fun _ => False) d d'
        (R.note t q a d' l.note) ∧
      done a
        { session := l.session
          own := R.own t d'
          note := R.note t q a d' l.note
          published := l.published ∨ d' ≠ d }

/- A statement that only the database answers. -/
theorem replyWp_of_none
    {q : Q₀}
    {l : Local δ κ φ Ω N}
    {d : δ}
    {done : A q → Local δ κ φ Ω N → Prop}
    (hNone : ∀ x, B.reply q x d = none) :
    R.ReplyWp t q l d ns live done := by
  intro x a d' _ hReply
  rw [hNone x] at hReply
  cases hReply

section Rules

variable {Q : β → Local δ κ φ Ω N → Prop}
variable {E : ε → Local δ κ φ Ω N → Prop}
variable {l : Local δ κ φ Ω N}
variable {fr outer : Frame δ κ} {rest : List (Frame δ κ)}

/- A fault of an operation that the run may contain. -/
def Faults
    (R : Regime B α φ Ω N)
    (t : Tid)
    (o : TxOp Q₀)
    (l : Local δ κ φ Ω N)
    (e : ε) : Prop :=
  ∃ d ns live, R.Fits t l d ns live ∧
    R.Permits t o (.fault e) d ns live

/- A query that fails in the run or is refused. -/
def Fails
    (R : Regime B α φ Ω N)
    (t : Tid)
    (q : Q₀)
    (l : Local δ κ φ Ω N)
    (e : ε) : Prop :=
  R.Faults t (.query q) l e ∨
    ∃ d ns live, R.Fits t l d ns live ∧
      R.Permits t (.query q) .proceed d ns live ∧
        B.plan q (l.session.view d) = .refuse e

/- The rule of one operation. -/
theorem wp_call
    {o : TxOp Q₀}
    {k :
      Except ε (TxOp.Res A o) →
        Prog (TxOp Q₀) (TxOp.Res A) ε β}
    (hShape : R.shape l (some o))
    (hStep :
      ∀ s ns live c r s',
        R.Fits t l s.committed ns live →
          s.session R.frag t = l.session →
            R.Permits t o c s.committed ns live →
              B.machine.exec t o c s = some (r, s') →
                R.Kept t ns live
                    (R.noteAfter t s s'.committed l.note o r)
                    s s' ∧
                  R.wp t (k r) Q E
                    (R.after t
                      (R.noteAfter t s s'.committed l.note o
                        r)
                      s s' l)) :
    R.wp t (.call o k) Q E l := by
  refine ⟨hShape, ?_⟩
  intro w ls c r s' hHolds hAnn hHead hOk hExec
  have hAll := hHolds.1.2
  have hOwn := hAll t
  rw [hAnn] at hOwn
  have hFits :
      R.Fits t l w.shared.committed (fun t => (ls t).note)
        w.Live := by
    apply
      fits_of_session hHolds.1.1 hOwn.1.symm hOwn.2.symm
    · exact congrArg Local.note hAnn
    · simp [World.Live, hHead]
  have hPermits :
      R.Permits t o c w.shared.committed
        (fun t => (ls t).note) w.Live :=
    ⟨w, ls, hHolds, rfl, rfl, rfl, hHead, hOk⟩
  rcases
    hStep w.shared _ _ c r s' hFits hOwn.1.symm hPermits
      hExec with
    ⟨hKept, hRest⟩
  refine ⟨⟨?_, ?_⟩, hKept.guar, hRest⟩
  · have hNotes :
        (fun t' =>
          (Function.update ls t
            (R.discipline.next t o r w.shared s' l)
            t').note) =
          Function.update (fun t => (ls t).note) t
            (R.noteAfter t w.shared s'.committed l.note o
              r) := by
      funext t'
      by_cases hSame : t' = t
      · subst hSame
        simp [discipline, after]
      · simp [hSame]
    rw [hNotes]
    exact hKept.inv
  · intro t'
    by_cases hSame : t' = t
    · subst hSame
      simp [discipline, after]
    · rw [Function.update_of_ne hSame]
      have hOther := hKept.others t' hSame
      rw [hOther.1, hOther.2]
      exact hAll t'

/- The rule of one query. -/
theorem wp_query
    {q : Q₀}
    {k :
      Except ε (A q) → Prog (TxOp Q₀) (TxOp.Res A) ε β}
    (hShape : R.shape l (some (.query q)))
    (hStep :
      ∀ s ns live c r s',
        R.Fits t l s.committed ns live →
          s.session R.frag t = l.session →
            R.Permits t (.query q) c s.committed ns live →
              B.Answered t q s c r s' →
                R.Kept t ns live
                    (R.noteQuery t q s'.committed l.note r)
                    s s' ∧
                  R.wp t (k r) Q E
                    (R.after t
                      (R.noteQuery t q s'.committed l.note
                        r)
                      s s' l)) :
    R.wp t (.call (.query q) k) Q E l := by
  apply wp_call hShape
  intro s ns live c r s' hFits hSession hPermits hExec
  exact
    hStep s ns live c r s' hFits hSession hPermits
      (Backend.answered_of_exec hExec)

/- What the verdict on a statement asks in a transaction. -/
def OpenWp
    (R : Regime B α φ Ω N)
    (t : Tid)
    (q : Q₀)
    (l : Local δ κ φ Ω N)
    (d : δ)
    (ns : Tid → N)
    (live : Tid → Prop)
    (miss : ε → Local δ κ φ Ω N → Prop)
    (done : A q → Local δ κ φ Ω N → Prop) :
    Verdict δ κ ε (A q) → Prop
| .refuse _ => True
| .miss e => miss e { l with note := R.noteError q l.note }
| .done a none f =>
    R.inv d (Function.update ns t (R.note t q a d l.note))
        live ∧
      done a
        { l with
          session := l.session.write f
          note := R.note t q a d l.note }
| .done a (some k) f =>
    R.inv d (Function.update ns t (R.note t q a d l.note))
        live ∧
      done a
        { l with
          session :=
            (l.session.acquire k (R.frag k d)).write f
          note := R.note t q a d l.note }
| .outside => True

/- The rule of a statement inside a transaction. -/
theorem wp_query_open
    {q : Q₀}
    {k :
      Except ε (A q) → Prog (TxOp Q₀) (TxOp.Res A) ε β}
    (hShape : R.shape l (some (.query q)))
    (hFrames : l.session.frames = fr :: rest)
    (hIntact : fr.broken = false)
    (hFault :
      ∀ e, R.Fails t q l e →
        R.wp t (k (.error e)) Q E
          { l with
            session := l.session.fail
            note := R.noteError q l.note })
    (hReply :
      ∀ d ns live, R.Fits t l d ns live →
        R.ReplyWp t q l d ns live
          (fun a => R.wp t (k (.ok a)) Q E))
    (hPlan :
      ∀ d ns live, R.Fits t l d ns live →
        R.Permits t (.query q) .proceed d ns live →
          R.OpenWp t q l d ns live
            (fun e => R.wp t (k (.error e)) Q E)
            (fun a => R.wp t (k (.ok a)) Q E)
            (B.plan q (l.session.view d))) :
    R.wp t (.call (.query q) k) Q E l := by
  apply wp_query hShape
  intro s ns live c r s' hFits hSession hPermits hAnswered
  have hFramesS : s.frames t = fr :: rest := by
    rw [← hFrames, ← hSession]
    rfl
  have hOpen : s.frames t ≠ [] := by simp [hFramesS]
  have hView : s.view t = l.session.view s.committed := by
    rw [← hSession]
    rfl
  have hFailed :
      R.after t (R.noteError q l.note) s (s.fail t) l =
        { l with
          session := l.session.fail
          note := R.noteError q l.note } := by
    rw [after_private Store.private_fail hFits.own,
      Store.session_fail, hSession]
  cases hAnswered with
  | fault e =>
      refine
        ⟨kept_error_of_fits hFits Store.private_fail, ?_⟩
      rw [noteQuery, hFailed]
      exact
        hFault e (Or.inl ⟨_, ns, live, hFits, hPermits⟩)
  | refuse e hRefuse =>
      refine
        ⟨kept_error_of_fits hFits Store.private_fail, ?_⟩
      rw [noteQuery, hFailed]
      rw [hView] at hRefuse
      exact
        hFault e
          (Or.inr
            ⟨_, ns, live, hFits, hPermits, hRefuse⟩)
  | aborted hBroken =>
      simp [Store.broken, hFramesS, hIntact] at hBroken
  | reply x a d' hAnswer =>
      have hReplied :=
        hReply s.committed ns live hFits x a d' hPermits
          hAnswer
      refine ⟨kept_reply hReplied.1, ?_⟩
      have hSame :
          ({ s with committed := d' } :
              Store δ κ).session R.frag t =
            l.session := by
        rw [← hSession]
        simp only [Store.session, Session.mk.injEq, true_and]
        funext k'
        simp only [hReplied.1.frag k' id]
      simp only [after, hSame]
      exact hReplied.2
  | miss e hMiss =>
      have hVerdict :=
        hPlan s.committed ns live hFits hPermits
      refine
        ⟨kept_error_of_fits hFits Store.Private.refl, ?_⟩
      rw [after_private Store.Private.refl hFits.own,
        hSession]
      rw [← hView, hMiss] at hVerdict
      exact hVerdict
  | done a f hDone =>
      have hVerdict :=
        hPlan s.committed ns live hFits hPermits
      have hPrivate := Store.private_write (f := f) hOpen
      rw [← hView, hDone] at hVerdict
      simp only [noteQuery, hPrivate.committed]
      refine ⟨kept_of_private hVerdict.1 hPrivate, ?_⟩
      rw [after_private hPrivate hFits.own,
        Store.session_write hOpen, hSession]
      exact hVerdict.2
  | locked a k' f hDone hFree =>
      have hVerdict :=
        hPlan s.committed ns live hFits hPermits
      have hAcquire := Store.private_acquire hFree
      have hOpen' : (s.acquire t k').frames t ≠ [] := by
        have hAfter :
            (s.acquire t k').session R.frag t =
              (s.session R.frag t).acquire k'
                (R.frag k' s.committed) :=
          Store.session_acquire
        have hSessionFrames := congrArg Session.frames hAfter
        rw [Store.session_frames] at hSessionFrames
        rw [hSessionFrames, Session.acquire]
        simp only [Store.session_frames, hFramesS]
        split <;> simp [hFramesS]
      have hPrivate :=
        hAcquire.trans (Store.private_write (f := f) hOpen')
      rw [← hView, hDone] at hVerdict
      simp only [noteQuery, hPrivate.committed]
      refine ⟨kept_of_private hVerdict.1 hPrivate, ?_⟩
      rw [after_private hPrivate hFits.own,
        Store.session_write hOpen', Store.session_acquire,
        hSession]
      exact hVerdict.2

/- The rule of a statement in a frame that is broken. -/
theorem wp_query_broken
    {q : Q₀}
    {k :
      Except ε (A q) → Prog (TxOp Q₀) (TxOp.Res A) ε β}
    (hShape : R.shape l (some (.query q)))
    (hFrames : l.session.frames = fr :: rest)
    (hBroken : fr.broken = true)
    (hRaise :
      ∀ e,
        R.wp t (k (.error e)) Q E
          { l with note := R.noteError q l.note })
    (hReply :
      ∀ d ns live, R.Fits t l d ns live →
        R.ReplyWp t q l d ns live
          (fun a => R.wp t (k (.ok a)) Q E)) :
    R.wp t (.call (.query q) k) Q E l := by
  apply wp_call hShape
  intro s ns live c r s' hFits hSession hPermits hExec
  have hOpen : s.frames t = fr :: rest := by
    rw [← hFrames, ← hSession]
    rfl
  have hFail : s.fail t = s := by
    have hSame : { fr with broken := true } = fr := by
      rw [← hBroken]
    simp only [Store.fail, hOpen, hSame]
    rw [← hOpen, Store.setFrames, Function.update_eq_self]
  have hStays :
      ∀ e,
        R.Kept t ns live (R.noteError q l.note) s s ∧
          R.wp t (k (.error e)) Q E
            (R.after t (R.noteError q l.note) s s l) := by
    intro e
    rw [after_private Store.Private.refl hFits.own,
      hSession]
    exact
      ⟨kept_error_of_fits hFits Store.Private.refl,
        hRaise e⟩
  cases c with
  | fault e =>
      cases hExec
      rw [hFail]
      exact hStays e
  | proceed =>
      have hRefused : s.broken t = true := by
        simpa [Store.broken, hOpen] using hBroken
      simp only [Backend.machine, Backend.answer, hRefused,
        if_true] at hExec
      cases hExec
      exact hStays B.aborted
  | reply x =>
      simp only [Backend.machine] at hExec
      split at hExec
      · rename_i a d hAnswer
        cases hExec
        have hReplied :=
          hReply s.committed ns live hFits x a d hPermits
            hAnswer
        refine ⟨kept_reply hReplied.1, ?_⟩
        have hSame :
            ({ s with committed := d } :
                Store δ κ).session R.frag t =
              l.session := by
          rw [← hSession]
          simp only [Store.session, Session.mk.injEq,
            true_and]
          funext k'
          simp only [hReplied.1.frag k' id]
        change
          R.wp t (k (.ok a)) Q E
            (R.after t (R.note t q a d l.note) s
              { s with committed := d } l)
        simp only [after, hSame]
        exact hReplied.2
      · cases hExec

/-
  The rule of a statement in any frame: what the database
  makes of it only counts if the frame is not broken.
-/
theorem wp_execute_frame
    {q : Q₀}
    {Q : A q → Local δ κ φ Ω N → Prop}
    (hShape : R.shape l (some (.query q)))
    (hFrames : l.session.frames = fr :: rest)
    (hFault :
      ∀ e,
        E e
          { l with
            session := l.session.fail
            note := R.noteError q l.note })
    (hReply :
      ∀ d ns live, R.Fits t l d ns live →
        R.ReplyWp t q l d ns live Q)
    (hPlan :
      fr.broken = false →
        ∀ d ns live, R.Fits t l d ns live →
          R.Permits t (.query q) .proceed d ns live →
            R.OpenWp t q l d ns live E Q
              (B.plan q (l.session.view d))) :
    R.wp t (execute q) Q E l := by
  cases hCase : fr.broken with
  | false =>
      apply wp_query_open hShape hFrames hCase
      · intro e _
        exact hFault e
      · exact hReply
      · exact hPlan hCase
  | true =>
      have hFail : l.session.fail = l.session := by
        have hSame : { fr with broken := true } = fr := by
          rw [← hCase]
        simp only [Session.fail, hFrames, hSame]
        rw [← hFrames]
      apply wp_query_broken hShape hFrames hCase
      · intro e
        have hRaise := hFault e
        rw [hFail] at hRaise
        exact hRaise
      · exact hReply

/- What a connection knows after a statement of its own. -/
def committed
    (R : Regime B α φ Ω N)
    (t : Tid)
    (l : Local δ κ φ Ω N)
    (d d' : δ)
    (n : N) : Local δ κ φ Ω N where
  session := Session.idle
  own := R.own t d'
  note := n
  published := l.published ∨ d' ≠ d

/- What the verdict asks outside a transaction. -/
def AutoWp
    (R : Regime B α φ Ω N)
    (t : Tid)
    (q : Q₀)
    (l : Local δ κ φ Ω N)
    (d : δ)
    (ns : Tid → N)
    (live : Tid → Prop)
    (miss : ε → Local δ κ φ Ω N → Prop)
    (done : A q → Local δ κ φ Ω N → Prop) :
    Verdict δ κ ε (A q) → Prop
| .refuse _ => True
| .miss e => miss e { l with note := R.noteError q l.note }
| .done a lock f =>
    R.Publishable t ns live (fun k => lock = some k) d (f d)
        (R.note t q a (f d) l.note) ∧
      done a
        (R.committed t l d (f d)
          (R.note t q a (f d) l.note))
| .outside => True

/- The rule of a statement outside a transaction. -/
theorem wp_query_auto
    {q : Q₀}
    {k :
      Except ε (A q) → Prog (TxOp Q₀) (TxOp.Res A) ε β}
    (hShape : R.shape l (some (.query q)))
    (hIdle : l.session = Session.idle)
    (hFault :
      ∀ e, R.Fails t q l e →
        R.wp t (k (.error e)) Q E
          { l with note := R.noteError q l.note })
    (hReply :
      ∀ d ns live, R.Fits t l d ns live →
        R.ReplyWp t q l d ns live
          (fun a => R.wp t (k (.ok a)) Q E))
    (hPlan :
      ∀ d ns live, R.Fits t l d ns live →
        R.Permits t (.query q) .proceed d ns live →
          R.AutoWp t q l d ns live
            (fun e => R.wp t (k (.error e)) Q E)
            (fun a => R.wp t (k (.ok a)) Q E)
            (B.plan q d)) :
    R.wp t (.call (.query q) k) Q E l := by
  apply wp_query hShape
  intro s ns live c r s' hFits hSession hPermits hAnswered
  have hFrames : s.frames t = [] := by
    have h := congrArg Session.frames hSession
    rw [hIdle] at h
    exact h
  have hView : s.view t = s.committed := by
    simp [Store.view, hFrames]
  have hIdleView : l.session.view s.committed = s.committed := by
    rw [hIdle]
    rfl
  have hFail : s.fail t = s := by
    simp [Store.fail, hFrames]
  have hSame :
      R.after t (R.noteError q l.note) s s l =
        { l with note := R.noteError q l.note } := by
    rw [after_private Store.Private.refl hFits.own, hSession]
  have hNoLock : ∀ k', s.locks k' ≠ some t := by
    intro k'
    apply not_held_of_session hSession
    rw [hIdle]
    rfl
  have hKeptSame :
      R.Kept t ns live (R.noteError q l.note) s s :=
    kept_error_of_fits hFits Store.Private.refl
  have hWritten :
      ∀ f n,
        R.after t n s (s.write t f) l =
          R.committed t l s.committed (f s.committed) n := by
    intro f n
    have hAfter :
        (s.write t f).session R.frag t = Session.idle := by
      simp only [Store.session, Store.write, hFrames,
        Session.idle, Session.mk.injEq, true_and]
      funext k'
      simp [hNoLock k']
    have hCommitted :
        (s.write t f).committed = f s.committed := by
      simp [Store.write, hFrames]
    simp only [after, committed, hAfter, hCommitted]
  have hNoted :
      ∀ a f,
        R.noteQuery t q (s.write t f).committed l.note
            (.ok a) =
          R.note t q a (f s.committed) l.note := by
    intro a f
    simp [noteQuery, Store.write, hFrames]
  cases hAnswered with
  | fault e =>
      rw [hFail]
      refine ⟨hKeptSame, ?_⟩
      rw [noteQuery, hSame]
      exact
        hFault e (Or.inl ⟨_, ns, live, hFits, hPermits⟩)
  | refuse e hRefuse =>
      rw [hFail]
      refine ⟨hKeptSame, ?_⟩
      rw [noteQuery, hSame]
      rw [hView, ← hIdleView] at hRefuse
      exact
        hFault e
          (Or.inr
            ⟨_, ns, live, hFits, hPermits, hRefuse⟩)
  | aborted hBroken =>
      simp [Store.broken, hFrames] at hBroken
  | reply x a d' hAnswer =>
      have hReplied :=
        hReply s.committed ns live hFits x a d' hPermits
          hAnswer
      refine ⟨kept_reply hReplied.1, ?_⟩
      have hSession' :
          ({ s with committed := d' } :
              Store δ κ).session R.frag t =
            l.session := by
        rw [← hSession]
        simp only [Store.session, Session.mk.injEq, true_and]
        funext k'
        simp only [hReplied.1.frag k' id]
      simp only [after, hSession']
      exact hReplied.2
  | miss e hMiss =>
      have hVerdict :=
        hPlan s.committed ns live hFits hPermits
      rw [hView] at hMiss
      rw [hMiss] at hVerdict
      refine ⟨hKeptSame, ?_⟩
      rw [noteQuery, hSame]
      exact hVerdict
  | done a f hDone =>
      have hVerdict :=
        hPlan s.committed ns live hFits hPermits
      rw [hView] at hDone
      rw [hDone] at hVerdict
      rw [hNoted]
      refine ⟨kept_write hFrames ?_ hVerdict.1, ?_⟩
      · intro k' hk'
        cases hk'
      · rw [hWritten]
        exact hVerdict.2
  | locked a k' f hDone hFree =>
      have hVerdict :=
        hPlan s.committed ns live hFits hPermits
      rw [hView] at hDone
      rw [hDone] at hVerdict
      have hAcquire : s.acquire t k' = s := by
        simp [Store.acquire, hFrames]
      rw [hAcquire, hNoted]
      refine ⟨kept_write hFrames ?_ hVerdict.1, ?_⟩
      · intro k'' hk''
        rw [← Option.some.inj hk'']
        exact hFree
      · rw [hWritten]
        exact hVerdict.2

/- The same rules for a statement as a program. -/
theorem wp_execute_open
    {q : Q₀}
    {Q : A q → Local δ κ φ Ω N → Prop}
    (hShape : R.shape l (some (.query q)))
    (hFrames : l.session.frames = fr :: rest)
    (hIntact : fr.broken = false)
    (hFault :
      ∀ e, R.Fails t q l e →
        E e
          { l with
            session := l.session.fail
            note := R.noteError q l.note })
    (hReply :
      ∀ d ns live, R.Fits t l d ns live →
        R.ReplyWp t q l d ns live Q)
    (hPlan :
      ∀ d ns live, R.Fits t l d ns live →
        R.Permits t (.query q) .proceed d ns live →
          R.OpenWp t q l d ns live E Q
            (B.plan q (l.session.view d))) :
    R.wp t (execute q) Q E l :=
  wp_query_open hShape hFrames hIntact hFault hReply hPlan

theorem wp_execute_auto
    {q : Q₀}
    {Q : A q → Local δ κ φ Ω N → Prop}
    (hShape : R.shape l (some (.query q)))
    (hIdle : l.session = Session.idle)
    (hFault :
      ∀ e, R.Fails t q l e →
        E e { l with note := R.noteError q l.note })
    (hReply :
      ∀ d ns live, R.Fits t l d ns live →
        R.ReplyWp t q l d ns live Q)
    (hPlan :
      ∀ d ns live, R.Fits t l d ns live →
        R.Permits t (.query q) .proceed d ns live →
          R.AutoWp t q l d ns live E Q (B.plan q d)) :
    R.wp t (execute q) Q E l :=
  wp_query_auto hShape hIdle hFault hReply hPlan

------------------------------------------------------------
-- Rules for Transactions
------------------------------------------------------------

/- The step in which a frame is dropped. -/
theorem kept_rollback
    (hFits : R.Fits t l s.committed ns live)
    (hSession : s.session R.frag t = l.session) :
    R.Kept t ns live l.note s (s.rollback t) ∧
      R.after t l.note s (s.rollback t) l =
        { l with session := l.session.rollback } := by
  refine
    ⟨kept_private_of_fits hFits Store.private_rollback, ?_⟩
  rw [after_private Store.private_rollback hFits.own,
    Store.session_rollback, hSession]

/- The rule of the operation that drops a frame. -/
theorem wp_rollback
    {e : ε}
    (hShape : R.shape l (some .rollback))
    (hRaise :
      E e { l with session := l.session.rollback }) :
    R.wp t (.call .rollback fun _ => .raise e) Q E l := by
  apply wp_call hShape
  intro s ns live c r s' hFits hSession _ hExec
  have hDrop := kept_rollback hFits hSession
  have hBoth :
      R.Kept t ns live l.note s (s.rollback t) ∧
        E e
          (R.after t l.note s (s.rollback t) l) := by
    rw [hDrop.2]
    exact ⟨hDrop.1, hRaise⟩
  cases c with
  | reply x => cases hExec
  | fault e' =>
      cases hExec
      exact hBoth
  | proceed =>
      cases hExec
      exact hBoth

/- What the commit of a transaction asks. -/
structure Commits
    (R : Regime B α φ Ω N)
    (t : Tid)
    (E : ε → Local δ κ φ Ω N → Prop)
    (done : Local δ κ φ Ω N → Prop)
    (l : Local δ κ φ Ω N)
    (fr : Frame δ κ) : Prop where
  shape : R.shape l (some .commit)
  frames : l.session.frames = [fr]
  intact : fr.broken = false
  fault :
    ∀ e, R.Faults t .commit l e →
      E e { l with session := Session.idle }
  publish :
    ∀ d ns live, R.Fits t l d ns live →
      R.Permits t .commit .proceed d ns live →
        R.Publishable t ns live
            (fun k => l.session.held k ≠ none) d
            (fr.pending d)
            (R.noteCommit t (fr.pending d) l.note) ∧
          done
            (R.committed t l d (fr.pending d)
              (R.noteCommit t (fr.pending d) l.note))

/- The step in which a transaction is closed. -/
theorem wp_close
    {k : Except ε Unit → Prog (TxOp Q₀) (TxOp.Res A) ε β}
    (hShape : R.shape l (some .commit))
    (hFrames : l.session.frames = [fr])
    (hFault :
      ∀ e, R.Faults t .commit l e →
        R.wp t (k (.error e)) Q E
          { l with session := Session.idle })
    (hBroken :
      fr.broken = true →
        R.wp t (k (.error B.aborted)) Q E
          { l with session := Session.idle })
    (hPublish :
      fr.broken = false →
        ∀ d ns live, R.Fits t l d ns live →
          R.Permits t .commit .proceed d ns live →
            R.Publishable t ns live
                (fun k => l.session.held k ≠ none) d
                (fr.pending d)
                (R.noteCommit t (fr.pending d) l.note) ∧
              R.wp t (k (.ok ())) Q E
                (R.committed t l d (fr.pending d)
                  (R.noteCommit t (fr.pending d)
                    l.note))) :
    R.wp t (.call .commit k) Q E l := by
  apply wp_call hShape
  intro s ns live c r s' hFits hSession hPermits hExec
  have hOpen : s.frames t = [fr] := by
    rw [← hFrames, ← hSession]
    rfl
  have hDrop := kept_rollback hFits hSession
  have hIdle : l.session.rollback = Session.idle := by
    simp [Session.rollback, hFrames]
  rw [hIdle] at hDrop
  cases c with
  | reply x => cases hExec
  | fault e =>
      cases hExec
      refine ⟨hDrop.1, ?_⟩
      change
        R.wp t (k (.error e)) Q E
          (R.after t l.note s (s.rollback t) l)
      rw [hDrop.2]
      exact hFault e ⟨_, ns, live, hFits, hPermits⟩
  | proceed =>
      simp only [Backend.machine, Store.commit, hOpen]
        at hExec
      split at hExec
      · rename_i hCase
        cases hExec
        refine ⟨hDrop.1, ?_⟩
        change
          R.wp t (k (.error B.aborted)) Q E
            (R.after t l.note s (s.rollback t) l)
        rw [hDrop.2]
        exact hBroken hCase
      · rename_i hIntact
        cases hExec
        have hBoth :=
          hPublish (Bool.eq_false_iff.mpr hIntact)
            s.committed ns live hFits hPermits
        have hMine :
            (fun k => l.session.held k ≠ none) =
              fun k => s.locks k = some t := by
          funext k
          rw [← hSession]
          by_cases hk : s.locks k = some t <;>
            simp [Store.session, hk]
        rw [hMine] at hBoth
        have hNoted :
            R.noteCommitted t s (s.publish t fr).committed
                l.note (.ok ()) =
              R.noteCommit t (fr.pending s.committed)
                l.note := by
          simp [noteCommitted, hOpen, Store.publish,
            Store.setFrames, Store.release]
        change
          R.Kept t ns live
              (R.noteCommitted t s (s.publish t fr).committed
                l.note (.ok ()))
              s (s.publish t fr) ∧
            R.wp t (k (.ok ())) Q E
              (R.after t
                (R.noteCommitted t s
                  (s.publish t fr).committed l.note
                  (.ok ()))
                s (s.publish t fr) l)
        rw [hNoted]
        refine ⟨kept_publish hBoth.1, ?_⟩
        have hAfter :
            R.after t
                (R.noteCommit t (fr.pending s.committed)
                  l.note)
                s (s.publish t fr) l =
              R.committed t l s.committed
                (fr.pending s.committed)
                (R.noteCommit t (fr.pending s.committed)
                  l.note) := by
          simp only [after, committed, Store.session_publish]
          rfl
        rw [hAfter]
        exact hBoth.2

/- The step in which a transaction is committed. -/
theorem wp_commit
    {a : β}
    {k : Except ε Unit → Prog (TxOp Q₀) (TxOp.Res A) ε β}
    (hCommits : R.Commits t E (Q a) l fr)
    (hRaise : ∀ e, k (.error e) = .raise e)
    (hRet : k (.ok ()) = .ret a) :
    R.wp t (.call .commit k) Q E l := by
  apply wp_close hCommits.shape hCommits.frames
  · intro e hFaults
    rw [hRaise]
    exact hCommits.fault e hFaults
  · intro hBroken
    rw [hCommits.intact] at hBroken
    cases hBroken
  · intro _ d ns live hFits hPermits
    rw [hRet]
    exact hCommits.publish d ns live hFits hPermits

/- The step in which a frame opens. -/
theorem wp_begin
    {k :
      Except ε Unit → Prog (TxOp Q₀) (TxOp.Res A) ε β}
    (hShape : R.shape l (some .begin))
    (hFault :
      ∀ e, R.Faults t .begin l e →
        R.wp t (k (.error e)) Q E l)
    (hDone :
      R.wp t (k (.ok ())) Q E
        { l with session := l.session.begin }) :
    R.wp t (.call .begin k) Q E l := by
  apply wp_call hShape
  intro s ns live c r s' hFits hSession hPermits hExec
  cases c with
  | reply x => cases hExec
  | fault e =>
      cases hExec
      refine
        ⟨kept_private_of_fits hFits Store.Private.refl, ?_⟩
      change R.wp t _ Q E (R.after t l.note s s l)
      rw [after_private Store.Private.refl hFits.own,
        hSession]
      exact hFault e ⟨_, ns, live, hFits, hPermits⟩
  | proceed =>
      cases hExec
      refine
        ⟨kept_private_of_fits hFits Store.private_begin, ?_⟩
      change R.wp t _ Q E (R.after t l.note s (s.begin t) l)
      rw [after_private Store.private_begin hFits.own,
        Store.session_begin, hSession]
      exact hDone

/- The rule of a transaction. -/
theorem wp_atomic
    {body : Prog (TxOp Q₀) (TxOp.Res A) ε β}
    (hShape : R.shape l (some .begin))
    (hFault : ∀ e, R.Faults t .begin l e → E e l)
    (hBody :
      R.wp t body
        (fun a l' => ∃ fr, R.Commits t E (Q a) l' fr)
        (fun e l' =>
          (∃ fr, l'.session.frames = [fr]) ∧
            R.shape l' (some .rollback) ∧
              E e { l' with session := Session.idle })
        { l with session := l.session.begin }) :
    R.wp t (atomic body) Q E l := by
  apply wp_begin hShape
  · intro e hFaults
    exact hFault e hFaults
  apply Discipline.wp_handle
  apply Discipline.wp_mono hBody
  · rintro a l' ⟨fr, hCommits⟩
    exact wp_commit hCommits (fun _ => rfl) rfl
  · rintro e l' ⟨⟨fr, hFrames⟩, hShape', hRaise⟩
    apply wp_rollback hShape'
    simpa [Session.rollback, hFrames] using hRaise

/- A savepoint that is ready to be merged. -/
structure Merges
    (R : Regime B α φ Ω N)
    (t : Tid)
    (E : ε → Local δ κ φ Ω N → Prop)
    (done : Local δ κ φ Ω N → Prop)
    (outer : Frame δ κ)
    (rest : List (Frame δ κ))
    (l : Local δ κ φ Ω N)
    (fr : Frame δ κ) : Prop where
  shape : R.shape l (some .commit)
  frames : l.session.frames = fr :: outer :: rest
  intact : fr.broken = false
  fault :
    ∀ e, R.Faults t .commit l e →
      E e { l with session := l.session.rollback }
  done : done { l with session := l.session.merge }

/- The step in which a savepoint is merged. -/
theorem wp_merge
    {a : β}
    {k : Except ε Unit → Prog (TxOp Q₀) (TxOp.Res A) ε β}
    (hMerges : R.Merges t E (Q a) outer rest l fr)
    (hRaise : ∀ e, k (.error e) = .raise e)
    (hRet : k (.ok ()) = .ret a) :
    R.wp t (.call .commit k) Q E l := by
  apply wp_call hMerges.shape
  intro s ns live c r s' hFits hSession hPermits hExec
  have hFrames : s.frames t = fr :: outer :: rest := by
    rw [← hMerges.frames, ← hSession]
    rfl
  cases c with
  | reply x => cases hExec
  | fault e =>
      cases hExec
      have hDrop := kept_rollback hFits hSession
      refine ⟨hDrop.1, ?_⟩
      change
        R.wp t (k (.error e)) Q E
          (R.after t l.note s (s.rollback t) l)
      rw [hDrop.2, hRaise]
      exact
        hMerges.fault e ⟨_, ns, live, hFits, hPermits⟩
  | proceed =>
      simp only [Backend.machine, Store.commit, hFrames,
        hMerges.intact, Bool.false_eq_true, if_false]
        at hExec
      cases hExec
      have hNoted :
          R.noteCommitted t s
              (s.setFrames t
                (outer.absorb fr :: rest)).committed
              l.note (.ok ()) =
            l.note := by
        simp [noteCommitted, hFrames]
      change
        R.Kept t ns live
            (R.noteCommitted t s
              (s.setFrames t
                (outer.absorb fr :: rest)).committed
              l.note (.ok ()))
            s (s.setFrames t (outer.absorb fr :: rest)) ∧
          R.wp t (k (.ok ())) Q E
            (R.after t
              (R.noteCommitted t s
                (s.setFrames t
                  (outer.absorb fr :: rest)).committed
                l.note (.ok ()))
              s (s.setFrames t (outer.absorb fr :: rest)) l)
      rw [hNoted, hRet]
      refine
        ⟨kept_private_of_fits hFits
            (Store.private_setFrames _),
          ?_⟩
      rw [after_private (Store.private_setFrames _)
          hFits.own,
        Store.session_merge hFrames, hSession]
      exact hMerges.done

/- The rule of a savepoint whose outer frames may change. -/
theorem wp_inner
    {body : Prog (TxOp Q₀) (TxOp.Res A) ε β}
    (hShape : R.shape l (some .begin))
    (hFault : ∀ e, R.Faults t .begin l e → E e l)
    (hBody :
      R.wp t body
        (fun a l' =>
          ∃ outer rest fr,
            R.Merges t E (Q a) outer rest l' fr)
        (fun e l' =>
          R.shape l' (some .rollback) ∧
            E e { l' with session := l'.session.rollback })
        { l with session := l.session.begin }) :
    R.wp t (atomic body) Q E l := by
  apply wp_begin hShape
  · intro e hFaults
    exact hFault e hFaults
  apply Discipline.wp_handle
  apply Discipline.wp_mono hBody
  · rintro a l' ⟨outer, rest, fr, hMerges⟩
    exact wp_merge hMerges (fun _ => rfl) rfl
  · rintro e l' ⟨hShape', hRaise⟩
    exact wp_rollback hShape' hRaise

/- The rule of a savepoint. -/
theorem wp_savepoint
    {body : Prog (TxOp Q₀) (TxOp.Res A) ε β}
    (hShape : R.shape l (some .begin))
    (hFault : ∀ e, R.Faults t .begin l e → E e l)
    (hBody :
      R.wp t body
        (fun a l' =>
          ∃ fr, R.Merges t E (Q a) outer rest l' fr)
        (fun e l' =>
          R.shape l' (some .rollback) ∧
            E e { l' with session := l'.session.rollback })
        { l with session := l.session.begin }) :
    R.wp t (atomic body) Q E l := by
  apply wp_inner hShape hFault
  apply Discipline.wp_mono hBody
  · rintro a l' ⟨fr, hMerges⟩
    exact ⟨outer, rest, fr, hMerges⟩
  · intro e l' hRaise
    exact hRaise

end Rules

------------------------------------------------------------
-- Runs
------------------------------------------------------------

variable {w v w' : World (Store δ κ) (TxOp Q₀)
  (TxOp.Res A) ε α}
variable {d : δ}
variable {Qs : Tid → α → Local δ κ φ Ω N → Prop}
variable {Es : Tid → ε → Local δ κ φ Ω N → Prop}

/-
  Every program of the world is verified from its start, what
  is known of a connection that has ended is so known, and a
  connection may be lost.
-/
structure Verified
    (R : Regime B α φ Ω N)
    (Qs : Tid → α → Local δ κ φ Ω N → Prop)
    (Es : Tid → ε → Local δ κ φ Ω N → Prop)
    (d : δ)
    (ns : Tid → N)
    (w :
      World (Store δ κ) (TxOp Q₀) (TxOp.Res A) ε α) :
    Prop where
  quiet : w.shared = Store.quiet d
  inv : R.inv d ns (fun _ => True)
  threads :
    ∀ t, ∃ p, w.threads t = .live p ∧
      R.wp t p (Qs t) (Es t) (R.start t d (ns t))
  ret : ∀ t a l, Qs t a l → R.shape l none
  raise : ∀ t e l, Es t e l → R.shape l none
  lose :
    ∀ w ls t, R.discipline.Holds w ls → w.Live t →
      R.ok w (.lose t) →
        R.inv w.shared.committed
            (Function.update (fun t => (ls t).note) t
              (R.noteLost (ls t).note))
            (fun t' => t' ≠ t ∧ w.Live t') ∧
          R.shape
            { session := Session.idle
              own := (ls t).own
              note := R.noteLost (ls t).note
              published := (ls t).published }
            none

theorem Verified.final
    (hVerified : R.Verified Qs Es d ns w) :
    R.discipline.Final Qs Es where
  ret := hVerified.ret
  raise := hVerified.raise

theorem Verified.losable
    (hVerified : R.Verified Qs Es d ns w) :
    R.discipline.Losable := by
  intro w ls t hHolds hLive hOk
  have hAll := hHolds.1.2
  have hLose := hVerified.lose w ls t hHolds hLive hOk
  have hAfter :
      R.after t (R.noteLost (ls t).note) w.shared
          (w.shared.abandon t) (ls t) =
        { session := Session.idle
          own := (ls t).own
          note := R.noteLost (ls t).note
          published := (ls t).published } := by
    rw [after_private Store.private_abandon (hAll t).2.symm,
      Store.session_abandon]
  have hKept :
      R.Kept t (fun t => (ls t).note)
        (fun t' => t' ≠ t ∧ w.Live t')
        (R.noteLost (ls t).note) w.shared
        (w.shared.abandon t) :=
    kept_of_private hLose.1 Store.private_abandon
  refine ⟨⟨?_, ?_⟩, hKept.guar, ?_⟩
  · have hNotes :
        (fun t' =>
          (Function.update ls t
            (R.discipline.lose t w.shared
              (B.machine.abandon t w.shared) (ls t))
            t').note) =
          Function.update (fun t => (ls t).note) t
            (R.noteLost (ls t).note) := by
      funext t'
      by_cases hSame : t' = t
      · subst hSame
        simp [discipline, after]
      · simp [hSame]
    rw [hNotes]
    exact hKept.inv
  · intro t'
    by_cases hSame : t' = t
    · subst hSame
      simp [discipline, after, Backend.machine]
    · rw [Function.update_of_ne hSame]
      have hOther := hKept.others t' hSame
      exact
        ⟨(hAll t').1.trans hOther.1.symm,
          (hAll t').2.trans hOther.2.symm⟩
  · change R.shape (R.after t _ w.shared _ (ls t)) none
    rw [Backend.machine, hAfter]
    exact hLose.2

theorem Verified.sound
    (hVerified : R.Verified Qs Es d ns w) :
    R.discipline.Sound Qs Es w
      (fun t => R.start t d (ns t)) where
  inv := by
    rw [hVerified.quiet]
    refine ⟨?_, ?_⟩
    · exact
        R.antitone _ _ _ _ (fun _ _ => trivial)
          hVerified.inv
    · intro t
      refine ⟨?_, rfl⟩
      simp [start, Session.idle, Store.session, Store.quiet]
  live := by
    intro t p hThread
    rcases hVerified.threads t with ⟨p', hThread', hWp⟩
    rw [hThread'] at hThread
    cases hThread
    exact hWp
  lost := by
    intro t hThread
    rcases hVerified.threads t with ⟨p', hThread', _⟩
    rw [hThread'] at hThread
    cases hThread

/- The notes fit the world throughout a run. -/
theorem Verified.holds_of_reaches
    (hVerified : R.Verified Qs Es d ns w)
    (hReach : B.machine.Reaches R.ok w w') :
    ∃ ls, R.discipline.Holds w' ls :=
  Discipline.holds_of_reaches hVerified.final
    hVerified.losable hVerified.sound hReach

/- Committed data keeps the invariant throughout a run. -/
theorem Verified.inv_of_reaches
    (hVerified : R.Verified Qs Es d ns w)
    (hReach : B.machine.Reaches R.ok w w') :
    ∃ ns', R.inv w'.shared.committed ns' w'.Live := by
  rcases hVerified.holds_of_reaches hReach with
    ⟨ls', hHolds⟩
  exact ⟨_, hHolds.1.1⟩

/- Every event of a run keeps the guarantee. -/
theorem Verified.guar_of_event
    {e : Event (Choice ε ρ)}
    (hVerified : R.Verified Qs Es d ns w)
    (hReach : B.machine.Reaches R.ok w v)
    (hOk : R.ok v e)
    (hNext : B.machine.next v e = some w') :
    R.guar e.thread v.shared.committed
      w'.shared.committed :=
  Discipline.guar_of_reaches hVerified.final
    hVerified.losable hVerified.sound hReach hOk hNext

/- The note of a finished program fits the data at the end. -/
theorem Verified.inv_of_ret
    {t : Tid}
    {a : α}
    (hVerified : R.Verified Qs Es d ns w)
    (hReach : B.machine.Reaches R.ok w w')
    (hRet : w'.threads t = .live (.ret a)) :
    ∃ l ns', Qs t a l ∧ ns' t = l.note ∧
      R.inv w'.shared.committed ns' w'.Live := by
  rcases
    Discipline.sound_of_reaches hVerified.final
      hVerified.losable hVerified.sound hReach with
    ⟨ls', hSound, _⟩
  exact
    ⟨ls' t, fun t => (ls' t).note, hSound.live t _ hRet, rfl,
      hSound.inv.1⟩

theorem Verified.inv_of_raise
    {t : Tid}
    {e : ε}
    (hVerified : R.Verified Qs Es d ns w)
    (hReach : B.machine.Reaches R.ok w w')
    (hRaise : w'.threads t = .live (.raise e)) :
    ∃ l ns', Es t e l ∧ ns' t = l.note ∧
      R.inv w'.shared.committed ns' w'.Live := by
  rcases
    Discipline.sound_of_reaches hVerified.final
      hVerified.losable hVerified.sound hReach with
    ⟨ls', hSound, _⟩
  exact
    ⟨ls' t, fun t => (ls' t).note, hSound.live t _ hRaise,
      rfl, hSound.inv.1⟩

/-
  What holds of the committed data and of the note of a
  connection, and is kept by every guarantee and every new
  note, holds later in the run.
-/
theorem Verified.note_of_reaches
    {I : δ → N → Prop}
    {t : Tid}
    {ls : Tid → Local δ κ φ Ω N}
    {v₀ : World (Store δ κ) (TxOp Q₀) (TxOp.Res A) ε α}
    (hVerified : R.Verified Qs Es d ns v₀)
    (hGuar :
      ∀ t' d d' n, R.guar t' d d' → I d n → I d' n)
    (hNote :
      ∀ s d n (o : TxOp Q₀) (r : Except ε (TxOp.Res A o)),
        I d n → I d (R.noteAfter t s d n o r))
    (hLost : ∀ d n, I d n → I d (R.noteLost n))
    (hSound : R.discipline.Sound Qs Es v ls)
    (hStart : I v.shared.committed (ls t).note)
    (hReach : B.machine.Reaches R.ok v w') :
    ∃ ls', R.discipline.Sound Qs Es w' ls' ∧
      I w'.shared.committed (ls' t).note := by
  induction hReach with
  | refl => exact ⟨ls, hSound, hStart⟩
  | tail _ hStep ih =>
      rcases ih with ⟨lsMid, hMid, hHolds⟩
      rcases hStep with ⟨e, hOk, hNext⟩
      have hGuar' :=
        Discipline.guar_of_reaches hVerified.final
          hVerified.losable hMid Machine.Reaches.refl hOk
          hNext
      have hKept := hGuar _ _ _ _ hGuar' hHolds
      cases e with
      | step t' c =>
          rcases Machine.next_step_inv hNext with
            ⟨o, k, r, s, hThread, hExec, rfl⟩
          have hMove :
              R.discipline.Moves (_, lsMid) _ :=
            Discipline.Moves.step hThread hOk hExec
          have hSound' :=
            Discipline.sound_of_moves hVerified.final
              hVerified.losable hMid hMove
          refine ⟨_, hSound', ?_⟩
          by_cases hSame : t = t'
          · subst hSame
            rw [Function.update_self]
            exact hNote _ _ _ o r hKept
          · rw [Function.update_of_ne hSame]
            exact hKept
      | lose t' =>
          rcases Machine.next_lose_inv hNext with
            ⟨o, k, hThread, rfl⟩
          have hMove :
              R.discipline.Moves (_, lsMid) _ :=
            Discipline.Moves.lose hThread hOk
          have hSound' :=
            Discipline.sound_of_moves hVerified.final
              hVerified.losable hMid hMove
          refine ⟨_, hSound', ?_⟩
          by_cases hSame : t = t'
          · subst hSame
            rw [Function.update_self]
            exact hLost _ _ hKept
          · rw [Function.update_of_ne hSame]
            exact hKept

/-
  What holds of the world and the annotations at the start
  and is kept by every move between sound annotations, holds
  of sound annotations throughout a run.
-/
theorem Verified.along_of_reaches
    {I :
      World (Store δ κ) (TxOp Q₀) (TxOp.Res A) ε α ×
        (Tid → Local δ κ φ Ω N) → Prop}
    (hVerified : R.Verified Qs Es d ns w)
    (hStart : I (w, fun t => R.start t d (ns t)))
    (hMove :
      ∀ x y,
        R.discipline.Sound Qs Es x.1 x.2 →
          R.discipline.Sound Qs Es y.1 y.2 →
            R.discipline.Moves x y → I x → I y)
    (hReach : B.machine.Reaches R.ok w w') :
    ∃ ls, R.discipline.Sound Qs Es w' ls ∧ I (w', ls) := by
  rcases
    Discipline.sound_of_reaches hVerified.final
      hVerified.losable hVerified.sound hReach with
    ⟨ls, hSound, hPath⟩
  refine ⟨ls, hSound, ?_⟩
  have hAll :
      ∀ y,
        Relation.ReflTransGen R.discipline.Moves
            (w, fun t => R.start t d (ns t)) y →
          R.discipline.Sound Qs Es y.1 y.2 ∧ I y := by
    intro y hPath
    induction hPath with
    | refl => exact ⟨hVerified.sound, hStart⟩
    | tail _ hStep ih =>
        have hNext :=
          Discipline.sound_of_moves hVerified.final
            hVerified.losable ih.1 hStep
        exact ⟨hNext, hMove _ _ ih.1 hNext hStep ih.2⟩
  exact (hAll _ hPath).2

/- A connection's record of its publishing only grows. -/
theorem published_of_moves
    {x y :
      World (Store δ κ) (TxOp Q₀) (TxOp.Res A) ε α ×
        (Tid → Local δ κ φ Ω N)}
    {t : Tid}
    (hPath :
      Relation.ReflTransGen R.discipline.Moves x y)
    (hPublished : (x.2 t).published) :
    (y.2 t).published := by
  induction hPath with
  | refl => exact hPublished
  | tail _ hMove ih =>
      cases hMove with
      | @step w ls t' c o k r s hThread hOk hExec =>
          by_cases hSame : t = t'
          · subst hSame
            simp only [Function.update_self]
            exact Or.inl ih
          · simpa [Function.update_of_ne hSame] using ih
      | @lose w ls t' o k hThread hOk =>
          by_cases hSame : t = t'
          · subst hSame
            simp only [Function.update_self]
            exact Or.inl ih
          · simpa [Function.update_of_ne hSame] using ih

/- A change of committed data is recorded. -/
theorem published_of_change
    (ls : Tid → Local δ κ φ Ω N)
    {e : Event (Choice ε ρ)}
    (hOk : R.ok w e)
    (hNext : B.machine.next w e = some w')
    (hChanged :
      w'.shared.committed ≠ w.shared.committed) :
    ∃ ls',
      R.discipline.Moves (w, ls) (w', ls') ∧
        (ls' e.thread).published := by
  cases e with
  | step t c =>
      rcases Machine.next_step_inv hNext with
        ⟨o, k, r, s, hThread, hExec, rfl⟩
      refine
        ⟨_, Discipline.Moves.step hThread hOk hExec, ?_⟩
      simp only [Event.thread, Function.update_self]
      exact Or.inr hChanged
  | lose t =>
      rcases Machine.next_lose_inv hNext with
        ⟨o, k, hThread, rfl⟩
      refine ⟨_, Discipline.Moves.lose hThread hOk, ?_⟩
      simp only [Event.thread, Function.update_self]
      exact Or.inr hChanged

/-
  When every raise of a program comes without a publication,
  a call that raises has left committed data alone.
-/
theorem Verified.unpublished_of_raise
    {e : Event (Choice ε ρ)}
    {err : ε}
    {v' : World (Store δ κ) (TxOp Q₀) (TxOp.Res A) ε α}
    (hVerified : R.Verified Qs Es d ns w)
    (hClean : ∀ err l, Es e.thread err l → ¬ l.published)
    (hReach : B.machine.Reaches R.ok w v)
    (hOk : R.ok v e)
    (hNext : B.machine.next v e = some v')
    (hLater : B.machine.Reaches R.ok v' w')
    (hRaise : w'.threads e.thread = .live (.raise err)) :
    v'.shared.committed = v.shared.committed := by
  by_contra hChanged
  rcases
    Discipline.sound_of_reaches hVerified.final
      hVerified.losable hVerified.sound hReach with
    ⟨ls, hSound, _⟩
  rcases published_of_change ls hOk hNext hChanged with
    ⟨ls₁, hMove, hPublished⟩
  have hSound₁ :=
    Discipline.sound_of_moves hVerified.final
      hVerified.losable hSound hMove
  rcases
    Discipline.sound_of_reaches hVerified.final
      hVerified.losable hSound₁ hLater with
    ⟨ls₂, hSound₂, hPath⟩
  have hLast := published_of_moves hPath hPublished
  exact hClean err _ (hSound₂.live _ _ hRaise) hLast

/- The verification of programs of which nothing is noted. -/
theorem verified_plain
    {frag : κ → δ → φ}
    {own : Tid → δ → Ω}
    {inv : δ → Prop}
    {guar : Tid → δ → δ → Prop}
    {hRefl : ∀ t d, guar t d d}
    {Qs : Tid → α → Local δ κ φ Ω Unit → Prop}
    {Es : Tid → ε → Local δ κ φ Ω Unit → Prop}
    (hQuiet : w.shared = Store.quiet d)
    (hInv : inv d)
    (hThreads :
      ∀ t, ∃ p, w.threads t = .live p ∧
        (plain B α frag own inv guar hRefl).wp t p (Qs t)
          (Es t)
          ((plain B α frag own inv guar hRefl).start t d
            ())) :
    (plain B α frag own inv guar hRefl).Verified Qs Es d
      (fun _ => ()) w where
  quiet := hQuiet
  inv := hInv
  threads := hThreads
  ret := fun _ _ _ _ => trivial
  raise := fun _ _ _ _ => trivial
  lose := fun _ _ _ hHolds _ _ => ⟨hHolds.1.1, trivial⟩

end Regime

end Relational
