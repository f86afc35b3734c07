import SiteAnalysis.Concurrency.Interleaving

/-
  This file defines a store with row locks and nested
  transactions, at the read-committed level.

  A connection outside a transaction commits every statement
  at once.  Inside one, its writes stay pending in a stack of
  frames, one for the transaction and one for each savepoint
  in it; only the connection itself sees them, until the
  outermost frame commits.  A lock is held from the statement
  that takes it to the end of the frame that took it.  A
  statement that fails breaks the innermost frame, in which
  no further statement is accepted.

  A session is what a connection can rely on while other
  connections work: its own frames, and the committed
  fragment behind every lock it holds.

  Key definitions include:
    * `Frame`
    * `Store`
    * `Store.view`
    * `Store.begin`
    * `Store.commit`
    * `Store.rollback`
    * `Store.acquire`
    * `Store.write`
    * `Session`
    * `Store.session`
    * `Store.Private`

  Key theorems include:
    * `Store.Private.session_eq`
    * `Store.session_publish_of_ne`
    * `Store.session_rollback`
    * `Store.session_acquire`
    * `Store.session_write`
-/

------------------------------------------------------------
-- Stores
------------------------------------------------------------

namespace Relational

open Concurrency

/- One transaction or savepoint of a connection. -/
structure Frame (δ κ : Type) where
  pending : δ → δ
  locks : List κ
  broken : Bool

/- The frame of a transaction that has just begun. -/
def Frame.fresh {δ κ : Type} : Frame δ κ where
  pending := id
  locks := []
  broken := false

/- A savepoint's writes and locks pass to the frame around. -/
def Frame.absorb
    {δ κ : Type}
    (outer fr : Frame δ κ) : Frame δ κ where
  pending := fr.pending ∘ outer.pending
  locks := fr.locks ++ outer.locks
  broken := outer.broken

/-
  The committed data, the holder of every lock, and the open
  frames of every connection, innermost first.
-/
structure Store (δ κ : Type) where
  committed : δ
  locks : κ → Option Tid
  frames : Tid → List (Frame δ κ)

namespace Store

variable {δ κ ε φ : Type}

/- A store without connections at work. -/
def quiet (d : δ) : Store δ κ where
  committed := d
  locks := fun _ => none
  frames := fun _ => []

/- What a connection reads: its writes over committed data. -/
def view
    (s : Store δ κ)
    (t : Tid) : δ :=
  (s.frames t).foldr (fun fr d => fr.pending d) s.committed

/- Statements are refused in the innermost frame. -/
def broken
    (s : Store δ κ)
    (t : Tid) : Bool :=
  match s.frames t with
  | [] => false
  | fr :: _ => fr.broken

/- Replace the frames of one connection. -/
def setFrames
    (s : Store δ κ)
    (t : Tid)
    (frames : List (Frame δ κ)) : Store δ κ :=
  { s with frames := Function.update s.frames t frames }

/- Free those locks of a connection that `gone` selects. -/
def release
    (s : Store δ κ)
    (t : Tid)
    (gone : κ → Bool) : Store δ κ :=
  { s with
    locks := fun k =>
      if s.locks k = some t ∧ gone k then
        none
      else
        s.locks k }

/- Break the innermost frame, if there is one. -/
def fail
    (s : Store δ κ)
    (t : Tid) : Store δ κ :=
  match s.frames t with
  | [] => s
  | fr :: outer =>
      s.setFrames t ({ fr with broken := true } :: outer)

/- Open a transaction, or a savepoint inside one. -/
def begin
    (s : Store δ κ)
    (t : Tid) : Store δ κ :=
  s.setFrames t (Frame.fresh :: s.frames t)

/- Drop the innermost frame and the locks taken in it. -/
def rollback
    [DecidableEq κ]
    (s : Store δ κ)
    (t : Tid) : Store δ κ :=
  match s.frames t with
  | [] => s
  | [_] => (s.release t (fun _ => true)).setFrames t []
  | fr :: outer =>
      (s.release t (fun k => decide (k ∈ fr.locks))).setFrames
        t outer

/- Publish the writes of the only frame. -/
def publish
    (s : Store δ κ)
    (t : Tid)
    (fr : Frame δ κ) : Store δ κ :=
  { (s.release t (fun _ => true)).setFrames t [] with
    committed := fr.pending s.committed }

/-
  Close the innermost frame: the outermost one publishes its
  writes.  A broken frame cannot be committed and is rolled
  back, which `aborted` reports.
-/
def commit
    [DecidableEq κ]
    (aborted : ε)
    (s : Store δ κ)
    (t : Tid) : Except ε Unit × Store δ κ :=
  match s.frames t with
  | [] => (.ok (), s)
  | [fr] =>
      if fr.broken then
        (.error aborted, s.rollback t)
      else
        (.ok (), s.publish t fr)
  | fr :: outer :: rest =>
      if fr.broken then
        (.error aborted, s.rollback t)
      else
        (.ok (),
          s.setFrames t (outer.absorb fr :: rest))

/- The lock is free, or the connection's own. -/
def Available
    (s : Store δ κ)
    (t : Tid)
    (k : κ) : Prop :=
  s.locks k = none ∨ s.locks k = some t

instance
    (s : Store δ κ)
    (t : Tid)
    (k : κ) :
    Decidable (s.Available t k) := by
  unfold Available
  infer_instance

/-
  Take a lock for the rest of the innermost frame.  Outside a
  transaction the lock ends with the statement.
-/
def acquire
    [DecidableEq κ]
    (s : Store δ κ)
    (t : Tid)
    (k : κ) : Store δ κ :=
  match s.frames t with
  | [] => s
  | fr :: outer =>
      if s.locks k = some t then
        s
      else
        { s.setFrames t
            ({ fr with locks := k :: fr.locks } :: outer) with
          locks := Function.update s.locks k (some t) }

/- A write: pending in a transaction, else committed. -/
def write
    (s : Store δ κ)
    (t : Tid)
    (f : δ → δ) : Store δ κ :=
  match s.frames t with
  | [] => { s with committed := f s.committed }
  | fr :: outer =>
      s.setFrames t
        ({ fr with pending := f ∘ fr.pending } :: outer)

/- The connection is gone: its frames and locks go with it. -/
def abandon
    (s : Store δ κ)
    (t : Tid) : Store δ κ :=
  (s.release t (fun _ => true)).setFrames t []

------------------------------------------------------------
-- Sessions
------------------------------------------------------------

end Store

/-
  What a connection can rely on: its frames, and the
  committed fragments behind its locks.
-/
structure Session (δ κ φ : Type) where
  frames : List (Frame δ κ)
  held : κ → Option φ

namespace Session

variable {δ κ φ : Type}

/- The session of a connection that is not at work. -/
def idle : Session δ κ φ where
  frames := []
  held := fun _ => none

/- What the connection reads over committed data. -/
def view
    (l : Session δ κ φ)
    (d : δ) : δ :=
  l.frames.foldr (fun fr d => fr.pending d) d

/- The innermost frame breaks. -/
def fail
    (l : Session δ κ φ) : Session δ κ φ :=
  match l.frames with
  | [] => l
  | fr :: outer =>
      { l with frames := { fr with broken := true } :: outer }

/- A frame opens. -/
def begin
    (l : Session δ κ φ) : Session δ κ φ :=
  { l with frames := Frame.fresh :: l.frames }

/- The innermost frame is dropped. -/
def rollback
    [DecidableEq κ]
    (l : Session δ κ φ) : Session δ κ φ :=
  match l.frames with
  | [] => l
  | [_] => idle
  | fr :: outer =>
      { frames := outer
        held := fun k =>
          if k ∈ fr.locks then none else l.held k }

/- The innermost frame passes to the one around it. -/
def merge
    (l : Session δ κ φ) : Session δ κ φ :=
  match l.frames with
  | fr :: outer :: rest =>
      { l with frames := outer.absorb fr :: rest }
  | _ => l

/- A lock is taken in a frame, on the fragment `v`. -/
def acquire
    [DecidableEq κ]
    (l : Session δ κ φ)
    (k : κ)
    (v : φ) : Session δ κ φ :=
  match l.frames with
  | [] => l
  | fr :: outer =>
      if (l.held k).isSome then
        l
      else
        { frames :=
            { fr with locks := k :: fr.locks } :: outer
          held := Function.update l.held k (some v) }

/- A write is pending in the innermost frame. -/
def write
    (l : Session δ κ φ)
    (f : δ → δ) : Session δ κ φ :=
  match l.frames with
  | [] => l
  | fr :: outer =>
      { l with
        frames :=
          { fr with pending := f ∘ fr.pending } :: outer }

end Session

namespace Store

variable {δ κ ε φ : Type}

/- The session of a connection. -/
def session
    (frag : κ → δ → φ)
    (s : Store δ κ)
    (t : Tid) : Session δ κ φ where
  frames := s.frames t
  held := fun k =>
    if s.locks k = some t then
      some (frag k s.committed)
    else
      none

@[simp] theorem session_frames
    (frag : κ → δ → φ)
    (s : Store δ κ)
    (t : Tid) :
    (s.session frag t).frames = s.frames t := rfl

/-
  From `s` to `s'` nothing changed but the frames and the
  locks of connection `t`.
-/
structure Private
    (t : Tid)
    (s s' : Store δ κ) : Prop where
  committed : s'.committed = s.committed
  frames : ∀ t', t' ≠ t → s'.frames t' = s.frames t'
  locks :
    ∀ k t', t' ≠ t →
      (s'.locks k = some t' ↔ s.locks k = some t')

variable {frag : κ → δ → φ}
variable {s s' s'' : Store δ κ} {t t' : Tid}

theorem Private.refl : Private t s s where
  committed := rfl
  frames := fun _ _ => rfl
  locks := fun _ _ _ => Iff.rfl

theorem Private.trans
    (hLeft : Private t s s')
    (hRight : Private t s' s'') :
    Private t s s'' where
  committed := hRight.committed.trans hLeft.committed
  frames := fun t' hNe =>
    (hRight.frames t' hNe).trans (hLeft.frames t' hNe)
  locks := fun k t' hNe =>
    (hRight.locks k t' hNe).trans (hLeft.locks k t' hNe)

/- A private change leaves the other sessions as they were. -/
theorem Private.session_eq
    (hPrivate : Private t s s')
    (hNe : t' ≠ t) :
    s'.session frag t' = s.session frag t' := by
  simp only [session, hPrivate.frames t' hNe,
    hPrivate.committed, Session.mk.injEq, true_and]
  funext k
  simp only [hPrivate.locks k t' hNe]

theorem private_setFrames
    (frames : List (Frame δ κ)) :
    Private t s (s.setFrames t frames) where
  committed := rfl
  frames := fun t' hNe => by simp [setFrames, hNe]
  locks := fun _ _ _ => Iff.rfl

theorem private_release
    (gone : κ → Bool) :
    Private t s (s.release t gone) where
  committed := rfl
  frames := fun _ _ => rfl
  locks := fun k t' hNe => by
    simp only [release]
    split
    · rename_i hOwn
      simp [hOwn.1, Ne.symm hNe]
    · exact Iff.rfl

theorem private_fail : Private t s (s.fail t) := by
  unfold fail
  split
  · exact Private.refl
  · exact private_setFrames _

theorem private_begin : Private t s (s.begin t) :=
  private_setFrames _

theorem private_rollback
    [DecidableEq κ] :
    Private t s (s.rollback t) := by
  unfold rollback
  split
  · exact Private.refl
  · exact
      (private_release _).trans (private_setFrames _)
  · exact
      (private_release _).trans (private_setFrames _)

theorem private_abandon : Private t s (s.abandon t) :=
  (private_release _).trans (private_setFrames _)

theorem private_acquire
    [DecidableEq κ]
    {k : κ}
    (hFree : s.Available t k) :
    Private t s (s.acquire t k) := by
  unfold acquire
  split
  · exact Private.refl
  · split
    · exact Private.refl
    · rename_i hOther
      have hNone : s.locks k = none :=
        hFree.resolve_right hOther
      refine ⟨rfl, ?_, ?_⟩
      · intro t' hNe
        simp [setFrames, hNe]
      · intro k' t' hNe
        by_cases hk : k' = k
        · subst hk
          simp [hNone, Ne.symm hNe]
        · simp [hk]

/- A write inside a transaction is private. -/
theorem private_write
    {f : δ → δ}
    (hOpen : s.frames t ≠ []) :
    Private t s (s.write t f) := by
  unfold write
  split
  · rename_i hNil
    exact absurd hNil hOpen
  · exact private_setFrames _

/-
  Publishing leaves another session as it was when it leaves
  the fragments behind the locks of others as they were.
-/
theorem session_publish_of_ne
    {fr : Frame δ κ}
    (hFrag :
      ∀ k, s.locks k ≠ some t →
        frag k (fr.pending s.committed) =
          frag k s.committed)
    (hNe : t' ≠ t) :
    (s.publish t fr).session frag t' =
      s.session frag t' := by
  have hClosed :
      Private t s
        ((s.release t (fun _ => true)).setFrames t []) :=
    (private_release _).trans (private_setFrames _)
  have hLocks :
      ∀ k,
        (s.publish t fr).locks k = some t' ↔
          s.locks k = some t' :=
    fun k => hClosed.locks k t' hNe
  have hFrames :
      (s.publish t fr).frames t' = s.frames t' :=
    hClosed.frames t' hNe
  simp only [session, Session.mk.injEq, hFrames, true_and]
  funext k
  by_cases hk : s.locks k = some t'
  · have hOther : s.locks k ≠ some t := by
      rw [hk]
      simpa using hNe
    rw [if_pos ((hLocks k).mpr hk), if_pos hk]
    exact congrArg some (hFrag k hOther)
  · rw [if_neg (fun h => hk ((hLocks k).mp h)),
      if_neg hk]

/- The same for a statement outside a transaction. -/
theorem session_write_of_ne
    {f : δ → δ}
    (hAuto : s.frames t = [])
    (hFrag :
      ∀ k t', t' ≠ t → s.locks k = some t' →
        frag k (f s.committed) = frag k s.committed)
    (hNe : t' ≠ t) :
    (s.write t f).session frag t' = s.session frag t' := by
  simp only [session, write, hAuto, Session.mk.injEq,
    true_and]
  funext k
  by_cases hk : s.locks k = some t'
  · simp [hk, hFrag k t' hNe hk]
  · simp [hk]

------------------------------------------------------------
-- A Connection's Own Session
------------------------------------------------------------

theorem view_eq_session :
    s.view t = (s.session frag t).view s.committed := rfl

theorem session_setFrames
    (frames : List (Frame δ κ)) :
    (s.setFrames t frames).session frag t =
      { s.session frag t with frames := frames } := by
  rw [session, Session.mk.injEq]
  exact ⟨Function.update_self _ _ _, rfl⟩

theorem session_fail :
    (s.fail t).session frag t = (s.session frag t).fail := by
  unfold fail Session.fail
  cases hFrames : s.frames t with
  | nil => simp [hFrames]
  | cons fr outer => simp [hFrames, session_setFrames]

theorem session_begin :
    (s.begin t).session frag t = (s.session frag t).begin := by
  rw [begin, session_setFrames]
  rfl

/- A connection that released its locks holds none. -/
theorem session_closed :
    ((s.release t (fun _ => true)).setFrames t []).session
      frag t = Session.idle := by
  simp only [session, setFrames, release, Session.idle,
    Function.update_self, Session.mk.injEq, true_and]
  funext k
  by_cases hk : s.locks k = some t <;> simp [hk]

theorem session_rollback
    [DecidableEq κ] :
    (s.rollback t).session frag t =
      (s.session frag t).rollback := by
  unfold rollback Session.rollback
  cases hFrames : s.frames t with
  | nil => simp [hFrames]
  | cons fr outer =>
      cases outer with
      | nil =>
          simp only [session_frames, hFrames]
          exact session_closed
      | cons outer rest =>
          simp only [session_frames, hFrames]
          simp only [session, setFrames, release,
            Function.update_self, Session.mk.injEq, true_and]
          funext k
          by_cases hk : s.locks k = some t <;>
            by_cases hMem : k ∈ fr.locks <;> simp [hk, hMem]

theorem session_acquire
    [DecidableEq κ]
    {k : κ} :
    (s.acquire t k).session frag t =
      (s.session frag t).acquire k (frag k s.committed) := by
  unfold acquire Session.acquire
  cases hFrames : s.frames t with
  | nil => simp [hFrames]
  | cons fr outer =>
      by_cases hk : s.locks k = some t
      · simp [hFrames, hk, session]
      · simp only [session_frames, hFrames, hk, if_false]
        simp only [session, setFrames, hk, if_false,
          Option.isSome_none, Bool.false_eq_true,
          Function.update_self, Session.mk.injEq, true_and]
        funext k'
        by_cases hSame : k' = k
        · subst hSame
          simp
        · simp [hSame]

/- A write inside a transaction. -/
theorem session_write
    {f : δ → δ}
    (hOpen : s.frames t ≠ []) :
    (s.write t f).session frag t =
      (s.session frag t).write f := by
  unfold write Session.write
  cases hFrames : s.frames t with
  | nil => exact absurd hFrames hOpen
  | cons fr outer => simp [hFrames, session_setFrames]

/- The end of a savepoint. -/
theorem session_merge
    {fr outer : Frame δ κ}
    {rest : List (Frame δ κ)}
    (hFrames : s.frames t = fr :: outer :: rest) :
    (s.setFrames t (outer.absorb fr :: rest)).session frag
        t =
      (s.session frag t).merge := by
  simp [Session.merge, hFrames, session_setFrames]

theorem session_publish
    {fr : Frame δ κ} :
    (s.publish t fr).session frag t = Session.idle := by
  simp only [session, publish, setFrames, release,
    Session.idle, Function.update_self, Session.mk.injEq,
    true_and]
  funext k
  by_cases hk : s.locks k = some t <;> simp [hk]

theorem session_abandon :
    (s.abandon t).session frag t = Session.idle :=
  session_closed

end Store

end Relational
