import SiteAnalysis.Relational.Rest
import SiteAnalysis.Relational.Solo

/-
  This file defines the proof rules for programs whose every
  step keeps one relation between the committed data before
  and after it.

  Outside a transaction a statement has to keep the relation
  on the data that it sees.  Inside one its change is
  published later, so it has to keep the relation on any
  data.

  Key definitions include:
    * `Regime.Bears`
    * `Regime.Follows`
    * `Regime.KeptQuery`
    * `Regime.KeptAt`
    * `Regime.CalmQuery`
    * `Regime.Calm`
    * `Regime.keeping`
    * `Backend.Serves`

  Key theorems include:
    * `Regime.wp_keptAt`
    * `Regime.wp_kept`
    * `Regime.wp_calm`
    * `Regime.keep_of_reaches`
    * `Backend.ends_calm`
-/

------------------------------------------------------------
-- Relations That Steps Keep
------------------------------------------------------------

namespace Relational

open Concurrency

namespace Regime

variable {δ κ φ Ω N Q₀ : Type} {A : Q₀ → Type}
variable {ρ ε α β : Type} {B : Backend δ κ Q₀ A ρ ε}

/-
  A regime whose invariant bears a change that keeps the
  relation, and the guarantee of a connection too.
-/
structure Bears
    (R : Regime B α φ Ω N)
    (keep : δ → δ → Prop)
    (t : Tid) : Prop where
  refl : ∀ d, keep d d
  inv :
    ∀ d d' ns live, keep d d' →
      R.inv d ns live → R.inv d' ns live
  guar : ∀ d d', keep d d' → R.guar t d d'
  own : ∀ t' d d', R.own t' d' = R.own t' d
  frag : ∀ k d d', keep d d' → R.frag k d' = R.frag k d

/-
  A regime whose invariant follows `keep`, and the guarantee
  of a connection too.
-/
structure Follows
    (R : Regime B α φ Ω N)
    (keep : δ → δ → Prop)
    (t : Tid) : Prop extends R.Bears keep t where
  trans : ∀ d d' d'', keep d d' → keep d' d'' → keep d d''
  shape :
    ∀ l o, (∀ q, o ≠ .query q) → R.shape l (some o)
  noteCommit : ∀ d n, R.noteCommit t d n = n

/- A query that is always allowed, and never noted. -/
structure Unnoted
    (R : Regime B α φ Ω N)
    (t : Tid)
    (q : Q₀) : Prop where
  shape : ∀ l, R.shape l (some (.query q))
  note : ∀ a d n, R.note t q a d n = n
  noteError : ∀ n, R.noteError q n = n

/- A query that keeps the relation inside a transaction. -/
structure CalmQuery
    (R : Regime B α φ Ω N)
    (keep : δ → δ → Prop)
    (t : Tid)
    (q : Q₀) : Prop extends R.Unnoted t q where
  plan :
    ∀ d a lock f, B.plan q d = .done a lock f →
      ∀ d', keep d' (f d')
  reply :
    ∀ x a d d', B.reply q x d = some (a, d') → keep d d'

/- The pending changes keep the relation. -/
def Calm
    (keep : δ → δ → Prop)
    (frames : List (Frame δ κ)) : Prop :=
  ∀ fr ∈ frames, ∀ d, keep d (fr.pending d)

variable {R : Regime B α φ Ω N} {keep : δ → δ → Prop}
variable {l : Local δ κ φ Ω N} {o : Ω} {n : N} {t : Tid}
variable {d d' : δ} {ns : Tid → N} {live : Tid → Prop}

/- A change that keeps the relation is published. -/
theorem Bears.publishable
    {mine : κ → Prop}
    (hBears : R.Bears keep t)
    (hInv : R.inv d ns live)
    (hNote : ns t = n)
    (hKeep : keep d d') :
    R.Publishable t ns live mine d d' n where
  inv := inv_same (hBears.inv _ _ _ _ hKeep hInv) hNote
  guar := hBears.guar _ _ hKeep
  own := fun _ _ => hBears.own _ _ _
  frag := fun _ _ => hBears.frag _ _ _ hKeep

------------------------------------------------------------
-- Pending Changes
------------------------------------------------------------

section Pending

variable {s s' : Store δ κ} {k : κ} {f : δ → δ}
variable {fr outer : Frame δ κ} {rest : List (Frame δ κ)}

theorem calm_nil : Calm keep ([] : List (Frame δ κ)) := by
  intro fr hMem
  cases hMem

theorem calm_cons
    (hHead : ∀ d, keep d (fr.pending d))
    (hTail : Calm keep rest) : Calm keep (fr :: rest) := by
  intro fr' hMem
  rcases List.mem_cons.mp hMem with hSame | hRest
  · rw [hSame]
    exact hHead
  · exact hTail fr' hRest

theorem Calm.head
    (hCalm : Calm keep (fr :: rest)) :
    ∀ d, keep d (fr.pending d) :=
  hCalm fr List.mem_cons_self

theorem Calm.tail
    (hCalm : Calm keep (fr :: rest)) : Calm keep rest :=
  fun fr' hMem => hCalm fr' (List.mem_cons_of_mem _ hMem)

theorem calm_fail
    (hCalm : Calm keep (s.frames t)) :
    Calm keep ((s.fail t).frames t) := by
  unfold Store.fail
  split
  · exact hCalm
  · rename_i fr outer hFrames
    rw [hFrames] at hCalm
    simp only [Store.setFrames, Function.update_self]
    exact calm_cons hCalm.head hCalm.tail

theorem calm_begin
    (hRefl : ∀ d, keep d d)
    (hCalm : Calm keep (s.frames t)) :
    Calm keep ((s.begin t).frames t) := by
  simp only [Store.begin, Store.setFrames,
    Function.update_self]
  exact calm_cons hRefl hCalm

theorem calm_rollback
    [DecidableEq κ]
    (hCalm : Calm keep (s.frames t)) :
    Calm keep ((s.rollback t).frames t) := by
  unfold Store.rollback
  split
  · exact hCalm
  · simp only [Store.setFrames, Function.update_self]
    exact calm_nil
  · rename_i fr outer hFrames
    rw [hFrames] at hCalm
    simp only [Store.setFrames, Function.update_self]
    exact hCalm.tail

theorem calm_acquire
    [DecidableEq κ]
    (hCalm : Calm keep (s.frames t)) :
    Calm keep ((s.acquire t k).frames t) := by
  unfold Store.acquire
  split
  · exact hCalm
  · rename_i fr outer hFrames
    split
    · exact hCalm
    · rw [hFrames] at hCalm
      simp only [Store.setFrames, Function.update_self]
      exact calm_cons hCalm.head hCalm.tail

theorem calm_write
    (hTrans :
      ∀ d d' d'', keep d d' → keep d' d'' → keep d d'')
    (hKeep : ∀ d, keep d (f d))
    (hCalm : Calm keep (s.frames t)) :
    Calm keep ((s.write t f).frames t) := by
  unfold Store.write
  split
  · exact hCalm
  · rename_i fr outer hFrames
    rw [hFrames] at hCalm
    simp only [Store.setFrames, Function.update_self]
    apply calm_cons _ hCalm.tail
    intro d
    exact hTrans _ _ _ (hCalm.head d) (hKeep _)

theorem calm_absorb
    (hTrans :
      ∀ d d' d'', keep d d' → keep d' d'' → keep d d'')
    (hCalm : Calm keep (fr :: outer :: rest)) :
    Calm keep (outer.absorb fr :: rest) := by
  apply calm_cons _ hCalm.tail.tail
  intro d
  exact hTrans _ _ _ (hCalm.tail.head d) (hCalm.head _)

end Pending

------------------------------------------------------------
-- Steps
------------------------------------------------------------

section Steps

variable {s s' : Store δ κ}

/- A write by a connection whose frames are calm. -/
theorem kept_calm_write
    {f : δ → δ}
    (hFollows : R.Follows keep t)
    (hInv : R.inv s.committed ns live)
    (hNote : ns t = n)
    (hKeep : ∀ d, keep d (f d)) :
    R.Kept t ns live n s (s.write t f) := by
  by_cases hAuto : s.frames t = []
  · have hPublish :
        R.Publishable t ns live (fun _ => False) s.committed
          (f s.committed) n :=
      hFollows.publishable hInv hNote (hKeep s.committed)
    apply kept_write hAuto _ hPublish
    intro k hk
    exact absurd hk id
  · exact
      kept_of_private (inv_same hInv hNote)
        (Store.private_write hAuto)

variable [DecidableEq κ]

/- What the answer of a calm query leaves. -/
theorem kept_calm_answer
    {q : Q₀}
    {c : Choice ε ρ}
    {r : Except ε (A q)}
    (hFollows : R.Follows keep t)
    (hQuery : R.CalmQuery keep t q)
    (hFits : R.Fits t l s.committed ns live)
    (hCalm : Calm keep (s.frames t))
    (hAnswered : B.Answered t q s c r s') :
    R.Kept t ns live l.note s s' ∧
      Calm keep (s'.frames t) := by
  have hPrivate :
      ∀ {v}, Store.Private t s v →
        R.Kept t ns live l.note s v :=
    fun h => kept_private_of_fits hFits h
  cases hAnswered with
  | fault e =>
      exact
        ⟨hPrivate Store.private_fail, calm_fail hCalm⟩
  | refuse e hPlan =>
      exact
        ⟨hPrivate Store.private_fail, calm_fail hCalm⟩
  | aborted hBroken =>
      exact ⟨hPrivate Store.Private.refl, hCalm⟩
  | miss e hPlan =>
      exact ⟨hPrivate Store.Private.refl, hCalm⟩
  | reply x a d hReply =>
      refine ⟨kept_reply ?_, hCalm⟩
      exact
        hFollows.publishable hFits.inv hFits.note
          (hQuery.reply x a _ d hReply)
  | done a f hPlan =>
      have hKeep := hQuery.plan _ a none f hPlan
      exact
        ⟨kept_calm_write hFollows hFits.inv hFits.note
            hKeep,
          calm_write hFollows.trans hKeep hCalm⟩
  | locked a k f hPlan hFree =>
      have hKeep := hQuery.plan _ a (some k) f hPlan
      have hAcquire := Store.private_acquire hFree
      have hKept :=
        kept_calm_write (t := t) (s := s.acquire t k)
          hFollows
          (by rw [hAcquire.committed]; exact hFits.inv)
          hFits.note hKeep
      refine
        ⟨?_,
          calm_write hFollows.trans hKeep
            (calm_acquire hCalm)⟩
      refine ⟨hKept.inv, ?_, ?_⟩
      · have hGuar := hKept.guar
        rw [hAcquire.committed] at hGuar
        exact hGuar
      · intro t' hNe
        have hOther := hKept.others t' hNe
        rw [hAcquire.session_eq hNe, hAcquire.committed]
          at hOther
        exact hOther

/- What a commit by a connection with calm frames leaves. -/
theorem kept_calm_commit
    {r : Except ε Unit}
    (hFollows : R.Follows keep t)
    (hFits : R.Fits t l s.committed ns live)
    (hCalm : Calm keep (s.frames t))
    (hCommit : s.commit B.aborted t = (r, s')) :
    R.Kept t ns live l.note s s' ∧
      Calm keep (s'.frames t) := by
  have hDrop :
      R.Kept t ns live l.note s (s.rollback t) ∧
        Calm keep ((s.rollback t).frames t) :=
    ⟨kept_private_of_fits hFits Store.private_rollback,
      calm_rollback hCalm⟩
  unfold Store.commit at hCommit
  split at hCommit
  · cases hCommit
    exact
      ⟨kept_private_of_fits hFits Store.Private.refl, hCalm⟩
  · rename_i fr hFrames
    split at hCommit
    · cases hCommit
      exact hDrop
    · cases hCommit
      rw [hFrames] at hCalm
      refine ⟨kept_publish ?_, ?_⟩
      · exact
          hFollows.publishable hFits.inv hFits.note
            (hCalm.head _)
      · simp only [Store.publish, Store.setFrames,
          Function.update_self]
        exact calm_nil
  · rename_i fr outer rest hFrames
    split at hCommit
    · cases hCommit
      exact hDrop
    · cases hCommit
      rw [hFrames] at hCalm
      refine
        ⟨kept_private_of_fits hFits
            (Store.private_setFrames _),
          ?_⟩
      simp only [Store.setFrames, Function.update_self]
      exact calm_absorb hFollows.trans hCalm

end Steps

------------------------------------------------------------
-- Rules
------------------------------------------------------------

variable [DecidableEq κ]

/- The operations of a calm program. -/
def CalmOp
    (R : Regime B α φ Ω N)
    (keep : δ → δ → Prop)
    (t : Tid) : TxOp Q₀ → Prop
| .query q => R.CalmQuery keep t q
| _ => True

/- A calm program leaves calm frames and its note. -/
theorem wp_calm
    {p : Prog (TxOp Q₀) (TxOp.Res A) ε β}
    (hFollows : R.Follows keep t)
    (hConforms : p.Conforms (R.CalmOp keep t))
    (hCalm : Calm keep l.session.frames) :
    R.wp t p (fun _ l' => Calm keep l'.session.frames)
      (fun _ l' => Calm keep l'.session.frames) l := by
  induction p generalizing l with
  | ret b => exact hCalm
  | raise e => exact hCalm
  | call o k ih =>
      have hShape : R.shape l (some o) := by
        cases o with
        | query q =>
            have hQuery : R.CalmQuery keep t q :=
              hConforms.1
            exact hQuery.shape l
        | _ =>
            apply hFollows.shape
            intro q hSame
            cases hSame
      apply wp_call hShape
      intro s ns live c r s' hFits hSession hPermits hExec
      have hCalmS : Calm keep (s.frames t) := by
        rw [← hSession] at hCalm
        exact hCalm
      have hStep :
          R.Kept t ns live
              (R.noteAfter t s s'.committed l.note o r) s
              s' ∧
            Calm keep (s'.frames t) := by
        cases o with
        | begin =>
            cases c with
            | reply x => cases hExec
            | fault e =>
                cases hExec
                exact
                  ⟨kept_private_of_fits hFits
                      Store.Private.refl,
                    hCalmS⟩
            | proceed =>
                cases hExec
                exact
                  ⟨kept_private_of_fits hFits
                      Store.private_begin,
                    calm_begin hFollows.refl hCalmS⟩
        | commit =>
            have hNote :
                R.noteCommitted t s s'.committed l.note r =
                  l.note := by
              cases r with
              | error e => rfl
              | ok u =>
                  simp [noteCommitted, hFollows.noteCommit]
            change
              R.Kept t ns live
                  (R.noteCommitted t s s'.committed l.note
                    r)
                  s s' ∧
                _
            rw [hNote]
            cases c with
            | reply x => cases hExec
            | fault e =>
                cases hExec
                exact
                  ⟨kept_private_of_fits hFits
                      Store.private_rollback,
                    calm_rollback hCalmS⟩
            | proceed =>
                exact
                  kept_calm_commit hFollows hFits hCalmS
                    (Option.some.inj hExec)
        | rollback =>
            have hDrop :
                R.Kept t ns live l.note s (s.rollback t) ∧
                  Calm keep ((s.rollback t).frames t) :=
              ⟨kept_private_of_fits hFits
                  Store.private_rollback,
                calm_rollback hCalmS⟩
            cases c with
            | reply x => cases hExec
            | fault e =>
                cases hExec
                exact hDrop
            | proceed =>
                cases hExec
                exact hDrop
        | query q =>
            have hQuery : R.CalmQuery keep t q :=
              hConforms.1
            have hNote :
                R.noteQuery t q s'.committed l.note r =
                  l.note := by
              cases r with
              | error e => exact hQuery.noteError _
              | ok a => exact hQuery.note _ _ _
            change
              R.Kept t ns live
                  (R.noteQuery t q s'.committed l.note r)
                  s s' ∧
                _
            rw [hNote]
            exact
              kept_calm_answer hFollows hQuery hFits hCalmS
                (Backend.answered_of_exec hExec)
      refine ⟨hStep.1, ih r (hConforms.2 r) ?_⟩
      exact hStep.2

/-
  A query that keeps the relation on the data that it sees,
  in the runs that are looked at.
-/
structure KeptQuery
    (R : Regime B α φ Ω N)
    (keep : δ → δ → Prop)
    (t : Tid)
    (q : Q₀) : Prop extends R.Unnoted t q where
  plan :
    ∀ d ns live,
      R.Permits t (.query q) .proceed d ns live →
        ∀ a lock f, B.plan q d = .done a lock f →
          keep d (f d)
  reply :
    ∀ x a d d', B.reply q x d = some (a, d') → keep d d'

/-
  The same for a connection at rest of which `n` is noted,
  and then noted still.
-/
structure KeptAt
    (R : Regime B α φ Ω N)
    (keep : δ → δ → Prop)
    (t : Tid)
    (n : N)
    (q : Q₀) : Prop where
  shape :
    ∀ l : Local δ κ φ Ω N, l.note = n →
      R.shape l (some (.query q))
  note : ∀ a d, R.note t q a d n = n
  noteError : R.noteError q n = n
  plan :
    ∀ d ns live,
      R.Permits t (.query q) .proceed d ns live →
        ∀ a lock f, B.plan q d = .done a lock f →
          keep d (f d)
  reply :
    ∀ x a d d', B.reply q x d = some (a, d') → keep d d'

theorem KeptQuery.at
    {q : Q₀}
    (hQuery : R.KeptQuery keep t q)
    (n : N) : R.KeptAt keep t n q where
  shape := fun l _ => hQuery.shape l
  note := fun a d => hQuery.note a d n
  noteError := hQuery.noteError n
  plan := hQuery.plan
  reply := hQuery.reply

/- A program of such queries outside a transaction. -/
theorem wp_keptAt
    {p : Prog (TxOp Q₀) (TxOp.Res A) ε β}
    (hBears : R.Bears keep t)
    (hConforms :
      p.Conforms
        (fun x => ∃ q, x = .query q ∧ R.KeptAt keep t n q))
    (hRest : Resting o n l) :
    R.wp t p (fun _ => Resting o n) (fun _ => Resting o n)
      l := by
  induction p generalizing l with
  | ret b => exact hRest
  | raise e => exact hRest
  | call x k ih =>
      rcases hConforms.1 with ⟨q, rfl, hQuery⟩
      have hSame : R.noteError q l.note = n := by
        rw [hRest.note]
        exact hQuery.noteError
      apply
        wp_query_auto (hQuery.shape _ hRest.note)
          hRest.session
      · intro e _
        apply ih (.error e) (hConforms.2 _)
        exact ⟨hRest.session, hRest.own, hSame⟩
      · intro d ns live hFits x a d' _ hReply
        have hKeep := hQuery.reply x a d d' hReply
        rw [hRest.note, hQuery.note]
        refine
          ⟨hBears.publishable hFits.inv
              (hFits.note.trans hRest.note) hKeep,
            ?_⟩
        apply ih (.ok a) (hConforms.2 _)
        exact
          ⟨hRest.session,
            (hBears.own _ _ _).trans
              (hFits.own.trans hRest.own),
            rfl⟩
      · intro d ns live hFits hPermits
        cases hCase : B.plan q d with
        | refuse e => trivial
        | outside => trivial
        | miss e =>
            apply ih (.error e) (hConforms.2 _)
            exact ⟨hRest.session, hRest.own, hSame⟩
        | done a lock f =>
            have hKeep :=
              hQuery.plan d ns live hPermits a lock f hCase
            simp only [AutoWp]
            rw [hRest.note, hQuery.note]
            refine
              ⟨hBears.publishable hFits.inv
                  (hFits.note.trans hRest.note) hKeep,
                ?_⟩
            apply ih (.ok a) (hConforms.2 _)
            exact
              ⟨rfl,
                (hBears.own _ _ _).trans
                  (hFits.own.trans hRest.own),
                rfl⟩

theorem wp_kept
    {p : Prog (TxOp Q₀) (TxOp.Res A) ε β}
    (hBears : R.Bears keep t)
    (hConforms :
      p.Conforms
        (fun x => ∃ q, x = .query q ∧ R.KeptQuery keep t q))
    (hRest : Resting o n l) :
    R.wp t p (fun _ => Resting o n) (fun _ => Resting o n)
      l := by
  apply wp_keptAt hBears _ hRest
  apply hConforms.mono
  rintro x ⟨q, rfl, hQuery⟩
  exact ⟨q, rfl, hQuery.at n⟩

------------------------------------------------------------
-- Regimes of One Relation
------------------------------------------------------------

/-
  The regime of the runs with the events `ok` in which every
  step keeps the relation.
-/
def keeping
    (B : Backend δ κ Q₀ A ρ ε)
    (ok :
      World (Store δ κ) (TxOp Q₀) (TxOp.Res A) ε α →
        Event (Choice ε ρ) → Prop)
    (keep : δ → δ → Prop)
    (hRefl : ∀ d, keep d d) :
    Regime B α Unit Unit Unit where
  ok := ok
  frag := fun _ _ => ()
  own := fun _ _ => ()
  inv := fun _ _ _ => True
  antitone := fun _ _ _ _ _ _ => trivial
  guar := fun _ => keep
  guar_refl := fun _ => hRefl
  shape := fun _ _ => True
  note := fun _ _ _ _ n => n
  noteError := fun _ n => n
  inv_error := fun _ _ _ _ _ _ => trivial
  noteCommit := fun _ _ n => n
  noteLost := fun n => n

section Keeping

variable
  {ok :
    World (Store δ κ) (TxOp Q₀) (TxOp.Res A) ε α →
      Event (Choice ε ρ) → Prop}
variable {hRefl : ∀ d, keep d d}

omit [DecidableEq κ] in
theorem follows_keeping
    (hTrans :
      ∀ d d' d'', keep d d' → keep d' d'' → keep d d'') :
    (keeping B ok keep hRefl).Follows keep t where
  refl := hRefl
  trans := hTrans
  inv := fun _ _ _ _ _ _ => trivial
  guar := fun _ _ hKeep => hKeep
  own := fun _ _ _ => rfl
  frag := fun _ _ _ _ => rfl
  shape := fun _ _ _ => trivial
  noteCommit := fun _ _ => rfl

omit [DecidableEq κ] in
theorem unnoted_keeping
    (t : Tid)
    (q : Q₀) : (keeping B ok keep hRefl).Unnoted t q where
  shape := fun _ => trivial
  note := fun _ _ _ => rfl
  noteError := fun _ => rfl

theorem verified_keeping
    {w : World (Store δ κ) (TxOp Q₀) (TxOp.Res A) ε α}
    (hQuiet : w.shared = Store.quiet d)
    (hThreads :
      ∀ t, ∃ p, w.threads t = .live p ∧
        ∀ l, Resting () () l →
          (keeping B ok keep hRefl).wp t p
            (fun _ _ => True) (fun _ _ => True) l) :
    (keeping B ok keep hRefl).Verified
      (fun _ _ _ => True) (fun _ _ _ => True) d
      (fun _ => ()) w where
  quiet := hQuiet
  inv := trivial
  threads := by
    intro t
    rcases hThreads t with ⟨p, hThread, hWp⟩
    exact ⟨p, hThread, hWp _ ⟨rfl, rfl, rfl⟩⟩
  ret := fun _ _ _ _ => trivial
  raise := fun _ _ _ _ => trivial
  lose := fun _ _ _ _ _ _ => ⟨trivial, trivial⟩

/- The relation holds from any point of a run to a later. -/
theorem keep_of_reaches
    {v w w' :
      World (Store δ κ) (TxOp Q₀) (TxOp.Res A) ε α}
    {Qs : Tid → α → Local δ κ Unit Unit Unit → Prop}
    {Es : Tid → ε → Local δ κ Unit Unit Unit → Prop}
    (hTrans :
      ∀ d d' d'', keep d d' → keep d' d'' → keep d d'')
    (hVerified :
      (keeping B ok keep hRefl).Verified Qs Es d
        (fun _ => ()) v)
    (hReach : B.machine.Reaches ok v w)
    (hLater : B.machine.Reaches ok w w') :
    keep w.shared.committed w'.shared.committed := by
  induction hLater with
  | refl => exact hRefl _
  | tail hPath hStep ih =>
      rcases hStep with ⟨e, hOk, hNext⟩
      exact
        hTrans _ _ _ ih
          (hVerified.guar_of_event (hReach.trans hPath) hOk
            hNext)

end Keeping

end Regime

------------------------------------------------------------
-- Undisturbed Connections
------------------------------------------------------------

section Undisturbed

open Regime

variable {δ κ Q₀ : Type} {A : Q₀ → Type} {ρ ε α : Type}
variable {keep : δ → δ → Prop} {d : δ} {t : Tid}
variable {s : Store δ κ}

/-
  The committed data has kept the relation since `d`, the
  writes of the connection do so too, and no lock is in
  another's hands.
-/
structure Store.Keeps
    (keep : δ → δ → Prop)
    (t : Tid)
    (d : δ)
    (s : Store δ κ) : Prop where
  committed : keep d s.committed
  calm : Calm keep (s.frames t)
  free : ∀ k, s.Available t k

/-
  A query that an undisturbed connection gets an answer to
  and that keeps the relation.
-/
structure Backend.Serves
    (B : Backend δ κ Q₀ A ρ ε)
    (answers : Q₀ → Option ρ)
    (keep : δ → δ → Prop)
    (q : Q₀) : Prop where
  inside :
    answers q = none → ∀ d, B.plan q d ≠ .outside
  plan :
    ∀ d a lock f, B.plan q d = .done a lock f →
      ∀ d', keep d' (f d')
  reply :
    ∀ x d, answers q = some x →
      ∃ a d', B.reply q x d = some (a, d') ∧ keep d d'

/- An operation that only changes the frames. -/
theorem Store.Keeps.setFrames
    {frames : List (Frame δ κ)}
    (hKeeps : s.Keeps keep t d)
    (hCalm : Calm keep frames) :
    (s.setFrames t frames).Keeps keep t d where
  committed := hKeeps.committed
  calm := by
    simpa [Store.setFrames] using hCalm
  free := hKeeps.free

theorem Store.Keeps.fail
    (hKeeps : s.Keeps keep t d) :
    (s.fail t).Keeps keep t d := by
  have hCalm := calm_fail hKeeps.calm
  unfold Store.fail at *
  split
  · exact hKeeps
  · rename_i fr outer hFrames
    rw [hFrames] at hCalm
    apply hKeeps.setFrames
    simpa [Store.setFrames] using hCalm

theorem Store.Keeps.rollback
    [DecidableEq κ]
    (hKeeps : s.Keeps keep t d) :
    (s.rollback t).Keeps keep t d where
  committed := by
    rw [Store.private_rollback.committed]
    exact hKeeps.committed
  calm := calm_rollback hKeeps.calm
  free := by
    intro k
    unfold Store.rollback
    split
    · exact hKeeps.free k
    · exact
        Store.available_release (fun _ => true)
          (hKeeps.free k)
    · rename_i fr outer rest hFrames
      exact
        Store.available_release
          (fun k => decide (k ∈ fr.locks)) (hKeeps.free k)

theorem Store.Keeps.acquire
    [DecidableEq κ]
    {k : κ}
    (hKeeps : s.Keeps keep t d) :
    (s.acquire t k).Keeps keep t d where
  committed := by
    rw [(Store.private_acquire (hKeeps.free k)).committed]
    exact hKeeps.committed
  calm := calm_acquire hKeeps.calm
  free := by
    intro k'
    unfold Store.acquire
    split
    · exact hKeeps.free k'
    · split
      · exact hKeeps.free k'
      · by_cases hk : k' = k
        · subst hk
          exact Or.inr (Function.update_self _ _ _)
        · have hOld := hKeeps.free k'
          simpa [Store.Available, Store.setFrames, hk]
            using hOld

theorem Store.Keeps.write
    {f : δ → δ}
    (hTrans :
      ∀ d d' d'', keep d d' → keep d' d'' → keep d d'')
    (hKeep : ∀ d, keep d (f d))
    (hKeeps : s.Keeps keep t d) :
    (s.write t f).Keeps keep t d := by
  have hCalm := calm_write hTrans hKeep hKeeps.calm
  unfold Store.write at *
  split
  · refine ⟨?_, hKeeps.calm, hKeeps.free⟩
    exact hTrans _ _ _ hKeeps.committed (hKeep _)
  · rename_i fr outer hFrames
    rw [hFrames] at hCalm
    apply hKeeps.setFrames
    simpa [Store.setFrames] using hCalm

/- A commit is answered and keeps the relation. -/
theorem Store.Keeps.commit
    [DecidableEq κ]
    (aborted : ε)
    (hTrans :
      ∀ d d' d'', keep d d' → keep d' d'' → keep d d'')
    (hKeeps : s.Keeps keep t d) :
    (s.commit aborted t).2.Keeps keep t d := by
  unfold Store.commit
  split
  · exact hKeeps
  · rename_i fr hFrames
    split
    · exact hKeeps.rollback
    · have hCalm := hKeeps.calm
      rw [hFrames] at hCalm
      refine ⟨?_, ?_, ?_⟩
      · exact
          hTrans _ _ _ hKeeps.committed (hCalm.head _)
      · simp only [Store.publish, Store.setFrames,
          Function.update_self]
        exact calm_nil
      · intro k
        exact
          Store.available_release (fun _ => true)
            (hKeeps.free k)
  · rename_i fr outer rest hFrames
    split
    · exact hKeeps.rollback
    · have hCalm := hKeeps.calm
      rw [hFrames] at hCalm
      exact hKeeps.setFrames (calm_absorb hTrans hCalm)

/- A connection without writes of its own has kept it. -/
theorem Store.Ready.keeps
    (hRefl : ∀ d, keep d d)
    (hReady : s.Ready t d []) : s.Keeps keep t d where
  committed := by
    rw [hReady.at'.committed]
    exact hRefl d
  calm := by
    rw [hReady.at'.frames_nil]
    exact calm_nil
  free := hReady.at'.free

variable [DecidableEq κ]
variable {B : Backend δ κ Q₀ A ρ ε}
variable {answers : Q₀ → Option ρ}

/- A query is answered and keeps the relation. -/
theorem Backend.Serves.exec
    {q : Q₀}
    (hServes : B.Serves answers keep q)
    (hTrans :
      ∀ d d' d'', keep d d' → keep d' d'' → keep d d'')
    (hKeeps : s.Keeps keep t d) :
    ∃ r s', B.alone t answers (.query q) s = some (r, s') ∧
      s'.Keeps keep t d := by
  cases hAnswer : answers q with
  | some x =>
      rcases hServes.reply x s.committed hAnswer with
        ⟨a, d', hReply, hKeep⟩
      refine
        ⟨.ok a, { s with committed := d' }, ?_,
          hTrans _ _ _ hKeeps.committed hKeep, hKeeps.calm,
          hKeeps.free⟩
      simp only [alone, undisturbed, hAnswer, machine,
        hReply]
  | none =>
      rw [alone_proceed hAnswer, answer]
      by_cases hBroken : s.broken t = true
      · rw [if_pos hBroken]
        exact ⟨_, _, rfl, hKeeps⟩
      · rw [if_neg hBroken]
        cases hPlan : B.plan q (s.view t) with
        | refuse e => exact ⟨_, _, rfl, hKeeps.fail⟩
        | miss e => exact ⟨_, _, rfl, hKeeps⟩
        | outside =>
            exact absurd hPlan (hServes.inside hAnswer _)
        | done a lock f =>
            have hKeep := hServes.plan _ a lock f hPlan
            cases lock with
            | none =>
                exact
                  ⟨_, _, rfl, hKeeps.write hTrans hKeep⟩
            | some k =>
                simp only [hKeeps.free k, if_true]
                exact
                  ⟨_, _, rfl,
                    hKeeps.acquire.write hTrans hKeep⟩

/-
  An undisturbed program of such queries comes to an end and
  keeps the relation.
-/
theorem Backend.ends_calm
    {p : Prog (TxOp Q₀) (TxOp.Res A) ε α}
    (hRefl : ∀ d, keep d d)
    (hTrans :
      ∀ d d' d'', keep d d' → keep d' d'' → keep d d'')
    (hConforms :
      p.Conforms
        (fun o => ∀ q, o = .query q →
          B.Serves answers keep q))
    (hKeeps : s.Keeps keep t d) :
    p.Ends (B.alone t answers)
      (fun _ s' => s'.Keeps keep t d)
      (fun _ s' => s'.Keeps keep t d) s := by
  apply Prog.ends_of_conforms hConforms _ hKeeps
  intro o s' hOp hKeeps'
  cases o with
  | begin =>
      exact
        ⟨_, _, rfl,
          hKeeps'.setFrames
            (calm_cons hRefl hKeeps'.calm)⟩
  | commit =>
      exact
        ⟨_, _, rfl, hKeeps'.commit B.aborted hTrans⟩
  | rollback => exact ⟨_, _, rfl, hKeeps'.rollback⟩
  | query q =>
      exact (hOp q rfl).exec hTrans hKeeps'

end Undisturbed

end Relational
