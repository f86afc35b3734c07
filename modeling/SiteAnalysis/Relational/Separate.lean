import Mathlib.Data.List.Forall2
import SiteAnalysis.Relational.Heeding
import SiteAnalysis.Relational.Serial

/-
  This file proves that connections which work on separate
  parts of the data run as if each of them were alone.

  A part of the data is what is left of it for one of the
  connections.  The statements of the connection come to the
  same on its part as on all of the data, and those of the
  others leave the part as it is.  Then whatever a system of
  such connections comes to, a run of one of them on nothing
  but its part comes to the same for it.

  Key definitions include:
    * `Backend.Localizes`
    * `Mirrors`
    * `PrivateBut`

  Key theorems include:
    * `mirrors_of_exec`
    * `Backend.alone_of_reaches`
-/

------------------------------------------------------------
-- Parts
------------------------------------------------------------

namespace Relational

open Concurrency
open Regime

variable {δ κ Q : Type} {A : Q → Type} {ρ ε α : Type}

/-
  On data with the invariant, the allowed statements come to
  the same on the part of the data.  What is refused may be
  accepted there.
-/
structure Backend.Localizes
    (B : Backend δ κ Q A ρ ε)
    (holds : δ → Prop)
    (part : δ → δ)
    (allowed : Q → Prop) : Prop where
  done :
    ∀ q d a lock f, allowed q → holds d →
      B.plan q d = .done a lock f →
        ∃ g, B.plan q (part d) = .done a lock g ∧
          ∀ d', holds d' → part (f d') = g (part d')
  miss :
    ∀ q d e, allowed q → holds d → B.plan q d = .miss e →
      B.plan q (part d) = .miss e
  reply :
    ∀ q x d a d', allowed q → holds d →
      B.reply q x d = some (a, d') →
        B.reply q x (part d) = some (a, part d')

/- A frame on the data, and the same frame on the part. -/
structure SameFrame
    (holds : δ → Prop)
    (part : δ → δ)
    (fr gr : Frame δ κ) : Prop where
  pending :
    ∀ d, holds d → part (fr.pending d) = gr.pending (part d)
  locks : gr.locks = fr.locks
  broken : gr.broken = fr.broken

/-
  For connection `t` the store `s` is what `u` is for the only
  connection at work on the part.
-/
structure Mirrors
    (holds : δ → Prop)
    (part : δ → δ)
    (t : Tid)
    (s u : Store δ κ) : Prop where
  committed : u.committed = part s.committed
  frames :
    List.Forall₂ (SameFrame holds part) (s.frames t)
      (u.frames 0)
  locks : ∀ k, u.locks k = some 0 ↔ s.locks k = some t
  sole : ∀ k t', u.locks k = some t' → t' = 0

variable {holds : δ → Prop} {part : δ → δ}
variable {keep : δ → δ → Prop} {t : Tid}
variable {s u : Store δ κ} {f g : δ → δ}

/- Before anything is executed. -/
theorem mirrors_quiet
    (d : δ) :
    Mirrors holds part t
      (Store.quiet d : Store δ κ)
      (Store.quiet (part d)) where
  committed := rfl
  frames := .nil
  locks := by simp [Store.quiet]
  sole := by simp [Store.quiet]

/- The connection sees its part of what it would see. -/
theorem Mirrors.view
    (hMirrors : Mirrors holds part t s u)
    (hHolds : holds s.committed)
    (hCalm : Calm (Sustains holds keep) (s.frames t)) :
    u.view 0 = part (s.view t) := by
  have hFrames := hMirrors.frames
  unfold Store.view
  rw [hMirrors.committed]
  generalize s.frames t = frames at hFrames hCalm ⊢
  generalize u.frames 0 = frames' at hFrames ⊢
  induction hFrames with
  | nil => rfl
  | cons hHead _ ih =>
      have hTail := holds_of_frames hCalm.tail hHolds
      rw [List.foldr_cons, List.foldr_cons, ih hCalm.tail,
        hHead.pending _ hTail]

/- The innermost frames are broken alike. -/
theorem Mirrors.broken
    (hMirrors : Mirrors holds part t s u) :
    u.broken 0 = s.broken t := by
  have hFrames := hMirrors.frames
  unfold Store.broken
  generalize s.frames t = frames at hFrames ⊢
  generalize u.frames 0 = frames' at hFrames ⊢
  cases hFrames with
  | nil => rfl
  | cons hHead hTail => exact hHead.broken

/- The connections have no frame open, or both have one. -/
theorem Mirrors.frames_nil
    (hMirrors : Mirrors holds part t s u)
    (hOuter : s.frames t = []) : u.frames 0 = [] := by
  have hFrames := hMirrors.frames
  rwa [hOuter, List.forall₂_nil_left_iff] at hFrames

theorem Mirrors.frames_cons
    {fr : Frame δ κ}
    {outer : List (Frame δ κ)}
    (hMirrors : Mirrors holds part t s u)
    (hOuter : s.frames t = fr :: outer) :
    ∃ gr outer', SameFrame holds part fr gr ∧
      List.Forall₂ (SameFrame holds part) outer outer' ∧
        u.frames 0 = gr :: outer' := by
  have hFrames := hMirrors.frames
  rwa [hOuter, List.forall₂_cons_left_iff] at hFrames

/- Other frames, and no other locks. -/
theorem Mirrors.setFrames
    {frames frames' : List (Frame δ κ)}
    (hMirrors : Mirrors holds part t s u)
    (hFrames :
      List.Forall₂ (SameFrame holds part) frames frames') :
    Mirrors holds part t (s.setFrames t frames)
      (u.setFrames 0 frames') where
  committed := hMirrors.committed
  frames := by
    simp only [Store.setFrames, Function.update_self]
    exact hFrames
  locks := hMirrors.locks
  sole := hMirrors.sole

/- Locks are given up alike. -/
theorem Mirrors.release
    {gone : κ → Bool}
    (hMirrors : Mirrors holds part t s u) :
    Mirrors holds part t (s.release t gone)
      (u.release 0 gone) where
  committed := hMirrors.committed
  frames := hMirrors.frames
  locks := by
    intro k
    simp only [Store.release]
    by_cases hGone : gone k = true
    · by_cases hOwn : s.locks k = some t
      · simp [hGone, hOwn, (hMirrors.locks k).mpr hOwn]
      · have hNot : u.locks k ≠ some 0 :=
          fun hLock => hOwn ((hMirrors.locks k).mp hLock)
        simp [hOwn, hNot]
    · simp only [hGone, and_false, if_false, Bool.false_eq_true]
      exact hMirrors.locks k
  sole := by
    intro k t' hLock
    simp only [Store.release] at hLock
    split at hLock
    · cases hLock
    · exact hMirrors.sole k t' hLock

------------------------------------------------------------
-- Operations
------------------------------------------------------------

theorem sameFrame_fresh :
    SameFrame holds part (Frame.fresh : Frame δ κ)
      Frame.fresh where
  pending := fun _ _ => rfl
  locks := rfl
  broken := rfl

theorem Mirrors.begin
    (hMirrors : Mirrors holds part t s u) :
    Mirrors holds part t (s.begin t) (u.begin 0) :=
  hMirrors.setFrames (.cons sameFrame_fresh hMirrors.frames)

/- A statement that fails breaks the frame. -/
theorem Mirrors.fail
    (hMirrors : Mirrors holds part t s u) :
    Mirrors holds part t (s.fail t) (u.fail 0) := by
  unfold Store.fail
  cases hOuter : s.frames t with
  | nil =>
      rw [hMirrors.frames_nil hOuter]
      exact hMirrors
  | cons fr outer =>
      rcases hMirrors.frames_cons hOuter with
        ⟨gr, outer', hHead, hTail, hInner⟩
      rw [hInner]
      apply hMirrors.setFrames
      exact
        .cons ⟨hHead.pending, hHead.locks, rfl⟩ hTail

theorem Mirrors.abandon
    (hMirrors : Mirrors holds part t s u) :
    Mirrors holds part t (s.abandon t) (u.abandon 0) :=
  hMirrors.release.setFrames .nil

/- The innermost frame is dropped. -/
theorem Mirrors.rollback
    [DecidableEq κ]
    (hMirrors : Mirrors holds part t s u) :
    Mirrors holds part t (s.rollback t) (u.rollback 0) := by
  unfold Store.rollback
  cases hOuter : s.frames t with
  | nil =>
      rw [hMirrors.frames_nil hOuter]
      exact hMirrors
  | cons fr outer =>
      rcases hMirrors.frames_cons hOuter with
        ⟨gr, outer', hHead, hTail, hInner⟩
      rw [hInner]
      cases hTail with
      | nil => exact hMirrors.release.setFrames .nil
      | cons hNext hRest =>
          simp only [hHead.locks]
          exact
            hMirrors.release.setFrames
              (.cons hNext hRest)

/- A write, on whatever data it is published. -/
theorem Mirrors.write
    (hMirrors : Mirrors holds part t s u)
    (hHolds : holds s.committed)
    (hCalm : Calm (Sustains holds keep) (s.frames t))
    (hWrite : ∀ d, holds d → part (f d) = g (part d)) :
    Mirrors holds part t (s.write t f) (u.write 0 g) := by
  unfold Store.write
  cases hOuter : s.frames t with
  | nil =>
      rw [hMirrors.frames_nil hOuter]
      refine ⟨?_, ?_, hMirrors.locks, hMirrors.sole⟩
      · change g u.committed = part (f s.committed)
        rw [hMirrors.committed, hWrite _ hHolds]
      · exact hMirrors.frames
  | cons fr outer =>
      rw [hOuter] at hCalm
      rcases hMirrors.frames_cons hOuter with
        ⟨gr, outer', hHead, hTail, hInner⟩
      rw [hInner]
      apply hMirrors.setFrames
      refine .cons ⟨?_, hHead.locks, hHead.broken⟩ hTail
      intro d hData
      have hAfter := (hCalm.head d hData).1
      change
        part (f (fr.pending d)) = g (gr.pending (part d))
      rw [hWrite _ hAfter, hHead.pending d hData]

/- A lock that is free for the one is free for the other. -/
theorem Mirrors.available
    {k : κ}
    (hMirrors : Mirrors holds part t s u) :
    u.Available 0 k := by
  cases hLock : u.locks k with
  | none => exact Or.inl hLock
  | some t' =>
      have hZero := hMirrors.sole k t' hLock
      rw [hZero] at hLock
      exact Or.inr hLock

/- A lock is taken, unless it is held already. -/
theorem Mirrors.acquire
    [DecidableEq κ]
    {k : κ}
    (hMirrors : Mirrors holds part t s u) :
    Mirrors holds part t (s.acquire t k)
      (u.acquire 0 k) := by
  unfold Store.acquire
  cases hOuter : s.frames t with
  | nil =>
      rw [hMirrors.frames_nil hOuter]
      exact hMirrors
  | cons fr outer =>
      rcases hMirrors.frames_cons hOuter with
        ⟨gr, outer', hHead, hTail, hInner⟩
      rw [hInner]
      by_cases hOwn : s.locks k = some t
      · simp only [if_pos hOwn,
          if_pos ((hMirrors.locks k).mpr hOwn)]
        exact hMirrors
      · have hNot : u.locks k ≠ some 0 :=
          fun hLock => hOwn ((hMirrors.locks k).mp hLock)
        simp only [if_neg hOwn, if_neg hNot]
        have hSet :=
          hMirrors.setFrames
            (.cons
              (⟨hHead.pending,
                congrArg (k :: ·) hHead.locks,
                hHead.broken⟩ :
                SameFrame holds part
                  { fr with locks := k :: fr.locks }
                  { gr with locks := k :: gr.locks })
              hTail)
        refine ⟨hSet.committed, hSet.frames, ?_, ?_⟩
        · intro k'
          by_cases hSame : k' = k
          · subst hSame
            simp
          · simp only [Function.update_of_ne hSame]
            exact hMirrors.locks k'
        · intro k' t' hLock
          by_cases hSame : k' = k
          · subst hSame
            simpa using hLock.symm
          · simp only [Function.update_of_ne hSame] at hLock
            exact hMirrors.sole k' t' hLock

/-
  The innermost frame is published, or becomes a part of the
  next one.
-/
theorem Mirrors.commit
    [DecidableEq κ]
    {aborted : ε}
    {r : Except ε Unit}
    {s' : Store δ κ}
    (hMirrors : Mirrors holds part t s u)
    (hHolds : holds s.committed)
    (hCalm : Calm (Sustains holds keep) (s.frames t))
    (hCommit : s.commit aborted t = (r, s')) :
    ∃ u', u.commit aborted 0 = (r, u') ∧
      Mirrors holds part t s' u' := by
  unfold Store.commit at hCommit ⊢
  cases hOuter : s.frames t with
  | nil =>
      rw [hOuter] at hCommit
      rw [hMirrors.frames_nil hOuter]
      cases hCommit
      exact ⟨u, rfl, hMirrors⟩
  | cons fr outer =>
      rw [hOuter] at hCommit hCalm
      rcases hMirrors.frames_cons hOuter with
        ⟨gr, outer', hHead, hTail, hInner⟩
      rw [hInner]
      cases hTail with
      | nil =>
          dsimp only at hCommit ⊢
          rw [hHead.broken]
          split at hCommit
          · rename_i hBroken
            cases hCommit
            rw [if_pos hBroken]
            exact ⟨_, rfl, hMirrors.rollback⟩
          · rename_i hIntact
            cases hCommit
            rw [if_neg hIntact]
            refine ⟨_, rfl, ?_⟩
            have hReleased :
                Mirrors holds part t
                  (s.release t (fun _ => true))
                  (u.release 0 (fun _ => true)) :=
              hMirrors.release
            have hClosed := hReleased.setFrames .nil
            refine
              ⟨?_, hClosed.frames, hClosed.locks,
                hClosed.sole⟩
            change gr.pending u.committed = _
            rw [hMirrors.committed,
              ← hHead.pending _ hHolds]
            rfl
      | @cons next next' rest rest' hNext hRest =>
          dsimp only at hCommit ⊢
          rw [hHead.broken]
          split at hCommit
          · rename_i hBroken
            cases hCommit
            rw [if_pos hBroken]
            exact ⟨_, rfl, hMirrors.rollback⟩
          · rename_i hIntact
            cases hCommit
            rw [if_neg hIntact]
            refine ⟨_, rfl, ?_⟩
            apply hMirrors.setFrames
            refine .cons ⟨?_, ?_, hNext.broken⟩ hRest
            · intro d hData
              have hAfter := (hCalm.tail.head d hData).1
              change
                part (fr.pending (next.pending d)) =
                  gr.pending (next'.pending (part d))
              rw [hHead.pending _ hAfter,
                hNext.pending d hData]
            · change gr.locks ++ _ = fr.locks ++ _
              rw [hHead.locks, hNext.locks]

------------------------------------------------------------
-- Steps
------------------------------------------------------------

section Steps

variable [DecidableEq κ]
variable {B : Backend δ κ Q A ρ ε} {allowed : Q → Prop}
variable {s' : Store δ κ}

/- A statement that goes through, if it has to, as a fault. -/
theorem Mirrors.answer
    {q : Q}
    {r : Except ε (A q)}
    (hMirrors : Mirrors holds part t s u)
    (hLocal : B.Localizes holds part allowed)
    (hAllowed : allowed q)
    (hHolds : holds s.committed)
    (hCalm : Calm (Sustains holds keep) (s.frames t))
    (hAnswer : B.answer t q s = some (r, s')) :
    ∃ c u',
      B.machine.exec 0 (.query q) c u = some (r, u') ∧
        Mirrors holds part t s' u' := by
  have hView := hMirrors.view hHolds hCalm
  have hData : holds (s.view t) :=
    holds_of_frames hCalm hHolds
  have hProceed :
      ∀ out, B.answer 0 q u = some out →
        B.machine.exec 0 (.query q) .proceed u =
          some out :=
    fun _ hOut => hOut
  unfold Backend.answer at hAnswer
  split at hAnswer
  · rename_i hBroken
    cases hAnswer
    refine ⟨.proceed, u, hProceed _ ?_, hMirrors⟩
    rw [Backend.answer, hMirrors.broken, if_pos hBroken]
  · rename_i hIntact
    rw [← hMirrors.broken] at hIntact
    split at hAnswer
    · rename_i e hPlan
      cases hAnswer
      exact ⟨.fault e, _, rfl, hMirrors.fail⟩
    · rename_i e hPlan
      cases hAnswer
      have hSame := hLocal.miss q _ e hAllowed hData hPlan
      refine ⟨.proceed, u, hProceed _ ?_, hMirrors⟩
      simp only [Backend.answer, if_neg hIntact, hView,
        hSame]
    · rename_i a f hPlan
      cases hAnswer
      rcases
        hLocal.done q _ a none f hAllowed hData hPlan with
        ⟨g, hSame, hCommute⟩
      refine
        ⟨.proceed, u.write 0 g, hProceed _ ?_,
          hMirrors.write hHolds hCalm hCommute⟩
      simp only [Backend.answer, if_neg hIntact, hView,
        hSame]
    · rename_i a k f hPlan
      split at hAnswer
      · rename_i hFree
        cases hAnswer
        rcases
          hLocal.done q _ a (some k) f hAllowed hData
            hPlan with
          ⟨g, hSame, hCommute⟩
        have hAcquire := Store.private_acquire hFree
        refine
          ⟨.proceed, (u.acquire 0 k).write 0 g,
            hProceed _ ?_,
            hMirrors.acquire.write ?_ (calm_acquire hCalm)
              hCommute⟩
        · simp only [Backend.answer, if_neg hIntact, hView,
            hSame, if_pos hMirrors.available]
        · rw [hAcquire.committed]
          exact hHolds
      · cases hAnswer
    · cases hAnswer

/- An operation of the connection. -/
theorem mirrors_of_exec
    {o : TxOp Q}
    {c : Choice ε ρ}
    {r : Except ε (TxOp.Res A o)}
    (hLocal : B.Localizes holds part allowed)
    (hAllowed : ∀ q, o = .query q → allowed q)
    (hMirrors : Mirrors holds part t s u)
    (hHolds : holds s.committed)
    (hCalm : Calm (Sustains holds keep) (s.frames t))
    (hExec : B.machine.exec t o c s = some (r, s')) :
    ∃ c' u',
      B.machine.exec 0 o c' u = some (r, u') ∧
        Mirrors holds part t s' u' := by
  cases o with
  | begin =>
      cases c with
      | reply x => cases hExec
      | fault e =>
          cases hExec
          exact ⟨.fault e, u, rfl, hMirrors⟩
      | proceed =>
          cases hExec
          exact ⟨.proceed, _, rfl, hMirrors.begin⟩
  | rollback =>
      cases c with
      | reply x => cases hExec
      | fault e =>
          cases hExec
          exact ⟨.fault e, _, rfl, hMirrors.rollback⟩
      | proceed =>
          cases hExec
          exact ⟨.proceed, _, rfl, hMirrors.rollback⟩
  | commit =>
      cases c with
      | reply x => cases hExec
      | fault e =>
          cases hExec
          exact ⟨.fault e, _, rfl, hMirrors.rollback⟩
      | proceed =>
          rcases
            hMirrors.commit hHolds hCalm
              (Option.some.inj hExec) with
            ⟨u', hCommit, hAfter⟩
          exact ⟨.proceed, u', congrArg some hCommit, hAfter⟩
  | query q =>
      have hQuery := hAllowed q rfl
      cases c with
      | fault e =>
          cases hExec
          exact ⟨.fault e, _, rfl, hMirrors.fail⟩
      | proceed =>
          exact
            hMirrors.answer hLocal hQuery hHolds hCalm hExec
      | reply x =>
          simp only [Backend.machine] at hExec
          split at hExec
          · rename_i a d hReply
            cases hExec
            have hSame :=
              hLocal.reply q x _ a d hQuery hHolds hReply
            rw [← hMirrors.committed] at hSame
            refine
              ⟨.reply x, { u with committed := part d }, ?_,
                rfl, hMirrors.frames, hMirrors.locks,
                hMirrors.sole⟩
            simp only [Backend.machine, hSame]
          · cases hExec

/-
  The connection changes nothing of the others, but for what
  it commits.
-/
def PrivateBut
    (t : Tid)
    (s s' : Store δ κ) : Prop :=
  ∃ s₁, Store.Private t s s₁ ∧
    s' = { s₁ with committed := s'.committed }

omit [DecidableEq κ] in
theorem privateBut_of_private
    (hPrivate : Store.Private t s s') : PrivateBut t s s' :=
  ⟨s', hPrivate, rfl⟩

omit [DecidableEq κ] in
theorem privateBut_write
    {s₁ : Store δ κ}
    (hPrivate : Store.Private t s s₁) :
    PrivateBut t s (s₁.write t f) := by
  by_cases hAuto : s₁.frames t = []
  · refine ⟨s₁, hPrivate, ?_⟩
    simp [Store.write, hAuto]
  · exact
      privateBut_of_private
        (hPrivate.trans (Store.private_write hAuto))

theorem privateBut_of_answered
    {q : Q}
    {c : Choice ε ρ}
    {r : Except ε (A q)}
    (hAnswered : B.Answered t q s c r s') :
    PrivateBut t s s' := by
  cases hAnswered with
  | fault e => exact privateBut_of_private Store.private_fail
  | refuse e hPlan =>
      exact privateBut_of_private Store.private_fail
  | aborted hBroken =>
      exact privateBut_of_private Store.Private.refl
  | miss e hPlan =>
      exact privateBut_of_private Store.Private.refl
  | reply x a d hReply =>
      exact ⟨s, Store.Private.refl, rfl⟩
  | done a f hPlan => exact privateBut_write Store.Private.refl
  | locked a k f hPlan hFree =>
      exact privateBut_write (Store.private_acquire hFree)

theorem privateBut_of_commit
    {aborted : ε}
    {r : Except ε Unit}
    (hCommit : s.commit aborted t = (r, s')) :
    PrivateBut t s s' := by
  unfold Store.commit at hCommit
  split at hCommit
  · cases hCommit
    exact privateBut_of_private Store.Private.refl
  · split at hCommit
    · cases hCommit
      exact privateBut_of_private Store.private_rollback
    · cases hCommit
      exact ⟨_, Store.private_abandon, rfl⟩
  · split at hCommit
    · cases hCommit
      exact privateBut_of_private Store.private_rollback
    · cases hCommit
      exact
        privateBut_of_private (Store.private_setFrames _)

theorem privateBut_of_exec
    {o : TxOp Q}
    {c : Choice ε ρ}
    {r : Except ε (TxOp.Res A o)}
    (hExec : B.machine.exec t o c s = some (r, s')) :
    PrivateBut t s s' := by
  cases o with
  | begin =>
      cases c with
      | reply x => cases hExec
      | fault e =>
          cases hExec
          exact privateBut_of_private Store.Private.refl
      | proceed =>
          cases hExec
          exact privateBut_of_private Store.private_begin
  | rollback =>
      cases c with
      | reply x => cases hExec
      | fault e =>
          cases hExec
          exact privateBut_of_private Store.private_rollback
      | proceed =>
          cases hExec
          exact privateBut_of_private Store.private_rollback
  | commit =>
      cases c with
      | reply x => cases hExec
      | fault e =>
          cases hExec
          exact privateBut_of_private Store.private_rollback
      | proceed =>
          exact privateBut_of_commit (Option.some.inj hExec)
  | query q =>
      have hAnswered := Backend.answered_of_exec hExec
      exact privateBut_of_answered hAnswered

omit [DecidableEq κ] in
/- A step of another connection that spares the part. -/
theorem Mirrors.other
    {t' : Tid}
    (hMirrors : Mirrors holds part t s u)
    (hOther : PrivateBut t' s s')
    (hNe : t ≠ t')
    (hPart : part s'.committed = part s.committed) :
    Mirrors holds part t s' u := by
  rcases hOther with ⟨s₁, hPrivate, hSame⟩
  refine ⟨?_, ?_, ?_, hMirrors.sole⟩
  · rw [hPart, hMirrors.committed]
  · rw [hSame]
    change List.Forall₂ _ (s₁.frames t) _
    rw [hPrivate.frames t hNe]
    exact hMirrors.frames
  · intro k
    rw [hSame]
    change _ ↔ s₁.locks k = some t
    rw [hPrivate.locks k t hNe]
    exact hMirrors.locks k

end Steps

------------------------------------------------------------
-- Runs
------------------------------------------------------------

/-
  Whatever a system of connections on separate parts comes
  to, a run of one of them on its part comes to the same for
  that connection and for the part.
-/
theorem Backend.alone_of_reaches
    [DecidableEq κ]
    {B : Backend δ κ Q A ρ ε}
    {keep : Tid → δ → δ → Prop}
    {steady : Tid → Q → Prop}
    {trusted : (q : Q) → A q → Prop}
    {ok :
      World (Store δ κ) (TxOp Q) (TxOp.Res A) ε α →
        Event (Choice ε ρ) → Prop}
    {w w' : World (Store δ κ) (TxOp Q) (TxOp.Res A) ε α}
    {p : Prog (TxOp Q) (TxOp.Res A) ε α}
    {d : δ}
    (hKeeps :
      B.Keeps holds keep steady (fun _ _ => False) trusted)
    (hLocal : B.Localizes holds part (steady t))
    (hSpare :
      ∀ t' d d', t' ≠ t → keep t' d d' → part d' = part d)
    (hHeeding :
      Heeding holds keep steady (fun _ _ => False) trusted w)
    (hQuiet : w.shared = Store.quiet d)
    (hThread : w.threads t = .live p)
    (hReach : B.machine.Reaches ok w w') :
    ∃ v,
      B.machine.Reaches Machine.anyEvent
          (B.soleWorld p (part d)) v ∧
        v.threads 0 = w'.threads t ∧
        v.shared.committed = part w'.shared.committed := by
  suffices hMirror :
      ∃ v,
        B.machine.Reaches Machine.anyEvent
            (B.soleWorld p (part d)) v ∧
          v.threads 0 = w'.threads t ∧
          Mirrors holds part t w'.shared v.shared by
    rcases hMirror with ⟨v, hRun, hSame, hMirrors⟩
    exact ⟨v, hRun, hSame, hMirrors.committed⟩
  induction hReach with
  | refl =>
      refine ⟨_, .refl, ?_, ?_⟩
      · rw [hThread]
        rfl
      · rw [hQuiet]
        exact mirrors_quiet d
  | @tail w₁ w₂ hBefore hStep ih =>
      rcases ih with ⟨v, hRun, hSame, hMirrors⟩
      rcases hStep with ⟨e, _, hNext⟩
      have hHere :=
        Backend.heeding_of_reaches hKeeps hHeeding hBefore
      have hKeep :=
        (Backend.heeding_of_next hKeeps hHere hNext).2
      cases e with
      | step t' c =>
          rcases Machine.next_step_inv hNext with
            ⟨o, k, r, s, hCall, hExec, rfl⟩
          by_cases hOwn : t' = t
          · subst hOwn
            have hAllowed :
                ∀ q, o = .query q → steady t' q := by
              rintro q rfl
              have hAt := (hHere.threads t' _ hCall).2.1
              exact hAt.resolve_right (fun hNo => hNo.2)
            rcases
              mirrors_of_exec hLocal hAllowed hMirrors
                hHere.committed (hHere.calm t') hExec with
              ⟨c', u', hExec', hAfter⟩
            have hAlone :
                B.machine.next v (.step 0 c') =
                  some (v.put u' 0 (.live (k r))) := by
              simp only [Machine.next, hSame, hCall, hExec']
            refine
              ⟨v.put u' 0 (.live (k r)),
                hRun.tail trivial hAlone, ?_, hAfter⟩
            rw [World.put_threads_self,
              World.put_threads_self]
          · have hNe : t ≠ t' := Ne.symm hOwn
            refine ⟨v, hRun, ?_, ?_⟩
            · rw [World.put_threads_of_ne _ _ _ hNe]
              exact hSame
            · exact
                hMirrors.other (privateBut_of_exec hExec)
                  hNe (hSpare t' _ _ hOwn hKeep)
      | lose t' =>
          rcases Machine.next_lose_inv hNext with
            ⟨o, k, hCall, rfl⟩
          by_cases hOwn : t' = t
          · subst hOwn
            have hAlone :
                B.machine.next v (.lose 0) =
                  some
                    (v.put (v.shared.abandon 0) 0 .lost) := by
              simp only [Machine.next, hSame, hCall]
              rfl
            refine
              ⟨v.put (v.shared.abandon 0) 0 .lost,
                hRun.tail trivial hAlone, ?_,
                hMirrors.abandon⟩
            rw [World.put_threads_self,
              World.put_threads_self]
          · have hNe : t ≠ t' := Ne.symm hOwn
            refine ⟨v, hRun, ?_, ?_⟩
            · rw [World.put_threads_of_ne _ _ _ hNe]
              exact hSame
            · exact
                hMirrors.other
                  (privateBut_of_private Store.private_abandon)
                  hNe rfl

end Relational
