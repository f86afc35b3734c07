import SiteAnalysis.Relational.Calm

/-
  This file defines the proof rules for programs that run in
  an open transaction and leave it open.

  Such a program may open savepoints and has to close them.
  What it writes stays pending, so nobody else notices a step
  of it, and it need not care whether its frame is broken.

  Key definitions include:
    * `Nests`
    * `Regime.Stacked`
    * `Regime.Nested`

  Key theorems include:
    * `Nests.handle`
    * `nests_atomic`
    * `Regime.wp_nests`
-/

------------------------------------------------------------
-- Nested Programs
------------------------------------------------------------

namespace Relational

open Concurrency

section Programs

variable {Q₀ : Type} {A : Q₀ → Type} {ε β γ : Type}
variable {allowed : Q₀ → Prop}
variable {trusted : (q : Q₀) → A q → Prop}

/-
  Every query of the program is allowed, and the program goes
  from `n` open frames to `m` and never closes the last one,
  as long as the results of its queries are to be `trusted`.
  What it returns then satisfies `post`.
-/
def Nests
    (allowed : Q₀ → Prop)
    (trusted : (q : Q₀) → A q → Prop)
    (post : β → Prop)
    (m : Nat) :
    Prog (TxOp Q₀) (TxOp.Res A) ε β → Nat → Prop
| .ret b, n => n = m ∧ post b
| .raise _, n => n = m
| .call (.query q) k, n =>
    allowed q ∧
      ∀ r : Except ε (A q), (∀ a, r = .ok a → trusted q a) →
        Nests allowed trusted post m (k r) n
| .call .begin k, n =>
    (∀ e, Nests allowed trusted post m (k (.error e)) n) ∧
      Nests allowed trusted post m (k (.ok ())) (n + 1)
| .call .commit k, n =>
    2 ≤ n ∧
      ∀ r, Nests allowed trusted post m (k r) (n - 1)
| .call .rollback k, n =>
    2 ≤ n ∧
      ∀ r, Nests allowed trusted post m (k r) (n - 1)

theorem Nests.handle
    {post : β → Prop}
    {post' : γ → Prop}
    {m m' n : Nat}
    {p : Prog (TxOp Q₀) (TxOp.Res A) ε β}
    {f : β → Prog (TxOp Q₀) (TxOp.Res A) ε γ}
    {h : ε → Prog (TxOp Q₀) (TxOp.Res A) ε γ}
    (hProg : Nests allowed trusted post m p n)
    (hRet :
      ∀ b, post b → Nests allowed trusted post' m' (f b) m)
    (hRaise :
      ∀ e, Nests allowed trusted post' m' (h e) m) :
    Nests allowed trusted post' m' (p.handle f h) n := by
  induction p generalizing n with
  | ret b =>
      rw [hProg.1]
      exact hRet b hProg.2
  | raise e =>
      rw [hProg]
      exact hRaise e
  | call o k ih =>
      cases o with
      | query q =>
          refine ⟨hProg.1, ?_⟩
          intro r hTrusted
          exact ih r (hProg.2 r hTrusted)
      | begin =>
          exact
            ⟨fun e => ih _ (hProg.1 e), ih _ hProg.2⟩
      | commit =>
          exact ⟨hProg.1, fun r => ih r (hProg.2 r)⟩
      | rollback =>
          exact ⟨hProg.1, fun r => ih r (hProg.2 r)⟩

theorem Nests.bind
    {post : β → Prop}
    {post' : γ → Prop}
    {m n : Nat}
    {p : Prog (TxOp Q₀) (TxOp.Res A) ε β}
    {f : β → Prog (TxOp Q₀) (TxOp.Res A) ε γ}
    (hProg : Nests allowed trusted post m p n)
    (hRet :
      ∀ b, post b → Nests allowed trusted post' m (f b) m) :
    Nests allowed trusted post' m (p.bind f) n :=
  hProg.handle hRet (fun _ => rfl)

theorem nests_execute
    {q : Q₀}
    {n : Nat}
    (hAllowed : allowed q) :
    Nests allowed trusted (trusted q) n
      (execute q : Prog (TxOp Q₀) (TxOp.Res A) ε (A q))
      n := by
  refine ⟨hAllowed, ?_⟩
  intro r hTrusted
  cases r with
  | ok a => exact ⟨rfl, hTrusted a rfl⟩
  | error e => rfl

/- A savepoint is closed in any case. -/
theorem nests_atomic
    {post : β → Prop}
    {n : Nat}
    {body : Prog (TxOp Q₀) (TxOp.Res A) ε β}
    (hOpen : 1 ≤ n)
    (hBody :
      Nests allowed trusted post (n + 1) body (n + 1)) :
    Nests allowed trusted post n (atomic body) n := by
  refine ⟨fun e => rfl, ?_⟩
  apply hBody.handle
  · intro b hPost
    refine ⟨by omega, ?_⟩
    intro r
    cases r with
    | ok u => exact ⟨rfl, hPost⟩
    | error e => rfl
  · intro e
    exact ⟨by omega, fun r => rfl⟩

end Programs

------------------------------------------------------------
-- Rules
------------------------------------------------------------

namespace Regime

variable {δ κ φ Ω N Q₀ : Type} {A : Q₀ → Type}
variable {ρ ε α β : Type} {B : Backend δ κ Q₀ A ρ ε}
variable {R : Regime B α φ Ω N} {keep : δ → δ → Prop}
variable {l : Local δ κ φ Ω N} {o : Ω} {n : N} {t : Tid}
variable {ns : Tid → N} {live : Tid → Prop}

/- So many frames are open, and what is pending keeps it. -/
structure Stacked
    (keep : δ → δ → Prop)
    (m : Nat)
    (o : Ω)
    (n : N)
    (l : Local δ κ φ Ω N) : Prop where
  length : l.session.frames.length = m
  calm : Calm keep l.session.frames
  own : l.own = o
  note : l.note = n

/-
  In a transaction of which `n` is noted the allowed queries
  keep the relation, their results are to be trusted, and
  nothing is noted of them.
-/
structure Nested
    (R : Regime B α φ Ω N)
    (keep : δ → δ → Prop)
    (t : Tid)
    (n : N)
    (allowed : Q₀ → Prop)
    (trusted : (q : Q₀) → A q → Prop) : Prop where
  refl : ∀ d, keep d d
  trans : ∀ d d' d'', keep d d' → keep d' d'' → keep d d''
  shape :
    ∀ l : Local δ κ φ Ω N, ∀ o, l.note = n →
      (∀ q, o = .query q → allowed q) → R.shape l (some o)
  plan :
    ∀ q, allowed q →
      ∀ d a lock f, B.plan q d = .done a lock f →
        trusted q a ∧ ∀ d', keep d' (f d')
  reply : ∀ q, allowed q → ∀ x d, B.reply q x d = none
  note :
    ∀ q, allowed q → ∀ a d, R.note t q a d n = n
  noteError : ∀ q, allowed q → R.noteError q n = n

variable {s s' : Store δ κ}

/- The number of frames after a step. -/
theorem length_fail :
    ((s.fail t).frames t).length =
      (s.frames t).length := by
  unfold Store.fail
  split
  · rfl
  · rename_i fr outer hFrames
    simp [Store.setFrames, hFrames]

theorem length_write
    {f : δ → δ} :
    ((s.write t f).frames t).length =
      (s.frames t).length := by
  unfold Store.write
  split
  · rfl
  · rename_i fr outer hFrames
    simp [Store.setFrames, hFrames]

variable [DecidableEq κ]

theorem length_acquire
    {k : κ} :
    ((s.acquire t k).frames t).length =
      (s.frames t).length := by
  unfold Store.acquire
  split
  · rfl
  · rename_i fr outer hFrames
    split
    · rfl
    · simp [Store.setFrames, hFrames]

theorem length_rollback :
    ((s.rollback t).frames t).length =
      (s.frames t).length - 1 := by
  unfold Store.rollback
  split
  · rename_i hFrames
    simp [hFrames]
  · rename_i fr hFrames
    simp [Store.setFrames, hFrames]
  · rename_i fr outer hSame hFrames
    simp [Store.setFrames, hFrames]

/- A query in an open transaction changes its frames only. -/
theorem private_answered
    {q : Q₀}
    {c : Choice ε ρ}
    {r : Except ε (A q)}
    (hOpen : s.frames t ≠ [])
    (hReply : ∀ x d, B.reply q x d = none)
    (hAnswered : B.Answered t q s c r s') :
    Store.Private t s s' ∧
      (s'.frames t).length = (s.frames t).length := by
  cases hAnswered with
  | fault e => exact ⟨Store.private_fail, length_fail⟩
  | refuse e hPlan => exact ⟨Store.private_fail, length_fail⟩
  | aborted hBroken => exact ⟨Store.Private.refl, rfl⟩
  | miss e hPlan => exact ⟨Store.Private.refl, rfl⟩
  | reply x a d hAnswer =>
      rw [hReply] at hAnswer
      cases hAnswer
  | done a f hPlan =>
      exact ⟨Store.private_write hOpen, length_write⟩
  | locked a k f hPlan hFree =>
      have hSame := length_acquire (s := s) (t := t) (k := k)
      have hOpen' : (s.acquire t k).frames t ≠ [] := by
        intro hNil
        rw [hNil] at hSame
        exact hOpen (List.length_eq_zero_iff.mp hSame.symm)
      exact
        ⟨(Store.private_acquire hFree).trans
            (Store.private_write hOpen'),
          length_write.trans hSame⟩

/- The frames of such a query stay calm. -/
theorem calm_answered
    {q : Q₀}
    {c : Choice ε ρ}
    {r : Except ε (A q)}
    (hTrans :
      ∀ d d' d'', keep d d' → keep d' d'' → keep d d'')
    (hPlan :
      ∀ d a lock f, B.plan q d = .done a lock f →
        ∀ d', keep d' (f d'))
    (hCalm : Calm keep (s.frames t))
    (hAnswered : B.Answered t q s c r s') :
    Calm keep (s'.frames t) := by
  cases hAnswered with
  | fault e => exact calm_fail hCalm
  | refuse e _ => exact calm_fail hCalm
  | aborted hBroken => exact hCalm
  | miss e _ => exact hCalm
  | reply x a d _ => exact hCalm
  | done a f hDone =>
      exact calm_write hTrans (hPlan _ _ _ _ hDone) hCalm
  | locked a k f hDone hFree =>
      exact
        calm_write hTrans (hPlan _ _ _ _ hDone)
          (calm_acquire hCalm)

/- The end of a savepoint changes the frames only. -/
theorem private_commit
    {e : ε}
    {r : Except ε Unit}
    (hTrans :
      ∀ d d' d'', keep d d' → keep d' d'' → keep d d'')
    (hNested : 2 ≤ (s.frames t).length)
    (hCalm : Calm keep (s.frames t))
    (hCommit : s.commit e t = (r, s')) :
    Store.Private t s s' ∧
      (s'.frames t).length = (s.frames t).length - 1 ∧
        Calm keep (s'.frames t) := by
  have hDrop :
      Store.Private t s (s.rollback t) ∧
        ((s.rollback t).frames t).length =
            (s.frames t).length - 1 ∧
          Calm keep ((s.rollback t).frames t) :=
    ⟨Store.private_rollback, length_rollback,
      calm_rollback hCalm⟩
  unfold Store.commit at hCommit
  split at hCommit
  · rename_i hFrames
    rw [hFrames] at hNested
    simp at hNested
  · rename_i fr hFrames
    rw [hFrames] at hNested
    simp at hNested
  · rename_i fr outer rest hFrames
    split at hCommit
    · cases hCommit
      exact hDrop
    · cases hCommit
      rw [hFrames] at hCalm
      refine ⟨Store.private_setFrames _, ?_, ?_⟩
      · simp [Store.setFrames, hFrames]
      · simp only [Store.setFrames, Function.update_self]
        exact calm_absorb hTrans hCalm

/- The result of such a query is to be trusted. -/
theorem trusted_of_answered
    {q : Q₀}
    {c : Choice ε ρ}
    {trusted : (q : Q₀) → A q → Prop}
    {a : A q}
    (hReply : ∀ x d, B.reply q x d = none)
    (hPlan :
      ∀ d a lock f, B.plan q d = .done a lock f →
        trusted q a)
    (hAnswered : B.Answered t q s c (.ok a) s') :
    trusted q a := by
  cases hAnswered with
  | reply x _ d hAnswer =>
      rw [hReply] at hAnswer
      cases hAnswer
  | done _ f hDone => exact hPlan _ _ _ _ hDone
  | locked _ k f hDone hFree => exact hPlan _ _ _ _ hDone

omit [DecidableEq κ] in
/- What a step that others do not notice leaves. -/
theorem stacked_of_private
    {m : Nat}
    (hFits : R.Fits t l s.committed ns live)
    (hStacked : Stacked keep m o n l)
    (hPrivate : Store.Private t s s')
    (hCalm : Calm keep (s'.frames t)) :
    R.Kept t ns live n s s' ∧
      Stacked keep (s'.frames t).length o n
        (R.after t n s s' l) := by
  have hNote : ns t = n := hFits.note.trans hStacked.note
  refine
    ⟨kept_of_private (inv_same hFits.inv hNote) hPrivate, ?_⟩
  rw [after_private hPrivate hFits.own]
  exact ⟨rfl, hCalm, hStacked.own, rfl⟩

/- A nested program leaves its frames, and its note. -/
theorem wp_nests
    {m k : Nat}
    {allowed : Q₀ → Prop}
    {trusted : (q : Q₀) → A q → Prop}
    {post : β → Prop}
    {p : Prog (TxOp Q₀) (TxOp.Res A) ε β}
    (hNested : R.Nested keep t n allowed trusted)
    (hNests : Nests allowed trusted post m p k)
    (hOpen : 1 ≤ k)
    (hStacked : Stacked keep k o n l) :
    R.wp t p (fun b l' => post b ∧ Stacked keep m o n l')
      (fun _ => Stacked keep m o n) l := by
  induction p generalizing l k with
  | ret b =>
      refine ⟨hNests.2, ?_⟩
      rw [← hNests.1]
      exact hStacked
  | raise e =>
      rw [← hNests]
      exact hStacked
  | call x rest ih =>
      have hAllowed : ∀ q, x = .query q → allowed q := by
        rintro q rfl
        exact hNests.1
      apply wp_call (hNested.shape l x hStacked.note hAllowed)
      intro s ns live c r s' hFits hSession _ hExec
      have hFrames : s.frames t = l.session.frames := by
        rw [← hSession]
        rfl
      have hLength : (s.frames t).length = k := by
        rw [hFrames]
        exact hStacked.length
      have hCalm : Calm keep (s.frames t) := by
        rw [hFrames]
        exact hStacked.calm
      rw [hStacked.note]
      cases x with
      | query q =>
          have hOpen' : s.frames t ≠ [] := by
            intro hNil
            rw [hNil] at hLength
            simp at hLength
            omega
          have hAnswered := Backend.answered_of_exec hExec
          have hReply := hNested.reply q hNests.1
          have hPrivate :=
            private_answered hOpen' hReply hAnswered
          have hPlan := hNested.plan q hNests.1
          have hAfter :=
            stacked_of_private hFits hStacked hPrivate.1
              (calm_answered hNested.trans
                (fun d a lock f hDone =>
                  (hPlan d a lock f hDone).2)
                hCalm hAnswered)
          have hTrusted : ∀ a, r = .ok a → trusted q a := by
            rintro a rfl
            exact
              trusted_of_answered hReply
                (fun d a lock f hDone =>
                  (hPlan d a lock f hDone).1)
                hAnswered
          rw [hPrivate.2, hLength] at hAfter
          have hNote :
              R.noteQuery t q s'.committed n r = n := by
            cases r with
            | ok a => exact hNested.note q hNests.1 a _
            | error e => exact hNested.noteError q hNests.1
          change
            R.Kept t ns live
                (R.noteQuery t q s'.committed n r) s s' ∧
              R.wp t (rest r) _ _
                (R.after t
                  (R.noteQuery t q s'.committed n r) s s' l)
          rw [hNote]
          exact
            ⟨hAfter.1,
              ih r (hNests.2 r hTrusted) hOpen hAfter.2⟩
      | begin =>
          cases c with
          | reply x => cases hExec
          | fault e =>
              cases hExec
              have hAfter :=
                stacked_of_private hFits hStacked
                  Store.Private.refl hCalm
              rw [hLength] at hAfter
              exact
                ⟨hAfter.1,
                  ih _ (hNests.1 e) hOpen hAfter.2⟩
          | proceed =>
              cases hExec
              have hAfter :=
                stacked_of_private hFits hStacked
                  Store.private_begin
                  (calm_begin hNested.refl hCalm)
              have hMore :
                  ((s.begin t).frames t).length = k + 1 := by
                simp [Store.begin, Store.setFrames, hLength]
              rw [hMore] at hAfter
              exact
                ⟨hAfter.1,
                  ih _ hNests.2 (by omega) hAfter.2⟩
      | commit =>
          have hDeep : 2 ≤ (s.frames t).length := by
            rw [hLength]
            exact hNests.1
          have hStep :
              Store.Private t s s' ∧
                (s'.frames t).length =
                    (s.frames t).length - 1 ∧
                  Calm keep (s'.frames t) := by
            cases c with
            | reply x => cases hExec
            | fault e =>
                cases hExec
                exact
                  ⟨Store.private_rollback, length_rollback,
                    calm_rollback hCalm⟩
            | proceed =>
                exact
                  private_commit hNested.trans hDeep hCalm
                    (Option.some.inj hExec)
          have hAfter :=
            stacked_of_private hFits hStacked hStep.1
              hStep.2.2
          rw [hStep.2.1, hLength] at hAfter
          have hNote :
              R.noteCommitted t s s'.committed n r = n := by
            cases r with
            | error e => rfl
            | ok u =>
                have hNot : (s.frames t).length ≠ 1 := by
                  omega
                simp [noteCommitted, hNot]
          change
            R.Kept t ns live
                (R.noteCommitted t s s'.committed n r) s s' ∧
              R.wp t (rest r) _ _
                (R.after t
                  (R.noteCommitted t s s'.committed n r) s
                  s' l)
          rw [hNote]
          have hDeep' := hNests.1
          exact
            ⟨hAfter.1,
              ih r (hNests.2 r) (by omega) hAfter.2⟩
      | rollback =>
          have hDrop :
              s' = s.rollback t := by
            cases c with
            | reply x => cases hExec
            | fault e =>
                cases hExec
                rfl
            | proceed =>
                cases hExec
                rfl
          subst hDrop
          have hAfter :=
            stacked_of_private hFits hStacked
              Store.private_rollback (calm_rollback hCalm)
          rw [length_rollback, hLength] at hAfter
          have hDeep := hNests.1
          exact
            ⟨hAfter.1,
              ih r (hNests.2 r) (by omega) hAfter.2⟩

end Regime

end Relational
