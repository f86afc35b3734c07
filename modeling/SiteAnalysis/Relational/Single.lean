import SiteAnalysis.Relational.Serial

/-
  This file defines the proof rules for a program of single
  statements.

  The program opens no transaction, so that each statement is
  committed at once.  For a program that runs alone, what may
  happen to a statement, and where the connection may be
  lost, is a condition on the statement and the data before
  it; among other programs, each statement keeps what is
  known and noted of its connection.

  Key definitions include:
    * `Terms`
    * `Terms.ok`
    * `Terms.Leaves`
    * `Regime.Minds`

  Key theorems include:
    * `Terms.leaves_mono`
    * `Terms.leaves_handle`
    * `Terms.leaves_embed_handle`
    * `Terms.leaves_execute`
    * `Terms.left_of_reaches`
    * `Regime.wp_heeds`
-/

------------------------------------------------------------
-- Terms
------------------------------------------------------------

namespace Relational

open Concurrency

/-
  What may be chosen at a statement, and whether the
  connection may be lost before it.
-/
structure Terms
    {δ κ Q : Type}
    {A : Q → Type}
    {ρ ε : Type}
    (B : Backend δ κ Q A ρ ε) where
  step : Q → Choice ε ρ → δ → Prop
  lose : Q → δ → Prop

namespace Terms

variable {δ κ Q₀ : Type} {A : Q₀ → Type} {ρ ε α β : Type}
variable {B : Backend δ κ Q₀ A ρ ε}

/- The events of a run on these terms. -/
def ok
    (T : Terms B)
    (w : World (Store δ κ) (TxOp Q₀) (TxOp.Res A) ε α) :
    Event (Choice ε ρ) → Prop
| .step t c =>
    ∀ q, (w.threads t).head = some (.query q) →
      T.step q c w.shared.committed
| .lose t =>
    ∀ q, (w.threads t).head = some (.query q) →
      T.lose q w.shared.committed

/- What holds after a statement on the data. -/
def Settles
    (Q : α → δ → Prop)
    (E : ε → δ → Prop)
    (d : δ) : Verdict δ κ ε α → Prop
| .refuse e => E e d
| .miss e => E e d
| .done a _ change => Q a (change d)
| .outside => True

/-
  On these terms the program opens no transaction, its return
  establishes `Q`, its raise establishes `E`, and the loss of
  its connection leaves data of which `L` holds.
-/
def Leaves
    (T : Terms B)
    (L : δ → Prop) :
    Prog (TxOp Q₀) (TxOp.Res A) ε β → (β → δ → Prop) →
      (ε → δ → Prop) → δ → Prop
| .ret b, Q, _, d => Q b d
| .raise e, _, E, d => E e d
| .call (.query q) k, Q, E, d =>
    (T.lose q d → L d) ∧
      (∀ e, T.step q (.fault e) d →
        Leaves T L (k (.error e)) Q E d) ∧
      (∀ x a d', T.step q (.reply x) d →
        B.reply q x d = some (a, d') →
          Leaves T L (k (.ok a)) Q E d') ∧
      (T.step q .proceed d →
        Settles
          (fun a d' => Leaves T L (k (.ok a)) Q E d')
          (fun e d' => Leaves T L (k (.error e)) Q E d')
          d (B.plan q d))
| .call _ _, _, _, _ => False

variable {T : Terms B} {L : δ → Prop} {d : δ}

------------------------------------------------------------
-- Rules
------------------------------------------------------------

/- A verdict after which more is known. -/
theorem Settles.mono
    {Q Q' : α → δ → Prop}
    {E E' : ε → δ → Prop}
    {v : Verdict δ κ ε α}
    (hSettles : Settles Q E d v)
    (hRet : ∀ a d, Q a d → Q' a d)
    (hRaise : ∀ e d, E e d → E' e d) :
    Settles Q' E' d v := by
  cases v with
  | refuse e => exact hRaise e d hSettles
  | miss e => exact hRaise e d hSettles
  | done a lock change => exact hRet a _ hSettles
  | outside => trivial

/- Postconditions can be weakened. -/
theorem leaves_mono
    {p : Prog (TxOp Q₀) (TxOp.Res A) ε β}
    {Q Q' : β → δ → Prop}
    {E E' : ε → δ → Prop}
    (hLeaves : T.Leaves L p Q E d)
    (hRet : ∀ b d, Q b d → Q' b d)
    (hRaise : ∀ e d, E e d → E' e d) :
    T.Leaves L p Q' E' d := by
  induction p generalizing d with
  | ret b => exact hRet b d hLeaves
  | raise e => exact hRaise e d hLeaves
  | call o k ih =>
      cases o with
      | query q =>
          rcases hLeaves with ⟨hLose, hFault, hReply, hPlan⟩
          refine ⟨hLose, ?_, ?_, ?_⟩
          · intro e hStep
            exact ih (.error e) (hFault e hStep)
          · intro x a d' hStep hAnswer
            exact ih (.ok a) (hReply x a d' hStep hAnswer)
          · intro hStep
            apply (hPlan hStep).mono
            · intro a d' hRest
              exact ih (.ok a) hRest
            · intro e d' hRest
              exact ih (.error e) hRest
      | begin => exact hLeaves.elim
      | commit => exact hLeaves.elim
      | rollback => exact hLeaves.elim

/- A continued program is verified part by part. -/
theorem leaves_handle
    {γ : Type}
    {p : Prog (TxOp Q₀) (TxOp.Res A) ε γ}
    {f : γ → Prog (TxOp Q₀) (TxOp.Res A) ε β}
    {h : ε → Prog (TxOp Q₀) (TxOp.Res A) ε β}
    {Q : β → δ → Prop}
    {E : ε → δ → Prop}
    (hLeaves :
      T.Leaves L p (fun c d => T.Leaves L (f c) Q E d)
        (fun e d => T.Leaves L (h e) Q E d) d) :
    T.Leaves L (p.handle f h) Q E d := by
  induction p generalizing d with
  | ret c => exact hLeaves
  | raise e => exact hLeaves
  | call o k ih =>
      cases o with
      | query q =>
          rcases hLeaves with ⟨hLose, hFault, hReply, hPlan⟩
          refine ⟨hLose, ?_, ?_, ?_⟩
          · intro e hStep
            exact ih (.error e) (hFault e hStep)
          · intro x a d' hStep hAnswer
            exact ih (.ok a) (hReply x a d' hStep hAnswer)
          · intro hStep
            apply (hPlan hStep).mono
            · intro a d' hRest
              exact ih (.ok a) hRest
            · intro e d' hRest
              exact ih (.error e) hRest
      | begin => exact hLeaves.elim
      | commit => exact hLeaves.elim
      | rollback => exact hLeaves.elim

/- The rule of sequential composition. -/
theorem leaves_bind
    {γ : Type}
    {p : Prog (TxOp Q₀) (TxOp.Res A) ε γ}
    {f : γ → Prog (TxOp Q₀) (TxOp.Res A) ε β}
    {Q : β → δ → Prop}
    {E : ε → δ → Prop}
    (hLeaves :
      T.Leaves L p (fun c d => T.Leaves L (f c) Q E d) E
        d) :
    T.Leaves L (p.bind f) Q E d :=
  leaves_handle hLeaves

/- The rule of a continued program over more statements. -/
theorem leaves_embed_handle
    {γ : Type}
    {Op : Type}
    {Res : Op → Type}
    {up : Op → TxOp Q₀}
    {down : ∀ o, TxOp.Res A (up o) → Res o}
    {p : Prog Op Res ε γ}
    {f : γ → Prog Op Res ε β}
    {h : ε → Prog Op Res ε β}
    {Q : β → δ → Prop}
    {E : ε → δ → Prop}
    (hLeaves :
      T.Leaves L (p.embed up down)
        (fun c d => T.Leaves L ((f c).embed up down) Q E d)
        (fun e d => T.Leaves L ((h e).embed up down) Q E d)
        d) :
    T.Leaves L ((p.handle f h).embed up down) Q E d := by
  rw [Prog.embed_handle]
  exact leaves_handle hLeaves

/- The rule of sequential composition over more statements. -/
theorem leaves_embed_bind
    {γ : Type}
    {Op : Type}
    {Res : Op → Type}
    {up : Op → TxOp Q₀}
    {down : ∀ o, TxOp.Res A (up o) → Res o}
    {p : Prog Op Res ε γ}
    {f : γ → Prog Op Res ε β}
    {Q : β → δ → Prop}
    {E : ε → δ → Prop}
    (hLeaves :
      T.Leaves L (p.embed up down)
        (fun c d => T.Leaves L ((f c).embed up down) Q E d)
        E d) :
    T.Leaves L ((p.bind f).embed up down) Q E d :=
  leaves_embed_handle hLeaves

/- The rule of one statement. -/
theorem leaves_execute
    {q : Q₀}
    {Q : A q → δ → Prop}
    {E : ε → δ → Prop}
    (hLose : T.lose q d → L d)
    (hFault : ∀ e, T.step q (.fault e) d → E e d)
    (hReply :
      ∀ x a d', T.step q (.reply x) d →
        B.reply q x d = some (a, d') → Q a d')
    (hPlan :
      T.step q .proceed d → Settles Q E d (B.plan q d)) :
    T.Leaves L (execute q) Q E d :=
  ⟨hLose, hFault, hReply, hPlan⟩

/- A result that is known in advance. -/
theorem leaves_ofExcept
    {r : Except ε β}
    {Q : β → δ → Prop}
    {E : ε → δ → Prop}
    (hOk : ∀ b, r = .ok b → Q b d)
    (hError : ∀ e, r = .error e → E e d) :
    T.Leaves L (Prog.ofExcept r) Q E d := by
  cases r with
  | ok b => exact hOk b rfl
  | error e => exact hError e rfl

------------------------------------------------------------
-- Runs
------------------------------------------------------------

section Runs

variable [DecidableEq κ]
variable {p : Prog (TxOp Q₀) (TxOp.Res A) ε α}
variable {w : World (Store δ κ) (TxOp Q₀) (TxOp.Res A) ε α}

/- One statement of the program that runs alone. -/
theorem leaves_step
    {t : Tid}
    {q : Q₀}
    {c : Choice ε ρ}
    {k : Except ε (A q) → Prog (TxOp Q₀) (TxOp.Res A) ε β}
    {Q : β → δ → Prop}
    {E : ε → δ → Prop}
    {r : Except ε (A q)}
    {s s' : Store δ κ}
    (hFrames : s.frames = fun _ => [])
    (hLeaves :
      T.Leaves L (.call (.query q) k) Q E s.committed)
    (hStep : T.step q c s.committed)
    (hExec :
      B.machine.exec t (.query q) c s = some (r, s')) :
    (s'.frames = fun _ => []) ∧
      T.Leaves L (k r) Q E s'.committed := by
  rcases hLeaves with ⟨_, hFault, hReply, hPlan⟩
  have hView : s.view t = s.committed := by
    simp [Store.view, hFrames]
  have hFail : s.fail t = s := by
    simp [Store.fail, hFrames]
  have hWrite :
      ∀ (v : Store δ κ) f, v.frames = (fun _ => []) →
        v.committed = s.committed →
          ((v.write t f).frames = fun _ => []) ∧
            (v.write t f).committed = f s.committed := by
    intro v f hEmpty hSame
    simp [Store.write, hEmpty, hSame]
  cases Backend.answered_of_exec hExec with
  | fault e =>
      rw [hFail]
      exact ⟨hFrames, hFault e hStep⟩
  | aborted hBroken =>
      simp [Store.broken, hFrames] at hBroken
  | refuse e hCase =>
      rw [hView] at hCase
      rw [hFail]
      have hRest := hPlan hStep
      rw [hCase] at hRest
      exact ⟨hFrames, hRest⟩
  | miss e hCase =>
      rw [hView] at hCase
      have hRest := hPlan hStep
      rw [hCase] at hRest
      exact ⟨hFrames, hRest⟩
  | reply x a d' hAnswer =>
      exact ⟨hFrames, hReply x a d' hStep hAnswer⟩
  | done a f hCase =>
      rw [hView] at hCase
      have hRest := hPlan hStep
      rw [hCase] at hRest
      have hAfter := hWrite s f hFrames rfl
      rw [hAfter.2]
      exact ⟨hAfter.1, hRest⟩
  | locked a lock f hCase hFree =>
      rw [hView] at hCase
      have hRest := hPlan hStep
      rw [hCase] at hRest
      have hAcquire : s.acquire t lock = s := by
        simp [Store.acquire, hFrames]
      rw [hAcquire]
      have hAfter := hWrite s f hFrames rfl
      rw [hAfter.2]
      exact ⟨hAfter.1, hRest⟩

omit [DecidableEq κ] in
/- The other threads have still ended. -/
theorem alone_put
    {s : Store δ κ}
    {thread : Thread (TxOp Q₀) (TxOp.Res A) ε α}
    (hAlone : ∀ t, w.Live t → t = 0) :
    ∀ t, (w.put s 0 thread).Live t → t = 0 := by
  intro t hLive
  by_contra hNe
  apply hNe
  apply hAlone
  rw [World.Live, World.put_threads_of_ne _ _ _ hNe] at hLive
  exact hLive

omit [DecidableEq κ] in
/- The loss of a connection leaves no frame open. -/
theorem frames_abandon
    {t : Tid}
    {s : Store δ κ}
    (hFrames : s.frames = fun _ => []) :
    (s.abandon t).frames = fun _ => [] := by
  funext t'
  by_cases hSame : t' = t
  · simp [Store.abandon, Store.setFrames, hSame]
  · simp [Store.abandon, Store.setFrames, Store.release,
      hFrames]

/- What the run of the program leaves when it is over. -/
theorem left_of_reaches
    (hLeaves :
      T.Leaves L p (fun _ => L) (fun _ => L) d)
    (hReach :
      B.machine.Reaches T.ok (B.soleWorld p d) w)
    (hOver : ¬ w.Live 0) :
    L w.shared.committed := by
  have hKept :
      (w.shared.frames = fun _ => []) ∧
        (∀ t, w.Live t → t = 0) ∧
          (∀ p', w.threads 0 = .live p' →
            T.Leaves L p' (fun _ => L) (fun _ => L)
              w.shared.committed) ∧
            (w.threads 0 = .lost → L w.shared.committed) := by
    apply hReach.invariant
      (P := fun w =>
        (w.shared.frames = fun _ => []) ∧
          (∀ t, w.Live t → t = 0) ∧
            (∀ p', w.threads 0 = .live p' →
              T.Leaves L p' (fun _ => L) (fun _ => L)
                w.shared.committed) ∧
              (w.threads 0 = .lost → L w.shared.committed))
    · refine ⟨rfl, ?_, ?_, (fun hLost => by cases hLost)⟩
      · intro t hLive
        by_contra hNe
        simp [World.Live, Backend.soleWorld, hNe] at hLive
      · intro p' hThread
        cases hThread
        exact hLeaves
    · rintro v e v' ⟨hFrames, hAlone, hRest, _⟩ hOk hNext
      cases e with
      | step t c =>
          rcases Machine.next_step_inv hNext with
            ⟨o, k, r, s, hThread, hExec, rfl⟩
          have hZero : t = 0 := by
            apply hAlone
            simp [World.Live, hThread]
          subst hZero
          have hCall := hRest _ hThread
          cases o with
          | query q =>
              have hStep :=
                leaves_step hFrames hCall
                  (hOk q (by rw [hThread]; rfl)) hExec
              refine ⟨hStep.1, alone_put hAlone, ?_, ?_⟩
              · intro p' hLive
                rw [World.put_threads_self] at hLive
                cases hLive
                exact hStep.2
              · intro hLost
                rw [World.put_threads_self] at hLost
                cases hLost
          | begin => exact hCall.elim
          | commit => exact hCall.elim
          | rollback => exact hCall.elim
      | lose t =>
          rcases Machine.next_lose_inv hNext with
            ⟨o, k, hThread, rfl⟩
          have hZero : t = 0 := by
            apply hAlone
            simp [World.Live, hThread]
          subst hZero
          have hCall := hRest _ hThread
          cases o with
          | query q =>
              have hLose :=
                hCall.1 (hOk q (by rw [hThread]; rfl))
              refine
                ⟨frames_abandon hFrames, alone_put hAlone,
                  ?_, ?_⟩
              · intro p' hLive
                rw [World.put_threads_self] at hLive
                cases hLive
              · intro _
                exact hLose
          | begin => exact hCall.elim
          | commit => exact hCall.elim
          | rollback => exact hCall.elim
  rcases hKept with ⟨_, _, hRest, hLost⟩
  cases hThread : w.threads 0 with
  | lost => exact hLost hThread
  | live p' =>
      have hEnd := hRest p' hThread
      cases p' with
      | ret a => exact hEnd
      | raise e => exact hEnd
      | call o k =>
          exact
            absurd (by simp [World.Live, hThread]) hOver

end Runs

end Terms

------------------------------------------------------------
-- Regimes
------------------------------------------------------------

namespace Regime

variable {δ κ φ Ω N Q₀ : Type} {A : Q₀ → Type}
variable {ρ ε α β : Type} {B : Backend δ κ Q₀ A ρ ε}
variable {R : Regime B α φ Ω N} {t : Tid} {o : Ω} {n : N}
variable [DecidableEq κ]

/-
  A query after which the same is noted and known, and that
  is to be trusted if what it publishes keeps the invariant.
-/
structure Minds
    (R : Regime B α φ Ω N)
    (t : Tid)
    (o : Ω)
    (n : N)
    (trusted :
      (x : TxOp Q₀) → TxOp.Res A x → Prop)
    (q : Q₀) : Prop where
  shape : ∀ l, Resting o n l → R.shape l (some (.query q))
  note : ∀ a d, R.note t q a d n = n
  noteError : R.noteError q n = n
  own : ∀ d, R.own t d = o
  reply :
    ∀ d ns live, R.Rests t o n d ns live →
      ∀ x a d', R.Permits t (.query q) (.reply x) d ns live →
        B.reply q x d = some (a, d') →
          R.Publishable t ns live (fun _ => False) d d' n ∧
            trusted (.query q) a
  plan :
    ∀ d ns live, R.Rests t o n d ns live →
      R.Permits t (.query q) .proceed d ns live →
        ∀ a lock f, B.plan q d = .done a lock f →
          R.Publishable t ns live (fun k => lock = some k) d
              (f d) n ∧
            trusted (.query q) a

/- A program that heeds what such queries return. -/
theorem wp_heeds
    {allowed : TxOp Q₀ → Prop}
    {trusted : (x : TxOp Q₀) → TxOp.Res A x → Prop}
    {post : β → Prop}
    {p : Prog (TxOp Q₀) (TxOp.Res A) ε β}
    {l : Local δ κ φ Ω N}
    (hMinds :
      ∀ x, allowed x →
        ∃ q, x = .query q ∧ R.Minds t o n trusted q)
    (hHeeds : p.Heeds allowed trusted post)
    (hRest : Resting o n l) :
    R.wp t p (fun _ => Resting o n) (fun _ => Resting o n)
      l := by
  induction p generalizing l with
  | ret b => exact hRest
  | raise e => exact hRest
  | call x k ih =>
      rcases hMinds x hHeeds.1 with ⟨q, rfl, hQuery⟩
      have hError :
          ∀ (e : ε) l', Resting o (R.noteError q n) l' →
            R.wp t (k (.error e)) (fun _ => Resting o n)
              (fun _ => Resting o n) l' := by
        intro e l' hRest'
        rw [hQuery.noteError] at hRest'
        apply ih (.error e) _ hRest'
        exact hHeeds.2 _ (fun a hSame => by cases hSame)
      have hOk :
          ∀ (a : A q) d l',
            Resting (R.own t d) (R.note t q a d n) l' →
              trusted (.query q) a →
                R.wp t (k (.ok a)) (fun _ => Resting o n)
                  (fun _ => Resting o n) l' := by
        intro a d l' hRest' hTrusted
        rw [hQuery.own, hQuery.note] at hRest'
        apply ih (.ok a) _ hRest'
        apply hHeeds.2
        intro a' hSame
        cases hSame
        exact hTrusted
      have hExecute :
          R.wp t
            ((execute q).handle (fun a => k (.ok a))
              (fun e => k (.error e)))
            (fun _ => Resting o n) (fun _ => Resting o n)
            l := by
        apply Discipline.wp_handle
        apply wp_execute_rest (hQuery.shape l hRest) hRest
        · intro e l' hRest' _
          exact hError e l' hRest'
        · intro d ns live hRests x a d' hPermits hReply
          have hAfter :=
            hQuery.reply d ns live hRests x a d' hPermits
              hReply
          rw [hQuery.note]
          refine ⟨hAfter.1, ?_⟩
          intro l' hRest'
          apply hOk a d' l' _ hAfter.2
          rw [hQuery.note]
          exact hRest'
        · intro d ns live hRests hPermits
          cases hCase : B.plan q d with
          | refuse e => trivial
          | outside => trivial
          | miss e => exact hError e
          | done a lock f =>
              have hAfter :=
                hQuery.plan d ns live hRests hPermits a lock f
                  hCase
              simp only [RestWp]
              rw [hQuery.note]
              refine ⟨hAfter.1, ?_⟩
              intro l' hRest'
              apply hOk a (f d) l' _ hAfter.2
              rw [hQuery.note]
              exact hRest'
      have hSame :
          ((execute q).handle (fun a => k (.ok a))
            (fun e => k (.error e)) :
              Prog (TxOp Q₀) (TxOp.Res A) ε β) =
            .call (.query q) k := by
        simp only [execute, Prog.perform, Prog.handle]
        congr 1
        funext r
        cases r with
        | ok a => rfl
        | error e => rfl
      rw [hSame] at hExecute
      exact hExecute

end Regime

end Relational
