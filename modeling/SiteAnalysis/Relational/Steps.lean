import SiteAnalysis.Relational.Regime

/-
  This file proves what one move of a verified world does to
  the committed data.

  A part of the data that neither the answers of outside
  parties nor statements outside a transaction touch is only
  changed by the commit of an outermost transaction.

  Key definitions include:
    * `Regime.Publishes`

  Key theorems include:
    * `Regime.committed_of_answered`
    * `Regime.Verified.keeps_of_reaches`
    * `Regime.Verified.before_step`
    * `Regime.Verified.publishes_of_moves`
    * `Regime.Verified.publishes_of_noted`
-/

------------------------------------------------------------
-- Operations
------------------------------------------------------------

namespace Relational

open Concurrency

namespace Regime

variable {δ κ φ Ω N Q₀ : Type} {A : Q₀ → Type}
variable {ρ ε α X : Type} {B : Backend δ κ Q₀ A ρ ε}
variable [DecidableEq κ]
variable {R : Regime B α φ Ω N}

/-
  What a query makes of the committed data: nothing, what a
  party outside the database makes of it, or its own change
  if no transaction is open.
-/
theorem committed_of_answered
    {t : Tid}
    {q : Q₀}
    {c : Choice ε ρ}
    {s s' : Store δ κ}
    {r : Except ε (A q)}
    (hAnswered : B.Answered t q s c r s') :
    (s'.committed = s.committed ∧
        ((∃ e, r = .error e) ∨
          ∃ d a lock f, B.plan q d = .done a lock f ∧
            r = .ok a)) ∨
      (∃ x a, B.reply q x s.committed =
          some (a, s'.committed) ∧ r = .ok a) ∨
        ∃ a lock f, s.frames t = [] ∧
          B.plan q s.committed = .done a lock f ∧
            s'.committed = f s.committed ∧ r = .ok a := by
  by_cases hFrames : s.frames t = []
  · have hView : s.view t = s.committed := by
      simp [Store.view, hFrames]
    have hAcquire : ∀ k, s.acquire t k = s := by
      intro k
      simp [Store.acquire, hFrames]
    have hWrite :
        ∀ f : δ → δ,
          (s.write t f).committed = f s.committed := by
      intro f
      simp [Store.write, hFrames]
    cases hAnswered with
    | fault e =>
        exact
          Or.inl
            ⟨Store.private_fail.committed, Or.inl ⟨e, rfl⟩⟩
    | refuse e hPlan =>
        exact
          Or.inl
            ⟨Store.private_fail.committed, Or.inl ⟨e, rfl⟩⟩
    | aborted hBroken =>
        exact Or.inl ⟨rfl, Or.inl ⟨_, rfl⟩⟩
    | miss e hPlan => exact Or.inl ⟨rfl, Or.inl ⟨e, rfl⟩⟩
    | reply x a d hReply =>
        exact Or.inr (Or.inl ⟨x, a, hReply, rfl⟩)
    | done a f hPlan =>
        rw [hView] at hPlan
        exact
          Or.inr
            (Or.inr
              ⟨a, none, f, hFrames, hPlan, hWrite f, rfl⟩)
    | locked a k f hPlan hFree =>
        rw [hView] at hPlan
        rw [hAcquire]
        exact
          Or.inr
            (Or.inr
              ⟨a, some k, f, hFrames, hPlan, hWrite f, rfl⟩)
  · cases hAnswered with
    | fault e =>
        exact
          Or.inl
            ⟨Store.private_fail.committed, Or.inl ⟨e, rfl⟩⟩
    | refuse e hPlan =>
        exact
          Or.inl
            ⟨Store.private_fail.committed, Or.inl ⟨e, rfl⟩⟩
    | aborted hBroken =>
        exact Or.inl ⟨rfl, Or.inl ⟨_, rfl⟩⟩
    | miss e hPlan => exact Or.inl ⟨rfl, Or.inl ⟨e, rfl⟩⟩
    | reply x a d hReply =>
        exact Or.inr (Or.inl ⟨x, a, hReply, rfl⟩)
    | done a f hPlan =>
        exact
          Or.inl
            ⟨(Store.private_write hFrames).committed,
              Or.inr ⟨_, a, none, f, hPlan, rfl⟩⟩
    | locked a k f hPlan hFree =>
        have hOpen : (s.acquire t k).frames t ≠ [] := by
          unfold Store.acquire
          split
          · exact hFrames
          · split <;> simp [Store.setFrames, hFrames]
        have hSame :
            ((s.acquire t k).write t f).committed =
              s.committed :=
          (Store.private_write hOpen).committed.trans
            (Store.private_acquire hFree).committed
        exact
          Or.inl
            ⟨hSame, Or.inr ⟨_, a, some k, f, hPlan, rfl⟩⟩

section Publications

variable {π : δ → X} {P : N → Prop} {t : Tid}
variable {s s' : Store δ κ} {l : Local δ κ φ Ω N}
variable {c : Choice ε ρ}

/-
  An operation leaves the part of the data and the predicate
  on the note as they were, or it commits the outermost
  transaction.
-/
theorem publishes_of_exec
    {o : TxOp Q₀}
    {r : Except ε (TxOp.Res A o)}
    (hReply :
      ∀ q x d a d', B.reply q x d = some (a, d') →
        π d' = π d)
    (hAuto :
      ∀ q, o = .query q → l.session.frames = [] →
        ∀ d a lock f, B.plan q d = .done a lock f →
          π (f d) = π d)
    (hNote :
      ∀ t q a d n, P (R.note t q a d n) → P n)
    (hError : ∀ q n, P (R.noteError q n) → P n)
    (hFrames : l.session.frames = s.frames t)
    (hExec : B.machine.exec t o c s = some (r, s')) :
    (π s'.committed = π s.committed ∧
        (P (R.noteAfter t s s'.committed l.note o r) →
          P l.note)) ∨
      o = .commit ∧
        R.noteAfter t s s'.committed l.note o r =
            R.noteCommit t s'.committed l.note ∧
          ∃ fr, l.session.frames = [fr] ∧
            s'.committed = fr.pending s.committed := by
  have hStays :
      ∀ {s₁ : Store δ κ},
        s₁.committed = s.committed →
          π s₁.committed = π s.committed :=
    fun hSame => congrArg π hSame
  cases o with
  | begin =>
      left
      cases c with
      | reply x => cases hExec
      | fault e =>
          cases hExec
          exact ⟨rfl, id⟩
      | proceed =>
          cases hExec
          exact ⟨hStays Store.private_begin.committed, id⟩
  | rollback =>
      left
      cases c with
      | reply x => cases hExec
      | fault e =>
          cases hExec
          exact
            ⟨hStays Store.private_rollback.committed, id⟩
      | proceed =>
          cases hExec
          exact
            ⟨hStays Store.private_rollback.committed, id⟩
  | query q =>
      left
      have hNoted :
          P (R.noteQuery t q s'.committed l.note r) →
            P l.note := by
        cases r with
        | ok a => exact hNote t q a _ l.note
        | error e => exact hError q l.note
      refine ⟨?_, hNoted⟩
      rcases
        committed_of_answered
          (Backend.answered_of_exec hExec) with
        ⟨hSame, _⟩ | ⟨x, a, hAnswer, _⟩ |
          ⟨a, lock, f, hNone, hPlan, hSame, _⟩
      · exact hStays hSame
      · exact hReply q x _ a _ hAnswer
      · rw [hSame]
        exact
          hAuto q rfl (hFrames.trans hNone) _ a lock f hPlan
  | commit =>
      cases c with
      | reply x => cases hExec
      | fault e =>
          cases hExec
          exact
            Or.inl
              ⟨hStays Store.private_rollback.committed, id⟩
      | proceed =>
          simp only [Backend.machine, Store.commit] at hExec
          split at hExec
          · rename_i hNone
            cases hExec
            left
            refine ⟨rfl, ?_⟩
            simp [noteAfter, noteCommitted, hNone]
          · rename_i fr hOne
            split at hExec
            · cases hExec
              exact
                Or.inl
                  ⟨hStays Store.private_rollback.committed,
                    id⟩
            · cases hExec
              right
              refine
                ⟨rfl, ?_, fr, hFrames.trans hOne, rfl⟩
              simp [noteAfter, noteCommitted, hOne]
          · rename_i fr outer rest hMany
            split at hExec
            · cases hExec
              exact
                Or.inl
                  ⟨hStays Store.private_rollback.committed,
                    id⟩
            · cases hExec
              left
              refine ⟨rfl, ?_⟩
              simp [noteAfter, noteCommitted, hMany]

end Publications

------------------------------------------------------------
-- Moves
------------------------------------------------------------

variable {w v v₁ v₂ : World (Store δ κ) (TxOp Q₀)
  (TxOp.Res A) ε α}
variable {d : δ} {ns : Tid → N}
variable {Qs : Tid → α → Local δ κ φ Ω N → Prop}
variable {Es : Tid → ε → Local δ κ φ Ω N → Prop}
variable {ls : Tid → Local δ κ φ Ω N}

/-
  What holds of the world and of sound annotations, and is
  kept by every move between sound annotations, holds later
  in the run.
-/
theorem Verified.keeps_of_reaches
    {I :
      World (Store δ κ) (TxOp Q₀) (TxOp.Res A) ε α ×
        (Tid → Local δ κ φ Ω N) → Prop}
    (hVerified : R.Verified Qs Es d ns w)
    (hMove :
      ∀ x y,
        R.discipline.Sound Qs Es x.1 x.2 →
          R.discipline.Sound Qs Es y.1 y.2 →
            R.discipline.Moves x y → I x → I y)
    (hSound : R.discipline.Sound Qs Es v₁ ls)
    (hStart : I (v₁, ls))
    (hReach : B.machine.Reaches R.ok v₁ v₂) :
    ∃ ls', R.discipline.Sound Qs Es v₂ ls' ∧ I (v₂, ls') := by
  induction hReach with
  | refl => exact ⟨ls, hSound, hStart⟩
  | tail _ hStep ih =>
      rcases ih with ⟨lsMid, hMid, hHolds⟩
      rcases hStep with ⟨e, hOk, hNext⟩
      have hSteps :
          ∃ ls', R.discipline.Moves (_, lsMid) (_, ls') :=
        Discipline.moves_of_next lsMid hOk hNext
      rcases hSteps with ⟨ls', hMoves⟩
      have hSound' :=
        Discipline.sound_of_moves hVerified.final
          hVerified.losable hMid hMoves
      exact
        ⟨ls', hSound', hMove _ _ hMid hSound' hMoves hHolds⟩

/- What is known when a thread takes a step. -/
theorem Verified.before_step
    {t : Tid}
    {o : TxOp Q₀}
    {k :
      Except ε (TxOp.Res A o) →
        Prog (TxOp Q₀) (TxOp.Res A) ε α}
    (hVerified : R.Verified Qs Es d ns w)
    (hSound : R.discipline.Sound Qs Es v₁ ls)
    (hThread : v₁.threads t = .live (.call o k)) :
    R.shape (ls t) (some o) ∧
      (ls t).session = v₁.shared.session R.frag t := by
  have hHolds := hSound.holds hVerified.final
  have hShape := hHolds.2 t
  rw [hThread] at hShape
  exact ⟨hShape, (hHolds.1.2 t).1⟩

/- The move commits the transaction of the connection. -/
structure Publishes
    (R : Regime B α φ Ω N)
    (t : Tid)
    (x y :
      World (Store δ κ) (TxOp Q₀) (TxOp.Res A) ε α ×
        (Tid → Local δ κ φ Ω N)) : Prop where
  shape : R.shape (x.2 t) (some .commit)
  session :
    (x.2 t).session = x.1.shared.session R.frag t
  own : (x.2 t).own = R.own t x.1.shared.committed
  frame :
    ∃ fr, (x.2 t).session.frames = [fr] ∧
      y.1.shared.committed =
        fr.pending x.1.shared.committed
  note :
    (y.2 t).note =
      R.noteCommit t y.1.shared.committed (x.2 t).note
  live : ∃ p, y.1.threads t = .live p

/-
  A move concerns one connection.  It leaves the part of the
  data and the predicate on the notes as they were, or it
  commits the transaction.
-/
theorem Verified.publishes_of_moves
    {π : δ → X}
    {P : N → Prop}
    {x y :
      World (Store δ κ) (TxOp Q₀) (TxOp.Res A) ε α ×
        (Tid → Local δ κ φ Ω N)}
    (hVerified : R.Verified Qs Es d ns w)
    (hReply :
      ∀ q x d a d', B.reply q x d = some (a, d') →
        π d' = π d)
    (hAuto :
      ∀ l q, R.shape l (some (.query q)) →
        l.session.frames = [] → ∀ d a lock f,
          B.plan q d = .done a lock f → π (f d) = π d)
    (hNote :
      ∀ t q a d n, P (R.note t q a d n) → P n)
    (hError : ∀ q n, P (R.noteError q n) → P n)
    (hLost : ∀ n, P (R.noteLost n) → P n)
    (hSound : R.discipline.Sound Qs Es x.1 x.2)
    (hMoves : R.discipline.Moves x y) :
    ∃ t, (∀ t', t' ≠ t → y.2 t' = x.2 t' ∧
          y.1.threads t' = x.1.threads t') ∧
        x.1.Live t ∧
          ((π y.1.shared.committed =
                π x.1.shared.committed ∧
              (P (y.2 t).note → P (x.2 t).note)) ∨
            R.Publishes t x y) := by
  cases hMoves with
  | @step v₁ ls t c o k r s hThread hOk hExec =>
      have hBefore := hVerified.before_step hSound hThread
      have hOwn := (hSound.holds hVerified.final).1.2 t
      refine ⟨t, ?_, ?_, ?_⟩
      · intro t' hNe
        exact
          ⟨Function.update_of_ne hNe _ _,
            World.put_threads_of_ne _ _ _ hNe⟩
      · simp [World.Live, hThread]
      · have hSelf :
            (Function.update ls t
                (R.discipline.next t o r v₁.shared s (ls t))
                t).note =
              R.noteAfter t v₁.shared s.committed
                (ls t).note o r := by
          rw [Function.update_self]
          rfl
        have hExact :=
          publishes_of_exec (π := π) (P := P) hReply
            (fun q hQuery hNone =>
              hAuto (ls t) q (hQuery ▸ hBefore.1) hNone)
            hNote hError (congrArg Session.frames hBefore.2)
            hExec
        rcases hExact with
          ⟨hSame, hNoted⟩ | ⟨hCommit, hNoted, hFrame⟩
        · left
          refine ⟨hSame, ?_⟩
          dsimp only
          rw [hSelf]
          exact hNoted
        · right
          refine ⟨?_, hBefore.2, hOwn.2, hFrame, ?_, ?_⟩
          · rw [← hCommit]
            exact hBefore.1
          · dsimp only
            rw [hSelf]
            exact hNoted
          · exact ⟨_, World.put_threads_self _ _ _ _⟩
  | @lose v₁ ls t o k hThread hOk =>
      refine ⟨t, ?_, ?_, Or.inl ⟨?_, ?_⟩⟩
      · intro t' hNe
        exact
          ⟨Function.update_of_ne hNe _ _,
            World.put_threads_of_ne _ _ _ hNe⟩
      · simp [World.Live, hThread]
      · exact congrArg π Store.private_abandon.committed
      · intro hAfter
        apply hLost
        dsimp only at hAfter
        rw [Function.update_self] at hAfter
        exact hAfter

/-
  A predicate on the notes that no query and no failure makes
  true: it is the commit of the outermost transaction that
  does.
-/
theorem Verified.publishes_of_noted
    {P : N → Prop}
    {t : Tid}
    {x y :
      World (Store δ κ) (TxOp Q₀) (TxOp.Res A) ε α ×
        (Tid → Local δ κ φ Ω N)}
    (hVerified : R.Verified Qs Es d ns w)
    (hNote :
      ∀ t q a d n, P (R.note t q a d n) → P n)
    (hError : ∀ q n, P (R.noteError q n) → P n)
    (hLost : ∀ n, P (R.noteLost n) → P n)
    (hSound : R.discipline.Sound Qs Es x.1 x.2)
    (hMoves : R.discipline.Moves x y)
    (hBefore : ¬ P (x.2 t).note)
    (hAfter : P (y.2 t).note) :
    R.Publishes t x y := by
  rcases
    hVerified.publishes_of_moves (π := fun _ => ())
      (fun _ _ _ _ _ _ => rfl)
      (fun _ _ _ _ _ _ _ _ _ => rfl) hNote hError hLost
      hSound hMoves with
    ⟨t', hOthers, _, hCase⟩
  have hSame : t = t' := by
    by_contra hNe
    rw [(hOthers t hNe).1] at hAfter
    exact hBefore hAfter
  subst hSame
  rcases hCase with ⟨_, hNoted⟩ | hPublishes
  · exact absurd (hNoted hAfter) hBefore
  · exact hPublishes

end Regime

end Relational
